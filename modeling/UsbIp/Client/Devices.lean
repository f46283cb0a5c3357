import UsbIp.Client.Session
import UsbIp.Foundation.Readers
import UsbIp.Protocol.Replies

/-!
# Listing and importing devices

What is exchanged before a session starts: the list of exported devices, and how
one of them is imported.  The readers take their bytes off the front of the
stream.  Strings lie in fields of a fixed size, padded with zeros, so that a
string as long as its field has no zero behind it.
-/

namespace UsbIp
namespace Client

open Foundation
open Protocol

/-!
# Strings
-/

/-- What the standard library does with texts. -/
structure Text where
  /-- `String::from_utf8_lossy`. -/
  fromUtf8Lossy : Bytes -> String
  /-- The debug format of a string. -/
  debug : String -> String

def utf8 (s : String) : Bytes :=
  s.toByteArray.data.toList

/-- What is valid UTF-8 is not changed. -/
def Text.Lossless (text : Text) : Prop :=
  forall s, text.fromUtf8Lossy (utf8 s) = s

def cString (text : Text) (bytes : Bytes) : String :=
  -- The length of the bytes if there is no zero.
  let stop := bytes.findIdx (fun b => b == 0)
  text.fromUtf8Lossy (bytes.take stop)

/-!
# Messages
-/

def usbipVersion : UInt16 := 0x0111

def opReqDevlist : UInt16 := 0x8005
def opRepDevlist : UInt16 := 0x0005
def opReqImport : UInt16 := 0x8003
def opRepImport : UInt16 := 0x0003

def opHeaderSize : Nat := 8
def busidSize : Nat := 32
def pathSize : Nat := 256
def deviceSize : Nat := 312
def interfaceSize : Nat := 4

def maxExportedDevices : UInt32 := 4096

def opHeader (version code : UInt16) (status : UInt32) : Bytes :=
  putU16 version ++ (putU16 code ++ putU32 status)

def encodeBusid (text : Text) (busid : String) : Except ProtocolError Bytes :=
  let bytes := utf8 busid
  if busidSize ≤ bytes.length ∨ 0 ∈ bytes then
    .error (.invalid s!"invalid busid {text.debug busid}")
  else
    .ok (bytes ++ List.replicate (busidSize - bytes.length) 0)

def encodeDevlistRequest : Bytes :=
  opHeader usbipVersion opReqDevlist 0

def encodeImportRequest (text : Text) (busid : String) : Except ProtocolError Bytes := do
  let field ← encodeBusid text busid
  return opHeader usbipVersion opReqImport 0 ++ field

def ExportedDevice.decode (text : Text) (buf : Bytes) : ExportedDevice :=
  let b := buf.drop (pathSize + busidSize)
  let (busnum, b) := getU32 b
  let (devnum, b) := getU32 b
  let (speed, b) := getU32 b
  let (idVendor, b) := getU16 b
  let (idProduct, b) := getU16 b
  let (bcdDevice, b) := getU16 b
  let (deviceClass, b) := getU8 b
  let (deviceSubclass, b) := getU8 b
  let (deviceProtocol, b) := getU8 b
  let (configurationValue, b) := getU8 b
  let (numConfigurations, b) := getU8 b
  let (numInterfaces, _) := getU8 b
  { path := cString text (buf.take pathSize)
    busid := cString text ((buf.drop pathSize).take busidSize)
    busnum, devnum
    speed := Speed.fromU32 speed
    idVendor, idProduct, bcdDevice, deviceClass, deviceSubclass, deviceProtocol,
    configurationValue, numConfigurations, numInterfaces
    interfaces := [] }

/-!
# Readers
-/

abbrev StreamReader := Reader UInt8 ProtocolError

def exactly (n : Nat) : StreamReader Bytes :=
  readExact n

def readU32 : StreamReader UInt32 := fun bytes =>
  match takeExact 4 bytes with
  | some (buf, rest) => .ok ((getU32 buf).1, rest)
  | none => .error (.io .unexpectedEof "unexpected end of file")

def readOpHeader (expected : UInt16) : StreamReader Unit := do
  let buf ← exactly opHeaderSize
  let (_, b) := getU16 buf
  let (code, b) := getU16 b
  let (status, _) := getU32 b
  if code ≠ expected then
    throw (.unexpectedReply expected code)
  else if status ≠ 0 then
    throw (.status status)
  else
    return ()

def readDevice (text : Text) : StreamReader ExportedDevice := do
  let buf ← exactly deviceSize
  return ExportedDevice.decode text buf

def interfacesOf : Nat -> Bytes -> List Interface
  | 0, _ => []
  | n + 1, raw =>
      let (deviceClass, b) := getU8 raw
      let (subclass, b) := getU8 b
      let (protocol, _) := getU8 b
      { class_ := deviceClass, subclass, protocol } :: interfacesOf n (raw.drop interfaceSize)

def readListedDevice (text : Text) : StreamReader ExportedDevice := do
  let device ← readDevice text
  let raw ← exactly (device.numInterfaces.toNat * interfaceSize)
  return { device with interfaces := interfacesOf device.numInterfaces.toNat raw }

def readDevlistReply (text : Text) : StreamReader (List ExportedDevice) := do
  readOpHeader opRepDevlist
  let count ← readU32
  if count > maxExportedDevices then
    throw (.invalid s!"device count {count}")
  else
    (readListedDevice text).replicate count.toNat

def readImportReply (text : Text) : StreamReader ExportedDevice := do
  readOpHeader opRepImport
  readDevice text

/-!
# Calls
-/

def writeAll (failure : Option ProtocolError) (request : Bytes) :
    Except ProtocolError Bytes :=
  match failure with
  | some e => .error e
  | none => .ok request

/-- What is written to the server, the devices, and what is left of the stream. -/
def listDevices (text : Text) (failure : Option ProtocolError) (stream : Bytes) :
    Except ProtocolError (Bytes × List ExportedDevice × Bytes) := do
  let written ← writeAll failure encodeDevlistRequest
  let (devices, rest) ← readDevlistReply text stream
  return (written, devices, rest)

/-- `import`: what is written to the server, and the session. -/
def importDevice (text : Text) (failure : Option ProtocolError) (stream : Bytes)
    (busid : String) : Except ProtocolError (Bytes × Session) := do
  let request ← encodeImportRequest text busid
  let written ← writeAll failure request
  let (device, rest) ← readImportReply text stream
  if device.busid ≠ busid then
    throw (.invalid
      s!"imported busid {text.debug device.busid}, requested {text.debug busid}")
  else
    return (written, { Session.start device with input := rest })

/-!
# The reference server
-/

/-- A device as a server exports it. -/
structure Export where
  path : String
  busid : String
  busnum : UInt32
  devnum : UInt32
  speed : UInt32
  idVendor : UInt16
  idProduct : UInt16
  bcdDevice : UInt16
  deviceClass : UInt8
  deviceSubclass : UInt8
  deviceProtocol : UInt8
  configurationValue : UInt8
  numConfigurations : UInt8
  interfaces : List Interface

def padded (size : Nat) (s : String) : Bytes :=
  utf8 s ++ List.replicate (size - (utf8 s).length) 0

def Interface.encode (i : Interface) : Bytes :=
  [i.class_, i.subclass, i.protocol, 0]

def Export.fields (e : Export) : Bytes :=
  putU32 e.busnum ++ (putU32 e.devnum ++ (putU32 e.speed ++ (putU16 e.idVendor ++
    (putU16 e.idProduct ++ (putU16 e.bcdDevice ++
    [e.deviceClass, e.deviceSubclass, e.deviceProtocol, e.configurationValue,
      e.numConfigurations, UInt8.ofNat e.interfaces.length])))))

def Export.record (e : Export) : Bytes :=
  padded pathSize e.path ++ (padded busidSize e.busid ++ e.fields)

def Export.encode (e : Export) (withInterfaces : Bool) : Bytes :=
  e.record ++ if withInterfaces then e.interfaces.flatMap Interface.encode else []

def devlistReply (exports : List Export) : Bytes :=
  opHeader usbipVersion opRepDevlist 0 ++ (putU32 (UInt32.ofNat exports.length) ++
    exports.flatMap fun e => e.encode true)

/-- The reply for a bus id: the first device that has it. -/
def importAnswer (exports : List Export) (busid : String) : Bytes :=
  match exports.find? (fun e => e.busid == busid) with
  | some e => opHeader usbipVersion opRepImport 0 ++ e.encode false
  | none => opHeader usbipVersion opRepImport 1

def importReply (text : Text) (exports : List Export) (request : Bytes) : Bytes :=
  importAnswer exports (cString text ((request.drop opHeaderSize).take busidSize))

/-- The strings fit into their fields and have no zeros, and the interfaces can be counted. -/
structure Export.Encodable (e : Export) : Prop where
  path_length : (utf8 e.path).length ≤ pathSize
  path_nonzero : 0 ∉ utf8 e.path
  busid_length : (utf8 e.busid).length ≤ busidSize
  busid_nonzero : 0 ∉ utf8 e.busid
  interfaces_length : e.interfaces.length ≤ 255

def Export.device (e : Export) : ExportedDevice where
  path := e.path
  busid := e.busid
  busnum := e.busnum
  devnum := e.devnum
  speed := Speed.fromU32 e.speed
  idVendor := e.idVendor
  idProduct := e.idProduct
  bcdDevice := e.bcdDevice
  deviceClass := e.deviceClass
  deviceSubclass := e.deviceSubclass
  deviceProtocol := e.deviceProtocol
  configurationValue := e.configurationValue
  numConfigurations := e.numConfigurations
  numInterfaces := UInt8.ofNat e.interfaces.length
  interfaces := e.interfaces

/-!
# Records
-/

theorem padded_length {size : Nat} {s : String} (h : (utf8 s).length ≤ size) :
    (padded size s).length = size := by
  unfold padded
  rw [List.length_append, List.length_replicate]
  omega

theorem Export.fields_length (e : Export) : e.fields.length = 24 := rfl

theorem Export.record_length {e : Export} (h : e.Encodable) : e.record.length = deviceSize := by
  unfold Export.record
  rw [List.length_append, List.length_append, padded_length h.path_length,
    padded_length h.busid_length, e.fields_length]
  rfl

theorem findIdx_padding {bytes : Bytes} (h : 0 ∉ bytes) (n : Nat) :
    (bytes ++ List.replicate n 0).findIdx (fun b => b == 0) = bytes.length := by
  induction bytes with
  | nil =>
      cases n with
      | zero => rfl
      | succ n => rfl
  | cons b bytes ih =>
      rw [List.mem_cons, not_or] at h
      have hb : (b == 0) = false := beq_eq_false_iff_ne.mpr (Ne.symm h.left)
      rw [List.cons_append, List.findIdx_cons, hb, cond_false, ih h.right, List.length_cons]

theorem cString_padded {text : Text} (htext : text.Lossless) {size : Nat} {s : String}
    (h : 0 ∉ utf8 s) : cString text (padded size s) = s := by
  unfold cString padded
  dsimp only
  rw [findIdx_padding h, List.take_left]
  exact htext s

theorem decode_fields (text : Text) (front : Bytes) (hfront : front.length = pathSize + busidSize)
    (e : Export) : ExportedDevice.decode text (front ++ e.fields) =
      { e.device with
        path := cString text (front.take pathSize)
        busid := cString text ((front.drop pathSize).take busidSize)
        interfaces := [] } := by
  have hdrop : (front ++ e.fields).drop (pathSize + busidSize) = e.fields :=
    List.drop_left' hfront
  have hpath : (front ++ e.fields).take pathSize = front.take pathSize := by
    apply List.take_append_of_le_length
    rw [hfront]
    exact Nat.le_add_right _ _
  have hbusid : ((front ++ e.fields).drop pathSize).take busidSize =
      (front.drop pathSize).take busidSize := by
    have hrest : (front.drop pathSize).length = busidSize := by
      rw [List.length_drop, hfront, Nat.add_sub_cancel_left]
    rw [List.drop_append_of_le_length (by rw [hfront]; exact Nat.le_add_right _ _),
      List.take_append_of_le_length (Nat.le_of_eq hrest.symm)]
  unfold ExportedDevice.decode
  rw [hdrop, hpath, hbusid]
  simp only [Export.fields, getU32_putU32, getU16_putU16, getU8_cons, Export.device]

theorem decode_record {text : Text} (htext : text.Lossless) {e : Export} (h : e.Encodable) :
    ExportedDevice.decode text e.record = { e.device with interfaces := [] } := by
  have hpath := padded_length h.path_length
  have hbusid := padded_length h.busid_length
  have hfront : (padded pathSize e.path ++ padded busidSize e.busid).length =
      pathSize + busidSize := by
    rw [List.length_append, hpath, hbusid]
  unfold Export.record
  rw [← List.append_assoc, decode_fields text _ hfront, List.take_left' hpath,
    List.drop_left' hpath, List.take_of_length_le (Nat.le_of_eq hbusid),
    cString_padded htext h.path_nonzero, cString_padded htext h.busid_nonzero]
  rfl

theorem exactly_append {n : Nat} {front : Bytes} (hlen : front.length = n) (rest : Bytes) :
    exactly n (front ++ rest) = .ok (front, rest) :=
  readExact_append hlen rest

theorem readDevice_record {text : Text} (htext : text.Lossless) {e : Export}
    (h : e.Encodable) (rest : Bytes) :
    readDevice text (e.record ++ rest) = .ok ({ e.device with interfaces := [] }, rest) := by
  unfold readDevice
  rw [Reader.bind_ok (exactly_append (Export.record_length h) rest), decode_record htext h]
  rfl

/-!
# Interfaces
-/

theorem interfaces_length (interfaces : List Interface) :
    (interfaces.flatMap Interface.encode).length = interfaces.length * interfaceSize := by
  induction interfaces with
  | nil => rfl
  | cons i interfaces ih =>
      rw [List.flatMap_cons, List.length_append, ih, List.length_cons, Nat.succ_mul,
        Nat.add_comm]
      rfl

theorem interfacesOf_encode (interfaces : List Interface) :
    interfacesOf interfaces.length (interfaces.flatMap Interface.encode) = interfaces := by
  induction interfaces with
  | nil => rfl
  | cons i interfaces ih =>
      rw [List.flatMap_cons, List.length_cons, interfacesOf]
      have hdrop : (i.encode ++ interfaces.flatMap Interface.encode).drop interfaceSize =
          interfaces.flatMap Interface.encode :=
        List.drop_left' rfl
      rw [hdrop, ih]
      rfl

theorem Export.Encodable.numInterfaces {e : Export} (h : e.Encodable) :
    e.device.numInterfaces.toNat = e.interfaces.length :=
  UInt8.toNat_ofNat_of_lt' (Nat.lt_succ_of_le h.interfaces_length)

theorem readListedDevice_encode {text : Text} (htext : text.Lossless) {e : Export}
    (h : e.Encodable) (rest : Bytes) :
    readListedDevice text (e.encode true ++ rest) = .ok (e.device, rest) := by
  have hcount : ({ e.device with interfaces := [] } : ExportedDevice).numInterfaces.toNat =
      e.interfaces.length :=
    h.numInterfaces
  have hraw := exactly_append (interfaces_length e.interfaces) rest
  unfold readListedDevice Export.encode
  rw [if_pos rfl, List.append_assoc, Reader.bind_ok (readDevice_record htext h _), hcount,
    Reader.bind_ok hraw, interfacesOf_encode]
  rfl

/-!
# Headers
-/

theorem opHeader_length (version code : UInt16) (status : UInt32) :
    (opHeader version code status).length = opHeaderSize := rfl

theorem readOpHeader_header (expected version code : UInt16) (status : UInt32) (rest : Bytes) :
    readOpHeader expected (opHeader version code status ++ rest) =
      if code ≠ expected then .error (.unexpectedReply expected code)
      else if status ≠ 0 then .error (.status status)
      else .ok ((), rest) := by
  have hstatus : getU32 (putU32 status) = (status, []) := getU32_putU32 status []
  unfold readOpHeader
  rw [Reader.bind_ok (exactly_append (opHeader_length version code status) rest)]
  unfold opHeader
  simp only [getU16_putU16, hstatus]
  split
  · rfl
  · split
    · rfl
    · rfl

theorem readOpHeader_ok (version code : UInt16) (rest : Bytes) :
    readOpHeader code (opHeader version code 0 ++ rest) = .ok ((), rest) := by
  rw [readOpHeader_header, if_neg (not_not_intro rfl), if_neg (not_not_intro rfl)]

theorem readU32_putU32 (x : UInt32) (rest : Bytes) :
    readU32 (putU32 x ++ rest) = .ok (x, rest) := by
  have htake : takeExact 4 (putU32 x ++ rest) = some (putU32 x, rest) :=
    takeExact_append (putU32_length x) rest
  have hword : getU32 (putU32 x) = (x, []) := getU32_putU32 x []
  unfold readU32
  rw [htake]
  dsimp only
  rw [hword]

/-!
# The list of devices
-/

theorem readDevlistReply_reply {text : Text} (htext : text.Lossless) {exports : List Export}
    (hlen : exports.length ≤ 4096) (h : forall e, e ∈ exports -> e.Encodable) (rest : Bytes) :
    readDevlistReply text (devlistReply exports ++ rest) =
      .ok (exports.map Export.device, rest) := by
  have hcount : (UInt32.ofNat exports.length).toNat = exports.length :=
    UInt32.toNat_ofNat_of_lt' (Nat.lt_of_le_of_lt hlen (by decide))
  have hmax : ¬ UInt32.ofNat exports.length > maxExportedDevices := by
    intro hgt
    have hnat := UInt32.lt_iff_toNat_lt.mp hgt
    rw [hcount] at hnat
    exact Nat.not_lt_of_le hlen hnat
  unfold readDevlistReply devlistReply
  rw [List.append_assoc, List.append_assoc, Reader.bind_ok (readOpHeader_ok _ _ _),
    Reader.bind_ok (readU32_putU32 _ _), if_neg hmax, hcount]
  apply Reader.replicate_flatMap
  intro e he more
  exact readListedDevice_encode htext (h e he) more

theorem readDevlistReply_count (text : Text) (version : UInt16) {count : UInt32}
    (h : 4096 < count) (rest : Bytes) :
    readDevlistReply text (opHeader version opRepDevlist 0 ++ (putU32 count ++ rest)) =
      .error (.invalid s!"device count {count}") := by
  have hmax : count > maxExportedDevices := h
  unfold readDevlistReply
  rw [Reader.bind_ok (readOpHeader_ok _ _ _), Reader.bind_ok (readU32_putU32 _ _), if_pos hmax]
  rfl

/-!
# Parts of a reply
-/

theorem takeExact_more {n : Nat} {xs buf rest : Bytes} (h : takeExact n xs = some (buf, rest))
    (more : Bytes) : takeExact n (xs ++ more) = some (buf, rest ++ more) := by
  unfold takeExact at h
  split at h
  · rename_i hle
    simp only [Option.some.injEq, Prod.mk.injEq] at h
    rcases h with ⟨rfl, rfl⟩
    have hsplit : xs ++ more = xs.take n ++ (xs.drop n ++ more) := by
      rw [← List.append_assoc, List.take_append_drop]
    rw [hsplit]
    exact takeExact_append (List.length_take_of_le hle) _
  · cases h

theorem exactly_extends (n : Nat) : (exactly n).Extends := by
  intro xs buf rest more h
  change readExact n xs = .ok (buf, rest) at h
  show readExact n (xs ++ more) = .ok (buf, rest ++ more)
  unfold readExact at h ⊢
  cases htake : takeExact n xs with
  | none =>
      rw [htake] at h
      cases h
  | some found =>
      rw [htake] at h
      cases h
      rw [takeExact_more htake more]

theorem readU32_extends : readU32.Extends := by
  intro xs x rest more h
  unfold readU32 at h ⊢
  cases htake : takeExact 4 xs with
  | none =>
      rw [htake] at h
      cases h
  | some found =>
      rw [htake] at h
      cases h
      rw [takeExact_more htake more]

theorem readOpHeader_extends (expected : UInt16) : (readOpHeader expected).Extends := by
  apply (exactly_extends opHeaderSize).bind
  intro buf
  rcases getU16 buf with ⟨version, b⟩
  rcases getU16 b with ⟨code, b⟩
  rcases getU32 b with ⟨status, b⟩
  exact (Reader.Extends.throw _).ite ((Reader.Extends.throw _).ite (Reader.Extends.pure ()))

theorem readDevice_extends (text : Text) : (readDevice text).Extends :=
  (exactly_extends deviceSize).bind fun buf =>
    Reader.Extends.pure (ExportedDevice.decode text buf)

theorem readListedDevice_extends (text : Text) : (readListedDevice text).Extends := by
  apply (readDevice_extends text).bind
  intro device
  apply (exactly_extends _).bind
  intro raw
  exact Reader.Extends.pure _

theorem readDevlistReply_extends (text : Text) : (readDevlistReply text).Extends := by
  apply (readOpHeader_extends opRepDevlist).bind
  intro _
  apply readU32_extends.bind
  intro count
  exact (Reader.Extends.throw _).ite ((readListedDevice_extends text).replicate _)

/-!
# Imports
-/

theorem encodeBusid_ok {text : Text} {busid : String} {field : Bytes}
    (h : encodeBusid text busid = .ok field) :
    field = padded busidSize busid ∧ (utf8 busid).length < busidSize ∧ 0 ∉ utf8 busid := by
  unfold encodeBusid at h
  dsimp only at h
  split at h
  · cases h
  · rename_i hfits
    cases h
    rcases not_or.mp hfits with ⟨hlen, hzero⟩
    exact ⟨rfl, Nat.lt_of_not_le hlen, hzero⟩

theorem cString_encodeBusid {text : Text} (htext : text.Lossless) {busid : String}
    {field : Bytes} (h : encodeBusid text busid = .ok field) : cString text field = busid := by
  rcases encodeBusid_ok h with ⟨rfl, _, hzero⟩
  exact cString_padded htext hzero

theorem encodeImportRequest_ok {text : Text} {busid : String} {field : Bytes}
    (h : encodeBusid text busid = .ok field) :
    encodeImportRequest text busid = .ok (opHeader usbipVersion opReqImport 0 ++ field) := by
  unfold encodeImportRequest
  rw [h]
  rfl

theorem importReply_request {text : Text} (htext : text.Lossless) {busid : String}
    {field : Bytes} (h : encodeBusid text busid = .ok field) (exports : List Export) :
    importReply text exports (opHeader usbipVersion opReqImport 0 ++ field) =
      importAnswer exports busid := by
  have hfield := cString_encodeBusid htext h
  rcases encodeBusid_ok h with ⟨rfl, hlen, _⟩
  unfold importReply
  rw [List.drop_left' (opHeader_length _ _ _),
    List.take_of_length_le (Nat.le_of_eq (padded_length (Nat.le_of_lt hlen))), hfield]

theorem importAnswer_found {exports : List Export} {busid : String}
    (h : exists e, e ∈ exports ∧ e.busid = busid) :
    exists e, e ∈ exports ∧ e.busid = busid ∧
      importAnswer exports busid = opHeader usbipVersion opRepImport 0 ++ e.encode false := by
  unfold importAnswer
  cases hfind : exports.find? (fun e => e.busid == busid) with
  | none =>
      rcases h with ⟨e, he, rfl⟩
      have hnot := List.find?_eq_none.mp hfind e he
      simp at hnot
  | some e =>
      have hbusid := List.find?_some hfind
      exact ⟨e, List.mem_of_find?_eq_some hfind, by simpa using hbusid, rfl⟩

theorem readImportReply_encode {text : Text} (htext : text.Lossless) {e : Export}
    (h : e.Encodable) (rest : Bytes) :
    readImportReply text (opHeader usbipVersion opRepImport 0 ++ e.encode false ++ rest) =
      .ok ({ e.device with interfaces := [] }, rest) := by
  have hencode : e.encode false = e.record := by
    unfold Export.encode
    rw [if_neg (by decide), List.append_nil]
  unfold readImportReply
  rw [hencode, List.append_assoc, Reader.bind_ok (readOpHeader_ok _ _ _)]
  exact readDevice_record htext h rest

theorem importDevice_echo {text : Text} {busid : String} {field : Bytes}
    (h : encodeBusid text busid = .ok field) {stream rest : Bytes} {device : ExportedDevice}
    (hread : readImportReply text stream = .ok (device, rest)) (hecho : device.busid = busid) :
    importDevice text none stream busid =
      .ok (opHeader usbipVersion opReqImport 0 ++ field,
        { Session.start device with input := rest }) := by
  have hsame : ¬ device.busid ≠ busid := not_not_intro hecho
  unfold importDevice
  rw [encodeImportRequest_ok h, hread]
  simp only [writeAll, bind, Except.bind]
  rw [if_neg hsame]
  rfl

/--
The list of devices is read back as it was sent, byte for byte, and no part of
it that ends earlier is taken for a list; more devices than the client takes are
refused at the count; and an accepted bus id comes back from the field it is
sent in, so that a server that has the device is believed.
-/
theorem devices_round_trip (text : Text) (htext : text.Lossless) :
    (forall exports : List Export, exports.length ≤ 4096 ->
      (forall e, e ∈ exports -> e.Encodable) ->
      (forall rest, readDevlistReply text (devlistReply exports ++ rest) =
        .ok (exports.map Export.device, rest)) ∧
      forall front back, devlistReply exports = front ++ back -> back ≠ [] ->
        exists err, readDevlistReply text front = .error err) ∧
    (forall (version : UInt16) (count : UInt32) (rest : Bytes), 4096 < count ->
      readDevlistReply text (opHeader version opRepDevlist 0 ++ (putU32 count ++ rest)) =
        .error (.invalid s!"device count {count}")) ∧
    (forall busid field, encodeBusid text busid = .ok field ->
      cString text field = busid ∧
      forall (exports : List Export) (rest : Bytes),
        (forall e, e ∈ exports -> e.Encodable) -> (exists e, e ∈ exports ∧ e.busid = busid) ->
        exists e, e ∈ exports ∧ e.busid = busid ∧
          importDevice text none (importReply text exports
              (opHeader usbipVersion opReqImport 0 ++ field) ++ rest) busid =
            .ok (opHeader usbipVersion opReqImport 0 ++ field,
              { Session.start { e.device with interfaces := [] } with input := rest })) := by
  refine ⟨?_, ?_, ?_⟩
  · intro exports hlen hencodable
    have hreply := readDevlistReply_reply htext hlen hencodable
    constructor
    · exact hreply
    · intro front back hsplit hback
      apply (readDevlistReply_extends text).front_fails _ hback
      · exact exports.map Export.device
      · have hwhole := hreply []
        rw [List.append_nil, hsplit] at hwhole
        exact hwhole
  · intro version count rest hcount
    exact readDevlistReply_count text version hcount rest
  · intro busid field hfield
    refine ⟨cString_encodeBusid htext hfield, ?_⟩
    intro exports rest hencodable hexists
    rcases importAnswer_found hexists with ⟨e, he, hbusid, hanswer⟩
    refine ⟨e, he, hbusid, ?_⟩
    rw [importReply_request htext hfield, hanswer]
    exact importDevice_echo hfield (readImportReply_encode htext (hencodable e he) rest) hbusid

/-- Bytes that are not UTF-8 are an empty string to this one. -/
def Text.strict : Text where
  fromUtf8Lossy bytes := (String.fromUTF8? ⟨bytes.toArray⟩).getD ""
  debug s := "\"" ++ s ++ "\""

theorem Text.strict_lossless : Text.strict.Lossless := by
  intro s
  show (String.fromUTF8? ⟨(utf8 s).toArray⟩).getD "" = s
  have hbytes : (⟨(utf8 s).toArray⟩ : ByteArray) = s.toByteArray := by
    unfold utf8
    rw [Array.toArray_toList]
  rw [hbytes, String.fromUTF8?, dif_pos s.isValidUTF8]
  rfl

def sampleExport : Export where
  path := "/sys/bus/usb/1-1"
  busid := "1-1"
  busnum := 1
  devnum := 2
  speed := 3
  idVendor := 0x1d6b
  idProduct := 0x0104
  bcdDevice := 0x0100
  deviceClass := 0
  deviceSubclass := 0
  deviceProtocol := 0
  configurationValue := 1
  numConfigurations := 1
  interfaces := [⟨8, 6, 80⟩, ⟨3, 0, 0⟩]

theorem sampleExport_encodable : sampleExport.Encodable where
  path_length := by decide +kernel
  path_nonzero := by decide +kernel
  busid_length := by decide +kernel
  busid_nonzero := by decide +kernel
  interfaces_length := by decide

theorem devices_round_trip_of_sample :
    (forall rest, readDevlistReply Text.strict (devlistReply [sampleExport] ++ rest) =
      .ok ([sampleExport.device], rest)) ∧
    cString Text.strict (padded busidSize "1-1") = "1-1" := by
  have htrip := devices_round_trip Text.strict Text.strict_lossless
  have hencodable : forall e, e ∈ [sampleExport] -> e.Encodable := by
    intro e he
    rw [List.mem_singleton.mp he]
    exact sampleExport_encodable
  have hfield : encodeBusid Text.strict "1-1" = .ok (padded busidSize "1-1") := by
    unfold encodeBusid
    rw [if_neg (by decide +kernel)]
    rfl
  exact ⟨(htrip.left [sampleExport] (by decide) hencodable).left,
    (htrip.right.right "1-1" _ hfield).left⟩

end Client
end UsbIp
