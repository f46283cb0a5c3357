import UsbIp.Client.Devices

/-!
# Choosing a device

What the command line says about the device to attach, and how the device is
found in the list of the server: the first one that matches.
-/

namespace UsbIp
namespace Client

open Foundation
open Protocol

inductive Selector where
  | busId (busid : String)
  | devNum (devnum : UInt32)
  | ids (vendor product : UInt16)
deriving DecidableEq, Repr

def Selector.matches (s : Selector) (device : ExportedDevice) : Bool :=
  match s with
  | Selector.busId busid => device.busid == busid
  | Selector.devNum devnum => device.devnum == devnum
  | Selector.ids vendor product => device.idVendor == vendor && device.idProduct == product

def Selector.find (s : Selector) (devices : List ExportedDevice) : Option ExportedDevice :=
  devices.find? s.matches

def Selector.debug (text : Text) : Selector -> String
  | Selector.busId busid => "BusId(" ++ text.debug busid ++ ")"
  | Selector.devNum devnum => s!"DevNum({devnum})"
  | Selector.ids vendor product => s!"Ids \x7b vendor: {vendor}, product: {product} \x7d"

/-!
# What waits for more of the stream
-/

def Short : ProtocolError -> Prop
  | .io .unexpectedEof _ => True
  | _ => False

instance (e : ProtocolError) : Decidable (Short e) :=
  match e with
  | .io .unexpectedEof _ => isTrue trivial
  | .io .other _ => isFalse id
  | .unexpectedReply _ _ => isFalse id
  | .status _ => isFalse id
  | .unexpectedCommand _ => isFalse id
  | .invalid _ => isFalse id

theorem exactly_settled (n : Nat) : (exactly n).Settled Short := by
  intro xs e more h hlong
  change readExact n xs = .error e at h
  unfold readExact at h
  split at h
  · cases h
  · cases h
    exact absurd trivial hlong

theorem readU32_settled : readU32.Settled Short := by
  intro xs e more h hlong
  unfold readU32 at h
  split at h
  · cases h
  · cases h
    exact absurd trivial hlong

theorem readOpHeader_settled (expected : UInt16) : (readOpHeader expected).Settled Short := by
  apply (exactly_settled opHeaderSize).bind (exactly_extends opHeaderSize)
  intro buf
  rcases getU16 buf with ⟨version, b⟩
  rcases getU16 b with ⟨code, b⟩
  rcases getU32 b with ⟨status, b⟩
  exact (Reader.Settled.throw _).ite
    ((Reader.Settled.throw _).ite (Reader.Settled.pure ()))

theorem readDevice_settled (text : Text) : (readDevice text).Settled Short :=
  (exactly_settled deviceSize).bind (exactly_extends deviceSize) fun buf =>
    Reader.Settled.pure (ExportedDevice.decode text buf)

theorem readListedDevice_settled (text : Text) : (readListedDevice text).Settled Short := by
  apply (readDevice_settled text).bind (readDevice_extends text)
  intro device
  apply (exactly_settled _).bind (exactly_extends _)
  intro raw
  exact Reader.Settled.pure _

theorem readDevlistReply_settled (text : Text) : (readDevlistReply text).Settled Short := by
  apply (readOpHeader_settled opRepDevlist).bind (readOpHeader_extends opRepDevlist)
  intro _
  apply readU32_settled.bind readU32_extends
  intro count
  exact (Reader.Settled.throw _).ite
    ((readListedDevice_settled text).replicate (readListedDevice_extends text) _)

theorem readImportReply_extends (text : Text) : (readImportReply text).Extends :=
  (readOpHeader_extends opRepImport).bind fun _ => readDevice_extends text

theorem readImportReply_settled (text : Text) : (readImportReply text).Settled Short :=
  (readOpHeader_settled opRepImport).bind (readOpHeader_extends opRepImport) fun _ =>
    readDevice_settled text

end Client
end UsbIp
