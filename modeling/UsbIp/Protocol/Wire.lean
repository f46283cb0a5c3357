import UsbIp.Foundation.Bytes

/-!
# The USB/IP wire protocol, client side

The types of `protocol.rs` and the encoding and decoding of the messages that
are exchanged once a device has been imported.  All multi-byte fields are big
endian.  A reader takes the bytes that are left of the stream and returns the
bytes behind what it has read.
-/

namespace UsbIp
namespace Protocol

open Foundation

def usbipCmdSubmit : UInt32 := 1
def usbipCmdUnlink : UInt32 := 2
def usbipRetSubmit : UInt32 := 3
def usbipRetUnlink : UInt32 := 4

def urbIsoAsap : UInt32 := 0x0002

def urbHeaderSize : Nat := 48
def isoDescriptorSize : Nat := 16

def maxIsoPackets : UInt32 := 1024

/-!
# Errors
-/

inductive IoErrorKind where
  | unexpectedEof
  | other
deriving DecidableEq, Repr

inductive ProtocolError where
  | io (kind : IoErrorKind) (text : String)
  | unexpectedReply (expected actual : UInt16)
  | status (code : UInt32)
  | unexpectedCommand (command : UInt32)
  | invalid (text : String)
deriving DecidableEq, Repr

def hexDigits (width n : Nat) : String :=
  let digits := Nat.toDigits 16 n
  String.ofList (List.replicate (width - digits.length) '0' ++ digits)

def ProtocolError.toString : ProtocolError -> String
  | io _ text => "i/o error: " ++ text
  | unexpectedReply expected actual =>
      "unexpected reply code 0x" ++ hexDigits 4 actual.toNat ++
        ", expected 0x" ++ hexDigits 4 expected.toNat
  | status code => s!"server returned error status {code}"
  | unexpectedCommand command =>
      "unexpected command 0x" ++ hexDigits 1 command.toNat ++ " from server"
  | invalid text => text

/-!
# Data types
-/

inductive Direction where
  | out
  | in
deriving DecidableEq, Repr

def Direction.toU32 : Direction -> UInt32
  | Direction.out => 0
  | Direction.in => 1

def Direction.ofEndpoint (address : UInt8) : Direction :=
  if address &&& 0x80 ≠ 0 then Direction.in else Direction.out

inductive Speed where
  | unknown
  | low
  | full
  | high
  | wireless
  | super
  | superPlus
deriving DecidableEq, Repr

def Speed.fromU32 (value : UInt32) : Speed :=
  if value = 1 then Speed.low
  else if value = 2 then Speed.full
  else if value = 3 then Speed.high
  else if value = 4 then Speed.wireless
  else if value = 5 then Speed.super
  else if value = 6 then Speed.superPlus
  else Speed.unknown

structure IsoPacketDescriptor where
  offset : UInt32
  length : UInt32
  actualLength : UInt32
  status : Int32
deriving DecidableEq, Repr

structure CmdSubmit where
  seqnum : UInt32
  devid : UInt32
  direction : UInt32
  ep : UInt32
  transferFlags : UInt32
  transferBufferLength : UInt32
  startFrame : UInt32
  interval : UInt32
  setup : Vector UInt8 8
  /-- Only sent for OUT transfers. -/
  data : Bytes
  /-- Non-empty only for isochronous transfers. -/
  isoPackets : List IsoPacketDescriptor
deriving DecidableEq, Repr

structure CmdUnlink where
  seqnum : UInt32
  devid : UInt32
  unlinkSeqnum : UInt32
deriving DecidableEq, Repr

structure RetSubmit where
  seqnum : UInt32
  status : Int32
  actualLength : UInt32
  startFrame : UInt32
  errorCount : UInt32
  data : Bytes
  isoPackets : List IsoPacketDescriptor
deriving DecidableEq, Repr

structure RetUnlink where
  seqnum : UInt32
  status : Int32
deriving DecidableEq, Repr

/-- The header fields of a RET_SUBMIT whose payload has not been read yet. -/
structure SubmitHeader where
  seqnum : UInt32
  status : Int32
  actualLength : UInt32
  startFrame : UInt32
  numberOfPackets : UInt32
  errorCount : UInt32
deriving DecidableEq, Repr

inductive Reply where
  | submit (header : SubmitHeader)
  | unlink (ret : RetUnlink)
deriving DecidableEq, Repr

/-!
# Encoding
-/

def IsoPacketDescriptor.encode (p : IsoPacketDescriptor) : Bytes :=
  putU32 p.offset ++ (putU32 p.length ++ (putU32 p.actualLength ++ putI32 p.status))

def IsoPacketDescriptor.decode (b : Bytes) : IsoPacketDescriptor :=
  let (offset, b) := getU32 b
  let (length, b) := getU32 b
  let (actualLength, b) := getU32 b
  let (status, _) := getI32 b
  { offset, length, actualLength, status }

def CmdSubmit.encode (cmd : CmdSubmit) : Bytes :=
  putU32 usbipCmdSubmit ++ (putU32 cmd.seqnum ++ (putU32 cmd.devid ++
    (putU32 cmd.direction ++ (putU32 cmd.ep ++ (putU32 cmd.transferFlags ++
    (putU32 cmd.transferBufferLength ++ (putU32 cmd.startFrame ++
    -- Linux treats this as the packet count only for isochronous pipes.
    (putU32 (if cmd.isoPackets.isEmpty then 0 else UInt32.ofNat cmd.isoPackets.length) ++
    (putU32 cmd.interval ++ (cmd.setup.toList ++
    (cmd.data ++ cmd.isoPackets.flatMap IsoPacketDescriptor.encode)))))))))))

def CmdUnlink.encode (cmd : CmdUnlink) : Bytes :=
  putU32 usbipCmdUnlink ++ (putU32 cmd.seqnum ++ (putU32 cmd.devid ++
    (putU32 0 ++ (putU32 0 ++ (putU32 cmd.unlinkSeqnum ++ List.replicate 24 0)))))

/-!
# Reading replies
-/

def readExact (n : Nat) (bytes : Bytes) : Except ProtocolError (Bytes × Bytes) :=
  match takeExact n bytes with
  | some (buf, rest) => .ok (buf, rest)
  | none => .error (.io .unexpectedEof "early eof")

def decodeReplyHeader (buf : Bytes) : Except ProtocolError Reply :=
  let (command, b) := getU32 buf
  let (seqnum, b) := getU32 b
  let b := b.drop 12
  if command = usbipRetSubmit then
    let (status, b) := getI32 b
    let (actualLength, b) := getU32 b
    let (startFrame, b) := getU32 b
    let (packets, b) := getU32 b
    let numberOfPackets := if packets = 0xffffffff then 0 else packets
    let (errorCount, _) := getU32 b
    if numberOfPackets > maxIsoPackets then
      .error (.invalid s!"number_of_packets {numberOfPackets}")
    else
      .ok (.submit
        { seqnum, status, actualLength, startFrame, numberOfPackets, errorCount })
  else if command = usbipRetUnlink then
    let (status, _) := getI32 b
    .ok (.unlink { seqnum, status })
  else
    .error (.unexpectedCommand command)

def readReplyHeader (bytes : Bytes) : Except ProtocolError (Reply × Bytes) := do
  let (buf, rest) ← readExact urbHeaderSize bytes
  let reply ← decodeReplyHeader buf
  return (reply, rest)

def isoPacketsOf : Nat -> Bytes -> List IsoPacketDescriptor
  | 0, _ => []
  | n + 1, raw =>
      IsoPacketDescriptor.decode (raw.take isoDescriptorSize) ::
        isoPacketsOf n (raw.drop isoDescriptorSize)

/-- The data of an IN transfer; nothing follows the header otherwise. -/
def readData (bytes : Bytes) (dataExpected : Bool) (actualLength : UInt32) :
    Except ProtocolError (Bytes × Bytes) :=
  if dataExpected ∧ actualLength > 0 then
    readExact actualLength.toNat bytes
  else
    .ok ([], bytes)

def readIsoPackets (bytes : Bytes) (numberOfPackets : UInt32) :
    Except ProtocolError (List IsoPacketDescriptor × Bytes) :=
  if numberOfPackets > 0 then
    match readExact (numberOfPackets.toNat * isoDescriptorSize) bytes with
    | .ok (raw, bytes) => .ok (isoPacketsOf numberOfPackets.toNat raw, bytes)
    | .error e => .error e
  else
    .ok ([], bytes)

def SubmitHeader.withPayload (header : SubmitHeader) (data : Bytes)
    (isoPackets : List IsoPacketDescriptor) : RetSubmit where
  seqnum := header.seqnum
  status := header.status
  actualLength := header.actualLength
  startFrame := header.startFrame
  errorCount := header.errorCount
  data := data
  isoPackets := isoPackets

/--
Reads the payload of a RET_SUBMIT. `dataExpected` is the transfer direction
being IN; `maxLength` is what we asked for and bounds what the server may send
back.
-/
def readSubmitPayload (bytes : Bytes) (header : SubmitHeader) (dataExpected : Bool)
    (maxLength : UInt32) : Except ProtocolError (RetSubmit × Bytes) :=
  if header.actualLength > maxLength then
    .error (.invalid
      (s!"seqnum {header.seqnum}: actual_length {header.actualLength} " ++
        s!"exceeds requested {maxLength}"))
  else do
    let (data, bytes) ← readData bytes dataExpected header.actualLength
    let (isoPackets, bytes) ← readIsoPackets bytes header.numberOfPackets
    return (header.withPayload data isoPackets, bytes)

theorem readSubmitPayload_ok {bytes rest : Bytes} {header : SubmitHeader}
    {dataExpected : Bool} {maxLength : UInt32} {ret : RetSubmit}
    (h : readSubmitPayload bytes header dataExpected maxLength = .ok (ret, rest)) :
    ¬ header.actualLength > maxLength ∧ exists data more isoPackets,
      readData bytes dataExpected header.actualLength = .ok (data, more) ∧
        readIsoPackets more header.numberOfPackets = .ok (isoPackets, rest) ∧
        ret = header.withPayload data isoPackets := by
  unfold readSubmitPayload at h
  split at h
  · cases h
  · rename_i hlength
    refine ⟨hlength, ?_⟩
    cases hdata : readData bytes dataExpected header.actualLength with
    | error e =>
        rw [hdata] at h
        cases h
    | ok found =>
        rcases found with ⟨data, more⟩
        rw [hdata] at h
        change (readIsoPackets more header.numberOfPackets >>= _) = _ at h
        cases hiso : readIsoPackets more header.numberOfPackets with
        | error e =>
            rw [hiso] at h
            cases h
        | ok packets =>
            rw [hiso] at h
            cases h
            exact ⟨data, more, _, rfl, hiso, rfl⟩

end Protocol
end UsbIp
