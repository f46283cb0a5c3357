import UsbIp.Hci.HideUas
import UsbIp.Hci.Message

/-!
# Commands

The host controller's commands: their raw messages, the message types, and the
endpoint descriptor that some of them point at.
-/

namespace UsbIp
namespace Hci

open Foundation

/-!
# Messages
-/

namespace MessageType

def controllerPowerOn : UInt32 := 0x10
def controllerPause : UInt32 := 0x13
def controllerFrameNumber : UInt32 := 0x14
def portPowerOn : UInt32 := 0x18
def portReset : UInt32 := 0x1c
def portStatus : UInt32 := 0x1e
def deviceCreate : UInt32 := 0x20
def deviceDestroy : UInt32 := 0x21
def devicePause : UInt32 := 0x23
def deviceUpdate : UInt32 := 0x24
def endpointCreate : UInt32 := 0x28
def endpointDestroy : UInt32 := 0x29
def endpointPause : UInt32 := 0x2b
def endpointUpdate : UInt32 := 0x2c
def endpointReset : UInt32 := 0x2d
def endpointSetNextTransfer : UInt32 := 0x2e
def setupTransfer : UInt32 := 0x38
def normalTransfer : UInt32 := 0x39
def statusTransfer : UInt32 := 0x3a
def isochronousTransfer : UInt32 := 0x3b
def link : UInt32 := 0x3c

end MessageType

def controlTypeMask : UInt32 := 0x3f
def controlNoResponse : UInt32 := 0x4000
def controlValid : UInt32 := 0x8000
def isoControlFrameShift : UInt32 := 16
def isoControlFrameMask : UInt32 := 0xff0000
def isoControlAsap : UInt32 := 0x1000000
def transferLengthMask : UInt32 := 0x0fffffff

structure RawMessage where
  control : UInt32
  data0 : UInt32
  data1 : UInt64
deriving DecidableEq, Repr

namespace RawMessage

def messageType (msg : RawMessage) : UInt32 :=
  msg.control &&& controlTypeMask

def isValid (msg : RawMessage) : Bool :=
  msg.control &&& controlValid != 0

def needsResponse (msg : RawMessage) : Bool :=
  msg.control &&& controlNoResponse == 0

def deviceAddress (msg : RawMessage) : UInt8 :=
  msg.data0.toUInt8

def endpointAddress (msg : RawMessage) : UInt8 :=
  (msg.data0 >>> 8).toUInt8

def transferLength (msg : RawMessage) : UInt32 :=
  msg.data0 &&& transferLengthMask

def buffer (msg : RawMessage) : UInt64 :=
  msg.data1

end RawMessage

def toLeBytes (x : UInt64) : Vector UInt8 8 :=
  Vector.ofFn fun i => (x >>> (8 * UInt64.ofNat i)).toUInt8

/-- Nothing when the ring has no valid message to process. -/
def Transfer.decode (msg : RawMessage) : Option Transfer :=
  if !msg.isValid then
    none
  else if msg.messageType = MessageType.setupTransfer then
    some (Transfer.setup (toLeBytes msg.data1))
  else if msg.messageType = MessageType.normalTransfer then
    some (Transfer.normal msg.transferLength)
  else if msg.messageType = MessageType.statusTransfer then
    some Transfer.status
  else if msg.messageType = MessageType.isochronousTransfer then
    some (Transfer.isochronous msg.transferLength
      (if msg.control &&& isoControlAsap = 0 then
        some ((msg.control &&& isoControlFrameMask) >>> isoControlFrameShift).toUInt8
      else
        none))
  else if msg.messageType = MessageType.link then
    some (Transfer.link msg.needsResponse)
  else
    some (Transfer.other msg.messageType)

/-- Device address in bits 0-7, endpoint address in 8-15, stream in 16-31. -/
def decodeDoorbell (doorbell : UInt32) : UInt8 × UInt8 × UInt16 :=
  (doorbell.toUInt8, (doorbell >>> 8).toUInt8, (doorbell >>> 16).toUInt16)

/-!
# Endpoint descriptors
-/

namespace EndpointInfo

def control : EndpointInfo where
  kind := EndpointKind.control
  maxPacketSize := 64
  bInterval := 0

def parseStandard (desc : Bytes) : Option EndpointInfo :=
  if desc.length < 7 ∨ byteAt desc 1 ≠ 5 then
    none
  else
    some
      { kind :=
          match (byteAt desc 3 &&& 0x03).toNat with
          | 0 => EndpointKind.control
          | 1 => EndpointKind.isochronous
          | 2 => EndpointKind.bulk
          | _ => EndpointKind.interrupt
        maxPacketSize := le16 (byteAt desc 4) (byteAt desc 5)
        bInterval := byteAt desc 6 }

/--
The loop of `parse`: the position of the first endpoint descriptor. Every round
advances by at least two bytes, so as many rounds as there are bytes are enough.
-/
def findEndpoint (desc : Bytes) (total : Nat) : Nat -> Nat -> Option Nat
  | 0, _ => none
  | rounds + 1, i =>
      if i + 2 ≤ total ∧ 2 ≤ byteAt desc i then
        if byteAt desc (i + 1) = 5 then
          some i
        else
          findEndpoint desc total rounds (i + (byteAt desc i).toNat)
      else
        none

/--
Parses a standard endpoint descriptor, or the first one inside a configuration
descriptor, which is how macOS passes non-default endpoints.
-/
def parse (desc : Bytes) : Option EndpointInfo :=
  if 4 ≤ desc.length ∧ 2 ≤ byteAt desc 0 ∧ byteAt desc 1 = 2 then
    let total := min (le16 (byteAt desc 2) (byteAt desc 3)).toNat desc.length
    match findEndpoint desc total desc.length (byteAt desc 0).toNat with
    -- What is parsed again is of type 5, so it is not taken for a configuration.
    | some i => parseStandard ((desc.take total).drop i)
    | none => none
  else
    parseStandard desc

end EndpointInfo

end Hci
end UsbIp
