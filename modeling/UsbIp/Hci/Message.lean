import UsbIp.Protocol.Wire

/-!
# Transfer ring messages and completion statuses

The platform independent view of the host controller's message format: the
decoded entries of a transfer ring, the statuses a completion reports, and the
parts of an endpoint descriptor the engine needs.
-/

namespace UsbIp
namespace Hci

open Foundation
open Protocol

/-- A transfer ring entry, decoded. -/
inductive Transfer where
  | setup (bytes : Vector UInt8 8)
  | normal (length : UInt32)
  | status
  | isochronous (length : UInt32) (frame : Option UInt8)
  | link (needsResponse : Bool)
  | other (type : UInt32)
deriving DecidableEq, Repr

def Transfer.length : Transfer -> UInt32
  | Transfer.normal length => length
  | Transfer.isochronous length _ => length
  | _ => 0

def Transfer.isLink : Transfer -> Bool
  | Transfer.link _ => true
  | _ => false

def Transfer.isData : Transfer -> Bool
  | Transfer.normal _ => true
  | Transfer.isochronous _ _ => true
  | _ => false

inductive Status where
  | success
  | offline
  | timeout
  | endpointStopped
  | protocolError
  | transactionError
  | overrunError
  | stallError
  | error
deriving DecidableEq, Repr

/-- Maps a Linux URB status (negative errno) from RET_SUBMIT. -/
def Status.fromUrbStatus (status : Int32) : Status :=
  match (-status).toInt with
  | 0 => Status.success
  -- -EREMOTEIO: short packet with URB_SHORT_NOT_OK; -EXDEV: partially completed iso.
  | 121 | 18 => Status.success
  | 32 => Status.stallError
  | 75 => Status.overrunError
  | 71 | 84 => Status.protocolError
  | 62 | 110 => Status.timeout
  | 19 | 108 => Status.offline
  | 2 | 104 => Status.endpointStopped
  | 70 | 63 => Status.transactionError
  | _ => Status.error

inductive EndpointKind where
  | control
  | isochronous
  | bulk
  | interrupt
deriving DecidableEq, Repr

structure EndpointInfo where
  kind : EndpointKind
  maxPacketSize : UInt16
  bInterval : UInt8
deriving DecidableEq, Repr

/--
The URB interval Linux derives from `bInterval`: microframes as a power of two
at high speed and above, frames otherwise.
-/
def EndpointInfo.urbInterval (info : EndpointInfo) (speed : Speed) : UInt32 :=
  let b := (max info.bInterval 1).toUInt32
  match info.kind, speed with
  | .bulk, _ | .control, _ => 0
  | _, .high | _, .wireless | _, .super | _, .superPlus => 1 <<< (min b 16 - 1)
  | .isochronous, _ => 1 <<< (min b 16 - 1)
  | .interrupt, _ => b

end Hci
end UsbIp
