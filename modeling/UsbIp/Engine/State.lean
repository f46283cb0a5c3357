import UsbIp.Client.Session
import UsbIp.Hci.HideUas
import UsbIp.Hci.Message

/-!
# The state of the engine

The engine of `engine.rs` moves transfers between the endpoint rings of a host
controller and a USB/IP session.  Everything but the network wait runs on one
serial executor, and a ring is only touched from there, so an operation of the
engine is one step as far as rings are concerned.  The session is shared with
other tasks and threads: whenever the engine calls it, some of their steps may
have come first.  `schedule` says which; it is arbitrary in all statements.

The engine does not return from a call into the session that loops forever.
It is `stuck` then.  The history `log` is not part of the program.
-/

namespace UsbIp
namespace Engine

open Foundation
open Protocol
open Hci
open Client (SubmitRequest TransferError TransferResult Session)

/-!
# Rings
-/

/-- One endpoint's transfer ring as exposed by the host controller. -/
class Ring (R : Type) where
  /-- Whether the host lets us process and complete messages right now. -/
  active : R -> Bool
  /-- Identity of the head message and its contents, if it is a valid message. -/
  current : R -> UInt64 × Option Transfer
  /-- The valid transfer message so many positions after the head. -/
  peek : R -> Nat -> Option (UInt64 × Transfer)
  /-- Reads the buffer of the message so many positions after the head. -/
  read : R -> Nat -> Nat -> Bytes
  /-- Writes data into the head message's buffer and completes the message. -/
  complete : R -> Status -> Bytes -> UInt32 -> R × Except String Unit

/-- Device address and endpoint address. -/
abbrev EndpointKey := UInt8 × UInt8

/--
URBs kept in flight per endpoint. Isochronous needs enough to cover the round
trip at one message per (micro)frame.
-/
def depth : EndpointKind -> Nat
  | .isochronous => 32
  | .bulk => 8
  | .control | .interrupt => 1

/-!
# Endpoints
-/

inductive Stage where
  | controlData
  | controlStatus
  | normal
  | isochronous
deriving DecidableEq, Repr

/-- Tokens count submissions; the 64-bit counter of the source does not wrap. -/
structure InFlight where
  token : Nat
  message : UInt64
  stage : Stage
  direction : Direction
  length : UInt32
  seqnum : UInt32
  /-- Unlinked because the endpoint was paused. -/
  unlinking : Bool
  /-- Nothing while the URB is still on the server. -/
  result : Option TransferResult
deriving DecidableEq

structure Setup where
  bytes : Vector UInt8 8
  dataDone : Bool
deriving DecidableEq, Repr

structure Endpoint (R : Type) where
  ring : R
  info : EndpointInfo
  inFlight : List InFlight
  setup : Option Setup
  /-- Original and filtered `wTotalLength` once a configuration was changed. -/
  hiddenConfig : Option (UInt16 × UInt16)

/-- A spawned task that waits for a reply and then calls `finish`. -/
structure Task where
  reply : Nat
  key : EndpointKey
  token : Nat
deriving DecidableEq, Repr

/-!
# The history
-/

inductive Cause where
  | replaced
  | removed
  | reset
  | synced
  | stale
  | unlinked
deriving DecidableEq, Repr

/-- A URB for the message so many positions after the head of a ring. -/
structure Submission (R : Type) where
  key : EndpointKey
  ahead : Nat
  ring : R
  flight : InFlight
  reply : Nat
  cmd : CmdSubmit

/-- A call of `complete` on a ring, with the URB whose result it carries. -/
structure Completion (R : Type) where
  key : EndpointKey
  ring : R
  origin : Option InFlight
  status : Status
  data : Bytes
  length : UInt32
  accepted : Bool

inductive Event (R : Type) where
  | added (key : EndpointKey)
  | removed (key : EndpointKey)
  | reset (key : EndpointKey)
  | submitted (s : Submission R)
  | finished (key : EndpointKey) (token : Nat) (result : TransferResult)
  | discarded (key : EndpointKey) (flights : List InFlight) (cause : Cause)
  | completed (c : Completion R)

/-- What the engine itself keeps, and the history. -/
structure Core (R : Type) where
  endpoints : Table EndpointKey (Endpoint R)
  /-- A `u64` in the source: an engine submits fewer than `2^64` URBs. -/
  nextToken : Nat
  tasks : List Task
  /-- Newest first. -/
  log : List (Event R)

def Core.put {R : Type} (c : Core R) (key : EndpointKey) (ep : Endpoint R) : Core R :=
  { c with endpoints := c.endpoints.insert key ep }

def Core.note {R : Type} (c : Core R) (event : Event R) : Core R :=
  { c with log := event :: c.log }

end Engine

structure Engine (R : Type) extends Engine.Core R where
  session : Client.Session
  uasWarned : Bool
  /-- What other tasks do to the session before each call the engine makes. -/
  schedule : List (List Client.Step)
  stuck : Bool

namespace Engine

variable {R : Type}

def start (device : Client.ExportedDevice) (schedule : List (List Client.Step)) :
    Engine R where
  endpoints := ∅
  nextToken := 0
  tasks := []
  log := []
  session := Client.Session.start device
  uasWarned := false
  schedule := schedule
  stuck := false

end Engine
end UsbIp
