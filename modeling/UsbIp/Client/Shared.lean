import UsbIp.Foundation.Table
import UsbIp.Protocol.Framing

/-!
# The shared state of a session

The tables of `client.rs` behind the session lock, and the operations that take
the lock: submitting and unlinking transfers, closing the session, and the two
locked sections of the reader.  Each definition here is one locked section
together with the replies it sends.

A oneshot channel is named by the number of channels created before it, and
`sent` holds what has been sent into them.  `frames` is the channel to the
writer task.  The history `log` is not part of the program: it records what was
issued, received and closed, newest first, so that statements about a whole run
can refer to it.
-/

namespace UsbIp
namespace Client

open Foundation
open Protocol

/-!
# Requests and results
-/

structure SubmitRequest where
  ep : UInt8
  direction : Direction
  transferFlags : UInt32
  length : UInt32
  setup : Vector UInt8 8
  data : Bytes
  startFrame : UInt32
  interval : UInt32
  isoPackets : List IsoPacketDescriptor
deriving DecidableEq, Repr

def SubmitRequest.new (ep : UInt8) (direction : Direction) (length : UInt32) :
    SubmitRequest where
  ep := ep
  direction := direction
  transferFlags := 0
  length := length
  setup := Vector.replicate 8 0
  data := []
  startFrame := 0
  interval := 0
  isoPackets := []

inductive TransferError where
  | unlinked (status : Int32)
  | disconnected (reason : String)
  | invalid (text : String)
deriving DecidableEq, Repr

abbrev TransferResult := Except TransferError RetSubmit

/-!
# Tables
-/

structure PendingSubmit where
  direction : Direction
  length : UInt32
  reply : Nat
deriving DecidableEq, Repr

structure State where
  nextSeqnum : UInt32
  submits : Table UInt32 PendingSubmit
  /-- Unlink seqnum to the seqnum of the transfer it cancels. -/
  unlinks : Table UInt32 UInt32
  /-- Transfers resolved by RET_UNLINK, oldest first. -/
  unlinked : List (UInt32 × Direction × UInt32)
  closed : Option String

inductive Event where
  | submitted (reply : Nat) (cmd : CmdSubmit)
  | unlinking (reply : Nat) (cmd : CmdUnlink)
  | received (ret : RetSubmit)
  | confirmed (ret : RetUnlink)
  | closed (reason : String)
deriving DecidableEq, Repr

def Event.command? : Event -> Option Command
  | Event.submitted _ cmd => some (Command.submit cmd)
  | Event.unlinking _ cmd => some (Command.unlink cmd)
  | _ => none

structure Shared where
  devid : UInt32
  state : State
  channels : Nat
  sent : List (Nat × TransferResult)
  frames : List Bytes
  log : List Event

def Shared.issued (s : Shared) : List Command :=
  s.log.reverse.filterMap Event.command?

def State.initial : State where
  nextSeqnum := 0
  submits := ∅
  unlinks := ∅
  unlinked := []
  closed := none

def Shared.initial (devid : UInt32) : Shared where
  devid := devid
  state := State.initial
  channels := 0
  sent := []
  frames := []
  log := []

/-!
# Sequence numbers
-/

def State.Free (st : State) (n : UInt32) : Prop :=
  n ≠ 0 ∧ n ∉ st.submits ∧ n ∉ st.unlinks

instance (st : State) (n : UInt32) : Decidable (st.Free n) :=
  inferInstanceAs (Decidable (n ≠ 0 ∧ n ∉ st.submits ∧ n ∉ st.unlinks))

def nextSeqnumLoop (st : State) : Nat -> UInt32 -> Option UInt32
  | 0, _ => none
  | rounds + 1, n =>
      -- 0 is avoided because some servers treat it as "no request".
      if st.Free (n + 1) then some (n + 1) else nextSeqnumLoop st rounds (n + 1)

/-- Nothing is returned only if no number is free: the source then loops forever. -/
def nextSeqnum (st : State) : Option (UInt32 × State) :=
  match nextSeqnumLoop st UInt32.size st.nextSeqnum with
  | some n => some (n, { st with nextSeqnum := n })
  | none => none

/-!
# Local calls

A call that does not return, because `nextSeqnum` loops forever, is `none`.
-/

def SubmitRequest.command (req : SubmitRequest) (seqnum devid : UInt32) : CmdSubmit where
  seqnum := seqnum
  devid := devid
  direction := req.direction.toU32
  ep := (req.ep &&& 0x0f).toUInt32
  transferFlags := req.transferFlags
  transferBufferLength := req.length
  startFrame := req.startFrame
  interval := req.interval
  setup := req.setup
  data := req.data
  isoPackets := req.isoPackets

def Shared.register (s : Shared) (req : SubmitRequest) (seqnum : UInt32) (st : State) :
    Shared :=
  let cmd := req.command seqnum s.devid
  { s with
    state := { st with
      submits := st.submits.insert seqnum
        { direction := req.direction, length := req.length, reply := s.channels } }
    channels := s.channels + 1
    frames := s.frames ++ [cmd.encode]
    log := Event.submitted s.channels cmd :: s.log }

/-- `Session::submit`: the seqnum and the reply channel, or the error. -/
def Shared.submit (s : Shared) (req : SubmitRequest) :
    Option (Except TransferError (UInt32 × Nat) × Shared) :=
  if req.direction = Direction.out ∧ req.data.length ≠ req.length.toNat then
    some (.error (.invalid
      s!"OUT data is {req.data.length} bytes but length is {req.length}"), s)
  else if req.direction = Direction.in ∧ req.data ≠ [] then
    some (.error (.invalid "IN transfer carries data"), s)
  else
    match s.state.closed with
    | some reason => some (.error (.disconnected reason), s)
    | none =>
        match nextSeqnum s.state with
        | some (seqnum, st) => some (.ok (seqnum, s.channels), s.register req seqnum st)
        | none => none

def Shared.registerUnlink (s : Shared) (target : UInt32) (reply : Nat) (seqnum : UInt32)
    (st : State) : Shared :=
  let cmd : CmdUnlink := { seqnum, devid := s.devid, unlinkSeqnum := target }
  { s with
    state := { st with unlinks := st.unlinks.insert seqnum target }
    frames := s.frames ++ [cmd.encode]
    log := Event.unlinking reply cmd :: s.log }

/-- `Session::unlink`: unknown seqnums are ignored. -/
def Shared.unlink (s : Shared) (target : UInt32) : Option Shared :=
  match s.state.submits.lookup target with
  | none => some s
  | some p =>
      if s.state.closed.isSome ∨ Table.hasValue s.state.unlinks target then
        some s
      else
        match nextSeqnum s.state with
        | some (seqnum, st) => some (s.registerUnlink target p.reply seqnum st)
        | none => none

def Shared.close (s : Shared) (reason : String) : Shared :=
  match s.state.closed with
  | some _ => s
  | none =>
      { s with
        state := { s.state with closed := some reason, unlinks := ∅, submits := ∅ }
        sent := s.state.submits.entries.map
          (fun e => (e.2.reply, .error (.disconnected reason))) ++ s.sent
        log := Event.closed reason :: s.log }

/-!
# The reader's locked sections
-/

/-- What was asked for under a seqnum, pending or already unlinked. -/
def State.request (st : State) (seqnum : UInt32) : Option (Direction × UInt32) :=
  match st.submits.lookup seqnum, st.unlinked.find? (fun u => u.1 = seqnum) with
  | some p, _ => some (p.direction, p.length)
  | none, some (_, direction, length) => some (direction, length)
  | none, none => none

def State.forget (st : State) (seqnum : UInt32) : State :=
  { st with
    unlinks := Table.retain (fun _ t => t ≠ seqnum) st.unlinks
    unlinked := st.unlinked.filter fun u => u.1 ≠ seqnum
    submits := st.submits.erase seqnum }

/-- A RET_SUBMIT with its payload: the transfer is taken out and answered. -/
def Shared.finishSubmit (s : Shared) (ret : RetSubmit) : Shared :=
  { s with
    state := s.state.forget ret.seqnum
    sent :=
      match s.state.submits.lookup ret.seqnum with
      | some p => (p.reply, .ok ret) :: s.sent
      | none => s.sent
    log := Event.received ret :: s.log }

def unlinkedCapacity : Nat := 256

def rememberUnlinked (unlinked : List (UInt32 × Direction × UInt32))
    (entry : UInt32 × Direction × UInt32) : List (UInt32 × Direction × UInt32) :=
  (if unlinked.length = unlinkedCapacity then unlinked.tail else unlinked) ++ [entry]

/-- A RET_UNLINK: the transfer its unlink targets is taken out and answered. -/
def Shared.finishUnlink (s : Shared) (ret : RetUnlink) : Shared :=
  let s := { s with log := Event.confirmed ret :: s.log }
  match s.state.unlinks.lookup ret.seqnum with
  | none => s
  | some target =>
      let st := { s.state with unlinks := s.state.unlinks.erase ret.seqnum }
      match st.submits.lookup target with
      | none => { s with state := st }
      | some p =>
          { s with
            state := { st with
              submits := st.submits.erase target
              unlinked := rememberUnlinked st.unlinked (target, p.direction, p.length) }
            sent := (p.reply, .error (.unlinked ret.status)) :: s.sent }

end Client
end UsbIp
