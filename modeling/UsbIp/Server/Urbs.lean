import UsbIp.Foundation.Table
import UsbIp.Protocol.Replies

/-!
# The transfers of a server

The URBs of the server in `tests/support/server.rs`: what `serve_urbs` shares
with its endpoint workers, and what each of them does with it.  A cancel channel
is named by the number of channels created before it.  Its sender lives in
`pending`, so a job is cancelled exactly if no entry of `pending` has its
channel.  The jobs of all endpoint queues are kept in one list in the order in
which they were queued; a worker takes the first job of its address.

`answers` and `ended` are a history and not part of the program: whether the end
of the channel to the writer was put into it, and which replies before that,
oldest first.
-/

namespace UsbIp
namespace Server

open Foundation
open Protocol

/-!
# URBs and what becomes of them
-/

def econnreset : Int32 := 104

structure Urb where
  seqnum : UInt32
  devid : UInt32
  direction : UInt32
  ep : UInt32
  transferFlags : UInt32
  length : UInt32
  startFrame : UInt32
  numberOfPackets : UInt32
  interval : UInt32
  setup : Vector UInt8 8
  data : Bytes
  iso : List IsoPacketDescriptor
deriving DecidableEq, Repr

def Urb.isIn (urb : Urb) : Bool :=
  urb.direction = 1

def Urb.address (urb : Urb) : UInt8 :=
  urb.ep.toUInt8 ||| (if urb.isIn then 0x80 else 0)

def portResetSetup : Bytes := [0x23, 0x03, 0x04, 0x00]

def Urb.portReset (urb : Urb) : Bool :=
  urb.ep = 0 ∧ urb.setup.toList.take 4 = portResetSetup

def urbOf (cmd : CmdSubmit) : Urb where
  seqnum := cmd.seqnum
  devid := cmd.devid
  direction := cmd.direction
  ep := cmd.ep
  transferFlags := cmd.transferFlags
  length := cmd.transferBufferLength
  startFrame := cmd.startFrame
  numberOfPackets :=
    if cmd.isoPackets.isEmpty then 0 else UInt32.ofNat cmd.isoPackets.length
  interval := cmd.interval
  setup := cmd.setup
  data := cmd.data
  iso := cmd.isoPackets

structure Completion where
  status : Int32
  data : Bytes
  /-- For OUT transfers; IN transfers report the length of the data. -/
  actualLength : Option UInt32
  iso : List IsoPacketDescriptor
  startFrame : UInt32
deriving DecidableEq, Repr

def Completion.ok (data : Bytes) : Completion where
  status := 0
  data := data
  actualLength := none
  iso := []
  startFrame := 0

def Completion.written (length : UInt32) : Completion :=
  { Completion.ok [] with actualLength := some length }

inductive Outcome where
  | complete (c : Completion)
  /-- Writes these bytes instead of a well formed reply. -/
  | raw (bytes : Bytes)
  /-- Drops the connection. -/
  | disconnect
deriving DecidableEq, Repr

/-!
# Replies
-/

def Urb.actual (urb : Urb) (c : Completion) : UInt32 :=
  if urb.isIn then UInt32.ofNat c.data.length else c.actualLength.getD urb.length

/-- The descriptors of a reply: those of the URB if the completion has none. -/
def Urb.isoOf (urb : Urb) (c : Completion) : List IsoPacketDescriptor :=
  if c.iso.isEmpty then urb.iso else c.iso

def retSubmit (urb : Urb) (c : Completion) : Bytes :=
  let packets :=
    if c.iso.isEmpty ∧ ¬ urb.iso.isEmpty then urb.iso.length else c.iso.length
  [usbipRetSubmit, urb.seqnum, 0, 0, 0, c.status.toUInt32, urb.actual c, c.startFrame,
      UInt32.ofNat packets, 0].flatMap putU32 ++
    (List.replicate 8 0 ++
      ((if urb.isIn then c.data else []) ++
        (urb.isoOf c).flatMap IsoPacketDescriptor.encode))

def retUnlink (seqnum : UInt32) (status : Int32) : Bytes :=
  [usbipRetUnlink, seqnum, 0, 0, 0, status.toUInt32].flatMap putU32 ++ List.replicate 24 0

def Urb.reply (urb : Urb) (c : Completion) : RetSubmit where
  seqnum := urb.seqnum
  status := c.status
  actualLength := urb.actual c
  startFrame := c.startFrame
  errorCount := 0
  data := if urb.isIn then c.data else []
  isoPackets := urb.isoOf c

def Urb.serverSubmit (urb : Urb) (c : Completion) : ServerSubmit where
  ret := urb.reply c
  unused := Vector.replicate 12 0
  padding := Vector.replicate 8 0
  noCount := false

def serverUnlink (seqnum : UInt32) (status : Int32) : ServerUnlink where
  ret := { seqnum := seqnum, status := status }
  unused := Vector.replicate 12 0
  padding := Vector.replicate 24 0

theorem retSubmit_eq_encode (urb : Urb) (c : Completion) :
    retSubmit urb c = (urb.serverSubmit c).encode := by
  have hzeros : (putU32 0 ++ (putU32 0 ++ putU32 0) : Bytes) =
      (Vector.replicate 12 (0 : UInt8)).toList := by decide
  have hcount : (urb.serverSubmit c).count =
      UInt32.ofNat (if c.iso.isEmpty ∧ ¬ urb.iso.isEmpty then urb.iso.length
        else c.iso.length) := by
    have hnone : ¬ ((urb.serverSubmit c).noCount ∧
        (urb.serverSubmit c).ret.isoPackets = []) := fun h => Bool.noConfusion h.left
    rw [ServerSubmit.count, if_neg hnone]
    show UInt32.ofNat (urb.isoOf c).length = _
    cases hiso : c.iso <;> cases hurb : urb.iso <;> simp [Urb.isoOf, hiso, hurb]
  rw [ServerSubmit.encode, ServerSubmit.header, hcount]
  simp only [retSubmit, List.flatMap_cons, List.flatMap_nil, List.append_nil,
    List.append_assoc, putI32, Urb.serverSubmit, Urb.reply, ← hzeros]
  rfl

theorem retUnlink_eq_encode (seqnum : UInt32) (status : Int32) :
    retUnlink seqnum status = (serverUnlink seqnum status).encode := by
  have hzeros : (putU32 0 ++ (putU32 0 ++ putU32 0) : Bytes) =
      (Vector.replicate 12 (0 : UInt8)).toList := by decide
  rw [ServerUnlink.encode]
  simp only [retUnlink, List.flatMap_cons, List.flatMap_nil, List.append_nil,
    List.append_assoc, putI32, serverUnlink, ← hzeros]
  rfl

/-!
# Answers
-/

/-- A reply, with the cancel channel of the job that it is for. -/
inductive Answer where
  | ret (cancel : Nat) (urb : Urb) (c : Completion)
  | unlink (seqnum target : UInt32) (cancelled : Option Nat)
deriving DecidableEq, Repr

def Answer.seqnum : Answer -> UInt32
  | Answer.ret _ urb _ => urb.seqnum
  | Answer.unlink seqnum _ _ => seqnum

def unlinkStatus (cancelled : Option Nat) : Int32 :=
  if cancelled.isSome then -econnreset else 0

def Answer.encode : Answer -> Bytes
  | Answer.ret _ urb c => retSubmit urb c
  | Answer.unlink seqnum _ cancelled => retUnlink seqnum (unlinkStatus cancelled)

/-- What is sent to the writer for an outcome; its end stands for a disconnect. -/
def Outcome.message (urb : Urb) : Outcome -> Option Bytes
  | Outcome.complete c => some (retSubmit urb c)
  | Outcome.raw bytes => some bytes
  | Outcome.disconnect => none

/-!
# What the loop and the workers share
-/

inductive Event where
  | submit (urb : Urb)
  | unlink (seqnum target : UInt32) (found : Bool)
  /-- A RET_SUBMIT was sent for this number. -/
  | completed (seqnum : UInt32)
  | disconnected
  | reset
deriving DecidableEq, Repr

structure Job where
  urb : Urb
  cancel : Nat
deriving DecidableEq, Repr

/-- The device does not see a port reset, which is answered at once. -/
def Job.outcome (job : Job) (outcome : Outcome) : Outcome :=
  if job.urb.portReset then Outcome.complete (Completion.written 0) else outcome

structure Urbs where
  pending : Table UInt32 Nat
  jobs : List Job
  cancels : Nat
  /-- Newest first. -/
  log : List Event
  answers : List Answer
  ended : Bool

def Urbs.initial : Urbs where
  pending := ∅
  jobs := []
  cancels := 0
  log := []
  answers := []
  ended := false

/-- A reply goes to the writer. What is put behind the end of its channel is lost. -/
def Urbs.put (u : Urbs) (answer : Answer) : Urbs :=
  if u.ended then u else { u with answers := u.answers ++ [answer] }

@[simp] theorem Urbs.put_pending (u : Urbs) (answer : Answer) :
    (u.put answer).pending = u.pending := by
  unfold Urbs.put
  split <;> rfl

@[simp] theorem Urbs.put_jobs (u : Urbs) (answer : Answer) :
    (u.put answer).jobs = u.jobs := by
  unfold Urbs.put
  split <;> rfl

@[simp] theorem Urbs.put_cancels (u : Urbs) (answer : Answer) :
    (u.put answer).cancels = u.cancels := by
  unfold Urbs.put
  split <;> rfl

@[simp] theorem Urbs.put_ended (u : Urbs) (answer : Answer) :
    (u.put answer).ended = u.ended := by
  unfold Urbs.put
  split <;> rfl

def Urbs.submit (u : Urbs) (urb : Urb) : Urbs :=
  { u with
    pending := u.pending.insert urb.seqnum u.cancels
    jobs := u.jobs ++ [{ urb := urb, cancel := u.cancels }]
    cancels := u.cancels + 1
    log :=
      if urb.portReset then Event.reset :: Event.submit urb :: u.log
      else Event.submit urb :: u.log }

/-- A CMD_UNLINK: the entry of its target is taken out, which cancels the job. -/
def Urbs.unlink (u : Urbs) (seqnum target : UInt32) : Urbs :=
  { u with
    pending := u.pending.erase target
    log := Event.unlink seqnum target (u.pending.lookup target).isSome :: u.log }.put
      (Answer.unlink seqnum target (u.pending.lookup target))

@[simp] theorem Urbs.unlink_jobs (u : Urbs) (seqnum target : UInt32) :
    (u.unlink seqnum target).jobs = u.jobs :=
  Urbs.put_jobs _ _

@[simp] theorem Urbs.unlink_pending (u : Urbs) (seqnum target : UInt32) :
    (u.unlink seqnum target).pending = u.pending.erase target :=
  Urbs.put_pending _ _

@[simp] theorem Urbs.unlink_cancels (u : Urbs) (seqnum target : UInt32) :
    (u.unlink seqnum target).cancels = u.cancels :=
  Urbs.put_cancels _ _

@[simp] theorem Urbs.unlink_ended (u : Urbs) (seqnum target : UInt32) :
    (u.unlink seqnum target).ended = u.ended :=
  Urbs.put_ended _ _

def Job.at (address : UInt8) (job : Job) : Bool :=
  job.urb.address = address

def Urbs.answer (u : Urbs) (job : Job) : Outcome -> Urbs
  | Outcome.complete c => u.put (Answer.ret job.cancel job.urb c)
  | Outcome.raw _ => u
  | Outcome.disconnect => { u with ended := true }

/--
The first job of an address comes to an outcome. The unlink path removes the
entry first, so a cancelled URB never replies.
-/
def Urbs.finish (u : Urbs) (address : UInt8) (outcome : Outcome) :
    Urbs × Option (Option Bytes) :=
  match u.jobs.find? (Job.at address) with
  | none => (u, none)
  | some job =>
      let u := { u with jobs := u.jobs.eraseP (Job.at address) }
      match u.pending.lookup job.urb.seqnum with
      | none => (u, none)
      | some _ =>
          ({ u with
              pending := u.pending.erase job.urb.seqnum
              log := Event.completed job.urb.seqnum :: u.log }.answer job
                (job.outcome outcome),
            some ((job.outcome outcome).message job.urb))

/-- The worker of an address drops a job that was cancelled. -/
def Urbs.skip (u : Urbs) (address : UInt8) : Urbs :=
  match u.jobs.find? (Job.at address) with
  | none => u
  | some job =>
      if Table.hasValue u.pending job.cancel then u
      else { u with jobs := u.jobs.eraseP (Job.at address) }

/-- The loop of `serve_urbs` is left, which ends the workers as well. -/
def Urbs.stop (u : Urbs) : Urbs :=
  { u with pending := ∅, jobs := [], log := Event.disconnected :: u.log, ended := true }

/-!
# Commands taken
-/

def Event.isCommand : Event -> Bool
  | Event.submit _ => true
  | Event.unlink _ _ _ => true
  | _ => false

def Urbs.taken (u : Urbs) : Nat :=
  u.log.countP Event.isCommand

@[simp] theorem Urbs.put_taken (u : Urbs) (answer : Answer) :
    (u.put answer).taken = u.taken := by
  unfold Urbs.put
  split <;> rfl

@[simp] theorem Urbs.submit_taken (u : Urbs) (urb : Urb) :
    (u.submit urb).taken = u.taken + 1 := by
  unfold Urbs.taken Urbs.submit
  dsimp only
  split <;> simp [List.countP_cons, Event.isCommand]

@[simp] theorem Urbs.unlink_taken (u : Urbs) (seqnum target : UInt32) :
    (u.unlink seqnum target).taken = u.taken + 1 := by
  unfold Urbs.unlink
  rw [Urbs.put_taken]
  simp [Urbs.taken, List.countP_cons, Event.isCommand]

@[simp] theorem Urbs.stop_taken (u : Urbs) : u.stop.taken = u.taken := by
  simp [Urbs.taken, Urbs.stop, Event.isCommand]

/-!
# What a worker can do
-/

/-- A worker does nothing, drops a job, or takes a pending job out and answers it. -/
theorem Urbs.finish_cases (u : Urbs) (address : UInt8) (outcome : Outcome) :
    u.finish address outcome = (u, none) ∨
      exists front job back, u.jobs = front ++ job :: back ∧
        u.jobs.find? (Job.at address) = some job ∧ job.urb.address = address ∧
        (forall other, other ∈ front -> other.urb.address ≠ address) ∧
        ((u.pending.lookup job.urb.seqnum = none ∧
            u.finish address outcome = ({ u with jobs := front ++ back }, none)) ∨
          exists cancel, u.pending.lookup job.urb.seqnum = some cancel ∧
            u.finish address outcome =
              ({ u with
                  jobs := front ++ back
                  pending := u.pending.erase job.urb.seqnum
                  log := Event.completed job.urb.seqnum :: u.log }.answer job
                    (job.outcome outcome),
                some ((job.outcome outcome).message job.urb))) := by
  unfold Urbs.finish
  cases hfind : u.jobs.find? (Job.at address) with
  | none => exact Or.inl rfl
  | some job =>
      right
      rcases List.find?_eq_some_iff_append.mp hfind with ⟨hjob, front, back, hsplit, hfront⟩
      have herase : u.jobs.eraseP (Job.at address) = front ++ back := by
        rw [hsplit, List.eraseP_append_right _ fun b hb => by simpa using hfront b hb]
        rw [List.eraseP_cons_of_pos hjob]
      refine ⟨front, job, back, hsplit, rfl, by simpa [Job.at] using hjob, ?_, ?_⟩
      · intro other hother
        simpa [Job.at] using hfront other hother
      · dsimp only
        rw [herase]
        cases hpending : u.pending.lookup job.urb.seqnum with
        | none => exact Or.inl ⟨rfl, rfl⟩
        | some cancel => exact Or.inr ⟨cancel, rfl, rfl⟩

theorem Urbs.skip_cases (u : Urbs) (address : UInt8) :
    u.skip address = u ∨
      exists front job back, u.jobs = front ++ job :: back ∧ job.urb.address = address ∧
        (forall n, u.pending.lookup n ≠ some job.cancel) ∧
        u.skip address = { u with jobs := front ++ back } := by
  unfold Urbs.skip
  cases hfind : u.jobs.find? (Job.at address) with
  | none => exact Or.inl rfl
  | some job =>
      dsimp only
      split
      · exact Or.inl rfl
      · rename_i hvalue
        right
        rcases List.find?_eq_some_iff_append.mp hfind with ⟨hjob, front, back, hsplit, hfront⟩
        refine ⟨front, job, back, hsplit, by simpa [Job.at] using hjob, ?_, ?_⟩
        · intro n hn
          exact hvalue (Table.hasValue_iff.mpr ⟨n, hn⟩)
        · rw [hsplit, List.eraseP_append_right _ fun b hb => by simpa using hfront b hb]
          rw [List.eraseP_cons_of_pos hjob]

end Server
end UsbIp
