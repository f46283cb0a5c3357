import UsbIp.Client.Shared
import UsbIp.Foundation.Transition

/-!
# Sessions

A session is the shared state, the reader task, the writer task and the threads
that are in the middle of `unlink_all`.  A step is one locked section of one of
them, or something the server or the network does.  Steps that are not possible
in a state leave it alone, so every list of steps is a run, and every
interleaving of the tasks and threads is one of them.
-/

namespace UsbIp
namespace Client

open Foundation
open Protocol

/-!
# The imported device
-/

structure Interface where
  class_ : UInt8
  subclass : UInt8
  protocol : UInt8
deriving DecidableEq, Repr

structure ExportedDevice where
  path : String
  busid : String
  busnum : UInt32
  devnum : UInt32
  speed : Speed
  idVendor : UInt16
  idProduct : UInt16
  bcdDevice : UInt16
  deviceClass : UInt8
  deviceSubclass : UInt8
  deviceProtocol : UInt8
  configurationValue : UInt8
  numConfigurations : UInt8
  numInterfaces : UInt8
  interfaces : List Interface
deriving DecidableEq, Repr

def ExportedDevice.devid (device : ExportedDevice) : UInt32 :=
  (device.busnum <<< 16) ||| (device.devnum &&& 0xffff)

/-!
# Reading one reply
-/

inductive Looked where
  | payload (header : SubmitHeader) (direction : Direction) (length : UInt32)
  | done (shared : Shared)

/-- `read_one` up to the payload: a RET_UNLINK is finished here. -/
def lookupReply (s : Shared) (bytes : Bytes) : Except ProtocolError (Looked × Bytes) := do
  let (reply, rest) ← readReplyHeader bytes
  match reply with
  | Reply.submit header =>
      match s.state.request header.seqnum with
      | some (direction, length) => return (Looked.payload header direction length, rest)
      -- Without the request we cannot tell whether a payload follows.
      | none => throw (.invalid s!"RET_SUBMIT for unknown seqnum {header.seqnum}")
  | Reply.unlink ret => return (Looked.done (s.finishUnlink ret), rest)

/-- `read_one` from the payload on: the second locked section. -/
def removeReply (s : Shared) (header : SubmitHeader) (direction : Direction)
    (length : UInt32) (bytes : Bytes) : Except ProtocolError (Shared × Bytes) := do
  let (ret, rest) ← readSubmitPayload bytes header (direction = Direction.in) length
  return (s.finishSubmit ret, rest)

/-- `read_one` with nothing in between its two locked sections. -/
def readOne (s : Shared) (bytes : Bytes) : Except ProtocolError (Shared × Bytes) := do
  let (looked, rest) ← lookupReply s bytes
  match looked with
  | Looked.payload header direction length => removeReply s header direction length rest
  | Looked.done s => return (s, rest)

/-!
# Tasks
-/

inductive ReaderPhase where
  | header
  | payload (header : SubmitHeader) (direction : Direction) (length : UInt32)
  | failed (reason : String)
  | stopped
deriving DecidableEq, Repr

inductive WriterPhase where
  | receiving
  | batching
  | writing
  | stopped
deriving DecidableEq, Repr

def batchLimit : Nat := 256 * 1024

structure Session where
  shared : Shared
  device : ExportedDevice
  /-- Bytes from the server that the reader has not consumed. -/
  input : Bytes
  /-- The server has closed its side of the connection. -/
  ended : Bool
  reader : ReaderPhase
  writer : WriterPhase
  /-- What is left to write of the writer's current batch. -/
  batch : Bytes
  /-- Every byte written to the server. -/
  written : Bytes
  /-- The targets left to the threads inside `unlink_all`. -/
  threads : List (List UInt32)

def Session.start (device : ExportedDevice) : Session where
  shared := Shared.initial device.devid
  device := device
  input := []
  ended := false
  reader := ReaderPhase.header
  writer := WriterPhase.receiving
  batch := []
  written := []
  threads := []

def closeReason : ProtocolError -> String
  | .io .unexpectedEof _ => "server closed the connection"
  | e => e.toString

/-- The reader meets an error; short input is only one once the server is gone. -/
def Session.readerFails (s : Session) (e : ProtocolError) : Session :=
  match e with
  | .io .unexpectedEof _ =>
      if s.ended then { s with reader := ReaderPhase.failed (closeReason e) } else s
  | _ => { s with reader := ReaderPhase.failed (closeReason e) }

def Session.readHeader (s : Session) : Session :=
  match s.reader with
  | ReaderPhase.header =>
      match lookupReply s.shared s.input with
      | .ok (Looked.payload header direction length, rest) =>
          { s with input := rest, reader := ReaderPhase.payload header direction length }
      | .ok (Looked.done shared, rest) => { s with shared := shared, input := rest }
      | .error e => s.readerFails e
  | _ => s

def Session.readPayload (s : Session) : Session :=
  match s.reader with
  | ReaderPhase.payload header direction length =>
      match removeReply s.shared header direction length s.input with
      | .ok (shared, rest) =>
          { s with shared := shared, input := rest, reader := ReaderPhase.header }
      | .error e => s.readerFails e
  | _ => s

def Session.readerCloses (s : Session) : Session :=
  match s.reader with
  | ReaderPhase.failed reason =>
      { s with shared := s.shared.close reason, reader := ReaderPhase.stopped }
  | _ => s

def Session.takeFrame (s : Session) : Session :=
  match s.writer, s.shared.frames with
  | WriterPhase.receiving, frame :: rest =>
      { s with
        shared := { s.shared with frames := rest }
        batch := s.batch ++ frame
        writer := WriterPhase.batching }
  | WriterPhase.batching, frame :: rest =>
      if s.batch.length < batchLimit then
        { s with shared := { s.shared with frames := rest }, batch := s.batch ++ frame }
      else
        s
  | _, _ => s

def Session.writeBytes (s : Session) (n : Nat) : Session :=
  match s.writer with
  | WriterPhase.writing =>
      { s with
        written := s.written ++ s.batch.take n
        batch := s.batch.drop n
        writer :=
          if (s.batch.drop n).isEmpty then WriterPhase.receiving else WriterPhase.writing }
  | _ => s

def Session.writerFails (s : Session) (text : String) : Session :=
  match s.writer with
  | WriterPhase.writing =>
      { s with
        shared := s.shared.close ("write failed: " ++ text)
        writer := WriterPhase.stopped }
  | _ => s

/-!
# Steps
-/

inductive Step where
  /-- Some thread calls `submit`. -/
  | submit (req : SubmitRequest)
  /-- Some thread calls `unlink`. -/
  | unlink (target : UInt32)
  /-- Some thread calls `unlink_all`: its snapshot, in the table's own order. -/
  | unlinkAll (targets : List UInt32)
  /-- A thread inside `unlink_all` unlinks its next target. -/
  | unlinkNext (thread : Nat)
  /-- Some thread calls `close`. -/
  | close
  /-- Bytes arrive from the server. -/
  | receive (bytes : Bytes)
  /-- The server closes its side. -/
  | hangUp
  /-- Reading fails with another error than the end of the stream. -/
  | readError (text : String)
  | readHeader
  | readPayload
  | readerCloses
  /-- The reader sees that the session is closed. -/
  | readerStops
  | takeFrame
  /-- The writer finds no frame to add to its batch, or the batch is full. -/
  | sealBatch
  | writeBytes (n : Nat)
  | writerFails (text : String)
  /-- The writer sees that the session is closed. -/
  | writerStops

/-- The state after a local call, which stays as it is if the call does not return. -/
def Session.withShared (s : Session) (shared : Option Shared) : Session :=
  match shared with
  | some shared => { s with shared := shared }
  | none => s

def Session.unlinkNext (s : Session) (thread : Nat) : Session :=
  match s.threads[thread]? with
  | some (target :: rest) =>
      { s.withShared (s.shared.unlink target) with threads := s.threads.set thread rest }
  | _ => s

def Session.step (s : Session) : Step -> Session
  | Step.submit req => s.withShared ((s.shared.submit req).map Prod.snd)
  | Step.unlink target => s.withShared (s.shared.unlink target)
  | Step.unlinkAll targets =>
      if targets.isPerm s.shared.state.submits.keys then
        { s with threads := s.threads ++ [targets] }
      else
        s
  | Step.unlinkNext thread => s.unlinkNext thread
  | Step.close => { s with shared := s.shared.close "closed by client" }
  | Step.receive bytes => if s.ended then s else { s with input := s.input ++ bytes }
  | Step.hangUp => { s with ended := true }
  | Step.readError text =>
      match s.reader with
      | ReaderPhase.header | ReaderPhase.payload _ _ _ =>
          { s with reader := ReaderPhase.failed (closeReason (.io .other text)) }
      | _ => s
  | Step.readHeader => s.readHeader
  | Step.readPayload => s.readPayload
  | Step.readerCloses => s.readerCloses
  | Step.readerStops =>
      if s.shared.state.closed.isSome then { s with reader := ReaderPhase.stopped } else s
  | Step.takeFrame => s.takeFrame
  | Step.sealBatch =>
      match s.writer with
      | WriterPhase.batching => { s with writer := WriterPhase.writing }
      | _ => s
  | Step.writeBytes n => s.writeBytes n
  | Step.writerFails text => s.writerFails text
  | Step.writerStops =>
      match s.writer with
      | WriterPhase.receiving =>
          if s.shared.state.closed.isSome then
            { s with writer := WriterPhase.stopped }
          else
            s
      | _ => s

theorem Session.step_submit {s : Session} {req : SubmitRequest}
    {result : Except TransferError (UInt32 × Nat)} {shared : Shared}
    (h : s.shared.submit req = some (result, shared)) :
    s.step (Step.submit req) = { s with shared := shared } := by
  simp only [Session.step, h, Option.map_some, Session.withShared]

theorem Session.step_unlink {s : Session} {target : UInt32} {shared : Shared}
    (h : s.shared.unlink target = some shared) :
    s.step (Step.unlink target) = { s with shared := shared } := by
  simp only [Session.step, h, Session.withShared]

def Session.Reachable (s : Session) : Prop :=
  exists device steps, s = List.foldl Session.step (Session.start device) steps

theorem Session.reachable_of_invariant {I : Session -> Prop}
    (hstart : forall device, I (Session.start device))
    (hstep : forall s st, I s -> I (s.step st))
    {s : Session} (h : s.Reachable) : I s := by
  rcases h with ⟨device, steps, rfl⟩
  exact invariant_of_step hstep steps (hstart device)

/-!
# What a step does to the shared state

Every step either leaves the shared state alone, or is one of the locked
sections, or takes a frame out of the channel to the writer.  Invariants of the
shared state are proved once per section.
-/

/-- A locked section; a submit names its request, the others do not depend on one. -/
inductive Section : Option SubmitRequest -> Shared -> Shared -> Prop where
  | submit {s s' : Shared} {req : SubmitRequest}
      {result : Except TransferError (UInt32 × Nat)} :
      s.submit req = some (result, s') -> Section (some req) s s'
  | unlink {request : Option SubmitRequest} {s s' : Shared} {target : UInt32} :
      s.unlink target = some s' -> Section request s s'
  | close {request : Option SubmitRequest} {s : Shared} (reason : String) :
      Section request s (s.close reason)
  | finishSubmit {request : Option SubmitRequest} {s : Shared} (ret : RetSubmit) :
      Section request s (s.finishSubmit ret)
  | finishUnlink {request : Option SubmitRequest} {s : Shared} (ret : RetUnlink) :
      Section request s (s.finishUnlink ret)

def Step.request? : Step -> Option SubmitRequest
  | Step.submit req => some req
  | _ => none

inductive Session.Quiet (s : Session) : Step -> Shared -> Prop where
  | submit {req : SubmitRequest} {result : Except TransferError (UInt32 × Nat)}
      {shared : Shared} :
      s.shared.submit req = some (result, shared) -> Session.Quiet s (Step.submit req) shared
  | unlink {target : UInt32} {shared : Shared} :
      s.shared.unlink target = some shared -> Session.Quiet s (Step.unlink target) shared
  | unlinkNext {thread : Nat} {target : UInt32} {rest : List UInt32} {shared : Shared} :
      s.threads[thread]? = some (target :: rest) ->
      s.shared.unlink target = some shared -> Session.Quiet s (Step.unlinkNext thread) shared
  | close {st : Step} (reason : String) : Session.Quiet s st (s.shared.close reason)
  | finishUnlink {st : Step} (ret : RetUnlink) :
      Session.Quiet s st (s.shared.finishUnlink ret)

theorem Session.Quiet.section {s : Session} {st : Step} {shared : Shared}
    (h : s.Quiet st shared) : Section st.request? s.shared shared := by
  cases h with
  | submit hsubmit => exact Section.submit hsubmit
  | unlink hunlink => exact Section.unlink hunlink
  | unlinkNext _ hunlink => exact Section.unlink hunlink
  | close reason => exact Section.close reason
  | finishUnlink ret => exact Section.finishUnlink ret

theorem lookupReply_ok {s : Shared} {bytes rest : Bytes} {looked : Looked}
    (h : lookupReply s bytes = .ok (looked, rest)) :
    (exists header direction length,
      looked = Looked.payload header direction length ∧
        s.state.request header.seqnum = some (direction, length)) ∨
      exists ret, looked = Looked.done (s.finishUnlink ret) := by
  unfold lookupReply at h
  cases hread : readReplyHeader bytes with
  | error e =>
      rw [hread] at h
      cases h
  | ok pair =>
      rcases pair with ⟨reply, rest'⟩
      rw [hread] at h
      cases reply with
      | submit header =>
          cases hreq : s.state.request header.seqnum with
          | none =>
              simp [bind, Except.bind, hreq, throw, throwThe, MonadExceptOf.throw] at h
          | some request =>
              rcases request with ⟨direction, length⟩
              simp [bind, Except.bind, hreq, pure, Except.pure] at h
              exact Or.inl ⟨header, direction, length, h.left.symm, hreq⟩
      | unlink ret =>
          simp [bind, Except.bind, pure, Except.pure] at h
          exact Or.inr ⟨ret, h.left.symm⟩

theorem readSubmitPayload_seqnum {bytes rest : Bytes} {header : SubmitHeader}
    {dataExpected : Bool} {maxLength : UInt32} {ret : RetSubmit}
    (h : readSubmitPayload bytes header dataExpected maxLength = .ok (ret, rest)) :
    ret.seqnum = header.seqnum := by
  rcases readSubmitPayload_ok h with ⟨_, _, _, _, _, _, rfl⟩
  rfl

theorem removeReply_ok {s s' : Shared} {header : SubmitHeader} {direction : Direction}
    {length : UInt32} {bytes rest : Bytes}
    (h : removeReply s header direction length bytes = .ok (s', rest)) :
    exists ret, s' = s.finishSubmit ret ∧ ret.seqnum = header.seqnum := by
  unfold removeReply at h
  cases hread : readSubmitPayload bytes header (direction = Direction.in) length with
  | error e =>
      rw [hread] at h
      cases h
  | ok pair =>
      rcases pair with ⟨ret, rest'⟩
      rw [hread] at h
      simp [bind, Except.bind, pure, Except.pure] at h
      exact ⟨ret, h.left.symm, readSubmitPayload_seqnum hread⟩

@[simp] theorem Session.readerFails_shared (s : Session) (e : ProtocolError) :
    (s.readerFails e).shared = s.shared := by
  unfold Session.readerFails
  split
  · split <;> rfl
  · rfl

theorem Session.readHeader_shared (s : Session) :
    s.readHeader.shared = s.shared ∨
      exists ret, s.readHeader.shared = s.shared.finishUnlink ret := by
  unfold Session.readHeader
  split
  · split
    · exact Or.inl rfl
    · rename_i shared rest hlook
      rcases lookupReply_ok hlook with ⟨_, _, _, hpayload, _⟩ | ⟨ret, hdone⟩
      · cases hpayload
      · cases hdone
        exact Or.inr ⟨ret, rfl⟩
    · simp
  · exact Or.inl rfl

theorem Session.readPayload_shared (s : Session) :
    s.readPayload.shared = s.shared ∨
      exists ret, s.readPayload.shared = s.shared.finishSubmit ret := by
  unfold Session.readPayload
  split
  · split
    · rename_i hremove
      rcases removeReply_ok hremove with ⟨ret, hret, _⟩
      exact Or.inr ⟨ret, hret⟩
    · simp
  · exact Or.inl rfl

theorem Session.takeFrame_shared (s : Session) :
    exists frames, s.takeFrame.shared = { s.shared with frames := frames } := by
  unfold Session.takeFrame
  split
  · rename_i rest _ _
    exact ⟨rest, rfl⟩
  · rename_i rest _ _
    split
    · exact ⟨rest, rfl⟩
    · exact ⟨s.shared.frames, rfl⟩
  · exact ⟨s.shared.frames, rfl⟩

theorem Session.step_quiet (s : Session) (st : Step) (hframe : st ≠ Step.takeFrame)
    (hread : st ≠ Step.readPayload) :
    (s.step st).shared = s.shared ∨ s.Quiet st (s.step st).shared := by
  cases st with
  | submit req =>
      simp only [Session.step]
      cases hsub : s.shared.submit req with
      | none => exact Or.inl rfl
      | some pair => exact Or.inr (Session.Quiet.submit hsub)
  | unlink target =>
      simp only [Session.step]
      cases hun : s.shared.unlink target with
      | none => exact Or.inl rfl
      | some shared => exact Or.inr (Session.Quiet.unlink hun)
  | unlinkAll targets =>
      simp only [Session.step]
      split <;> exact Or.inl rfl
  | unlinkNext thread =>
      simp only [Session.step, Session.unlinkNext]
      split
      · rename_i target rest hthread
        cases hun : s.shared.unlink target with
        | none => exact Or.inl rfl
        | some shared => exact Or.inr (Session.Quiet.unlinkNext hthread hun)
      · exact Or.inl rfl
  | close => exact Or.inr (Session.Quiet.close _)
  | receive bytes =>
      simp only [Session.step]
      split <;> exact Or.inl rfl
  | hangUp => exact Or.inl rfl
  | readError text =>
      simp only [Session.step]
      split <;> exact Or.inl rfl
  | readHeader =>
      rcases s.readHeader_shared with h | ⟨ret, h⟩
      · exact Or.inl h
      · exact Or.inr (h ▸ Session.Quiet.finishUnlink ret)
  | readPayload => exact absurd rfl hread
  | readerCloses =>
      simp only [Session.step, Session.readerCloses]
      split
      · exact Or.inr (Session.Quiet.close _)
      · exact Or.inl rfl
  | readerStops =>
      simp only [Session.step]
      split <;> exact Or.inl rfl
  | takeFrame => exact absurd rfl hframe
  | sealBatch =>
      simp only [Session.step]
      split <;> exact Or.inl rfl
  | writeBytes n =>
      simp only [Session.step, Session.writeBytes]
      split <;> exact Or.inl rfl
  | writerFails text =>
      simp only [Session.step, Session.writerFails]
      split
      · exact Or.inr (Session.Quiet.close _)
      · exact Or.inl rfl
  | writerStops =>
      simp only [Session.step]
      split
      · split <;> exact Or.inl rfl
      · exact Or.inl rfl

theorem Session.step_section (s : Session) (st : Step) (hst : st ≠ Step.takeFrame) :
    (s.step st).shared = s.shared ∨
      Section st.request? s.shared (s.step st).shared := by
  by_cases hread : st = Step.readPayload
  · subst hread
    rcases s.readPayload_shared with h | ⟨ret, h⟩
    · exact Or.inl h
    · exact Or.inr (h ▸ Section.finishSubmit ret)
  · rcases s.step_quiet st hst hread with h | h
    · exact Or.inl h
    · exact Or.inr h.section

theorem Session.step_shared (s : Session) (st : Step) :
    (exists frames, (s.step st).shared = { s.shared with frames := frames }) ∨
      Section st.request? s.shared (s.step st).shared := by
  by_cases hst : st = Step.takeFrame
  · subst hst
    exact Or.inl s.takeFrame_shared
  · rcases s.step_section st hst with heq | hsection
    · exact Or.inl ⟨s.shared.frames, heq⟩
    · exact Or.inr hsection

/-- A property that every locked section keeps holds in every reachable session. -/
theorem Session.shared_invariant {I : Shared -> Prop}
    (hinit : forall devid, I (Shared.initial devid))
    (hframes : forall s frames, I s -> I { s with frames := frames })
    (hsection : forall request s s', Section request s s' -> I s -> I s')
    {s : Session} (h : s.Reachable) : I s.shared := by
  refine Session.reachable_of_invariant (I := fun s => I s.shared) ?_ ?_ h
  · intro device
    exact hinit device.devid
  · intro s st hs
    rcases s.step_shared st with ⟨frames, heq⟩ | hstep
    · rw [heq]
      exact hframes _ frames hs
    · exact hsection _ _ _ hstep hs

end Client
end UsbIp
