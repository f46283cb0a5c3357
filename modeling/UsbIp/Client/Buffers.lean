import UsbIp.Client.InStep
import UsbIp.Protocol.Buffers

/-!
# The buffers of a session

The reader allocates the data buffer of a reply before its data arrives, and what was
asked for is all that bounds it.  Nothing looks at `maxTransferLength`: a reply to an
IN transfer of a greater length can make the reader allocate more than that.  As long
as nobody submits such a transfer, no reply can.
-/

namespace UsbIp
namespace Client

open Foundation
open Protocol

/-!
# Single replies
-/

def Within (direction : Direction) (length : UInt32) : Prop :=
  direction = Direction.out ∨ length ≤ maxTransferLength

instance (direction : Direction) (length : UInt32) : Decidable (Within direction length) :=
  inferInstanceAs (Decidable (direction = Direction.out ∨ length ≤ maxTransferLength))

def SubmitRequest.Within (req : SubmitRequest) : Prop :=
  Client.Within req.direction req.length

/-- The buffer of a reply, for a transfer in some direction and of some length. -/
def replyBuffer (bytes : Bytes) (header : SubmitHeader) (direction : Direction)
    (length : UInt32) : Nat :=
  bufferSize bytes header (direction = Direction.in) length

theorem replyBuffer_le {direction : Direction} {length : UInt32}
    (h : Within direction length) (bytes : Bytes) (header : SubmitHeader) :
    replyBuffer bytes header direction length ≤ maxTransferLength.toNat := by
  cases direction with
  | out =>
      have hnone : replyBuffer bytes header Direction.out length = 0 :=
        bufferSize_of_unexpected bytes header length
      rw [hnone]
      exact Nat.zero_le _
  | «in» =>
      rcases h with hout | hlength
      · cases hout
      · exact Nat.le_trans (bufferSize_le bytes header _ length)
          (UInt32.le_iff_toNat_le.mp hlength)

def fullReply (seqnum length : UInt32) : ServerSubmit where
  ret :=
    { seqnum := seqnum, status := 0, actualLength := length, startFrame := 0,
      errorCount := 0, data := [], isoPackets := [] }
  unused := Vector.replicate 12 0
  padding := Vector.replicate 8 0
  noCount := true

theorem replyBuffer_full (seqnum length : UInt32) (bytes : Bytes) :
    replyBuffer bytes (fullReply seqnum length).ret.submitHeader Direction.in length =
      length.toNat :=
  bufferSize_of_expected (UInt32.not_lt.mpr (UInt32.le_refl length)) bytes

/-- The buffers of the replies that the reader may find for a number, whatever arrives. -/
def Shared.BuffersWithin (s : Shared) (n : UInt32) : Prop :=
  forall bytes rest header direction length,
    lookupReply s bytes = .ok (Looked.payload header direction length, rest) ->
    header.seqnum = n ->
    replyBuffer rest header direction length ≤ maxTransferLength.toNat

/-!
# What the tables say
-/

structure State.Within (st : State) : Prop where
  pending : forall n p, st.submits.lookup n = some p -> Client.Within p.direction p.length
  remembered : forall u, u ∈ st.unlinked -> Client.Within u.2.1 u.2.2

theorem State.Within.request {st : State} (h : st.Within) {n : UInt32}
    {direction : Direction} {length : UInt32} (hn : st.request n = some (direction, length)) :
    Client.Within direction length := by
  unfold State.request at hn
  cases hp : st.submits.lookup n with
  | some p =>
      simp only [hp] at hn
      cases hn
      exact h.pending n p hp
  | none =>
      cases hfind : st.unlinked.find? (fun u => u.1 = n) with
      | none =>
          simp only [hp, hfind] at hn
          cases hn
      | some u =>
          simp only [hp, hfind] at hn
          cases hn
          exact h.remembered u (List.mem_of_find?_eq_some hfind)

theorem State.Within.remember {st : State} (h : st.Within)
    {entry : UInt32 × Direction × UInt32} (hentry : Client.Within entry.2.1 entry.2.2) :
    forall u, u ∈ rememberUnlinked st.unlinked entry -> Client.Within u.2.1 u.2.2 := by
  intro u hu
  unfold rememberUnlinked at hu
  rcases List.mem_append.mp hu with hold | hnew
  · apply h.remembered
    split at hold
    · exact List.mem_of_mem_tail hold
    · exact hold
  · rw [List.mem_singleton.mp hnew]
    exact hentry

theorem Section.within {request : Option SubmitRequest} {s s' : Shared}
    (hstep : Section request s s') (hreq : forall req, request = some req -> req.Within)
    (h : s.state.Within) : s'.state.Within := by
  cases hstep with
  | @submit _ _ req _ hsubmit =>
      rcases Shared.submit_cases hsubmit with ⟨_, _, rfl, _⟩ | ⟨seqnum, _, _, _, _, rfl⟩
      · exact h
      · refine ⟨?_, h.remembered⟩
        intro n p hp
        rw [Shared.register, Table.lookup_insert_eq] at hp
        split at hp
        · cases hp
          exact hreq req rfl
        · exact h.pending n p hp
  | unlink hunlink =>
      rcases Shared.unlink_cases hunlink with ⟨rfl, _⟩ | ⟨p, seqnum, _, _, _, _, rfl⟩
      · exact h
      · exact ⟨h.pending, h.remembered⟩
  | close reason =>
      unfold Shared.close
      split
      · exact h
      · refine ⟨?_, h.remembered⟩
        intro n p hp
        simp at hp
  | finishSubmit ret =>
      constructor
      · intro n p hp
        exact h.pending n p (Table.lookup_of_erase hp).right
      · intro u hu
        exact h.remembered u (List.mem_of_mem_filter hu)
  | finishUnlink ret =>
      unfold Shared.finishUnlink
      dsimp only
      cases htarget : s.state.unlinks.lookup ret.seqnum with
      | none => exact h
      | some target =>
          dsimp only
          cases hp : s.state.submits.lookup target with
          | none => exact ⟨h.pending, h.remembered⟩
          | some p =>
              constructor
              · intro n q hq
                exact h.pending n q (Table.lookup_of_erase hq).right
              · exact h.remember (h.pending target p hp)

/-!
# Runs
-/

def Step.Within (st : Step) : Prop :=
  forall req, st.request? = some req -> req.Within

theorem Session.readerFails_reader {s : Session} {e : ProtocolError} {header : SubmitHeader}
    {direction : Direction} {length : UInt32}
    (h : (s.readerFails e).reader = ReaderPhase.payload header direction length) :
    s.reader = ReaderPhase.payload header direction length := by
  unfold Session.readerFails at h
  split at h
  · split at h
    · cases h
    · exact h
  · cases h

theorem Session.step_payload {s : Session} {st : Step} {header : SubmitHeader}
    {direction : Direction} {length : UInt32}
    (h : (s.step st).reader = ReaderPhase.payload header direction length) :
    s.reader = ReaderPhase.payload header direction length ∨
      s.shared.state.request header.seqnum = some (direction, length) := by
  cases hreads : st.reads with
  | false =>
      cases (s.step_reader hreads).left with
      | same hsame => exact Or.inl (hsame.symm.trans h)
      | failed text hfailed => cases hfailed.symm.trans h
      | stopped hstopped _ => cases hstopped.symm.trans h
  | true =>
      cases st with
      | readHeader =>
          simp only [Session.step, Session.readHeader] at h
          split at h
          · split at h
            · rename_i hlook
              cases h
              rcases lookupReply_ok hlook with ⟨_, _, _, heq, hrequest⟩ | ⟨ret, hdone⟩
              · cases heq
                exact Or.inr hrequest
              · cases hdone
            · exact Or.inl h
            · exact Or.inl (Session.readerFails_reader h)
          · exact Or.inl h
      | readPayload =>
          simp only [Session.step, Session.readPayload] at h
          split at h
          · split at h
            · cases h
            · exact Or.inl (Session.readerFails_reader h)
          · exact Or.inl h
      | _ => cases hreads

structure Session.Within (s : Session) : Prop where
  state : s.shared.state.Within
  reader : forall header direction length,
    s.reader = ReaderPhase.payload header direction length -> Client.Within direction length

theorem Session.Within.step {s : Session} (h : s.Within) {st : Step} (hst : st.Within) :
    (s.step st).Within := by
  constructor
  · rcases s.step_shared st with ⟨frames, heq⟩ | hsection
    · rw [heq]
      exact h.state
    · exact hsection.within hst h.state
  · intro header direction length hreader
    rcases Session.step_payload hreader with hsame | hrequest
    · exact h.reader header direction length hsame
    · exact h.state.request hrequest

theorem Session.Within.start (device : ExportedDevice) : (Session.start device).Within := by
  constructor
  · constructor
    · intro n p hp
      simp [Session.start, Shared.initial, State.initial] at hp
    · intro u hu
      cases hu
  · intro header direction length hreader
    cases hreader

/-- No buffer of a session is larger than the bound, whatever arrives next. -/
structure Session.BuffersWithin (s : Session) : Prop where
  header : forall n, s.shared.BuffersWithin n
  payload : forall header direction length,
    s.reader = ReaderPhase.payload header direction length -> forall bytes,
      replyBuffer bytes header direction length ≤ maxTransferLength.toNat

theorem Session.Within.buffers {s : Session} (h : s.Within) : s.BuffersWithin := by
  constructor
  · intro n bytes rest header direction length hlook _
    rcases lookupReply_ok hlook with ⟨_, _, _, heq, hrequest⟩ | ⟨ret, hdone⟩
    · cases heq
      exact replyBuffer_le (h.state.request hrequest) rest header
    · cases hdone
  · intro header direction length hreader bytes
    exact replyBuffer_le (h.reader header direction length hreader) bytes header

/-- In a run whose transfers are within the bound no buffer is larger than that. -/
theorem Session.run_buffersWithin (device : ExportedDevice) {steps : List Step}
    (hsteps : forall st, st ∈ steps -> st.Within) :
    (List.foldl Session.step (Session.start device) steps).BuffersWithin := by
  have hguarded : Guarded Session.step (fun _ st => Step.Within st) (Session.start device)
      steps := guarded_of_forall (fun st hst _ => hsteps st hst) _
  apply Session.Within.buffers
  apply invariant_of_guarded (I := Session.Within) _ hguarded
  · exact Session.Within.start device
  · exact fun s st hst h => h.step hst

/-!
# Single requests
-/

theorem Shared.buffersWithin_iff {s s' : Shared} {req : SubmitRequest} {n : UInt32}
    {reply : Nat} (h : s.submit req = some (.ok (n, reply), s')) :
    s'.BuffersWithin n <-> req.Within := by
  rcases Shared.submit_cases h with ⟨_, herror, _⟩ | ⟨seqnum, hok, _, _, _, rfl⟩
  · cases herror
  · cases hok
    have hrequest : (s.register req n { s.state with nextSeqnum := n }).state.request n =
        some (req.direction, req.length) := by
      simp [State.request, Shared.register]
    constructor
    · intro hbuffers
      by_contra hbeyond
      have hin : req.direction = Direction.in := by
        cases hdirection : req.direction with
        | «in» => rfl
        | out => exact absurd (Or.inl hdirection) hbeyond
      have hlook := lookupReply_header (r := fullReply n req.length) hrequest
        (Nat.zero_le _) []
      have hbuffer := hbuffers _ [] _ _ _ hlook rfl
      rw [hin, replyBuffer_full] at hbuffer
      exact hbeyond (Or.inr (UInt32.le_iff_toNat_le.mpr hbuffer))
    · intro hwithin bytes rest header direction length hlook hseqnum
      rcases lookupReply_ok hlook with ⟨_, _, _, heq, hfound⟩ | ⟨ret, hdone⟩
      · cases heq
        rw [hseqnum, hrequest] at hfound
        cases hfound
        exact replyBuffer_le hwithin rest header
      · cases hdone

end Client
end UsbIp
