import UsbIp.Link.Streams

/-!
# One step of one side

What a step of the client or of the server can do to what the other side sees:
which bytes it adds to those it has written, what becomes of the reader, and
which move of the dialogue it is.
-/

namespace UsbIp
namespace Link

open Foundation
open Protocol
open Client (Shared SubmitRequest Session ExportedDevice)
open Server (Urb Urbs Answer Outcome Completion Job Connection urbOf unlinkStatus)

/-!
# What a client writes
-/

theorem step_written (s : Session) (st : Client.Step) :
    exists more, (s.step st).written = s.written ++ more := by
  have hsame : forall t : Session, t.written = s.written ->
      exists more, t.written = s.written ++ more := fun t h => ⟨[], by simp [h]⟩
  cases st with
  | submit req => exact hsame _ (s.withShared_writer _).left
  | unlink target => exact hsame _ (s.withShared_writer _).left
  | unlinkAll targets =>
      apply hsame
      simp only [Session.step]
      split <;> rfl
  | unlinkNext thread =>
      apply hsame
      simp only [Session.step, Session.unlinkNext]
      split
      · exact (s.withShared_writer _).left
      · rfl
  | close => exact hsame _ rfl
  | receive bytes =>
      apply hsame
      simp only [Session.step]
      split <;> rfl
  | hangUp => exact hsame _ rfl
  | readError text =>
      apply hsame
      simp only [Session.step]
      split <;> rfl
  | readHeader =>
      apply hsame
      simp only [Session.step, Session.readHeader]
      split
      · split
        · rfl
        · rfl
        · exact (s.readerFails_writer _).left
      · rfl
  | readPayload =>
      apply hsame
      simp only [Session.step, Session.readPayload]
      split
      · split
        · rfl
        · exact (s.readerFails_writer _).left
      · rfl
  | readerCloses =>
      apply hsame
      simp only [Session.step, Session.readerCloses]
      split <;> rfl
  | readerStops =>
      apply hsame
      simp only [Session.step]
      split <;> rfl
  | takeFrame =>
      apply hsame
      simp only [Session.step, Session.takeFrame]
      split
      · rfl
      · split <;> rfl
      · rfl
  | sealBatch =>
      apply hsame
      simp only [Session.step]
      split <;> rfl
  | writeBytes n =>
      simp only [Session.step, Session.writeBytes]
      split
      · exact ⟨s.batch.take n, rfl⟩
      · exact ⟨[], by simp⟩
  | writerFails text =>
      apply hsame
      simp only [Session.step, Session.writerFails]
      split <;> rfl
  | writerStops =>
      apply hsame
      simp only [Session.step]
      split
      · split <;> rfl
      · rfl

/-!
# What a client does besides reading
-/

/-- The locked sections of the other steps, with the reason of a close. -/
inductive LocalSection (s : Session) : Shared -> Prop where
  | frames (frames : List Bytes) : LocalSection s { s.shared with frames := frames }
  | submit {req : SubmitRequest}
      {result : Except Client.TransferError (UInt32 × Nat)} {shared : Shared} :
      s.shared.submit req = some (result, shared) -> LocalSection s shared
  | unlink {target : UInt32} {shared : Shared} :
      s.shared.unlink target = some shared -> LocalSection s shared
  | close {reason : String} : Benign reason -> LocalSection s (s.shared.close reason)
  | fail {reason : String} : s.reader = Client.ReaderPhase.failed reason ->
      LocalSection s (s.shared.close reason)

theorem LocalSection.same (s : Session) : LocalSection s s.shared :=
  LocalSection.frames s.shared.frames

theorem step_local (s : Session) {st : Client.Step} (hown : isOwn st = true)
    (hreads : st.reads = false) : LocalSection s (s.step st).shared := by
  cases st with
  | submit req =>
      simp only [Session.step]
      cases hsub : s.shared.submit req with
      | none => exact LocalSection.same s
      | some pair => exact LocalSection.submit hsub
  | unlink target =>
      simp only [Session.step]
      cases hun : s.shared.unlink target with
      | none => exact LocalSection.same s
      | some shared => exact LocalSection.unlink hun
  | unlinkAll targets =>
      simp only [Session.step]
      split <;> exact LocalSection.same s
  | unlinkNext thread =>
      simp only [Session.step, Session.unlinkNext]
      split
      · rename_i target rest _
        cases hun : s.shared.unlink target with
        | none => exact LocalSection.same s
        | some shared => exact LocalSection.unlink hun
      · exact LocalSection.same s
  | close => exact LocalSection.close Benign.byClient
  | receive bytes => cases hown
  | hangUp => cases hown
  | readError text =>
      simp only [Session.step]
      split <;> exact LocalSection.same s
  | readHeader => cases hreads
  | readPayload => cases hreads
  | readerCloses =>
      simp only [Session.step, Session.readerCloses]
      split
      · rename_i hreader
        exact LocalSection.fail hreader
      · exact LocalSection.same s
  | readerStops =>
      simp only [Session.step]
      split <;> exact LocalSection.same s
  | takeFrame =>
      rcases s.takeFrame_shared with ⟨frames, heq⟩
      show LocalSection s s.takeFrame.shared
      rw [heq]
      exact LocalSection.frames frames
  | sealBatch =>
      simp only [Session.step]
      split <;> exact LocalSection.same s
  | writeBytes n =>
      simp only [Session.step, Session.writeBytes]
      split <;> exact LocalSection.same s
  | writerFails text =>
      simp only [Session.step, Session.writerFails]
      split
      · exact LocalSection.close (Benign.writing text)
      · exact LocalSection.same s
  | writerStops =>
      simp only [Session.step]
      split
      · split <;> exact LocalSection.same s
      · exact LocalSection.same s

/-!
# Moves of the dialogue
-/

/-- Nothing happens between the two sides, or one allowed move. -/
def Moved (d d' : Dialogue) : Prop :=
  d' = d ∨ exists m, d.Allowed m ∧ d' = d.step m

theorem Moved.turn {d d' : Dialogue} (h : Moved d d') : Turn d d' := by
  rcases h with rfl | ⟨m, hallowed, rfl⟩
  · exact Turn.refl _
  · exact Dialogue.step_turn hallowed

theorem newOrders_of_eq {s s' : Shared} (h : ordersOf s' = ordersOf s) :
    newOrders s s' = [] := by
  unfold newOrders
  rw [h, List.drop_length]

theorem Dialogue.allowed_of_quiet {d : Dialogue} {m : Move}
    (horders : ordersOf (d.step m).client = ordersOf d.client)
    (hfits : forall address outcome, m = Move.finish address outcome ->
      outcomeFits d.server address outcome) : d.Allowed m where
  fresh := by
    rw [newOrders_of_eq horders]
    intro o ho
    cases ho
  fits := hfits

theorem sent_close (s : Shared) (reason : String) :
    (sent s).close reason = sent (s.close reason) := by
  unfold Shared.close
  cases h : s.state.closed <;> simp [sent, h]

theorem sent_submit (s : Shared) (req : SubmitRequest) :
    sent ((((sent s).submit req).map Prod.snd).getD (sent s)) =
      sent (((s.submit req).map Prod.snd).getD s) := by
  unfold Shared.submit
  split
  · rfl
  · split
    · rfl
    · have hclosed : (sent s).state.closed = s.state.closed := rfl
      have hnext : Client.nextSeqnum (sent s).state = Client.nextSeqnum s.state := rfl
      rw [hclosed, hnext]
      cases s.state.closed with
      | some reason => rfl
      | none => cases Client.nextSeqnum s.state <;> rfl

theorem sent_unlink (s : Shared) (target : UInt32) :
    sent (((sent s).unlink target).getD (sent s)) = sent ((s.unlink target).getD s) := by
  unfold Shared.unlink
  have hlook : (sent s).state.submits.lookup target = s.state.submits.lookup target := rfl
  rw [hlook]
  cases s.state.submits.lookup target with
  | none => rfl
  | some p =>
      dsimp only
      have hnext : Client.nextSeqnum (sent s).state = Client.nextSeqnum s.state := rfl
      rw [hnext]
      by_cases hskip : s.state.closed.isSome = true ∨
          Table.hasValue s.state.unlinks target = true
      · have hsent : (sent s).state.closed.isSome = true ∨
            Table.hasValue (sent s).state.unlinks target = true := hskip
        rw [if_pos hskip, if_pos hsent]
        rfl
      · have hsent : ¬ ((sent s).state.closed.isSome = true ∨
            Table.hasValue (sent s).state.unlinks target = true) := hskip
        rw [if_neg hskip, if_neg hsent]
        cases Client.nextSeqnum s.state <;> rfl

theorem sent_finishUnlink (s : Shared) (ret : RetUnlink) :
    (sent s).finishUnlink ret = sent (s.finishUnlink ret) := by
  have hlook : (sent s).state.unlinks.lookup ret.seqnum = s.state.unlinks.lookup ret.seqnum :=
    rfl
  unfold Shared.finishUnlink
  dsimp only
  rw [hlook]
  cases s.state.unlinks.lookup ret.seqnum with
  | none => rfl
  | some target =>
      have hsubmits : (sent s).state.submits.lookup target = s.state.submits.lookup target :=
        rfl
      dsimp only
      rw [hsubmits]
      cases s.state.submits.lookup target <;> rfl

/-- What a client does besides reading is nothing, a submit, an unlink or a close. -/
theorem LocalSection.moved {s : Session} {shared : Shared} (h : LocalSection s shared)
    {u : Urbs}
    (hfresh : forall o, o ∈ newOrders s.shared shared ->
      (Dialogue.mk (sent s.shared) u).Unused o.seqnum) :
    Moved ⟨sent s.shared, u⟩ ⟨sent shared, u⟩ := by
  cases h with
  | frames frames => exact Or.inl rfl
  | @submit req result _ hsub =>
      have hsame : (Dialogue.mk (sent s.shared) u).step (Move.submit req) =
          ⟨sent shared, u⟩ := by
        simp only [Dialogue.step, sent_submit, hsub, Option.map_some, Option.getD_some]
      refine Or.inr ⟨Move.submit req, ⟨?_, ?_⟩, hsame.symm⟩
      · rw [hsame]
        exact hfresh
      · intro address outcome hm
        cases hm
  | @unlink target _ hun =>
      have hsame : (Dialogue.mk (sent s.shared) u).step (Move.unlink target) =
          ⟨sent shared, u⟩ := by
        simp only [Dialogue.step, sent_unlink, hun, Option.getD_some]
      refine Or.inr ⟨Move.unlink target, ⟨?_, ?_⟩, hsame.symm⟩
      · rw [hsame]
        exact hfresh
      · intro address outcome hm
        cases hm
  | @close reason _ =>
      refine Or.inr ⟨Move.close reason, ?_, ?_⟩
      · apply Dialogue.allowed_of_quiet
        · exact close_orders _ _
        · intro address outcome hm
          cases hm
      · simp only [Dialogue.step, sent_close]
  | @fail reason _ =>
      refine Or.inr ⟨Move.close reason, ?_, ?_⟩
      · apply Dialogue.allowed_of_quiet
        · exact close_orders _ _
        · intro address outcome hm
          cases hm
      · simp only [Dialogue.step, sent_close]

end Link
end UsbIp
