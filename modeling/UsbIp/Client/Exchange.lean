import UsbIp.Client.InStep
import UsbIp.Client.Resolution

/-!
# Replies and the submits they answer

A reply carries only a number, and numbers come back after a wrap of the
counter.  Here every RET_SUBMIT also carries the channel of the submit that the
server means to answer, and the channels answered so far are recorded beside
the session.  The invariant says that a registered submit is not answered while
every earlier one with its number is, and that a number is remembered only for
a submit that is still to be answered.  Steps keep it as long as no submit
takes the number of an unanswered one.
-/

namespace UsbIp
namespace Client

open Foundation
open Protocol

/-!
# Who is answered
-/

def Session.reply? (s : Session) : Step -> Option RetSubmit
  | Step.readPayload =>
      match s.reader with
      | ReaderPhase.payload header direction length =>
          match readSubmitPayload s.input header (direction = Direction.in) length with
          | .ok (ret, _) => some ret
          | .error _ => none
      | _ => none
  | _ => none

/-- A session, and the channels of the submits whose RET_SUBMIT it has read. -/
structure Exchange where
  session : Session
  answered : List Nat

def Exchange.start (device : ExportedDevice) : Exchange where
  session := Session.start device
  answered := []

/-- A step, with the channel of the submit that the RET_SUBMIT it reads answers. -/
def Exchange.step (x : Exchange) (a : Nat × Step) : Exchange where
  session := x.session.step a.2
  answered :=
    match x.session.reply? a.2 with
    | some _ => a.1 :: x.answered
    | none => x.answered

/-- A RET_SUBMIT answers an earlier submit that has its number, for the first time. -/
def Exchange.Honest (x : Exchange) (a : Nat × Step) : Prop :=
  forall ret, x.session.reply? a.2 = some ret ->
    a.1 ∉ x.answered ∧
      exists cmd, Event.submitted a.1 cmd ∈ x.session.shared.log ∧ cmd.seqnum = ret.seqnum

/-- Some submit with this number has not been answered yet. -/
def Exchange.Outstanding (x : Exchange) (n : UInt32) : Prop :=
  exists reply cmd, Event.submitted reply cmd ∈ x.session.shared.log ∧ cmd.seqnum = n ∧
    reply ∉ x.answered

def State.Remembered (st : State) (n : UInt32) : Prop :=
  exists u, u ∈ st.unlinked ∧ u.1 = n

/-!
# Steps that take a number
-/

def Session.SubmitTakes (s : Session) : Step -> Prop
  | Step.submit req => req.Accepted ∧ s.shared.state.closed = none
  | _ => False

def Shared.UnlinkTakes (s : Shared) (target : UInt32) : Prop :=
  target ∈ s.state.submits ∧ s.state.closed = none ∧
    forall u, s.state.unlinks.lookup u ≠ some target

def Session.UnlinkTakes (s : Session) : Step -> Prop
  | Step.unlink target => s.shared.UnlinkTakes target
  | Step.unlinkNext thread =>
      exists target rest, s.threads[thread]? = some (target :: rest) ∧
        s.shared.UnlinkTakes target
  | _ => False

/--
The first free number is not that of an unanswered submit when a submit takes
it, and not one that is remembered for such a submit when an unlink takes it.
-/
structure Exchange.Fresh (x : Exchange) (a : Nat × Step) : Prop where
  submit : x.session.SubmitTakes a.2 -> forall n, x.session.shared.state.FirstFree n ->
    ¬ x.Outstanding n
  unlink : x.session.UnlinkTakes a.2 -> forall n, x.session.shared.state.FirstFree n ->
    ¬ (x.Outstanding n ∧ x.session.shared.state.Remembered n)

/-!
# What becomes of a RET_SUBMIT
-/

/--
A RET_SUBMIT resolves the submit it answers or is dropped, no submit completes
otherwise, a RET_SUBMIT that cannot be read to its end closes the session, and
no command is issued with a number that is remembered.
-/
structure Exchange.Attributed (x : Exchange) (a : Nat × Step) : Prop where
  resolves : forall ret, x.session.reply? a.2 = some ret ->
    (x.session.step a.2).shared.sent = (a.1, .ok ret) :: x.session.shared.sent ∨
      (x.session.step a.2).shared.sent = x.session.shared.sent
  completes : forall reply ret, (reply, .ok ret) ∈ (x.session.step a.2).shared.sent ->
    (reply, .ok ret) ∈ x.session.shared.sent ∨
      (reply = a.1 ∧ x.session.reply? a.2 = some ret)
  unknown : forall header rest, x.session.reader = ReaderPhase.header ->
    readReplyHeader x.session.input = .ok (Reply.submit header, rest) ->
    x.session.shared.state.request header.seqnum = none ->
    ((x.session.step Step.readHeader).step
      Step.readerCloses).shared.state.closed.isSome = true
  malformed : forall header direction length e,
    x.session.reader = ReaderPhase.payload header direction length ->
    readSubmitPayload x.session.input header (direction = Direction.in) length = .error e ->
    x.session.step Step.readPayload = x.session ∨
      ((x.session.step Step.readPayload).step
        Step.readerCloses).shared.state.closed.isSome = true
  reserved : forall c, (x.session.step a.2).shared.issued = x.session.shared.issued ++ [c] ->
    ¬ x.session.shared.state.Remembered c.seqnum

/-!
# One step
-/

theorem removeReply_eq (s : Shared) (header : SubmitHeader) (direction : Direction)
    (length : UInt32) (bytes : Bytes) :
    removeReply s header direction length bytes =
      (readSubmitPayload bytes header (direction = Direction.in) length).map
        (fun r => (s.finishSubmit r.1, r.2)) := by
  unfold removeReply
  cases readSubmitPayload bytes header (direction = Direction.in) length <;> rfl

theorem Session.step_reply {s : Session} {st : Step} {ret : RetSubmit}
    (h : s.reply? st = some ret) : (s.step st).shared = s.shared.finishSubmit ret := by
  cases st with
  | readPayload =>
      unfold Session.reply? at h
      dsimp only at h
      split at h
      · rename_i header direction length hreader
        split at h
        · rename_i rest hread
          cases h
          show s.readPayload.shared = _
          simp only [Session.readPayload, hreader, removeReply_eq, hread, Except.map]
        · cases h
      · cases h
  | _ => cases h

theorem Session.step_no_reply {s : Session} {st : Step} (h : s.reply? st = none) :
    (exists frames, (s.step st).shared = { s.shared with frames := frames }) ∨
      s.Quiet st (s.step st).shared := by
  by_cases hframe : st = Step.takeFrame
  · subst hframe
    exact Or.inl s.takeFrame_shared
  · by_cases hread : st = Step.readPayload
    · subst hread
      refine Or.inl ⟨s.shared.frames, ?_⟩
      show s.readPayload.shared = s.shared
      unfold Session.reply? at h
      unfold Session.readPayload
      split
      · rename_i header direction length hreader
        rw [hreader] at h
        dsimp only at h
        rw [removeReply_eq]
        split at h
        · cases h
        · rename_i e hread
          rw [hread]
          exact s.readerFails_shared e
      · rfl
    · rcases s.step_quiet st hframe hread with hsame | hquiet
      · exact Or.inl ⟨s.shared.frames, hsame⟩
      · exact Or.inr hquiet

theorem Session.step_repliesOk {s : Session} (hok : s.shared.RepliesOk) (st : Step) :
    (s.step st).shared.RepliesOk := by
  rcases s.step_shared st with ⟨frames, heq⟩ | hsection
  · rw [heq]
    exact hok.withFrames frames
  · exact hok.section hsection

/-!
# The invariant

A registered submit is not answered, and every other submit with its number is.
What is remembered is remembered for a submit that is still to be answered.
-/

structure Exchange.NumbersOk (x : Exchange) : Prop where
  replies : x.session.shared.RepliesOk
  answered_lt : forall reply, reply ∈ x.answered -> reply < x.session.shared.channels
  settled : forall n p, x.session.shared.state.submits.lookup n = some p ->
    forall reply cmd, Event.submitted reply cmd ∈ x.session.shared.log -> cmd.seqnum = n ->
      reply ≠ p.reply -> reply ∈ x.answered
  unanswered : forall n p, x.session.shared.state.submits.lookup n = some p ->
    p.reply ∉ x.answered
  remembered : forall n, x.session.shared.state.Remembered n -> x.Outstanding n

theorem Exchange.start_numbersOk (device : ExportedDevice) :
    (Exchange.start device).NumbersOk where
  replies := Shared.initial_repliesOk device.devid
  answered_lt := by simp [Exchange.start]
  settled := by simp [Exchange.start, Session.start, Shared.initial]
  unanswered := by simp [Exchange.start]
  remembered := by
    intro n hn
    rcases hn with ⟨u, hu, _⟩
    exact absurd hu List.not_mem_nil

theorem Exchange.NumbersOk.outstanding {x : Exchange} (hok : x.NumbersOk) {n : UInt32}
    {p : PendingSubmit} (hp : x.session.shared.state.submits.lookup n = some p) :
    x.Outstanding n := by
  rcases hok.replies.pending n p hp with ⟨cmd, hcmd, hmem⟩
  exact ⟨p.reply, cmd, hmem, hcmd, hok.unanswered n p hp⟩

theorem Exchange.Outstanding.mono {x y : Exchange} {n : UInt32} (h : x.Outstanding n)
    (hlog : forall e, e ∈ x.session.shared.log -> e ∈ y.session.shared.log)
    (hanswered : y.answered = x.answered) : y.Outstanding n := by
  rcases h with ⟨reply, cmd, hmem, hcmd, hnot⟩
  exact ⟨reply, cmd, hlog _ hmem, hcmd, hanswered ▸ hnot⟩

theorem Exchange.NumbersOk.shrink {x y : Exchange} (hok : x.NumbersOk)
    (hreplies : y.session.shared.RepliesOk)
    (hanswered : y.answered = x.answered)
    (hchannels : y.session.shared.channels = x.session.shared.channels)
    (hsubmits : forall n p, y.session.shared.state.submits.lookup n = some p ->
      x.session.shared.state.submits.lookup n = some p)
    (hlog : forall e, e ∈ x.session.shared.log -> e ∈ y.session.shared.log)
    (hnew : forall reply cmd, Event.submitted reply cmd ∈ y.session.shared.log ->
      Event.submitted reply cmd ∈ x.session.shared.log)
    (hremembered : forall n, y.session.shared.state.Remembered n -> x.Outstanding n) :
    y.NumbersOk where
  replies := hreplies
  answered_lt := by
    intro reply hreply
    rw [hchannels]
    exact hok.answered_lt reply (hanswered ▸ hreply)
  settled := by
    intro n p hp reply cmd hmem hcmd hne
    rw [hanswered]
    exact hok.settled n p (hsubmits n p hp) reply cmd (hnew reply cmd hmem) hcmd hne
  unanswered := by
    intro n p hp
    rw [hanswered]
    exact hok.unanswered n p (hsubmits n p hp)
  remembered := fun n hn => (hremembered n hn).mono hlog hanswered

theorem Exchange.NumbersOk.register {x y : Exchange} (hok : x.NumbersOk)
    (hreplies : y.session.shared.RepliesOk) (hanswered : y.answered = x.answered)
    {req : SubmitRequest} {seqnum : UInt32}
    (hshared : y.session.shared = x.session.shared.register req seqnum
      { x.session.shared.state with nextSeqnum := seqnum })
    (hfresh : ¬ x.Outstanding seqnum) : y.NumbersOk := by
  have hlog : y.session.shared.log = Event.submitted x.session.shared.channels
      (req.command seqnum x.session.shared.devid) :: x.session.shared.log := by
    rw [hshared]
    rfl
  have hlook : forall m, y.session.shared.state.submits.lookup m =
      if m = seqnum then some
        { direction := req.direction, length := req.length,
          reply := x.session.shared.channels }
      else x.session.shared.state.submits.lookup m := by
    intro m
    rw [hshared]
    exact Table.lookup_insert_eq _ seqnum m _
  exact
    { replies := hreplies
      answered_lt := by
        intro reply hreply
        rw [hanswered] at hreply
        rw [hshared]
        exact Nat.lt_succ_of_lt (hok.answered_lt reply hreply)
      settled := by
        intro n p hp reply cmd hmem hcmd hne
        rw [hanswered]
        rw [hlook] at hp
        rw [hlog] at hmem
        split at hp
        · rename_i hn
          cases hp
          rcases List.mem_cons.mp hmem with hnew | hold
          · cases hnew
            exact absurd rfl hne
          · by_contra hnot
            exact hfresh ⟨reply, cmd, hold, hcmd.trans hn, hnot⟩
        · rename_i hn
          rcases List.mem_cons.mp hmem with hnew | hold
          · cases hnew
            exact absurd hcmd.symm hn
          · exact hok.settled n p hp reply cmd hold hcmd hne
      unanswered := by
        intro n p hp
        rw [hanswered]
        rw [hlook] at hp
        split at hp
        · cases hp
          intro hmem
          exact Nat.lt_irrefl _ (hok.answered_lt _ hmem)
        · exact hok.unanswered n p hp
      remembered := by
        intro n hn
        have hold : x.session.shared.state.Remembered n := by
          rw [hshared] at hn
          exact hn
        apply (hok.remembered n hold).mono _ hanswered
        intro e he
        rw [hlog]
        exact List.mem_cons_of_mem _ he }

theorem Exchange.NumbersOk.finishSubmit {x y : Exchange} (hok : x.NumbersOk)
    (hreplies : y.session.shared.RepliesOk) {reply : Nat} {ret : RetSubmit} {cmd : CmdSubmit}
    (hshared : y.session.shared = x.session.shared.finishSubmit ret)
    (hanswered : y.answered = reply :: x.answered)
    (hmem : Event.submitted reply cmd ∈ x.session.shared.log)
    (hcmd : cmd.seqnum = ret.seqnum) : y.NumbersOk := by
  have hold : forall n p, y.session.shared.state.submits.lookup n = some p ->
      n ≠ ret.seqnum ∧ x.session.shared.state.submits.lookup n = some p := by
    intro n p hp
    rw [hshared] at hp
    exact Table.lookup_of_erase hp
  have hlog : y.session.shared.log = Event.received ret :: x.session.shared.log := by
    rw [hshared]
    rfl
  -- The submit that is answered now has no other number than the reply.
  have hother : forall c d, Event.submitted c d ∈ x.session.shared.log ->
      d.seqnum ≠ ret.seqnum -> c ≠ reply := by
    intro c d hd hne hsame
    subst hsame
    apply hne
    rw [hok.replies.submitted_injective c d cmd hd hmem]
    exact hcmd
  exact
    { replies := hreplies
      answered_lt := by
        intro c hc
        rw [hanswered] at hc
        rw [hshared]
        rcases List.mem_cons.mp hc with rfl | hc
        · exact hok.replies.submitted_lt _ cmd hmem
        · exact hok.answered_lt c hc
      settled := by
        intro n p hp c d hd hn hne
        rw [hanswered]
        rw [hlog] at hd
        have hd' : Event.submitted c d ∈ x.session.shared.log := by simpa using hd
        exact List.mem_cons_of_mem _ (hok.settled n p (hold n p hp).right c d hd' hn hne)
      unanswered := by
        intro n p hp
        rw [hanswered]
        rcases hold n p hp with ⟨hne, hp'⟩
        rcases hok.replies.pending n p hp' with ⟨d, hd, hsub⟩
        intro hc
        rcases List.mem_cons.mp hc with hsame | hc
        · exact hother p.reply d hsub (hd ▸ hne) hsame
        · exact hok.unanswered n p hp' hc
      remembered := by
        intro n hn
        rcases hn with ⟨u, hu, rfl⟩
        rw [hshared] at hu
        change u ∈ x.session.shared.state.unlinked.filter (fun u => u.1 ≠ ret.seqnum) at hu
        rcases List.mem_filter.mp hu with ⟨hu, hne⟩
        rcases hok.remembered u.1 ⟨u, hu, rfl⟩ with ⟨c, d, hd, hdn, hnot⟩
        refine ⟨c, d, ?_, hdn, ?_⟩
        · rw [hlog]
          exact List.mem_cons_of_mem _ hd
        · rw [hanswered]
          intro hc
          rcases List.mem_cons.mp hc with hsame | hc
          · exact hother c d hd (by simpa [hdn] using hne) hsame
          · exact hnot hc }

theorem State.Remembered.rememberUnlinked {st : State}
    {entry : UInt32 × Direction × UInt32} {n : UInt32}
    (h : exists u, u ∈ rememberUnlinked st.unlinked entry ∧ u.1 = n) :
    st.Remembered n ∨ n = entry.1 := by
  rcases h with ⟨u, hu, rfl⟩
  unfold Client.rememberUnlinked at hu
  rcases List.mem_append.mp hu with hold | hnew
  · left
    refine ⟨u, ?_, rfl⟩
    split at hold
    · exact List.mem_of_mem_tail hold
    · exact hold
  · right
    rw [List.mem_singleton.mp hnew]

/-!
# Steps keep the invariant
-/

theorem Exchange.NumbersOk.withFrames {x y : Exchange} (hok : x.NumbersOk)
    (hreplies : y.session.shared.RepliesOk) (hanswered : y.answered = x.answered)
    {frames : List Bytes}
    (hshared : y.session.shared = { x.session.shared with frames := frames }) :
    y.NumbersOk := by
  apply hok.shrink hreplies hanswered
  · rw [hshared]
  · rw [hshared]
    exact fun _ _ hp => hp
  · rw [hshared]
    exact fun _ he => he
  · rw [hshared]
    exact fun _ _ he => he
  · rw [hshared]
    exact hok.remembered

theorem Exchange.NumbersOk.registerUnlink {x y : Exchange} (hok : x.NumbersOk)
    (hreplies : y.session.shared.RepliesOk) (hanswered : y.answered = x.answered)
    {target seqnum : UInt32} {reply : Nat}
    (hshared : y.session.shared = x.session.shared.registerUnlink target reply seqnum
      { x.session.shared.state with nextSeqnum := seqnum }) :
    y.NumbersOk := by
  apply hok.shrink hreplies hanswered
  · rw [hshared]
    rfl
  · rw [hshared]
    exact fun _ _ hp => hp
  · rw [hshared]
    exact fun _ he => List.mem_cons_of_mem _ he
  · intro c cmd hmem
    rw [hshared] at hmem
    simpa [Shared.registerUnlink] using hmem
  · rw [hshared]
    exact hok.remembered

theorem Exchange.NumbersOk.close {x y : Exchange} (hok : x.NumbersOk)
    (hreplies : y.session.shared.RepliesOk) (hanswered : y.answered = x.answered)
    {reason : String} (hshared : y.session.shared = x.session.shared.close reason) :
    y.NumbersOk := by
  cases hopen : x.session.shared.state.closed with
  | some earlier =>
      have hsame : y.session.shared =
          { x.session.shared with frames := x.session.shared.frames } := by
        simp [hshared, Shared.close, hopen]
      exact hok.withFrames hreplies hanswered hsame
  | none =>
      simp only [Shared.close, hopen] at hshared
      apply hok.shrink hreplies hanswered
      · rw [hshared]
      · intro n p hp
        rw [hshared] at hp
        simp at hp
      · rw [hshared]
        exact fun _ he => List.mem_cons_of_mem _ he
      · intro c cmd hmem
        rw [hshared] at hmem
        simpa using hmem
      · rw [hshared]
        exact hok.remembered

theorem Exchange.NumbersOk.finishUnlink {x y : Exchange} (hok : x.NumbersOk)
    (hreplies : y.session.shared.RepliesOk) (hanswered : y.answered = x.answered)
    {ret : RetUnlink} (hshared : y.session.shared = x.session.shared.finishUnlink ret) :
    y.NumbersOk := by
  have hlog : y.session.shared.log = Event.confirmed ret :: x.session.shared.log := by
    rw [hshared]
    exact Shared.finishUnlink_log _ ret
  have hevents : forall e, e ∈ x.session.shared.log -> e ∈ y.session.shared.log := by
    intro e he
    rw [hlog]
    exact List.mem_cons_of_mem _ he
  have hnew : forall reply cmd, Event.submitted reply cmd ∈ y.session.shared.log ->
      Event.submitted reply cmd ∈ x.session.shared.log := by
    intro reply cmd hmem
    rw [hlog] at hmem
    simpa using hmem
  unfold Shared.finishUnlink at hshared
  cases htarget : x.session.shared.state.unlinks.lookup ret.seqnum with
  | none =>
      simp only [htarget] at hshared
      apply hok.shrink hreplies hanswered _ _ hevents hnew
      · rw [hshared]
        exact hok.remembered
      · rw [hshared]
      · rw [hshared]
        exact fun _ _ hp => hp
  | some target =>
      rcases Table.mem_iff_lookup.mp
        (hok.replies.tables.target_pending _ _ htarget) with ⟨p, hp⟩
      simp only [htarget, hp] at hshared
      apply hok.shrink hreplies hanswered _ _ hevents hnew
      · intro n hn
        rw [hshared] at hn
        rcases State.Remembered.rememberUnlinked hn with hold | rfl
        · exact hok.remembered n hold
        · exact hok.outstanding hp
      · rw [hshared]
      · intro n q hq
        rw [hshared] at hq
        exact (Table.lookup_of_erase hq).right

theorem Exchange.NumbersOk.unlink {x y : Exchange} (hok : x.NumbersOk)
    (hreplies : y.session.shared.RepliesOk) (hanswered : y.answered = x.answered)
    {target : UInt32} (h : x.session.shared.unlink target = some y.session.shared) :
    y.NumbersOk := by
  rcases Shared.unlink_cases h with ⟨hsame, _⟩ | ⟨p, seqnum, _, _, _, _, hshared⟩
  · have hframes : y.session.shared =
        { x.session.shared with frames := x.session.shared.frames } := hsame
    exact hok.withFrames hreplies hanswered hframes
  · exact hok.registerUnlink hreplies hanswered hshared

/-- What one step of an honest server and a caller that takes fresh numbers preserves. -/
theorem Exchange.step_numbersOk {x : Exchange} {a : Nat × Step} (hok : x.NumbersOk)
    (hhonest : x.Honest a) (hfresh : x.Fresh a) : (x.step a).NumbersOk := by
  rcases a with ⟨tag, st⟩
  have hreplies : (x.step (tag, st)).session.shared.RepliesOk :=
    Session.step_repliesOk hok.replies st
  cases hreply : x.session.reply? st with
  | some ret =>
      rcases (hhonest ret hreply).right with ⟨cmd, hmem, hcmd⟩
      have hanswered : (x.step (tag, st)).answered = tag :: x.answered := by
        simp [Exchange.step, hreply]
      exact hok.finishSubmit hreplies (Session.step_reply hreply) hanswered hmem hcmd
  | none =>
      have hanswered : (x.step (tag, st)).answered = x.answered := by
        simp [Exchange.step, hreply]
      rcases Session.step_no_reply hreply with ⟨frames, hshared⟩ | hquiet
      · exact hok.withFrames hreplies hanswered hshared
      · generalize hshared : (x.session.step st).shared = shared at hquiet
        cases hquiet with
        | submit h =>
            rcases Shared.submit_cases h with
              ⟨_, _, hsame, _⟩ | ⟨seqnum, _, haccepted, hopen, hfirst, hregister⟩
            · exact hok.withFrames hreplies hanswered (hshared.trans hsame)
            · exact hok.register hreplies hanswered (hshared.trans hregister)
                (hfresh.submit ⟨haccepted, hopen⟩ seqnum hfirst)
        | unlink h => exact hok.unlink hreplies hanswered (hshared ▸ h)
        | unlinkNext _ h => exact hok.unlink hreplies hanswered (hshared ▸ h)
        | close reason => exact hok.close hreplies hanswered hshared
        | finishUnlink ret => exact hok.finishUnlink hreplies hanswered hshared

end Client
end UsbIp
