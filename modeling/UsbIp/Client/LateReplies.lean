import UsbIp.Client.Exchange

/-!
# Late replies

A server answers each CMD_SUBMIT with at most one RET_SUBMIT, as late as it
likes, and may report an unlink of that transfer first.  The session remembers
the numbers of unlinked transfers to drop such a late reply, but it does not
keep them from being issued again.  As long as no submit takes the number of an
unanswered one, and no unlink a remembered one, a late reply resolves the
submit it answers or nothing.  A run in which the counter wraps and a late
reply resolves a later submit shows that the condition is needed.
-/

namespace UsbIp
namespace Client

open Foundation
open Protocol

/-!
# Results and numbers of one step
-/

theorem Session.readerFails_closes {s : Session} {e : ProtocolError}
    (h : (s.readerFails e).reader = ReaderPhase.failed (closeReason e)) :
    ((s.readerFails e).step Step.readerCloses).shared.state.closed.isSome = true := by
  show ((s.readerFails e).readerCloses).shared.state.closed.isSome = true
  unfold Session.readerCloses
  rw [h]
  exact Shared.close_closed _ _

theorem Session.readerFails_cases (s : Session) (e : ProtocolError) :
    s.readerFails e = s ∨ (s.readerFails e).reader = ReaderPhase.failed (closeReason e) := by
  unfold Session.readerFails
  split
  · split
    · exact Or.inr rfl
    · exact Or.inl rfl
  · exact Or.inr rfl

theorem Session.unknown_closes {s : Session} {header : SubmitHeader} {rest : Bytes}
    (hreader : s.reader = ReaderPhase.header)
    (hread : readReplyHeader s.input = .ok (Reply.submit header, rest))
    (hunknown : s.shared.state.request header.seqnum = none) :
    ((s.step Step.readHeader).step Step.readerCloses).shared.state.closed.isSome = true := by
  have hlook : lookupReply s.shared s.input =
      .error (.invalid s!"RET_SUBMIT for unknown seqnum {header.seqnum}") := by
    unfold lookupReply
    rw [hread]
    simp only [bind, Except.bind, hunknown]
    rfl
  have hstep : s.step Step.readHeader =
      s.readerFails (.invalid s!"RET_SUBMIT for unknown seqnum {header.seqnum}") := by
    show s.readHeader = _
    simp only [Session.readHeader, hreader, hlook]
  rw [hstep]
  exact Session.readerFails_closes rfl

theorem Session.malformed_closes {s : Session} {header : SubmitHeader}
    {direction : Direction} {length : UInt32} {e : ProtocolError}
    (hreader : s.reader = ReaderPhase.payload header direction length)
    (hread : readSubmitPayload s.input header (direction = Direction.in) length = .error e) :
    s.step Step.readPayload = s ∨
      ((s.step Step.readPayload).step Step.readerCloses).shared.state.closed.isSome = true := by
  have hstep : s.step Step.readPayload = s.readerFails e := by
    show s.readPayload = _
    simp only [Session.readPayload, hreader, removeReply_eq, hread, Except.map]
  rw [hstep]
  rcases s.readerFails_cases e with hsame | hfailed
  · exact Or.inl hsame
  · exact Or.inr (Session.readerFails_closes hfailed)

theorem Session.Quiet.sent_ok {s : Session} {st : Step} {shared : Shared}
    (h : s.Quiet st shared) {reply : Nat} {ret : RetSubmit}
    (hmem : (reply, .ok ret) ∈ shared.sent) : (reply, .ok ret) ∈ s.shared.sent := by
  have hunlink : forall target, s.shared.unlink target = some shared ->
      (reply, .ok ret) ∈ s.shared.sent := by
    intro target hun
    rcases Shared.unlink_cases hun with ⟨rfl, _⟩ | ⟨p, seqnum, _, _, _, _, rfl⟩
    · exact hmem
    · exact hmem
  cases h with
  | submit hsubmit =>
      rcases Shared.submit_cases hsubmit with ⟨_, _, rfl, _⟩ | ⟨seqnum, _, _, _, _, rfl⟩
      · exact hmem
      · exact hmem
  | unlink hun => exact hunlink _ hun
  | unlinkNext _ hun => exact hunlink _ hun
  | close reason =>
      unfold Shared.close at hmem
      split at hmem
      · exact hmem
      · simpa using hmem
  | finishUnlink confirmation =>
      unfold Shared.finishUnlink at hmem
      dsimp only at hmem
      split at hmem
      · exact hmem
      · split at hmem
        · exact hmem
        · simpa using hmem

theorem Session.step_takes {s : Session} {st : Step} {c : Command}
    (h : (s.step st).shared.issued = s.shared.issued ++ [c]) :
    s.shared.state.FirstFree c.seqnum ∧ (s.SubmitTakes st ∨ s.UnlinkTakes st) := by
  have hnone : (s.step st).shared.issued ≠ s.shared.issued := by
    rw [h]
    simp
  have hunlink : forall target, s.shared.unlink target = some (s.step st).shared ->
      s.shared.state.FirstFree c.seqnum ∧ s.shared.UnlinkTakes target := by
    intro target hun
    rcases Shared.unlink_cases hun with
      ⟨hsame, _⟩ | ⟨p, seqnum, hp, hopen, hnew, hfirst, hregister⟩
    · rw [hsame] at hnone
      exact absurd rfl hnone
    · rw [hregister, Shared.registerUnlink_issued, List.append_cancel_left_eq,
        List.cons.injEq] at h
      rw [← h.left]
      exact ⟨hfirst, Table.mem_iff_lookup.mpr ⟨p, hp⟩, hopen, hnew⟩
  cases hreply : s.reply? st with
  | some ret =>
      rw [Session.step_reply hreply, Shared.finishSubmit_issued] at hnone
      exact absurd rfl hnone
  | none =>
      rcases Session.step_no_reply hreply with ⟨frames, hshared⟩ | hquiet
      · rw [hshared] at hnone
        exact absurd rfl hnone
      · generalize hshared : (s.step st).shared = shared at hquiet h hnone hunlink
        cases hquiet with
        | submit hsubmit =>
            rcases Shared.submit_cases hsubmit with
              ⟨_, _, rfl, _⟩ | ⟨seqnum, _, haccepted, hopen, hfirst, rfl⟩
            · exact absurd rfl hnone
            · rw [Shared.register_issued, List.append_cancel_left_eq, List.cons.injEq] at h
              rw [← h.left]
              exact ⟨hfirst, Or.inl ⟨haccepted, hopen⟩⟩
        | unlink hun =>
            rcases hunlink _ hun with ⟨hfirst, htakes⟩
            exact ⟨hfirst, Or.inr htakes⟩
        | unlinkNext hthread hun =>
            rcases hunlink _ hun with ⟨hfirst, htakes⟩
            exact ⟨hfirst, Or.inr ⟨_, _, hthread, htakes⟩⟩
        | close reason =>
            rw [Shared.close_issued] at hnone
            exact absurd rfl hnone
        | finishUnlink ret =>
            rw [Shared.finishUnlink_issued] at hnone
            exact absurd rfl hnone

/-!
# Late replies are not misattributed
-/

theorem Exchange.NumbersOk.reply_eq {x : Exchange} {a : Nat × Step} (hok : x.NumbersOk)
    (hhonest : x.Honest a) {ret : RetSubmit} (hreply : x.session.reply? a.2 = some ret)
    {p : PendingSubmit} (hp : x.session.shared.state.submits.lookup ret.seqnum = some p) :
    p.reply = a.1 := by
  rcases hhonest ret hreply with ⟨hnot, cmd, hmem, hcmd⟩
  by_contra hne
  exact hnot (hok.settled ret.seqnum p hp a.1 cmd hmem hcmd (Ne.symm hne))

theorem Exchange.NumbersOk.resolves {x : Exchange} {a : Nat × Step} (hok : x.NumbersOk)
    (hhonest : x.Honest a) {ret : RetSubmit} (hreply : x.session.reply? a.2 = some ret) :
    (x.session.step a.2).shared.sent = (a.1, .ok ret) :: x.session.shared.sent ∨
      (x.session.step a.2).shared.sent = x.session.shared.sent := by
  rw [Session.step_reply hreply]
  cases hp : x.session.shared.state.submits.lookup ret.seqnum with
  | none =>
      right
      simp [Shared.finishSubmit, hp]
  | some p =>
      left
      simp [Shared.finishSubmit, hp, hok.reply_eq hhonest hreply hp]

theorem Exchange.NumbersOk.attributed {x : Exchange} {a : Nat × Step} (hok : x.NumbersOk)
    (hhonest : x.Honest a) (hfresh : x.Fresh a) : x.Attributed a where
  resolves := fun _ hreply => hok.resolves hhonest hreply
  completes := by
    intro reply ret hmem
    cases hreply : x.session.reply? a.2 with
    | some read =>
        rcases hok.resolves hhonest hreply with hsent | hsent
        · rw [hsent] at hmem
          rcases List.mem_cons.mp hmem with hnew | hold
          · cases hnew
            exact Or.inr ⟨rfl, rfl⟩
          · exact Or.inl hold
        · rw [hsent] at hmem
          exact Or.inl hmem
    | none =>
        rcases Session.step_no_reply hreply with ⟨frames, hshared⟩ | hquiet
        · rw [hshared] at hmem
          exact Or.inl hmem
        · exact Or.inl (hquiet.sent_ok hmem)
  unknown := fun _ _ hreader hread hunknown =>
    Session.unknown_closes hreader hread hunknown
  malformed := fun _ _ _ _ hreader hread => Session.malformed_closes hreader hread
  reserved := by
    intro c hissued hremembered
    have houtstanding := hok.remembered c.seqnum hremembered
    rcases Session.step_takes hissued with ⟨hfirst, hsubmit | hunlink⟩
    · exact hfresh.submit hsubmit c.seqnum hfirst houtstanding
    · exact hfresh.unlink hunlink c.seqnum hfirst ⟨houtstanding, hremembered⟩

/-!
# Empty transfers

An OUT transfer without data, the replies to it, and the steps that submit and
cancel one.
-/

def emptyRequest : SubmitRequest := SubmitRequest.new 1 Direction.out 0

def emptyReply (n : UInt32) : ServerSubmit where
  ret :=
    { seqnum := n, status := 0, actualLength := 0, startFrame := 0, errorCount := 0,
      data := [], isoPackets := [] }
  unused := Vector.replicate 12 0
  padding := Vector.replicate 8 0
  noCount := true

def asking (n : UInt32) : List (Nat × Step) :=
  [(0, Step.submit emptyRequest), (0, Step.receive (emptyReply n).encode), (0, Step.readHeader)]

def unlinkReply : ServerUnlink where
  ret := { seqnum := 2, status := -104 }
  unused := Vector.replicate 12 0
  padding := Vector.replicate 24 0

def cancelled : List (Nat × Step) :=
  [(0, Step.submit emptyRequest), (0, Step.unlink 1),
    (0, Step.receive unlinkReply.encode), (0, Step.readHeader)]

theorem Exchange.honest_of_no_reply {x : Exchange} {a : Nat × Step}
    (h : x.session.reply? a.2 = none) : x.Honest a := by
  intro ret hread
  rw [h] at hread
  cases hread

theorem emptyReply_wellFormed (n : UInt32) :
    (emptyReply n).WellFormed Direction.out 0 where
  length_le := Nat.le_refl _
  data_in := by
    intro h
    cases h
  data_out := fun _ => rfl
  packets_le := Nat.zero_le _

theorem emptyRequest_accepted : emptyRequest.Accepted := by
  constructor
  · exact fun _ => rfl
  · exact fun _ => rfl

/-!
# Runs
-/

/--
In every run of a server that answers each submit at most once, as late as it
likes, in which no submit takes the number of an unanswered one and no unlink
that of a remembered one, every RET_SUBMIT resolves the submit it answers, is
dropped or closes the session, and no remembered number is issued.
-/
theorem late_replies_attributed (device : ExportedDevice) (steps : List (Nat × Step))
    (hrun : Guarded Exchange.step (fun x a => x.Honest a ∧ x.Fresh a)
      (Exchange.start device) steps) :
    forall front a back, steps = front ++ a :: back ->
      (List.foldl Exchange.step (Exchange.start device) front).Attributed a := by
  intro front a back hsplit
  rw [hsplit] at hrun
  rcases guarded_append hrun with ⟨hfront, ⟨hhonest, hfresh⟩, _⟩
  have hok : (List.foldl Exchange.step (Exchange.start device) front).NumbersOk :=
    invariant_of_guarded (I := Exchange.NumbersOk)
      (fun _ _ hguard hok => Exchange.step_numbersOk hok hguard.left hguard.right)
      hfront (Exchange.start_numbersOk device)
  exact hok.attributed hhonest hfresh

theorem late_replies_attributed_cancelled :
    let device : ExportedDevice :=
      { path := "", busid := "1-1", busnum := 1, devnum := 2, speed := Speed.high,
        idVendor := 0, idProduct := 0, bcdDevice := 0, deviceClass := 0,
        deviceSubclass := 0, deviceProtocol := 0, configurationValue := 0,
        numConfigurations := 1, numInterfaces := 0, interfaces := [] }
    let x := List.foldl Exchange.step (Exchange.start device) (cancelled ++ asking 1)
    x.Attributed (0, Step.readPayload) ∧
      x.session.reply? Step.readPayload = some (emptyReply 1).ret ∧
      (x.session.step Step.readPayload).shared.sent = x.session.shared.sent ∧
      (3 : UInt32) ∈ (x.session.step Step.readPayload).shared.state.submits := by
  intro device x
  let y := List.foldl Exchange.step (Exchange.start device) cancelled
  have hreply : x.session.reply? Step.readPayload = some (emptyReply 1).ret := by
    decide +kernel
  constructor
  · apply late_replies_attributed device
      ((cancelled ++ asking 1) ++ [(0, Step.readPayload)]) _ (cancelled ++ asking 1) _ [] rfl
    refine Guarded.append (Guarded.append ?_ ?_) ⟨⟨?_, ⟨False.elim, False.elim⟩⟩, trivial⟩
    · refine ⟨⟨Exchange.honest_of_no_reply rfl, ⟨?_, False.elim⟩⟩,
        ⟨Exchange.honest_of_no_reply rfl, ⟨False.elim, ?_⟩⟩,
        ⟨Exchange.honest_of_no_reply rfl, ⟨False.elim, False.elim⟩⟩,
        ⟨Exchange.honest_of_no_reply rfl, ⟨False.elim, False.elim⟩⟩, trivial⟩
      · intro _ n _ houtstanding
        rcases houtstanding with ⟨_, _, hmem, _⟩
        exact absurd hmem List.not_mem_nil
      · intro _ n _ hboth
        rcases hboth.right with ⟨u, hu, _⟩
        have hempty : ((Exchange.start device).step
            (0, Step.submit emptyRequest)).session.shared.state.unlinked = [] := by
          decide +kernel
        rw [hempty] at hu
        exact absurd hu List.not_mem_nil
    · refine ⟨⟨Exchange.honest_of_no_reply rfl, ⟨?_, False.elim⟩⟩,
        ⟨Exchange.honest_of_no_reply rfl, ⟨False.elim, False.elim⟩⟩,
        ⟨Exchange.honest_of_no_reply rfl, ⟨False.elim, False.elim⟩⟩, trivial⟩
      intro _ n hn houtstanding
      rcases houtstanding with ⟨reply, cmd, hmem, hcmd, _⟩
      have hthree : (nextSeqnum y.session.shared.state).map Prod.fst = some 3 := by
        decide +kernel
      rw [nextSeqnum_of_firstFree hn] at hthree
      cases hthree
      have hnone : forall e, e ∈ y.session.shared.log ->
          e.command?.map Command.seqnum ≠ some 3 := by
        decide +kernel
      exact hnone _ hmem (congrArg some hcmd)
    · intro ret hread
      rw [hreply] at hread
      cases hread
      refine ⟨by decide +kernel, emptyRequest.command 1 device.devid, ?_, rfl⟩
      decide +kernel
  · decide +kernel

/-!
# A late reply after a wrap

An OUT transfer without data is submitted, unlinked, and reported through
RET_UNLINK.  Then the counter goes around once, one answered transfer at a
time, and the next transfer gets the number of the first one, whose RET_SUBMIT
arrives only now.
-/

def rounds : Nat -> Nat -> List (Nat × Step)
  | 0, _ => []
  | k + 1, reply =>
      asking (UInt32.ofNat (reply + 2)) ++ (reply, Step.readPayload) :: rounds k (reply + 1)

theorem Session.step_readHeader_ret {s : Session} {r : ServerSubmit} {direction : Direction}
    {length : UInt32} (hreader : s.reader = ReaderPhase.header) (hinput : s.input = r.encode)
    (hrequest : s.shared.state.request r.ret.seqnum = some (direction, length))
    (hwf : r.WellFormed direction length) :
    s.step Step.readHeader =
      { s with
        input := r.ret.data ++ (r.ret.isoPackets.flatMap IsoPacketDescriptor.encode ++ [])
        reader := ReaderPhase.payload r.ret.submitHeader direction length } := by
  have hlook := lookupReply_ret hrequest hwf []
  rw [List.append_nil] at hlook
  show s.readHeader = _
  simp only [Session.readHeader, hreader, hinput, hlook]

structure Exchange.Asked (x y : Exchange) (n : UInt32) : Prop where
  reply : y.session.reply? Step.readPayload = some (emptyReply n).ret
  answered : y.answered = x.answered
  shared : y.session.shared = x.session.shared.register emptyRequest n
    { x.session.shared.state with nextSeqnum := n }
  after : y.session.step Step.readPayload =
    { x.session with
      shared := y.session.shared.finishSubmit (emptyReply n).ret
      input := []
      reader := ReaderPhase.header }

theorem Exchange.asked {x : Exchange} {n : UInt32}
    (hreader : x.session.reader = ReaderPhase.header) (hinput : x.session.input = [])
    (hended : x.session.ended = false) (hopen : x.session.shared.state.closed = none)
    (hn : x.session.shared.state.FirstFree n) :
    x.Asked (List.foldl Exchange.step x (asking n)) n := by
  have hsubmit := Shared.submit_of_firstFree emptyRequest_accepted hopen hn
  generalize hshared : x.session.shared.register emptyRequest n
    { x.session.shared.state with nextSeqnum := n } = shared at hsubmit
  have hrequest : shared.state.request (emptyReply n).ret.seqnum =
      some (Direction.out, 0) := by
    rw [← hshared]
    simp [State.request, Shared.register, emptyReply, emptyRequest, SubmitRequest.new]
  have hwf := emptyReply_wellFormed n
  have hfirst : x.session.step (Step.submit emptyRequest) =
      { x.session with shared := shared } := Session.step_submit hsubmit
  have hsecond : ({ x.session with shared := shared } : Session).step
      (Step.receive (emptyReply n).encode) =
      { x.session with shared := shared, input := (emptyReply n).encode } := by
    simp [Session.step, hended, hinput]
  have hthird := Session.step_readHeader_ret
    (s := { x.session with shared := shared, input := (emptyReply n).encode })
    hreader rfl hrequest hwf
  have hfold : List.foldl Exchange.step x (asking n) =
      { session :=
          { x.session with
            shared := shared
            input := (emptyReply n).ret.data ++
              ((emptyReply n).ret.isoPackets.flatMap IsoPacketDescriptor.encode ++ [])
            reader := ReaderPhase.payload (emptyReply n).ret.submitHeader Direction.out 0 }
        answered := x.answered } := by
    simp only [asking, List.foldl, Exchange.step, hfirst, hsecond, hthird, Session.reply?]
  rw [hfold]
  have hread := readSubmitPayload_encode hwf []
  exact
    { reply := by simp only [Session.reply?, hread]
      answered := rfl
      shared := hshared.symm
      after := by
        simp only [Session.step, Session.readPayload, removeReply_ret shared hwf []] }

/-- Nothing is pending, and the first transfer has not been answered. -/
structure Exchange.Idle (x : Exchange) (reply : Nat) : Prop where
  reader : x.session.reader = ReaderPhase.header
  input : x.session.input = []
  ended : x.session.ended = false
  state : x.session.shared.state =
    { nextSeqnum := UInt32.ofNat (reply + 1), submits := ∅, unlinks := ∅,
      unlinked := [(1, Direction.out, 0)], closed := none }
  channels : x.session.shared.channels = reply
  late : exists cmd, Event.submitted 0 cmd ∈ x.session.shared.log ∧ cmd.seqnum = 1
  unanswered : 0 ∉ x.answered
  answered_lt : forall r, r ∈ x.answered -> r < reply

theorem ofNat_ne {n m : Nat} (hn : n < UInt32.size) (hm : m < UInt32.size) (hne : n ≠ m) :
    UInt32.ofNat n ≠ UInt32.ofNat m := by
  intro hsame
  have hnat := congrArg UInt32.toNat hsame
  rw [UInt32.toNat_ofNat_of_lt' hn, UInt32.toNat_ofNat_of_lt' hm] at hnat
  exact hne hnat

theorem asking_honest (n : UInt32) (x : Exchange) :
    Guarded Exchange.step Exchange.Honest x (asking n) := by
  apply guarded_of_forall
  intro a ha y
  simp only [asking, List.mem_cons, List.not_mem_nil, or_false] at ha
  rcases ha with rfl | rfl | rfl <;> exact Exchange.honest_of_no_reply rfl

theorem Exchange.Idle.free {x : Exchange} {reply : Nat} (h : x.Idle reply) {n : UInt32}
    (hn : n ≠ 0) : x.session.shared.state.Free n := by
  rw [h.state]
  exact ⟨hn, AList.notMem_empty n, AList.notMem_empty n⟩

theorem Exchange.Idle.firstFree {x : Exchange} {reply : Nat} (h : x.Idle reply)
    (hlt : reply + 2 < UInt32.size) :
    x.session.shared.state.FirstFree (UInt32.ofNat (reply + 2)) := by
  have hnext : x.session.shared.state.nextSeqnum + 1 = UInt32.ofNat (reply + 2) := by
    rw [h.state]
    exact (UInt32.ofNat_add (reply + 1) 1).symm
  rw [← hnext]
  apply State.firstFree_next
  rw [hnext]
  exact h.free (ofNat_ne hlt (by decide) (Nat.succ_ne_zero _))

theorem Exchange.Idle.round {x : Exchange} {reply : Nat} (h : x.Idle reply)
    (hpos : 0 < reply) (hlt : reply + 2 < UInt32.size) :
    let y := List.foldl Exchange.step x (asking (UInt32.ofNat (reply + 2)))
    y.Honest (reply, Step.readPayload) ∧
      (y.step (reply, Step.readPayload)).Idle (reply + 1) := by
  intro y
  have hopen : x.session.shared.state.closed = none := by
    rw [h.state]
  have hasked : x.Asked y (UInt32.ofNat (reply + 2)) :=
    Exchange.asked h.reader h.input h.ended hopen (h.firstFree hlt)
  have hstep : y.step (reply, Step.readPayload) =
      { session := y.session.step Step.readPayload, answered := reply :: x.answered } := by
    simp only [Exchange.step, hasked.reply, hasked.answered]
  have hlog : y.session.shared.log = Event.submitted reply
      (emptyRequest.command (UInt32.ofNat (reply + 2)) x.session.shared.devid) ::
        x.session.shared.log := by
    rw [hasked.shared, ← h.channels]
    rfl
  have hone : UInt32.ofNat (reply + 2) ≠ 1 :=
    ofNat_ne hlt (by decide) (Nat.succ_ne_succ_iff.mpr (Nat.succ_ne_zero reply))
  constructor
  · intro ret hreply
    rw [hasked.reply] at hreply
    cases hreply
    constructor
    · rw [hasked.answered]
      intro hmem
      exact Nat.lt_irrefl _ (h.answered_lt reply hmem)
    · rw [hlog]
      exact ⟨_, List.mem_cons_self, rfl⟩
  · rw [hstep, hasked.after]
    exact
      { reader := rfl
        input := rfl
        ended := h.ended
        state := by
          show y.session.shared.state.forget _ = _
          rw [hasked.shared]
          simp only [Shared.register, h.state, State.forget, State.mk.injEq]
          refine ⟨trivial, ?_, rfl, ?_, trivial⟩
          · apply AList.ext
            exact List.kerase_cons_eq rfl
          · simpa [emptyReply] using Ne.symm hone
        channels := by
          show y.session.shared.channels = reply + 1
          rw [hasked.shared, ← h.channels]
          rfl
        late := by
          rcases h.late with ⟨cmd, hmem, hcmd⟩
          refine ⟨cmd, List.mem_cons_of_mem _ ?_, hcmd⟩
          rw [hlog]
          exact List.mem_cons_of_mem _ hmem
        unanswered := by
          intro hmem
          rcases List.mem_cons.mp hmem with hzero | hmem
          · exact Nat.ne_of_lt hpos hzero
          · exact h.unanswered hmem
        answered_lt := by
          intro r hr
          rcases List.mem_cons.mp hr with rfl | hr
          · exact Nat.lt_succ_self _
          · exact Nat.lt_succ_of_lt (h.answered_lt r hr) }

theorem Exchange.Idle.rounds {x : Exchange} {reply : Nat} (h : x.Idle reply)
    (hpos : 0 < reply) {k : Nat} (hlt : reply + k + 1 < UInt32.size) :
    Guarded Exchange.step Exchange.Honest x (rounds k reply) ∧
      (List.foldl Exchange.step x (Client.rounds k reply)).Idle (reply + k) := by
  induction k generalizing x reply with
  | zero => exact ⟨trivial, h⟩
  | succ k ih =>
      rcases h.round hpos (by omega) with ⟨hhonest, hidle⟩
      rcases ih hidle (Nat.zero_lt_succ reply) (by omega) with ⟨hguarded, hend⟩
      constructor
      · exact (asking_honest _ x).append ⟨hhonest, hguarded⟩
      · rw [Client.rounds, List.foldl_append, List.foldl_cons]
        rw [Nat.add_assoc, Nat.add_comm 1 k] at hend
        exact hend

theorem cancelled_honest (x : Exchange) :
    Guarded Exchange.step Exchange.Honest x cancelled := by
  apply guarded_of_forall
  intro a ha y
  simp only [cancelled, List.mem_cons, List.not_mem_nil, or_false] at ha
  rcases ha with rfl | rfl | rfl | rfl <;> exact Exchange.honest_of_no_reply rfl

theorem Exchange.cancelled_idle (device : ExportedDevice) :
    (List.foldl Exchange.step (Exchange.start device) cancelled).Idle 1 := by
  let transfer : PendingSubmit := { direction := Direction.out, length := 0, reply := 0 }
  let pending : State :=
    { State.initial with nextSeqnum := 1, submits := State.initial.submits.insert 1 transfer }
  let first := (Shared.initial device.devid).register emptyRequest 1
    { State.initial with nextSeqnum := 1 }
  have hsubmit : (Shared.initial device.devid).submit emptyRequest =
      some (.ok (1, 0), first) := by
    have hone : State.initial.FirstFree 1 := State.firstFree_next (by decide)
    exact Shared.submit_of_firstFree emptyRequest_accepted rfl hone
  let second := first.registerUnlink 1 0 2 { pending with nextSeqnum := 2 }
  have hunlink : first.unlink 1 = some second := by
    have htwo : pending.FirstFree 2 := State.firstFree_next (by decide)
    have hpending : first.state.submits.lookup 1 = some transfer := rfl
    have hnone : forall u, first.state.unlinks.lookup u ≠ some 1 := by
      intro u hu
      cases hu
    exact Shared.unlink_of_firstFree hpending rfl hnone htwo
  have hlook : lookupReply second unlinkReply.encode =
      .ok (Looked.done (second.finishUnlink unlinkReply.ret), []) := by
    have hread := lookupReply_retUnlink second unlinkReply []
    rw [List.append_nil] at hread
    exact hread
  have hfold : List.foldl Exchange.step (Exchange.start device) cancelled =
      { session :=
          { Session.start device with shared := second.finishUnlink unlinkReply.ret }
        answered := [] } := by
    have hstart : (Session.start device).step (Step.submit emptyRequest) =
        { Session.start device with shared := first } := Session.step_submit hsubmit
    have hcancel : ({ Session.start device with shared := first } : Session).step
        (Step.unlink 1) = { Session.start device with shared := second } :=
      Session.step_unlink hunlink
    have hreceive : ({ Session.start device with shared := second } : Session).step
        (Step.receive unlinkReply.encode) =
          { Session.start device with shared := second, input := unlinkReply.encode } := rfl
    have hheader : ({ Session.start device with
          shared := second, input := unlinkReply.encode } : Session).step Step.readHeader =
        { Session.start device with shared := second.finishUnlink unlinkReply.ret } := by
      simp only [Session.step, Session.readHeader, Session.start, hlook]
    simp only [cancelled, List.foldl, Exchange.step, Exchange.start, hstart, hcancel, hreceive,
      hheader, Session.reply?]
  rw [hfold]
  exact
    { reader := rfl
      input := rfl
      ended := rfl
      state := rfl
      channels := rfl
      late := by
        refine ⟨emptyRequest.command 1 device.devid, ?_, rfl⟩
        rw [Shared.finishUnlink_log]
        exact List.mem_cons_of_mem _ (List.mem_cons_of_mem _ List.mem_cons_self)
      unanswered := List.not_mem_nil
      answered_lt := by
        intro r hr
        exact absurd hr List.not_mem_nil }

theorem Exchange.Idle.firstFree_wrap {x : Exchange} {reply : Nat} (h : x.Idle reply)
    (hlast : reply + 2 = UInt32.size) : x.session.shared.state.FirstFree 1 := by
  have hnext : x.session.shared.state.nextSeqnum + 1 = 0 := by
    rw [h.state]
    apply UInt32.toNat_inj.mp
    have hsum : UInt32.ofNat (reply + 1) + 1 = UInt32.ofNat (reply + 2) :=
      (UInt32.ofNat_add (reply + 1) 1).symm
    rw [hsum, hlast]
    rfl
  constructor
  · exact h.free (by decide)
  · intro m hm
    rw [hnext, UInt32.sub_zero, UInt32.sub_zero]
    apply Nat.one_le_iff_ne_zero.mpr
    intro hzero
    exact hm.left (UInt32.toNat_inj.mp hzero)

/-- A late reply resolves a submit that has taken the number of the unanswered one. -/
theorem Exchange.misattributed {x : Exchange} {n : UInt32}
    (hreader : x.session.reader = ReaderPhase.header) (hinput : x.session.input = [])
    (hended : x.session.ended = false) (hopen : x.session.shared.state.closed = none)
    (hn : x.session.shared.state.FirstFree n) {reply : Nat} {cmd : CmdSubmit}
    (hmem : Event.submitted reply cmd ∈ x.session.shared.log) (hcmd : cmd.seqnum = n)
    (hnot : reply ∉ x.answered) (hlt : reply < x.session.shared.channels) :
    let y := List.foldl Exchange.step x (asking n)
    y.Honest (reply, Step.readPayload) ∧ ¬ y.Attributed (reply, Step.readPayload) := by
  intro y
  have hasked : x.Asked y n := Exchange.asked hreader hinput hended hopen hn
  constructor
  · intro ret hreply
    rw [hasked.reply] at hreply
    cases hreply
    constructor
    · rw [hasked.answered]
      exact hnot
    · refine ⟨cmd, ?_, hcmd⟩
      rw [hasked.shared]
      exact List.mem_cons_of_mem _ hmem
  · intro hattributed
    have hpending : y.session.shared.state.submits.lookup (emptyReply n).ret.seqnum =
        some { direction := Direction.out, length := 0,
               reply := x.session.shared.channels } := by
      rw [hasked.shared]
      exact AList.lookup_insert _
    have hsent : (y.session.step Step.readPayload).shared.sent =
        (x.session.shared.channels, .ok (emptyReply n).ret) :: y.session.shared.sent := by
      rw [Session.step_reply hasked.reply]
      simp only [Shared.finishSubmit, hpending]
    rcases hattributed.resolves _ hasked.reply with hresolved | hdropped
    · rw [hsent] at hresolved
      injection hresolved with hhead _
      injection hhead with hchannel _
      exact Nat.ne_of_gt hlt hchannel
    · rw [hsent] at hdropped
      exact List.cons_ne_self _ _ hdropped

theorem Exchange.Idle.misattributed {x : Exchange} {reply : Nat} (h : x.Idle reply)
    (hpos : 0 < reply) (hlast : reply + 2 = UInt32.size) :
    let y := List.foldl Exchange.step x (asking 1)
    y.Honest (0, Step.readPayload) ∧ ¬ y.Attributed (0, Step.readPayload) := by
  have hopen : x.session.shared.state.closed = none := by
    rw [h.state]
  rcases h.late with ⟨cmd, hmem, hcmd⟩
  apply Exchange.misattributed h.reader h.input h.ended hopen (h.firstFree_wrap hlast) hmem hcmd
    h.unanswered
  rw [h.channels]
  exact hpos

/-- An honest server alone does not keep a late reply from resolving a later submit. -/
theorem late_reply_resolves_later_submit :
    ¬ forall (device : ExportedDevice) (steps : List (Nat × Step)),
      Guarded Exchange.step Exchange.Honest (Exchange.start device) steps ->
        forall front a back, steps = front ++ a :: back ->
          (List.foldl Exchange.step (Exchange.start device) front).Attributed a := by
  intro hclaim
  let device : ExportedDevice :=
    { path := "", busid := "1-1", busnum := 1, devnum := 2, speed := Speed.high,
      idVendor := 0, idProduct := 0, bcdDevice := 0, deviceClass := 0,
      deviceSubclass := 0, deviceProtocol := 0, configurationValue := 0,
      numConfigurations := 1, numInterfaces := 0, interfaces := [] }
  -- As many rounds as take the counter to its last value, kept as a variable.
  rcases Nat.exists_eq_add_of_le (show 3 ≤ UInt32.size by decide) with ⟨k, hk⟩
  let front := cancelled ++ rounds k 1 ++ asking 1
  have hidle := Exchange.cancelled_idle device
  rcases hidle.rounds Nat.one_pos (k := k) (by omega) with ⟨hrounds, hlast⟩
  rcases hlast.misattributed (by omega) (by omega) with ⟨hhonest, hwrong⟩
  have hfold : List.foldl Exchange.step (Exchange.start device) front =
      List.foldl Exchange.step (List.foldl Exchange.step
        (List.foldl Exchange.step (Exchange.start device) cancelled) (rounds k 1))
        (asking 1) := by
    simp only [front, List.foldl_append]
  have hfront : Guarded Exchange.step Exchange.Honest (Exchange.start device) front :=
    ((cancelled_honest _).append hrounds).append (asking_honest 1 _)
  have hguarded : Guarded Exchange.step Exchange.Honest (Exchange.start device)
      (front ++ [(0, Step.readPayload)]) := by
    apply hfront.append
    rw [hfold]
    exact ⟨hhonest, trivial⟩
  have hattributed := hclaim device _ hguarded front (0, Step.readPayload) [] rfl
  rw [hfold] at hattributed
  exact hwrong hattributed

end Client
end UsbIp
