import UsbIp.Client.Tables

/-!
# Every submit is answered exactly once

A completion, a cancellation and a disconnect may race for the same pending
entry, and the reader gives up the lock between looking an entry up and taking
it out.  The invariant below holds after every locked section: a submit that
was accepted is registered under its number with nothing sent to its channel,
or it is registered no more and exactly one result was sent.
-/

namespace UsbIp
namespace Client

open Foundation
open Protocol

def Shared.answers (s : Shared) (reply : Nat) : List TransferResult :=
  s.sent.filterMap fun x => if x.1 = reply then some x.2 else none

/-- A submit is registered under its number and its reply is unsent. -/
def Shared.Pending (s : Shared) (reply : Nat) (seqnum : UInt32) : Prop :=
  (exists p, s.state.submits.lookup seqnum = some p ∧ p.reply = reply) ∧
    s.answers reply = []

/--
What a result may be: a RET_SUBMIT with the number of the submit, the status of
the RET_UNLINK that answers an unlink of this very submit, or the reason with
which the session was closed. The events are listed newest first.
-/
def Shared.Justified (s : Shared) (reply : Nat) (cmd : CmdSubmit) : TransferResult -> Prop
  | .ok ret =>
      ret.seqnum = cmd.seqnum ∧
        [Event.received ret, Event.submitted reply cmd].Sublist s.log
  | .error (.unlinked status) =>
      exists unlink : CmdUnlink,
        unlink.unlinkSeqnum = cmd.seqnum ∧
          [Event.confirmed { seqnum := unlink.seqnum, status := status },
            Event.unlinking reply unlink, Event.submitted reply cmd].Sublist s.log
  | .error (.disconnected reason) =>
      s.state.closed = some reason ∧
        [Event.closed reason, Event.submitted reply cmd].Sublist s.log
  | .error (.invalid _) => False

/-- A submit is registered no more and was answered exactly once. -/
def Shared.Resolved (s : Shared) (reply : Nat) (cmd : CmdSubmit) : Prop :=
  (forall n p, s.state.submits.lookup n = some p -> p.reply ≠ reply) ∧
    exists result, s.answers reply = [result] ∧ s.Justified reply cmd result

/-!
# The invariant
-/

structure Shared.RepliesOk (s : Shared) : Prop where
  tables : s.state.TablesOk
  submitted_lt : forall reply cmd, Event.submitted reply cmd ∈ s.log -> reply < s.channels
  sent_lt : forall reply result, (reply, result) ∈ s.sent -> reply < s.channels
  pending : forall n p, s.state.submits.lookup n = some p ->
    exists cmd, cmd.seqnum = n ∧ Event.submitted p.reply cmd ∈ s.log
  reply_injective : forall n m p q, s.state.submits.lookup n = some p ->
    s.state.submits.lookup m = some q -> p.reply = q.reply -> n = m
  submitted_injective : forall reply cmd cmd', Event.submitted reply cmd ∈ s.log ->
    Event.submitted reply cmd' ∈ s.log -> cmd = cmd'
  unlink_of : forall u t p, s.state.unlinks.lookup u = some t ->
    s.state.submits.lookup t = some p ->
    exists unlink cmd, unlink.seqnum = u ∧ unlink.unlinkSeqnum = t ∧
      [Event.unlinking p.reply unlink, Event.submitted p.reply cmd].Sublist s.log
  outcome : forall reply cmd, Event.submitted reply cmd ∈ s.log ->
    s.Pending reply cmd.seqnum ∨ s.Resolved reply cmd

theorem Shared.RepliesOk.reply_lt {s : Shared} (hok : s.RepliesOk) {n : UInt32}
    {p : PendingSubmit} (hp : s.state.submits.lookup n = some p) :
    p.reply < s.channels := by
  rcases hok.pending n p hp with ⟨cmd, _, hmem⟩
  exact hok.submitted_lt p.reply cmd hmem

theorem Shared.answers_fresh {s : Shared} {reply : Nat}
    (h : forall result, (reply, result) ∉ s.sent) : s.answers reply = [] := by
  unfold Shared.answers
  apply List.filterMap_eq_nil_iff.mpr
  intro x hx
  by_cases hreply : x.1 = reply
  · exact absurd (hreply ▸ hx) (h x.2)
  · simp [hreply]

theorem Shared.RepliesOk.answers_of_pending {s : Shared} (hok : s.RepliesOk)
    {n : UInt32} {p : PendingSubmit} (hp : s.state.submits.lookup n = some p) :
    s.answers p.reply = [] := by
  rcases hok.pending n p hp with ⟨cmd, _, hmem⟩
  rcases hok.outcome p.reply cmd hmem with hpending | hresolved
  · exact hpending.right
  · exact absurd rfl (hresolved.left n p hp)

theorem Shared.Justified.mono {s s' : Shared} {reply : Nat} {cmd : CmdSubmit}
    {result : TransferResult} {l : List Event}
    (hlog : s'.log = l ++ s.log)
    (hclosed : forall reason, s.state.closed = some reason ->
      s'.state.closed = some reason)
    (h : s.Justified reply cmd result) : s'.Justified reply cmd result := by
  have hsub : s.log.Sublist s'.log := by
    rw [hlog]
    exact List.sublist_append_right l s.log
  cases result with
  | ok ret => exact ⟨h.left, h.right.trans hsub⟩
  | error e =>
      cases e with
      | unlinked status =>
          rcases h with ⟨unlink, htarget, hevents⟩
          exact ⟨unlink, htarget, hevents.trans hsub⟩
      | disconnected reason => exact ⟨hclosed reason h.left, h.right.trans hsub⟩
      | invalid text => exact h

theorem Shared.initial_repliesOk (devid : UInt32) : (Shared.initial devid).RepliesOk where
  tables := State.initial_tablesOk
  submitted_lt := by simp [Shared.initial]
  sent_lt := by simp [Shared.initial]
  pending := by simp [Shared.initial, State.initial]
  reply_injective := by simp [Shared.initial, State.initial]
  submitted_injective := by simp [Shared.initial]
  unlink_of := by simp [Shared.initial, State.initial]
  outcome := by simp [Shared.initial]

/-!
# Sections that register
-/

theorem Shared.RepliesOk.register {s : Shared} (hok : s.RepliesOk)
    {req : SubmitRequest} {seqnum : UInt32} (hopen : s.state.closed = none)
    (hfree : s.state.Free seqnum) :
    (s.register req seqnum { s.state with nextSeqnum := seqnum }).RepliesOk := by
  have hlook : forall m,
      (s.register req seqnum { s.state with nextSeqnum := seqnum }).state.submits.lookup m =
        if m = seqnum then
          some { direction := req.direction, length := req.length, reply := s.channels }
        else s.state.submits.lookup m :=
    fun m => Table.lookup_insert_eq _ seqnum m _
  have hold : forall m p, s.state.submits.lookup m = some p -> m ≠ seqnum := by
    intro m p hp hm
    rw [hm] at hp
    exact hfree.right.left (Table.mem_iff_lookup.mpr ⟨p, hp⟩)
  have hevent : forall reply cmd,
      Event.submitted reply cmd ∈
        (s.register req seqnum { s.state with nextSeqnum := seqnum }).log ->
      (reply = s.channels ∧ cmd = req.command seqnum s.devid) ∨
        Event.submitted reply cmd ∈ s.log := by
    intro reply cmd hmem
    rcases List.mem_cons.mp hmem with hnew | hmem
    · cases hnew
      exact Or.inl ⟨rfl, rfl⟩
    · exact Or.inr hmem
  exact
    { tables := hok.tables.register hopen hfree
      submitted_lt := by
        intro reply cmd hmem
        rcases hevent reply cmd hmem with ⟨rfl, _⟩ | hmem
        · exact Nat.lt_succ_self _
        · exact Nat.lt_succ_of_lt (hok.submitted_lt reply cmd hmem)
      sent_lt := fun reply result hmem =>
        Nat.lt_succ_of_lt (hok.sent_lt reply result hmem)
      pending := by
        intro n p hp
        rw [hlook] at hp
        split at hp
        · rename_i hn
          cases hp
          exact ⟨req.command seqnum s.devid, hn.symm, List.mem_cons_self⟩
        · rcases hok.pending n p hp with ⟨cmd, hcmd, hmem⟩
          exact ⟨cmd, hcmd, List.mem_cons_of_mem _ hmem⟩
      reply_injective := by
        intro n m p q hp hq hreply
        rw [hlook] at hp hq
        split at hp <;> split at hq
        · rename_i hn hm
          rw [hn, hm]
        · cases hp
          exact absurd hreply (Nat.ne_of_gt (hok.reply_lt hq))
        · cases hq
          exact absurd hreply (Nat.ne_of_lt (hok.reply_lt hp))
        · exact hok.reply_injective n m p q hp hq hreply
      submitted_injective := by
        intro reply cmd cmd' hmem hmem'
        rcases hevent reply cmd hmem with ⟨hreply, hcmd⟩ | hmem <;>
          rcases hevent reply cmd' hmem' with ⟨hreply', hcmd'⟩ | hmem'
        · rw [hcmd, hcmd']
        · exact absurd hreply (Nat.ne_of_lt (hok.submitted_lt reply cmd' hmem'))
        · exact absurd hreply' (Nat.ne_of_lt (hok.submitted_lt reply cmd hmem))
        · exact hok.submitted_injective reply cmd cmd' hmem hmem'
      unlink_of := by
        intro u t p hu hp
        rcases Table.mem_iff_lookup.mp (hok.tables.target_pending u t hu) with ⟨q, hq⟩
        rw [hlook, if_neg (hold t q hq)] at hp
        rcases hok.unlink_of u t p hu hp with ⟨unlink, cmd, hseq, htarget, hevents⟩
        exact ⟨unlink, cmd, hseq, htarget, hevents.cons _⟩
      outcome := by
        intro reply cmd hmem
        rcases hevent reply cmd hmem with ⟨rfl, rfl⟩ | hmem
        · refine Or.inl ⟨⟨_, by rw [hlook]; exact if_pos rfl, rfl⟩, ?_⟩
          apply Shared.answers_fresh
          intro result hsent
          exact Nat.lt_irrefl _ (hok.sent_lt _ result hsent)
        · rcases hok.outcome reply cmd hmem with ⟨⟨p, hp, hreply⟩, hans⟩ | ⟨hgone, result, hres⟩
          · refine Or.inl ⟨⟨p, ?_, hreply⟩, hans⟩
            rw [hlook, if_neg (hold _ p hp)]
            exact hp
          · refine Or.inr ⟨?_, result, hres.left,
              Shared.Justified.mono (l := [_]) rfl (fun _ h => h) hres.right⟩
            intro n p hp
            rw [hlook] at hp
            split at hp
            · cases hp
              exact Nat.ne_of_gt (hok.submitted_lt reply cmd hmem)
            · exact hgone n p hp }

theorem Shared.RepliesOk.registerUnlink {s : Shared} (hok : s.RepliesOk)
    {target seqnum : UInt32} {p : PendingSubmit}
    (hp : s.state.submits.lookup target = some p) (hopen : s.state.closed = none)
    (hnew : forall u, s.state.unlinks.lookup u ≠ some target)
    (hfree : s.state.Free seqnum) :
    (s.registerUnlink target p.reply seqnum
      { s.state with nextSeqnum := seqnum }).RepliesOk := by
  have hevent : forall reply cmd,
      Event.submitted reply cmd ∈ (s.registerUnlink target p.reply seqnum
        { s.state with nextSeqnum := seqnum }).log ->
      Event.submitted reply cmd ∈ s.log := by
    intro reply cmd hmem
    rcases List.mem_cons.mp hmem with hnew | hmem
    · cases hnew
    · exact hmem
  exact
    { tables := hok.tables.registerUnlink hp hopen hnew hfree
      submitted_lt := fun reply cmd hmem =>
        hok.submitted_lt reply cmd (hevent reply cmd hmem)
      sent_lt := hok.sent_lt
      pending := by
        intro n q hq
        rcases hok.pending n q hq with ⟨cmd, hcmd, hmem⟩
        exact ⟨cmd, hcmd, List.mem_cons_of_mem _ hmem⟩
      reply_injective := hok.reply_injective
      submitted_injective := fun reply cmd cmd' hmem hmem' =>
        hok.submitted_injective reply cmd cmd' (hevent _ _ hmem) (hevent _ _ hmem')
      unlink_of := by
        intro u t q hu hq
        change s.state.submits.lookup t = some q at hq
        rw [Shared.registerUnlink, Table.lookup_insert_eq] at hu
        split at hu
        · rename_i hus
          cases hu
          rw [hp] at hq
          cases hq
          rcases hok.pending target p hp with ⟨cmd, _, hmem⟩
          exact ⟨_, cmd, hus.symm, rfl,
            (List.singleton_sublist.mpr hmem).cons_cons _⟩
        · rcases hok.unlink_of u t q hu hq with ⟨unlink, cmd, hseq, htarget, hevents⟩
          exact ⟨unlink, cmd, hseq, htarget, hevents.cons _⟩
      outcome := by
        intro reply cmd hmem
        rcases hok.outcome reply cmd (hevent reply cmd hmem) with
          hpending | ⟨hgone, result, hans, hjust⟩
        · exact Or.inl hpending
        · exact Or.inr ⟨hgone, result, hans,
            hjust.mono (l := [_]) rfl (fun _ h => h)⟩ }

/-!
# Sections that take entries out
-/

theorem Shared.RepliesOk.outcome_takeOut {s s' : Shared} (hok : s.RepliesOk)
    {reply : Nat} {cmd : CmdSubmit} (hmem : Event.submitted reply cmd ∈ s'.log)
    {n : UInt32} {p : PendingSubmit} {r : TransferResult} {e : Event}
    (hp : s.state.submits.lookup n = some p)
    (hlog : s'.log = e :: s.log) (he : forall reply cmd, e ≠ Event.submitted reply cmd)
    (hlook : forall m,
      s'.state.submits.lookup m = if m = n then none else s.state.submits.lookup m)
    (hsent : s'.sent = (p.reply, r) :: s.sent)
    (hclosed : s'.state.closed = s.state.closed)
    (hjust : forall cmd, cmd.seqnum = n -> Event.submitted p.reply cmd ∈ s.log ->
      s'.Justified p.reply cmd r) :
    s'.Pending reply cmd.seqnum ∨ s'.Resolved reply cmd := by
  have hmem' : Event.submitted reply cmd ∈ s.log := by
    rw [hlog] at hmem
    rcases List.mem_cons.mp hmem with hnew | hold
    · exact absurd hnew.symm (he reply cmd)
    · exact hold
  by_cases hreply : reply = p.reply
  · subst hreply
    rcases hok.pending n p hp with ⟨cmd', hcmd', hsub⟩
    have hsame : cmd = cmd' := hok.submitted_injective p.reply cmd cmd' hmem' hsub
    refine Or.inr ⟨?_, r, ?_, hjust cmd (hsame ▸ hcmd') hmem'⟩
    · intro m q hq hqp
      rw [hlook] at hq
      split at hq
      · cases hq
      · rename_i hne
        exact hne (hok.reply_injective m n q p hq hp hqp)
    · have hnone : s.answers p.reply = [] := hok.answers_of_pending hp
      unfold Shared.answers at hnone ⊢
      rw [hsent]
      simp [hnone]
  · have hans : s'.answers reply = s.answers reply := by
      unfold Shared.answers
      rw [hsent]
      simp [Ne.symm hreply]
    rcases hok.outcome reply cmd hmem' with ⟨⟨q, hq, hqr⟩, hnone⟩ | ⟨hgone, res, hres, hj⟩
    · refine Or.inl ⟨⟨q, ?_, hqr⟩, hans ▸ hnone⟩
      rw [hlook, if_neg]
      · exact hq
      · intro hsame
        rw [hsame, hp] at hq
        cases hq
        exact hreply hqr.symm
    · refine Or.inr ⟨?_, res, hans ▸ hres,
        hj.mono (l := [e]) hlog (fun _ h => hclosed ▸ h)⟩
      intro m q hq
      rw [hlook] at hq
      split at hq
      · cases hq
      · exact hgone m q hq

theorem Shared.RepliesOk.shrink {s s' : Shared} (hok : s.RepliesOk) {e : Event}
    (hlog : s'.log = e :: s.log) (he : forall reply cmd, e ≠ Event.submitted reply cmd)
    (hchannels : s'.channels = s.channels)
    (hsubmits : forall n p, s'.state.submits.lookup n = some p ->
      s.state.submits.lookup n = some p)
    (hunlinks : forall u t, s'.state.unlinks.lookup u = some t ->
      s.state.unlinks.lookup u = some t)
    (hsent : forall reply result, (reply, result) ∈ s'.sent -> reply < s.channels)
    (htables : s'.state.TablesOk)
    (houtcome : forall reply cmd, Event.submitted reply cmd ∈ s'.log ->
      s'.Pending reply cmd.seqnum ∨ s'.Resolved reply cmd) :
    s'.RepliesOk := by
  have hevent : forall reply cmd, Event.submitted reply cmd ∈ s'.log ->
      Event.submitted reply cmd ∈ s.log := by
    intro reply cmd hmem
    rw [hlog] at hmem
    rcases List.mem_cons.mp hmem with hnew | hold
    · exact absurd hnew.symm (he reply cmd)
    · exact hold
  exact
    { tables := htables
      submitted_lt := by
        intro reply cmd hmem
        rw [hchannels]
        exact hok.submitted_lt reply cmd (hevent reply cmd hmem)
      sent_lt := by
        intro reply result hmem
        rw [hchannels]
        exact hsent reply result hmem
      pending := by
        intro n p hp
        rcases hok.pending n p (hsubmits n p hp) with ⟨cmd, hcmd, hmem⟩
        exact ⟨cmd, hcmd, hlog ▸ List.mem_cons_of_mem e hmem⟩
      reply_injective := fun n m p q hp hq =>
        hok.reply_injective n m p q (hsubmits n p hp) (hsubmits m q hq)
      submitted_injective := fun reply cmd cmd' hmem hmem' =>
        hok.submitted_injective reply cmd cmd' (hevent _ _ hmem) (hevent _ _ hmem')
      unlink_of := by
        intro u t p hu hp
        rcases hok.unlink_of u t p (hunlinks u t hu) (hsubmits t p hp) with
          ⟨unlink, cmd, hseq, htarget, hevents⟩
        exact ⟨unlink, cmd, hseq, htarget, hlog ▸ hevents.cons e⟩
      outcome := houtcome }

theorem Shared.RepliesOk.outcome_event {s s' : Shared} (hok : s.RepliesOk)
    {reply : Nat} {cmd : CmdSubmit} (hmem : Event.submitted reply cmd ∈ s'.log)
    {e : Event}
    (hlog : s'.log = e :: s.log) (he : forall reply cmd, e ≠ Event.submitted reply cmd)
    (hsubmits : s'.state.submits = s.state.submits) (hsent : s'.sent = s.sent)
    (hclosed : s'.state.closed = s.state.closed) :
    s'.Pending reply cmd.seqnum ∨ s'.Resolved reply cmd := by
  rw [hlog] at hmem
  rcases List.mem_cons.mp hmem with hnew | hmem
  · exact absurd hnew.symm (he reply cmd)
  · have hans : s'.answers reply = s.answers reply := by
      unfold Shared.answers
      rw [hsent]
    rcases hok.outcome reply cmd hmem with ⟨⟨q, hq, hqr⟩, hnone⟩ | ⟨hgone, res, hres, hj⟩
    · exact Or.inl ⟨⟨q, hsubmits ▸ hq, hqr⟩, hans ▸ hnone⟩
    · exact Or.inr ⟨hsubmits ▸ hgone, res, hans ▸ hres,
        hj.mono (l := [e]) hlog (fun _ h => hclosed ▸ h)⟩

theorem Shared.RepliesOk.finishSubmit {s : Shared} (hok : s.RepliesOk)
    (ret : RetSubmit) : (s.finishSubmit ret).RepliesOk := by
  have hlook : forall m, (s.finishSubmit ret).state.submits.lookup m =
      if m = ret.seqnum then none else s.state.submits.lookup m :=
    fun m => Table.lookup_erase_eq _ ret.seqnum m
  refine hok.shrink (e := Event.received ret) rfl (by simp) rfl ?_ ?_ ?_
    (hok.tables.forget ret.seqnum) ?_
  · intro n p hp
    exact (Table.lookup_of_erase hp).right
  · intro u t hu
    exact Table.lookup_of_retain hu
  · intro reply result hmem
    cases hp : s.state.submits.lookup ret.seqnum with
    | none =>
        simp only [Shared.finishSubmit, hp] at hmem
        exact hok.sent_lt reply result hmem
    | some p =>
        simp only [Shared.finishSubmit, hp, List.mem_cons, Prod.mk.injEq] at hmem
        rcases hmem with ⟨rfl, _⟩ | hmem
        · exact hok.reply_lt hp
        · exact hok.sent_lt reply result hmem
  · intro reply cmd hmem
    cases hp : s.state.submits.lookup ret.seqnum with
    | none =>
        -- A late RET_SUBMIT of an unlinked transfer: nobody waits for it.
        refine hok.outcome_event hmem (e := Event.received ret) rfl (by simp) ?_ ?_ rfl
        · exact AList.ext (List.kerase_of_notMem_keys (AList.lookup_eq_none.mp hp))
        · simp [Shared.finishSubmit, hp]
    | some p =>
        refine hok.outcome_takeOut hmem (e := Event.received ret) (r := .ok ret) hp rfl
          (by simp) hlook (by simp [Shared.finishSubmit, hp]) rfl ?_
        intro cmd' hseq hsub
        exact ⟨hseq.symm, (List.singleton_sublist.mpr hsub).cons_cons _⟩

theorem Shared.RepliesOk.finishUnlink {s : Shared} (hok : s.RepliesOk)
    (ret : RetUnlink) : (s.finishUnlink ret).RepliesOk := by
  have htables := hok.tables.finishUnlink ret
  unfold Shared.finishUnlink at htables ⊢
  cases htarget : s.state.unlinks.lookup ret.seqnum with
  | none =>
      simp only [htarget] at htables ⊢
      refine hok.shrink (e := Event.confirmed ret) rfl (by simp) rfl (fun _ _ h => h)
        (fun _ _ h => h) hok.sent_lt htables ?_
      intro reply cmd hmem
      exact hok.outcome_event hmem (e := Event.confirmed ret) rfl (by simp) rfl rfl rfl
  | some target =>
      rcases Table.mem_iff_lookup.mp (hok.tables.target_pending _ _ htarget) with ⟨p, hp⟩
      simp only [htarget, hp] at htables ⊢
      refine hok.shrink (e := Event.confirmed ret) rfl (by simp) rfl ?_ ?_ ?_ htables ?_
      · intro n q hq
        exact (Table.lookup_of_erase hq).right
      · intro u t hu
        exact (Table.lookup_of_erase hu).right
      · intro reply result hmem
        rcases List.mem_cons.mp hmem with hnew | hmem
        · cases hnew
          exact hok.reply_lt hp
        · exact hok.sent_lt reply result hmem
      · intro reply cmd hmem
        refine hok.outcome_takeOut hmem (e := Event.confirmed ret)
          (r := .error (.unlinked ret.status)) hp rfl (by simp)
          (fun m => Table.lookup_erase_eq _ target m) rfl rfl ?_
        intro cmd' hseq hsub
        rcases hok.unlink_of ret.seqnum target p htarget hp with
          ⟨unlink, cmd'', huseq, hutarget, hevents⟩
        have hsub'' : Event.submitted p.reply cmd'' ∈ s.log :=
          hevents.subset (List.mem_cons_of_mem _ List.mem_cons_self)
        have hsame : cmd'' = cmd' := hok.submitted_injective p.reply _ _ hsub'' hsub
        subst hsame
        refine ⟨unlink, hutarget.trans hseq.symm, ?_⟩
        rw [huseq]
        exact hevents.cons_cons _

def PendingSubmit.closeAnswer (reason : String) (reply : Nat) (p : PendingSubmit) :
    Option TransferResult :=
  if p.reply = reply then some (.error (.disconnected reason)) else none

theorem Shared.close_answers {s : Shared} (hopen : s.state.closed = none)
    (reason : String) (reply : Nat) :
    (s.close reason).answers reply =
      s.state.submits.entries.filterMap (fun e => e.2.closeAnswer reason reply) ++
        s.answers reply := by
  unfold Shared.answers Shared.close
  rw [hopen]
  simp only [List.filterMap_append, List.filterMap_map]
  rfl

theorem Shared.RepliesOk.close {s : Shared} (hok : s.RepliesOk) (reason : String) :
    (s.close reason).RepliesOk := by
  have htables := hok.tables.close reason
  cases hopen : s.state.closed with
  | some earlier =>
      simpa [Shared.close, hopen] using hok
  | none =>
      have hlog : (s.close reason).log = Event.closed reason :: s.log := by
        simp [Shared.close, hopen]
      have hsubmits : (s.close reason).state.submits = ∅ := by
        simp [Shared.close, hopen]
      have hclosed : (s.close reason).state.closed = some reason := by
        simp [Shared.close, hopen]
      refine hok.shrink hlog (by simp) (by simp [Shared.close, hopen]) ?_ ?_ ?_ htables ?_
      · intro n p hp
        simp [hsubmits] at hp
      · intro u t hu
        simp [Shared.close, hopen] at hu
      · intro reply result hmem
        simp only [Shared.close, hopen, List.mem_append, List.mem_map, Prod.mk.injEq] at hmem
        rcases hmem with ⟨e, he, rfl, _⟩ | hmem
        · exact hok.reply_lt (Table.mem_entries_iff.mp he)
        · exact hok.sent_lt reply result hmem
      · intro reply cmd hmem
        rw [hlog] at hmem
        have hmem' : Event.submitted reply cmd ∈ s.log := by simpa using hmem
        have hgone : forall n p, (s.close reason).state.submits.lookup n = some p ->
            p.reply ≠ reply := by
          intro n p hp
          simp [hsubmits] at hp
        right
        constructor
        · exact hgone
        · rw [Shared.close_answers hopen]
          rcases hok.outcome reply cmd hmem' with ⟨⟨p, hp, hreply⟩, hans⟩ | ⟨hnot, res, hres, hj⟩
          · refine ⟨.error (.disconnected reason), ?_, hclosed, ?_⟩
            · rw [hans, List.append_nil]
              refine Table.filterMap_entries_eq_singleton
                (f := PendingSubmit.closeAnswer reason reply) hp (if_pos hreply) ?_
              intro m q hq hne
              apply if_neg
              intro hqr
              exact hne (hok.reply_injective m cmd.seqnum q p hq hp (hqr.trans hreply.symm))
            · rw [hlog]
              exact (List.singleton_sublist.mpr hmem').cons_cons _
          · refine ⟨res, ?_, hj.mono (l := [_]) hlog (by simp [hopen])⟩
            rw [hres]
            have hnone : s.state.submits.entries.filterMap
                (fun e => e.2.closeAnswer reason reply) = [] := by
              apply List.filterMap_eq_nil_iff.mpr
              intro e he
              exact if_neg (hnot e.1 e.2 (Table.mem_entries_iff.mp he))
            rw [hnone]
            rfl

theorem Shared.RepliesOk.section {request : Option SubmitRequest} {s s' : Shared}
    (hstep : Section request s s') (hok : s.RepliesOk) : s'.RepliesOk := by
  cases hstep with
  | submit h =>
      rcases Shared.submit_cases h with ⟨_, _, rfl, _⟩ | ⟨seqnum, _, _, hopen, hfree, rfl⟩
      · exact hok
      · exact hok.register hopen hfree.free
  | unlink h =>
      rcases Shared.unlink_cases h with ⟨rfl, _⟩ | ⟨p, seqnum, hp, hopen, hnew, hfree, rfl⟩
      · exact hok
      · exact hok.registerUnlink hp hopen hnew hfree.free
  | close reason => exact hok.close reason
  | finishSubmit ret => exact hok.finishSubmit ret
  | finishUnlink ret => exact hok.finishUnlink ret

theorem Shared.RepliesOk.withFrames {s : Shared} (hok : s.RepliesOk)
    (frames : List Bytes) : { s with frames := frames }.RepliesOk where
  tables := hok.tables
  submitted_lt := hok.submitted_lt
  sent_lt := hok.sent_lt
  pending := hok.pending
  reply_injective := hok.reply_injective
  submitted_injective := hok.submitted_injective
  unlink_of := hok.unlink_of
  outcome := hok.outcome

theorem Session.repliesOk {s : Session} (h : s.Reachable) : s.shared.RepliesOk :=
  Session.shared_invariant (I := Shared.RepliesOk) Shared.initial_repliesOk
    (fun _ frames hok => hok.withFrames frames) (fun _ _ _ hstep hok => hok.section hstep) h

/-!
# The closed flag
-/

theorem Section.closed {request : Option SubmitRequest} {s s' : Shared}
    (hstep : Section request s s') {reason : String}
    (hclosed : s.state.closed = some reason) : s'.state.closed = some reason := by
  cases hstep with
  | submit h =>
      rcases Shared.submit_cases h with ⟨_, _, rfl, _⟩ | ⟨seqnum, _, _, hopen, _, rfl⟩
      · exact hclosed
      · rw [hopen] at hclosed
        cases hclosed
  | unlink h =>
      rcases Shared.unlink_cases h with ⟨rfl, _⟩ | ⟨p, seqnum, _, hopen, _, _, rfl⟩
      · exact hclosed
      · rw [hopen] at hclosed
        cases hclosed
  | close again => simp [Shared.close, hclosed]
  | finishSubmit ret => exact hclosed
  | finishUnlink ret =>
      unfold Shared.finishUnlink
      dsimp only
      split
      · exact hclosed
      · split <;> exact hclosed

theorem Session.step_closed (s : Session) (st : Step) {reason : String}
    (hclosed : s.shared.state.closed = some reason) :
    (s.step st).shared.state.closed = some reason := by
  rcases s.step_shared st with ⟨frames, heq⟩ | hstep
  · rw [heq]
    exact hclosed
  · exact hstep.closed hclosed

theorem Session.run_closed (s : Session) (steps : List Step) {reason : String}
    (hclosed : s.shared.state.closed = some reason) :
    (List.foldl Session.step s steps).shared.state.closed = some reason :=
  invariant_of_step (I := fun s : Session => s.shared.state.closed = some reason)
    (fun s st h => s.step_closed st h) steps hclosed

/-!
# The guarantee to callers
-/

/--
In every state of every run, each accepted submit is pending with its reply
unsent or was answered exactly once and for a good reason; an accepted submit
has a channel of its own; a refused one leaves the shared state as it was; and
a closed session stays closed, with the first reason and with empty tables.
-/
theorem submit_answered_exactly_once (device : ExportedDevice) (steps : List Step) :
    let s := List.foldl Session.step (Session.start device) steps
    (forall reply cmd, Event.submitted reply cmd ∈ s.shared.log ->
      s.shared.Pending reply cmd.seqnum ∨ s.shared.Resolved reply cmd) ∧
    (forall req seqnum reply shared,
      s.shared.submit req = some (.ok (seqnum, reply), shared) ->
        shared.log = Event.submitted reply (req.command seqnum s.shared.devid) ::
          s.shared.log ∧
        forall cmd, Event.submitted reply cmd ∉ s.shared.log) ∧
    (forall req e shared,
      s.shared.submit req = some (.error e, shared) -> shared = s.shared) ∧
    forall reason, s.shared.state.closed = some reason ->
      forall more,
        let s' := List.foldl Session.step s more
        s'.shared.state.closed = some reason ∧
          s'.shared.state.submits = ∅ ∧ s'.shared.state.unlinks = ∅ := by
  intro s
  have hreach : s.Reachable := ⟨device, steps, rfl⟩
  have hok := Session.repliesOk hreach
  refine ⟨hok.outcome, ?_, ?_, ?_⟩
  · intro req seqnum reply shared h
    rcases Shared.submit_cases h with ⟨e, he, _⟩ | ⟨n, hn, _, _, _, rfl⟩
    · cases he
    · cases hn
      constructor
      · rfl
      · intro cmd hmem
        exact Nat.lt_irrefl _ (hok.submitted_lt _ cmd hmem)
  · intro req e shared h
    rcases Shared.submit_cases h with ⟨_, _, rfl, _⟩ | ⟨n, hn, _⟩
    · rfl
    · cases hn
  · intro reason hclosed more s'
    have hclosed' : s'.shared.state.closed = some reason := s.run_closed more hclosed
    have hreach' : s'.Reachable :=
      ⟨device, steps ++ more, (List.foldl_append ..).symm⟩
    have hempty := (Session.tablesOk hreach').closed_empty (by rw [hclosed']; rfl)
    exact ⟨hclosed', hempty.left, hempty.right⟩

end Client
end UsbIp
