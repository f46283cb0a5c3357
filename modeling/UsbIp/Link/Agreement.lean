import UsbIp.Client.InStep
import UsbIp.Link.Custody

/-!
# The two sides agree

While the session is open, the client's table of submits lists exactly the
transfers that are somewhere between the two sides, and its table of unlinks
belongs to the unlinks under way: an answer that cancelled its target finds its
unlink registered, and one that came too late finds nothing, because the
RET_SUBMIT before it has taken the entry along.
-/

namespace UsbIp
namespace Link

open Foundation
open Protocol
open Client (Shared SubmitRequest)
open Server (Urb Urbs Answer Outcome Completion Job urbOf unlinkStatus)

/-!
# The invariant
-/

def EntriesOk (s : Shared) : Prop :=
  forall n p, s.state.submits.lookup n = some p ->
    exists cmd, Client.Event.submitted p.reply cmd ∈ s.log ∧ cmd.seqnum = n ∧
      cmd.direction = p.direction.toU32 ∧ cmd.transferBufferLength = p.length

def Registered (s : Shared) (n : UInt32) (c : Nat) : Prop :=
  exists p, s.state.submits.lookup n = some p ∧ p.reply = c

structure Dialogue.Agrees (d : Dialogue) : Prop where
  entries : EntriesOk d.client
  /-- No submit follows an unlink that targets its number. -/
  follow : forall front o back, d.orders = front ++ o :: back ->
    forall reply cmd, Order.submit reply cmd ∈ back -> o.target? ≠ some cmd.seqnum
  held : d.client.state.closed = none -> forall n c, d.Held n c -> Registered d.client n c
  registered : d.client.state.closed = none -> d.server.ended = false ->
    forall n c, Registered d.client n c -> d.Held n c
  order_target : d.client.state.closed = none -> forall reply cmd,
    Order.unlink reply cmd ∈ d.orders -> forall t,
    d.client.state.unlinks.lookup cmd.seqnum = some t -> t = cmd.unlinkSeqnum
  order_registered : d.client.state.closed = none -> forall reply cmd,
    Order.unlink reply cmd ∈ d.orders -> cmd.unlinkSeqnum ∈ d.client.state.submits ->
    d.client.state.unlinks.lookup cmd.seqnum = some cmd.unlinkSeqnum
  cancelled : d.client.state.closed = none -> forall u t c,
    Answer.unlink u t (some c) ∈ d.unread -> d.client.state.unlinks.lookup u = some t
  missed : d.client.state.closed = none -> forall front u t back,
    d.unread = front ++ Answer.unlink u t none :: back -> forall s,
    d.client.state.unlinks.lookup u = some s ->
    exists cancel urb c, Answer.ret cancel urb c ∈ front ∧ urb.seqnum = s
  unlinks : d.client.state.closed = none -> d.server.ended = false -> forall u,
    u ∈ d.client.state.unlinks ->
    (exists reply cmd, Order.unlink reply cmd ∈ d.orders ∧ cmd.seqnum = u) ∨
      exists t found, Answer.unlink u t found ∈ d.unread

theorem Dialogue.start_agrees (devid : UInt32) : (Dialogue.start devid).Agrees where
  entries := by simp [EntriesOk, Dialogue.start, Shared.initial, Client.State.initial]
  follow := by
    intro front o back hsplit
    cases front <;> cases hsplit
  held := by
    rintro _ n c (⟨o, ho, _⟩ | hpending | ⟨a, ha, _⟩)
    · cases ho
    · cases hpending
    · cases ha
  registered := by
    rintro _ _ n c ⟨p, hp, _⟩
    cases hp
  order_target := by
    intro _ reply cmd ho
    cases ho
  order_registered := by
    intro _ reply cmd ho
    cases ho
  cancelled := by
    intro _ u t c ha
    cases ha
  missed := by
    intro _ front u t back hsplit
    cases front <;> cases hsplit
  unlinks := by
    intro _ _ u hu
    exact absurd hu (AList.notMem_empty u)

/-!
# Entries
-/

theorem EntriesOk.of_lookup {s s' : Shared} (hok : EntriesOk s)
    (hlog : forall e, e ∈ s.log -> e ∈ s'.log)
    (hsubmits : forall n p, s'.state.submits.lookup n = some p ->
      s.state.submits.lookup n = some p) : EntriesOk s' := by
  intro n p hp
  rcases hok n p (hsubmits n p hp) with ⟨cmd, hmem, hrest⟩
  exact ⟨cmd, hlog _ hmem, hrest⟩

theorem close_lookup {s : Shared} {reason : String} {n : UInt32} {p : Client.PendingSubmit}
    (h : (s.close reason).state.submits.lookup n = some p) :
    s.state.submits.lookup n = some p := by
  unfold Shared.close at h
  split at h
  · exact h
  · cases h

theorem finishUnlink_lookup {s : Shared} {ret : RetUnlink} {n : UInt32}
    {p : Client.PendingSubmit} (h : (s.finishUnlink ret).state.submits.lookup n = some p) :
    s.state.submits.lookup n = some p := by
  unfold Shared.finishUnlink at h
  dsimp only at h
  split at h
  · exact h
  · split at h
    · exact h
    · exact (Table.lookup_of_erase h).right

theorem finishUnlink_unlinks {s : Shared} {ret : RetUnlink} {u t : UInt32}
    (h : (s.finishUnlink ret).state.unlinks.lookup u = some t) :
    s.state.unlinks.lookup u = some t := by
  unfold Shared.finishUnlink at h
  dsimp only at h
  split at h
  · exact h
  · split at h
    · exact (Table.lookup_of_erase h).right
    · exact (Table.lookup_of_erase h).right

theorem Turn.entries {d d' : Dialogue} (h : Turn d d') (hok : EntriesOk d.client) :
    EntriesOk d'.client := by
  have hlog : forall e, e ∈ d.client.log -> e ∈ d'.client.log := fun _ he => h.log he
  cases h with
  | @submit req seqnum _ _ _ _ =>
      intro n p hp
      change (d.client.state.submits.insert seqnum _).lookup n = some p at hp
      rw [Table.lookup_insert_eq] at hp
      split at hp
      · rename_i hn
        cases hp
        exact ⟨req.command seqnum d.client.devid, List.mem_cons_self, hn.symm, rfl, rfl⟩
      · rcases hok n p hp with ⟨cmd, hmem, hrest⟩
        exact ⟨cmd, List.mem_cons_of_mem _ hmem, hrest⟩
  | close reason => exact hok.of_lookup hlog fun _ _ hp => close_lookup hp
  | readRet _ => exact hok.of_lookup hlog fun _ _ hp => (Table.lookup_of_erase hp).right
  | readUnlink _ => exact hok.of_lookup hlog fun _ _ hp => finishUnlink_lookup hp
  | lateRet ret _ => exact hok.of_lookup hlog fun _ _ hp => (Table.lookup_of_erase hp).right
  | lateUnlink ret _ => exact hok.of_lookup hlog fun _ _ hp => finishUnlink_lookup hp
  | _ => exact hok.of_lookup hlog fun _ _ hp => hp

/-!
# Submits behind unlinks
-/

theorem Turn.follow {d d' : Dialogue} (h : Turn d d') (hsound : d.Sound)
    (hok : d.Agrees) : forall front o back, d'.orders = front ++ o :: back ->
      forall reply cmd, Order.submit reply cmd ∈ back -> o.target? ≠ some cmd.seqnum := by
  have hsame : d'.orders = d.orders -> forall front o back, d'.orders = front ++ o :: back ->
      forall reply cmd, Order.submit reply cmd ∈ back -> o.target? ≠ some cmd.seqnum := by
    intro heq
    rw [heq]
    exact hok.follow
  have htail : forall first, d.orders = first :: d'.orders ->
      forall front o back, d'.orders = front ++ o :: back ->
      forall reply cmd, Order.submit reply cmd ∈ back -> o.target? ≠ some cmd.seqnum := by
    intro first heq front o back hsplit
    apply hok.follow (first :: front) o back
    rw [heq, hsplit]
    rfl
  have hadd : forall new, d'.orders = d.orders ++ [new] ->
      (forall reply cmd, new = Order.submit reply cmd -> d.Unused cmd.seqnum) ->
      forall front o back, d'.orders = front ++ o :: back ->
      forall reply cmd, Order.submit reply cmd ∈ back -> o.target? ≠ some cmd.seqnum := by
    intro new heq hunused front o back hsplit reply cmd hmem
    rcases List.eq_nil_or_concat back with rfl | ⟨init, last, rfl⟩
    · cases hmem
    · rw [heq, List.concat_eq_append, ← List.cons_append, ← List.append_assoc] at hsplit
      rcases List.append_inj' hsplit rfl with ⟨hfront, hlast⟩
      have hnew : new = last := (List.cons.inj hlast).left
      rw [List.concat_eq_append] at hmem
      rcases List.mem_append.mp hmem with hold | hlast
      · exact hok.follow front o init hfront reply cmd hold
      · have hcmd : new = Order.submit reply cmd := by
          rw [hnew]
          exact (List.mem_singleton.mp hlast).symm
        apply (hunused reply cmd hcmd).targets
        rw [hfront]
        exact List.mem_append_right _ List.mem_cons_self
  cases h with
  | idle frames => exact hsame rfl
  | @submit req n _ _ _ hunused =>
      apply hadd (Order.submit d.client.channels (req.command n d.client.devid))
        (Dialogue.orders_register hsound.taken_le)
      intro reply cmd hcmd
      cases hcmd
      exact hunused
  | @unlink target n p _ _ _ _ _ =>
      apply hadd (Order.unlink p.reply
        { seqnum := n, devid := d.client.devid, unlinkSeqnum := target })
        (Dialogue.orders_registerUnlink hsound.taken_le)
      intro reply cmd hcmd
      cases hcmd
  | close reason => exact hsame (d.orders_close reason)
  | takeSubmit horders =>
      apply htail
      rw [Dialogue.orders_take (d.server.submit_taken _) horders]
      exact horders
  | takeUnlink horders =>
      apply htail
      rw [Dialogue.orders_take (d.server.unlink_taken _ _) horders]
      exact horders
  | drop _ _ => exact hsame rfl
  | answer _ _ _ _ => exact hsame Dialogue.orders_answer
  | @disconnect front back job cancel _ _ =>
      exact hsame (Dialogue.orders_server (d := d)
        (u := { takeOut d.server front job back with ended := true })
        (takeOut_taken d.server front job back))
  | stop => exact hsame (Dialogue.orders_server d.server.stop_taken)
  | readRet _ => exact hsame (Dialogue.orders_finishSubmit hsound.taken_le)
  | readUnlink _ => exact hsame (Dialogue.orders_finishUnlink hsound.taken_le)
  | lateRet ret _ => exact hsame (Dialogue.orders_finishSubmit hsound.taken_le)
  | lateUnlink ret _ => exact hsame (Dialogue.orders_finishUnlink hsound.taken_le)

/-!
# Reading an answer
-/

theorem ne_none_of_isSome {α : Type} {o : Option α} (h : o.isSome = true) : o ≠ none := by
  rintro rfl
  cases h

theorem Dialogue.held_unread {d : Dialogue} {a : Answer} (ha : a ∈ d.unread) {n : UInt32}
    {c : Nat} (hheld : answerHeld a = some (n, c)) : d.Held n c :=
  Or.inr (Or.inr ⟨a, ha, hheld⟩)

theorem Dialogue.Agrees.held_rest {d : Dialogue} (hok : d.Agrees) (hsound : d.Sound)
    (hopen : d.client.state.closed = none) {a : Answer} {rest : List Answer}
    (hunread : d.unread = a :: rest) {n : UInt32} {c : Nat}
    (ha : answerHeld a = some (n, c)) {m : UInt32} {x : Nat}
    (h : HeldBy d.orders d.server.pending rest m x) :
    Registered d.client m x ∧ m ≠ n := by
  have hheld : d.Held m x := by
    unfold Dialogue.Held
    rw [hunread]
    exact h.cons a
  rcases hok.held hopen m x hheld with ⟨p, hp, rfl⟩
  refine ⟨⟨p, hp, rfl⟩, ?_⟩
  rintro rfl
  have hfirst : d.Held m c := Dialogue.held_unread (hunread ▸ List.mem_cons_self) ha
  rcases hok.held hopen m c hfirst with ⟨q, hq, rfl⟩
  rw [hp] at hq
  cases hq
  exact hsound.held_once hunread ha m h

inductive Unlinked (s s' : Shared) (u t : UInt32) : Option Nat -> Prop where
  | cancelled (p : Client.PendingSubmit) :
      s.state.submits.lookup t = some p -> s.state.unlinks.lookup u = some t ->
      s'.state.submits = s.state.submits.erase t ->
      s'.state.unlinks = s.state.unlinks.erase u ->
      s'.sent = (p.reply, .error (.unlinked (unlinkStatus (some p.reply)))) :: s.sent ->
      Unlinked s s' u t (some p.reply)
  | missed : s.state.unlinks.lookup u = none -> s'.state = s.state -> s'.sent = s.sent ->
      Unlinked s s' u t none

theorem Dialogue.Agrees.unlinked {d : Dialogue} (hok : d.Agrees) (hsound : d.Sound)
    (hopen : d.client.state.closed = none) {u t : UInt32} {found : Option Nat}
    {rest : List Answer} (hunread : d.unread = Answer.unlink u t found :: rest) :
    Unlinked d.client
      (d.client.finishUnlink { seqnum := u, status := unlinkStatus found }) u t found := by
  have hconfirmed := Client.finishUnlink_confirmed hsound.replies.tables
    (Server.serverUnlink u (unlinkStatus found))
  have hmem : Answer.unlink u t found ∈ d.unread := hunread ▸ List.mem_cons_self
  cases found with
  | none =>
      have hnone : d.client.state.unlinks.lookup u = none := by
        cases hlook : d.client.state.unlinks.lookup u with
        | none => rfl
        | some s =>
            rcases hok.missed hopen [] u t rest hunread s hlook with ⟨_, _, _, hnil, _⟩
            cases hnil
      have hunknown := hconfirmed.unknown (AList.lookup_eq_none.mp hnone)
      exact Unlinked.missed hnone hunknown.right hunknown.left
  | some c =>
      have hlook := hok.cancelled hopen u t c hmem
      rcases hconfirmed.known t hlook with ⟨p, hp, hsent, hsubmits, hunlinks⟩
      rcases hok.held hopen t c (Dialogue.held_unread hmem rfl) with ⟨q, hq, rfl⟩
      rw [hp] at hq
      cases hq
      exact Unlinked.cancelled p hp hlook hsubmits hunlinks hsent

/-!
# Transfers
-/

theorem Turn.held {d d' : Dialogue} (h : Turn d d') (hsound : d.Sound) (hok : d.Agrees)
    (hopen' : d'.client.state.closed = none) {m : UInt32} {x : Nat} (hheld : d'.Held m x) :
    Registered d'.client m x := by
  have hopen := h.open_before hopen'
  cases h with
  | idle frames => exact hok.held hopen m x hheld
  | @submit req n _ _ hfree _ =>
      have hlook : forall m,
          (d.client.register req n
            { d.client.state with nextSeqnum := n }).state.submits.lookup m =
            if m = n then some
              { direction := req.direction, length := req.length,
                reply := d.client.channels }
            else d.client.state.submits.lookup m :=
        fun m => Table.lookup_insert_eq _ n m _
      unfold Dialogue.Held at hheld
      rw [Dialogue.orders_register hsound.taken_le, Dialogue.unread_client rfl rfl] at hheld
      have hcases : d.Held m x ∨ (m = n ∧ x = d.client.channels) := by
        rcases hheld with ⟨o, ho, hone⟩ | hrest
        · rcases List.mem_append.mp ho with hold | hnew
          · exact Or.inl (Or.inl ⟨o, hold, hone⟩)
          · rw [List.mem_singleton.mp hnew] at hone
            cases hone
            exact Or.inr ⟨rfl, rfl⟩
        · exact Or.inl (Or.inr hrest)
      rcases hcases with hold | ⟨rfl, rfl⟩
      · rcases hok.held hopen m x hold with ⟨p, hp, hreply⟩
        refine ⟨p, ?_, hreply⟩
        refine (hlook m).trans ?_
        rw [if_neg]
        · exact hp
        · rintro rfl
          exact hfree.right.left (Table.mem_iff_lookup.mpr ⟨p, hp⟩)
      · exact ⟨_, (hlook m).trans (if_pos rfl), rfl⟩
  | @unlink target n p _ _ _ _ _ =>
      unfold Dialogue.Held at hheld
      rw [Dialogue.orders_registerUnlink hsound.taken_le,
        Dialogue.unread_client rfl rfl] at hheld
      apply hok.held hopen m x
      apply hheld.mono _ (fun h => h) (fun _ ha _ => ha)
      intro o ho hone
      rcases List.mem_append.mp ho with hold | hnew
      · exact hold
      · rw [List.mem_singleton.mp hnew] at hone
        cases hone
  | close reason => exact absurd hopen' (close_closed d.client reason)
  | takeSubmit horders =>
      exact hok.held hopen m x ((hsound.held_takeSubmit horders m x).mp hheld)
  | takeUnlink horders =>
      exact hok.held hopen m x ((hsound.held_takeUnlink horders hopen m x).left hheld)
  | drop _ _ => exact hok.held hopen m x hheld
  | answer hjobs _ hpending _ =>
      exact hok.held hopen m x ((hsound.held_answer hjobs hpending hopen m x).left hheld)
  | @disconnect front back job cancel _ _ =>
      apply hok.held hopen m x
      exact Dialogue.held_less (takeOut_taken d.server front job back) rfl
        (fun hlook => (Table.lookup_of_erase hlook).right) hheld
  | stop =>
      apply hok.held hopen m x
      exact Dialogue.held_less d.server.stop_taken rfl
        (fun hlook => by cases hlook) hheld
  | @readRet cancel urb c rest hunread =>
      unfold Dialogue.Held at hheld
      rw [Dialogue.orders_finishSubmit hsound.taken_le,
        Dialogue.unread_read (d := d) (s := d.client.finishSubmit (urb.reply c)) rfl rfl
          hunread] at hheld
      have ha : answerHeld (Answer.ret cancel urb c) = some (urb.seqnum, cancel) := rfl
      rcases hok.held_rest hsound hopen hunread ha hheld with ⟨⟨p, hp, hreply⟩, hne⟩
      refine ⟨p, ?_, hreply⟩
      exact (Table.lookup_erase_eq d.client.state.submits urb.seqnum m).trans
        ((if_neg hne).trans hp)
  | @readUnlink u t found rest hunread =>
      unfold Dialogue.Held at hheld
      rw [Dialogue.orders_finishUnlink hsound.taken_le,
        Dialogue.unread_read (d := d) (d.client.finishUnlink_log
          { seqnum := u, status := unlinkStatus found }) rfl hunread] at hheld
      have hunlinked := hok.unlinked hsound hopen hunread
      cases hunlinked with
      | cancelled p _ _ hsubmits _ _ =>
          have ha : answerHeld (Answer.unlink u t (some p.reply)) = some (t, p.reply) := rfl
          rcases hok.held_rest hsound hopen hunread ha hheld with ⟨⟨q, hq, hreply⟩, hne⟩
          refine ⟨q, ?_, hreply⟩
          rw [hsubmits, Table.lookup_erase_eq, if_neg hne]
          exact hq
      | missed _ hstate _ =>
          have hold : d.Held m x := by
            unfold Dialogue.Held
            rw [hunread]
            exact hheld.cons _
          rcases hok.held hopen m x hold with ⟨q, hq, hreply⟩
          exact ⟨q, hstate ▸ hq, hreply⟩
  | lateRet ret hclosed => exact absurd hopen (ne_none_of_isSome hclosed)
  | lateUnlink ret hclosed => exact absurd hopen (ne_none_of_isSome hclosed)

theorem Turn.registered {d d' : Dialogue} (h : Turn d d') (hsound : d.Sound)
    (hok : d.Agrees) (hopen' : d'.client.state.closed = none)
    (hserving' : d'.server.ended = false) {m : UInt32} {x : Nat}
    (hreg : Registered d'.client m x) : d'.Held m x := by
  have hopen := h.open_before hopen'
  have hserving := h.serving_before hserving'
  rcases hreg with ⟨p, hp, hreply⟩
  cases h with
  | idle frames => exact hok.registered hopen hserving m x ⟨p, hp, hreply⟩
  | @submit req n _ _ _ _ =>
      change (d.client.state.submits.insert n _).lookup m = some p at hp
      unfold Dialogue.Held
      rw [Dialogue.orders_register hsound.taken_le, Dialogue.unread_client rfl rfl]
      rw [Table.lookup_insert_eq] at hp
      split at hp
      · rename_i hm
        cases hp
        refine Or.inl ⟨_, List.mem_append_right _ List.mem_cons_self, ?_⟩
        rw [hm, ← hreply]
        rfl
      · exact (hok.registered hopen hserving m x ⟨p, hp, hreply⟩).mono
          (fun _ ho _ => List.mem_append_left _ ho) (fun h => h) (fun _ ha _ => ha)
  | @unlink target n q _ _ _ _ _ =>
      unfold Dialogue.Held
      rw [Dialogue.orders_registerUnlink hsound.taken_le, Dialogue.unread_client rfl rfl]
      exact (hok.registered hopen hserving m x ⟨p, hp, hreply⟩).mono
        (fun _ ho _ => List.mem_append_left _ ho) (fun h => h) (fun _ ha _ => ha)
  | close reason => exact absurd hopen' (close_closed d.client reason)
  | takeSubmit horders =>
      exact (hsound.held_takeSubmit horders m x).mpr
        (hok.registered hopen hserving m x ⟨p, hp, hreply⟩)
  | takeUnlink horders =>
      exact (hsound.held_takeUnlink horders hopen m x).right hserving
        (hok.registered hopen hserving m x ⟨p, hp, hreply⟩)
  | drop _ _ => exact hok.registered hopen hserving m x ⟨p, hp, hreply⟩
  | answer hjobs _ hpending _ =>
      exact (hsound.held_answer hjobs hpending hopen m x).right hserving
        (hok.registered hopen hserving m x ⟨p, hp, hreply⟩)
  | disconnect _ _ => cases hserving'
  | stop => cases hserving'
  | @readRet cancel urb c rest hunread =>
      change (d.client.state.submits.erase urb.seqnum).lookup m = some p at hp
      rcases Table.lookup_of_erase hp with ⟨hne, hold⟩
      have hheld := hok.registered hopen hserving m x ⟨p, hold, hreply⟩
      unfold Dialogue.Held at hheld ⊢
      rw [Dialogue.orders_finishSubmit hsound.taken_le,
        Dialogue.unread_read (d := d) (s := d.client.finishSubmit (urb.reply c)) rfl rfl
          hunread]
      rw [hunread] at hheld
      rcases held_tail hheld with hrest | hfirst
      · exact hrest
      · cases hfirst
        exact absurd rfl hne
  | @readUnlink u t found rest hunread =>
      have hunlinked := hok.unlinked hsound hopen hunread
      unfold Dialogue.Held
      rw [Dialogue.orders_finishUnlink hsound.taken_le,
        Dialogue.unread_read (d := d) (d.client.finishUnlink_log
          { seqnum := u, status := unlinkStatus found }) rfl hunread]
      dsimp only at hp
      cases hunlinked with
      | cancelled q _ _ hsubmits _ _ =>
          rw [hsubmits] at hp
          rcases Table.lookup_of_erase hp with ⟨hne, hold⟩
          have hheld := hok.registered hopen hserving m x ⟨p, hold, hreply⟩
          unfold Dialogue.Held at hheld
          rw [hunread] at hheld
          rcases held_tail hheld with hrest | hfirst
          · exact hrest
          · cases hfirst
            exact absurd rfl hne
      | missed _ hstate _ =>
          rw [hstate] at hp
          have hheld := hok.registered hopen hserving m x ⟨p, hp, hreply⟩
          unfold Dialogue.Held at hheld
          rw [hunread] at hheld
          rcases held_tail hheld with hrest | hfirst
          · exact hrest
          · cases hfirst
  | lateRet ret hclosed => exact absurd hopen (ne_none_of_isSome hclosed)
  | lateUnlink ret hclosed => exact absurd hopen (ne_none_of_isSome hclosed)

/-!
# Unlinks
-/

theorem Dialogue.Sound.order_not_unread {d : Dialogue} (hok : d.Sound) {o : Order}
    (ho : o ∈ d.orders) {a : Answer} (ha : a ∈ d.unread) : o.seqnum ≠ a.seqnum := by
  have horder : o.seqnum ∈ d.orders.map Order.seqnum := List.mem_map.mpr ⟨o, ho, rfl⟩
  have hanswer : a.seqnum ∈ d.unread.map Answer.seqnum := List.mem_map.mpr ⟨a, ha, rfl⟩
  exact (List.nodup_append.mp hok.live).right.right _ horder _
    (List.mem_append_right _ hanswer)

theorem Dialogue.Sound.unread_ne {d : Dialogue} (hok : d.Sound) {a b : Answer}
    {rest : List Answer} (hunread : d.unread = a :: rest) (hb : b ∈ rest) :
    b.seqnum ≠ a.seqnum := by
  have hnodup : (d.unread.map Answer.seqnum).Nodup :=
    (List.nodup_append.mp (List.nodup_append.mp hok.live).right.left).right.left
  rw [hunread] at hnodup
  intro hsame
  exact (List.nodup_cons.mp hnodup).left (hsame ▸ List.mem_map.mpr ⟨b, hb, rfl⟩)

theorem Turn.order_before {d d' : Dialogue} (h : Turn d d') (hsound : d.Sound) {o : Order}
    (ho : o ∈ d'.orders) :
    o ∈ d.orders ∨ o ∈ newOrders d.client d'.client := by
  cases h with
  | idle frames => exact Or.inl ho
  | submit _ _ _ _ =>
      rw [Dialogue.orders_register hsound.taken_le] at ho
      rcases List.mem_append.mp ho with hold | hnew
      · exact Or.inl hold
      · right
        rw [newOrders_cons rfl]
        exact hnew
  | unlink _ _ _ _ _ =>
      rw [Dialogue.orders_registerUnlink hsound.taken_le] at ho
      rcases List.mem_append.mp ho with hold | hnew
      · exact Or.inl hold
      · right
        rw [newOrders_cons rfl]
        exact hnew
  | close reason =>
      rw [d.orders_close reason] at ho
      exact Or.inl ho
  | takeSubmit horders =>
      rw [Dialogue.orders_take (d.server.submit_taken _) horders] at ho
      exact Or.inl (horders ▸ List.mem_cons_of_mem _ ho)
  | takeUnlink horders =>
      rw [Dialogue.orders_take (d.server.unlink_taken _ _) horders] at ho
      exact Or.inl (horders ▸ List.mem_cons_of_mem _ ho)
  | drop _ _ => exact Or.inl ho
  | answer _ _ _ _ =>
      rw [Dialogue.orders_answer] at ho
      exact Or.inl ho
  | @disconnect front back job cancel _ _ =>
      rw [Dialogue.orders_server (d := d)
        (u := { takeOut d.server front job back with ended := true })
        (takeOut_taken d.server front job back)] at ho
      exact Or.inl ho
  | stop =>
      rw [Dialogue.orders_server d.server.stop_taken] at ho
      exact Or.inl ho
  | readRet _ =>
      rw [Dialogue.orders_finishSubmit hsound.taken_le] at ho
      exact Or.inl ho
  | readUnlink _ =>
      rw [Dialogue.orders_finishUnlink hsound.taken_le] at ho
      exact Or.inl ho
  | lateRet ret _ =>
      rw [Dialogue.orders_finishSubmit hsound.taken_le] at ho
      exact Or.inl ho
  | lateUnlink ret _ =>
      rw [Dialogue.orders_finishUnlink hsound.taken_le] at ho
      exact Or.inl ho

theorem Turn.unlink_before {d d' : Dialogue} (h : Turn d d') {u t : UInt32}
    (hu : d'.client.state.unlinks.lookup u = some t) :
    d.client.state.unlinks.lookup u = some t ∨
      (d.Unused u ∧ exists reply, Order.unlink reply
        { seqnum := u, devid := d.client.devid, unlinkSeqnum := t } ∈
          newOrders d.client d'.client) := by
  cases h with
  | @unlink target n p _ _ _ _ hunused =>
      change (d.client.state.unlinks.insert n target).lookup u = some t at hu
      rw [Table.lookup_insert_eq] at hu
      split at hu
      · rename_i hn
        cases hu
        subst hn
        refine Or.inr ⟨hunused, p.reply, ?_⟩
        rw [newOrders_cons rfl]
        exact List.mem_singleton_self _
      · exact Or.inl hu
  | close reason =>
      dsimp only at hu
      unfold Shared.close at hu
      split at hu
      · exact Or.inl hu
      · cases hu
  | readRet _ => exact Or.inl (Table.lookup_of_retain hu)
  | readUnlink _ => exact Or.inl (finishUnlink_unlinks hu)
  | lateRet ret _ => exact Or.inl (Table.lookup_of_retain hu)
  | lateUnlink ret _ => exact Or.inl (finishUnlink_unlinks hu)
  | _ => exact Or.inl hu

theorem Turn.new_unlink {d d' : Dialogue} (h : Turn d d') {reply : Nat} {cmd : CmdUnlink}
    (ho : Order.unlink reply cmd ∈ newOrders d.client d'.client) :
    d.Unused cmd.seqnum ∧
      d'.client.state.unlinks.lookup cmd.seqnum = some cmd.unlinkSeqnum := by
  have hnone : forall s : Shared, ordersOf s = ordersOf d.client ->
      Order.unlink reply cmd ∉ newOrders d.client s := by
    intro s hsame hmem
    unfold newOrders at hmem
    rw [hsame, List.drop_length] at hmem
    cases hmem
  cases h with
  | submit _ _ _ _ =>
      rw [newOrders_cons rfl] at ho
      cases List.mem_singleton.mp ho
  | @unlink target n p _ _ _ _ hunused =>
      rw [newOrders_cons rfl] at ho
      cases List.mem_singleton.mp ho
      exact ⟨hunused, AList.lookup_insert _⟩
  | close reason => exact absurd ho (hnone _ (close_orders _ _))
  | readRet _ =>
      rw [newOrders_cons rfl] at ho
      cases ho
  | readUnlink _ =>
      rw [newOrders_cons (d.client.finishUnlink_log _)] at ho
      cases ho
  | lateRet ret _ =>
      rw [newOrders_cons rfl] at ho
      cases ho
  | lateUnlink ret _ =>
      rw [newOrders_cons (d.client.finishUnlink_log _)] at ho
      cases ho
  | _ => exact absurd ho (hnone _ rfl)

theorem Turn.order_target {d d' : Dialogue} (h : Turn d d') (hsound : d.Sound)
    (hok : d.Agrees) (hopen' : d'.client.state.closed = none) {reply : Nat}
    {cmd : CmdUnlink} (ho : Order.unlink reply cmd ∈ d'.orders) {t : UInt32}
    (ht : d'.client.state.unlinks.lookup cmd.seqnum = some t) : t = cmd.unlinkSeqnum := by
  rcases h.order_before hsound ho with hold | hnew
  · rcases h.unlink_before ht with hlook | ⟨hunused, _⟩
    · exact hok.order_target (h.open_before hopen') reply cmd hold t hlook
    · exact absurd rfl (hunused.orders _ hold)
  · rw [(h.new_unlink hnew).right] at ht
    exact (Option.some.inj ht).symm

/-- How a registered unlink goes: with its target, or with its own answer. -/
inductive Gone (d d' : Dialogue) (u t : UInt32) : Prop where
  | target {cancel : Nat} {urb : Urb} {c : Completion} {rest : List Answer} :
      d.unread = Answer.ret cancel urb c :: rest -> d'.unread = rest -> urb.seqnum = t ->
      t ∉ d'.client.state.submits -> Gone d d' u t
  | answered {s : UInt32} {found : Option Nat} {rest : List Answer} :
      d.unread = Answer.unlink u s found :: rest -> d'.unread = rest -> Gone d d' u t

theorem Turn.unlink_kept {d d' : Dialogue} (h : Turn d d') (hsound : d.Sound)
    (hok : d.Agrees) (hopen' : d'.client.state.closed = none) {u t : UInt32}
    (hu : d.client.state.unlinks.lookup u = some t) :
    d'.client.state.unlinks.lookup u = some t ∨ Gone d d' u t := by
  have hopen := h.open_before hopen'
  cases h with
  | @unlink target n p _ _ _ hfree _ =>
      left
      change (d.client.state.unlinks.insert n target).lookup u = some t
      rw [Table.lookup_insert_eq, if_neg]
      · exact hu
      · rintro rfl
        exact hfree.right.right (Table.mem_iff_lookup.mpr ⟨t, hu⟩)
  | close reason => exact absurd hopen' (close_closed d.client reason)
  | @readRet cancel urb c rest hunread =>
      by_cases ht : t = urb.seqnum
      · right
        refine Gone.target hunread (Dialogue.unread_read rfl rfl hunread) ht.symm ?_
        rw [ht]
        exact fun hmem => (AList.mem_erase.mp hmem).left rfl
      · left
        exact Table.lookup_retain_iff.mpr ⟨hu, decide_eq_true ht⟩
  | @readUnlink v s found rest hunread =>
      by_cases hv : u = v
      · subst hv
        exact Or.inr (Gone.answered hunread
          (Dialogue.unread_read (d.client.finishUnlink_log _) rfl hunread))
      · left
        have hunlinked := hok.unlinked hsound hopen hunread
        cases hunlinked with
        | cancelled p _ _ _ hunlinks _ =>
            dsimp only
            rw [hunlinks, Table.lookup_erase_eq, if_neg hv]
            exact hu
        | missed _ hstate _ =>
            dsimp only
            rw [hstate]
            exact hu
  | lateRet ret hclosed => exact absurd hopen (ne_none_of_isSome hclosed)
  | lateUnlink ret hclosed => exact absurd hopen (ne_none_of_isSome hclosed)
  | _ => exact Or.inl hu

theorem Turn.submit_before {d d' : Dialogue} (h : Turn d d') {n : UInt32}
    (hn : n ∈ d'.client.state.submits) : n ∈ d.client.state.submits ∨ d.Unused n := by
  cases h with
  | @submit req m _ _ _ hunused =>
      rcases (AList.mem_insert _).mp hn with rfl | hold
      · exact Or.inr hunused
      · exact Or.inl hold
  | close reason =>
      rcases Table.mem_iff_lookup.mp hn with ⟨p, hp⟩
      exact Or.inl (Table.mem_iff_lookup.mpr ⟨p, close_lookup hp⟩)
  | readRet _ => exact Or.inl (AList.mem_erase.mp hn).right
  | readUnlink _ =>
      rcases Table.mem_iff_lookup.mp hn with ⟨p, hp⟩
      exact Or.inl (Table.mem_iff_lookup.mpr ⟨p, finishUnlink_lookup hp⟩)
  | lateRet ret _ => exact Or.inl (AList.mem_erase.mp hn).right
  | lateUnlink ret _ =>
      rcases Table.mem_iff_lookup.mp hn with ⟨p, hp⟩
      exact Or.inl (Table.mem_iff_lookup.mpr ⟨p, finishUnlink_lookup hp⟩)
  | _ => exact Or.inl hn

theorem Turn.order_registered {d d' : Dialogue} (h : Turn d d') (hsound : d.Sound)
    (hok : d.Agrees) (hopen' : d'.client.state.closed = none) {reply : Nat}
    {cmd : CmdUnlink} (ho : Order.unlink reply cmd ∈ d'.orders)
    (ht : cmd.unlinkSeqnum ∈ d'.client.state.submits) :
    d'.client.state.unlinks.lookup cmd.seqnum = some cmd.unlinkSeqnum := by
  rcases h.order_before hsound ho with hold | hnew
  · rcases h.submit_before ht with hmem | hunused
    · have hlook := hok.order_registered (h.open_before hopen') reply cmd hold hmem
      rcases h.unlink_kept hsound hok hopen' hlook with hkept | hgone
      · exact hkept
      · cases hgone with
        | target _ _ _ hnot => exact absurd ht hnot
        | answered hunread _ =>
            exact absurd rfl (hsound.order_not_unread hold (hunread ▸ List.mem_cons_self))
    · exact absurd rfl (hunused.targets _ hold)
  · exact (h.new_unlink hnew).right

theorem Turn.unread_before {d d' : Dialogue} (h : Turn d d') {a : Answer}
    (ha : a ∈ d'.unread) :
    a ∈ d.unread ∨ (exists cancel urb c, a = Answer.ret cancel urb c) ∨
      exists reply cmd rest, d.orders = Order.unlink reply cmd :: rest ∧
        a = Answer.unlink cmd.seqnum cmd.unlinkSeqnum
          (d.server.pending.lookup cmd.unlinkSeqnum) := by
  cases h with
  | idle frames => exact Or.inl ha
  | submit _ _ _ _ =>
      rw [Dialogue.unread_client rfl rfl] at ha
      exact Or.inl ha
  | unlink _ _ _ _ _ =>
      rw [Dialogue.unread_client rfl rfl] at ha
      exact Or.inl ha
  | close reason =>
      rw [d.unread_close reason] at ha
      exact Or.inl ha
  | takeSubmit _ => exact Or.inl ha
  | @takeUnlink reply cmd rest horders =>
      rcases List.mem_append.mp ((d.unread_unlink_sublist _ _).mem ha) with hold | hnew
      · exact Or.inl hold
      · exact Or.inr (Or.inr ⟨reply, cmd, rest, horders, mem_added hnew⟩)
  | drop _ _ => exact Or.inl ha
  | @answer front back job cancel c _ _ _ _ =>
      have hsub := Dialogue.unread_put_sublist (d := d) (u := takeOut d.server front job back)
        (Answer.ret job.cancel job.urb c) rfl
      rcases List.mem_append.mp (hsub.mem ha) with hold | hnew
      · exact Or.inl hold
      · exact Or.inr (Or.inl ⟨_, _, _, mem_added hnew⟩)
  | disconnect _ _ => exact Or.inl ha
  | stop => exact Or.inl ha
  | @readRet cancel urb c rest _ =>
      exact Or.inl ((Dialogue.unread_sublist (d := d)
        (s := d.client.finishSubmit (urb.reply c)) rfl).mem ha)
  | readUnlink _ =>
      exact Or.inl ((Dialogue.unread_sublist (d.client.finishUnlink_log _)).mem ha)
  | lateRet ret _ =>
      exact Or.inl ((Dialogue.unread_sublist (d := d) (s := d.client.finishSubmit ret)
        rfl).mem ha)
  | lateUnlink ret _ =>
      exact Or.inl ((Dialogue.unread_sublist (d.client.finishUnlink_log _)).mem ha)

theorem Turn.cancelled {d d' : Dialogue} (h : Turn d d') (hsound : d.Sound)
    (hok : d.Agrees) (hopen' : d'.client.state.closed = none) {u t : UInt32} {c : Nat}
    (ha : Answer.unlink u t (some c) ∈ d'.unread) :
    d'.client.state.unlinks.lookup u = some t := by
  have hopen := h.open_before hopen'
  have hlook : d.client.state.unlinks.lookup u = some t := by
    rcases h.unread_before ha with hold | ⟨_, _, _, hnew⟩ | ⟨r, cmd, rest, ho, hnew⟩
    · exact hok.cancelled hopen u t c hold
    · cases hnew
    · simp only [Answer.unlink.injEq] at hnew
      rcases hnew with ⟨rfl, rfl, hpending⟩
      rcases hok.held hopen _ c (Or.inr (Or.inl hpending.symm)) with ⟨p, hp, _⟩
      exact hok.order_registered hopen r cmd (ho ▸ List.mem_cons_self)
        (Table.mem_iff_lookup.mpr ⟨p, hp⟩)
  rcases h.unlink_kept hsound hok hopen' hlook with hkept | hgone
  · exact hkept
  · cases hgone with
    | @target cancel urb comp rest hunread hrest hurb _ =>
        rw [hrest] at ha
        have hfirst : answerHeld (Answer.ret cancel urb comp) = some (urb.seqnum, cancel) := rfl
        have hlater : HeldBy d.orders d.server.pending rest t c :=
          Or.inr (Or.inr ⟨_, ha, rfl⟩)
        have hne := (hok.held_rest hsound hopen hunread hfirst hlater).right
        exact absurd hurb.symm hne
    | answered hunread hrest =>
        rw [hrest] at ha
        exact False.elim (hsound.unread_ne hunread ha rfl)

/-- The RET_SUBMIT that takes a registered unlink along is in front of an answer. -/
def Overtaken (answers : List Answer) (u : UInt32) (unlinks : Table UInt32 UInt32) : Prop :=
  forall s, unlinks.lookup u = some s ->
    exists cancel urb c, Answer.ret cancel urb c ∈ answers ∧ urb.seqnum = s

/-- An answer to an unlink that finds nothing at the server comes too late. -/
theorem Dialogue.Agrees.overtaken {d : Dialogue} (hok : d.Agrees) (hsound : d.Sound)
    (hopen : d.client.state.closed = none) (hserving : d.server.ended = false) {reply : Nat}
    {cmd : CmdUnlink} {rest : List Order} (horders : d.orders = Order.unlink reply cmd :: rest)
    (hnone : d.server.pending.lookup cmd.unlinkSeqnum = none) :
    Overtaken d.unread cmd.seqnum d.client.state.unlinks := by
  intro s hs
  have hfirst : Order.unlink reply cmd ∈ d.orders := horders ▸ List.mem_cons_self
  have htarget := hok.order_target hopen reply cmd hfirst s hs
  subst htarget
  rcases Table.mem_iff_lookup.mp
    (hsound.replies.tables.target_pending _ _ hs) with ⟨p, hp⟩
  rcases hok.registered hopen hserving _ p.reply ⟨p, hp, rfl⟩ with
    ⟨o, ho, hheld⟩ | hpending | ⟨a, ha, hheld⟩
  · rcases Order.held_submit hheld with ⟨sub, rfl, hseqnum⟩
    rw [horders] at ho
    rcases List.mem_cons.mp ho with hsame | hlater
    · cases hsame
    · have hfollow := hok.follow [] (Order.unlink reply cmd) rest horders _ sub hlater
      exact absurd (congrArg some hseqnum.symm) hfollow
  · rw [hnone] at hpending
    cases hpending
  · cases a with
    | ret cancel urb c =>
        simp only [answerHeld, Option.some.injEq, Prod.mk.injEq] at hheld
        exact ⟨cancel, urb, c, ha, hheld.left⟩
    | unlink v t found =>
        cases found with
        | none => cases hheld
        | some c =>
            simp only [answerHeld, Option.some.injEq, Prod.mk.injEq] at hheld
            rw [hheld.left] at ha
            have hlook := hok.cancelled hopen v _ _ ha
            have hsame := hsound.replies.tables.target_unique _ _ _ hs hlook
            exact absurd hsame (hsound.order_not_unread hfirst ha)

theorem Turn.missed {d d' : Dialogue} (h : Turn d d') (hsound : d.Sound) (hok : d.Agrees)
    (hopen' : d'.client.state.closed = none) :
    forall front u t back, d'.unread = front ++ Answer.unlink u t none :: back ->
      Overtaken front u d'.client.state.unlinks := by
  have hopen := h.open_before hopen'
  -- Where the queue stays, an unlink that is registered meanwhile has another number.
  have hsame : d'.unread = d.unread -> forall front u t back,
      d'.unread = front ++ Answer.unlink u t none :: back ->
      Overtaken front u d'.client.state.unlinks := by
    intro heq front u t back hsplit s hs
    rw [heq] at hsplit
    rcases h.unlink_before hs with hold | ⟨hunused, _⟩
    · exact hok.missed hopen front u t back hsplit s hold
    · have hmem : Answer.unlink u t none ∈ d.unread :=
        hsplit ▸ List.mem_append_right _ List.mem_cons_self
      exact absurd rfl (hunused.unread _ hmem)
  have hadd : forall (v : Urbs) (a : Answer), d'.unread = d.unread ++ added v a ->
      d'.client = d.client ->
      (forall u t, a = Answer.unlink u t none -> v.ended = false ->
        Overtaken d.unread u d.client.state.unlinks) ->
      forall front u t back, d'.unread = front ++ Answer.unlink u t none :: back ->
      Overtaken front u d'.client.state.unlinks := by
    intro v a heq hclient hnew front u t back hsplit
    rw [hclient]
    rw [heq] at hsplit
    unfold added at hsplit
    split at hsplit
    · rw [List.append_nil] at hsplit
      exact hok.missed hopen front u t back hsplit
    · rename_i hended
      rcases List.eq_nil_or_concat back with rfl | ⟨init, last, rfl⟩
      · rcases List.append_inj' hsplit rfl with ⟨hfront, hlast⟩
        rw [← hfront]
        exact hnew u t (List.cons.inj hlast).left (by simpa using hended)
      · rw [List.concat_eq_append, ← List.cons_append, ← List.append_assoc] at hsplit
        exact hok.missed hopen front u t init (List.append_inj' hsplit rfl).left
  cases h with
  | idle frames => exact hsame rfl
  | submit _ _ _ _ => exact hsame (Dialogue.unread_client rfl rfl)
  | unlink _ _ _ _ _ => exact hsame (Dialogue.unread_client rfl rfl)
  | close reason => exact absurd hopen' (close_closed d.client reason)
  | takeSubmit _ => exact hsame rfl
  | @takeUnlink reply cmd rest horders =>
      apply hadd _ _ (Dialogue.unread_unlink (hsound.reads_le hopen)) rfl
      intro u t hnew hserving
      simp only [Answer.unlink.injEq] at hnew
      rcases hnew with ⟨rfl, rfl, hnone⟩
      exact hok.overtaken hsound hopen hserving horders hnone
  | drop _ _ => exact hsame rfl
  | answer _ _ _ _ =>
      apply hadd _ _ (Dialogue.unread_answer (hsound.reads_le hopen)) rfl
      intro u t hnew
      cases hnew
  | disconnect _ _ => exact hsame rfl
  | stop => exact hsame rfl
  | @readRet cancel urb c rest hunread =>
      intro front u t back hsplit s hs
      rw [Dialogue.unread_read (d := d) (s := d.client.finishSubmit (urb.reply c)) rfl rfl
        hunread] at hsplit
      rcases Table.lookup_retain_iff.mp hs with ⟨hold, hne⟩
      rw [hsplit] at hunread
      rcases hok.missed hopen (_ :: front) u t back hunread s hold with
        ⟨x, urb', c', hmem, rfl⟩
      rcases List.mem_cons.mp hmem with hhead | hmem
      · cases hhead
        exact absurd rfl (of_decide_eq_true hne)
      · exact ⟨x, urb', c', hmem, rfl⟩
  | @readUnlink v w found rest hunread =>
      intro front u t back hsplit s hs
      rw [Dialogue.unread_read (d := d) (d.client.finishUnlink_log
        { seqnum := v, status := unlinkStatus found }) rfl hunread] at hsplit
      rw [hsplit] at hunread
      have hold : d.client.state.unlinks.lookup u = some s := by
        have hunlinked := hok.unlinked hsound hopen hunread
        dsimp only at hs
        cases hunlinked with
        | cancelled p _ _ _ hunlinks _ =>
            rw [hunlinks] at hs
            exact (Table.lookup_of_erase hs).right
        | missed _ hstate _ =>
            rw [hstate] at hs
            exact hs
      rcases hok.missed hopen (_ :: front) u t back hunread s hold with
        ⟨x, urb', c', hmem, rfl⟩
      rcases List.mem_cons.mp hmem with hhead | hmem
      · cases hhead
      · exact ⟨x, urb', c', hmem, rfl⟩
  | lateRet ret hclosed => exact absurd hopen (ne_none_of_isSome hclosed)
  | lateUnlink ret hclosed => exact absurd hopen (ne_none_of_isSome hclosed)

theorem Unlinked.gone {s s' : Shared} {u t : UInt32} {found : Option Nat}
    (h : Unlinked s s' u t found) : u ∉ s'.state.unlinks := by
  intro hmem
  cases h with
  | cancelled p _ _ _ hunlinks _ =>
      rw [hunlinks] at hmem
      exact (AList.mem_erase.mp hmem).left rfl
  | missed hnone hstate _ =>
      rw [hstate] at hmem
      exact AList.lookup_eq_none.mp hnone hmem

/-- The unlink has not been taken, or its answer has not been read. -/
def UnlinkUnderWay (orders : List Order) (answers : List Answer) (u : UInt32) : Prop :=
  (exists reply cmd, Order.unlink reply cmd ∈ orders ∧ cmd.seqnum = u) ∨
    exists t found, Answer.unlink u t found ∈ answers

theorem UnlinkUnderWay.mono {orders orders' : List Order} {answers answers' : List Answer}
    {u : UInt32} (h : UnlinkUnderWay orders answers u)
    (horders : forall o, o ∈ orders -> o ∈ orders')
    (hanswers : forall a, a ∈ answers -> a ∈ answers') :
    UnlinkUnderWay orders' answers' u := by
  rcases h with ⟨reply, cmd, ho, hseqnum⟩ | ⟨t, found, ha⟩
  · exact Or.inl ⟨reply, cmd, horders _ ho, hseqnum⟩
  · exact Or.inr ⟨t, found, hanswers _ ha⟩

theorem Turn.unlinks {d d' : Dialogue} (h : Turn d d') (hsound : d.Sound) (hok : d.Agrees)
    (hopen' : d'.client.state.closed = none) (hserving' : d'.server.ended = false)
    {u : UInt32} (hu : u ∈ d'.client.state.unlinks) :
    UnlinkUnderWay d'.orders d'.unread u := by
  have hopen := h.open_before hopen'
  have hserving := h.serving_before hserving'
  have hold : u ∈ d.client.state.unlinks -> UnlinkUnderWay d.orders d.unread u :=
    hok.unlinks hopen hserving u
  cases h with
  | idle frames => exact hold hu
  | submit _ _ _ _ =>
      rw [Dialogue.orders_register hsound.taken_le, Dialogue.unread_client rfl rfl]
      exact (hold hu).mono (fun _ ho => List.mem_append_left _ ho) (fun _ ha => ha)
  | unlink _ _ _ _ _ =>
      rw [Dialogue.orders_registerUnlink hsound.taken_le, Dialogue.unread_client rfl rfl]
      rcases (AList.mem_insert _).mp hu with rfl | hmem
      · exact Or.inl ⟨_, _, List.mem_append_right _ List.mem_cons_self, rfl⟩
      · exact (hold hmem).mono (fun _ ho => List.mem_append_left _ ho) (fun _ ha => ha)
  | close reason => exact absurd hopen' (close_closed d.client reason)
  | takeSubmit horders =>
      have hbefore := hold hu
      rw [horders] at hbefore
      rw [Dialogue.orders_take (d.server.submit_taken _) horders]
      rcases hbefore with ⟨reply, cmd, ho, hseqnum⟩ | hanswer
      · rcases List.mem_cons.mp ho with hhead | ho
        · cases hhead
        · exact Or.inl ⟨reply, cmd, ho, hseqnum⟩
      · exact Or.inr hanswer
  | @takeUnlink reply cmd rest horders =>
      have hbefore := hold hu
      rw [horders] at hbefore
      rw [Dialogue.orders_take (d.server.unlink_taken _ _) horders,
        Dialogue.unread_unlink (hsound.reads_le hopen)]
      rcases hbefore with ⟨r, c, ho, hseqnum⟩ | ⟨t, found, ha⟩
      · rcases List.mem_cons.mp ho with hhead | ho
        · cases hhead
          right
          rw [← hseqnum]
          exact ⟨_, _, List.mem_append_right _ (mem_added_self hserving _)⟩
        · exact Or.inl ⟨r, c, ho, hseqnum⟩
      · exact Or.inr ⟨t, found, List.mem_append_left _ ha⟩
  | drop _ _ => exact hold hu
  | answer _ _ _ _ =>
      rw [Dialogue.orders_answer, Dialogue.unread_answer (hsound.reads_le hopen)]
      exact (hold hu).mono (fun _ ho => ho) (fun _ ha => List.mem_append_left _ ha)
  | disconnect _ _ => cases hserving'
  | stop => cases hserving'
  | @readRet cancel urb c rest hunread =>
      have hmem : u ∈ d.client.state.unlinks := by
        rcases Table.mem_iff_lookup.mp hu with ⟨t, ht⟩
        exact Table.mem_iff_lookup.mpr ⟨t, Table.lookup_of_retain ht⟩
      have hbefore := hold hmem
      rw [hunread] at hbefore
      rw [Dialogue.orders_finishSubmit hsound.taken_le,
        Dialogue.unread_read (d := d) (s := d.client.finishSubmit (urb.reply c)) rfl rfl
          hunread]
      rcases hbefore with horder | ⟨t, found, ha⟩
      · exact Or.inl horder
      · rcases List.mem_cons.mp ha with hhead | ha
        · cases hhead
        · exact Or.inr ⟨t, found, ha⟩
  | @readUnlink v w found rest hunread =>
      have hunlinked := hok.unlinked hsound hopen hunread
      have hmem : u ∈ d.client.state.unlinks := by
        cases hunlinked with
        | cancelled p _ _ _ hunlinks _ =>
            rw [hunlinks] at hu
            exact (AList.mem_erase.mp hu).right
        | missed _ hstate _ =>
            rw [hstate] at hu
            exact hu
      have hbefore := hold hmem
      rw [hunread] at hbefore
      rw [Dialogue.orders_finishUnlink hsound.taken_le,
        Dialogue.unread_read (d := d) (d.client.finishUnlink_log
          { seqnum := v, status := unlinkStatus found }) rfl hunread]
      rcases hbefore with horder | ⟨t, f, ha⟩
      · exact Or.inl horder
      · rcases List.mem_cons.mp ha with hhead | ha
        · cases hhead
          exact absurd hu hunlinked.gone
        · exact Or.inr ⟨t, f, ha⟩
  | lateRet ret hclosed => exact absurd hopen (ne_none_of_isSome hclosed)
  | lateUnlink ret hclosed => exact absurd hopen (ne_none_of_isSome hclosed)

/-!
# All of it
-/

theorem Turn.agrees {d d' : Dialogue} (h : Turn d d') (hsound : d.Sound) (hok : d.Agrees) :
    d'.Agrees where
  entries := h.entries hok.entries
  follow := h.follow hsound hok
  held := fun hopen _ _ hheld => h.held hsound hok hopen hheld
  registered := fun hopen hserving _ _ hreg => h.registered hsound hok hopen hserving hreg
  order_target := fun hopen _ _ ho _ ht => h.order_target hsound hok hopen ho ht
  order_registered := fun hopen _ _ ho ht => h.order_registered hsound hok hopen ho ht
  cancelled := fun hopen _ _ _ ha => h.cancelled hsound hok hopen ha
  missed := fun hopen => h.missed hsound hok hopen
  unlinks := fun hopen hserving _ hu => h.unlinks hsound hok hopen hserving hu

/-- What every allowed move keeps. -/
structure Dialogue.Ok (d : Dialogue) : Prop where
  sound : d.Sound
  agrees : d.Agrees

theorem Dialogue.start_ok (devid : UInt32) : (Dialogue.start devid).Ok where
  sound := Dialogue.start_sound devid
  agrees := Dialogue.start_agrees devid

theorem Turn.ok {d d' : Dialogue} (h : Turn d d') (hok : d.Ok) : d'.Ok where
  sound := h.sound hok.sound
  agrees := h.agrees hok.sound hok.agrees

end Link
end UsbIp
