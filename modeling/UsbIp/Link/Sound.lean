import UsbIp.Link.Numbers

/-!
# Moves keep numbers and channels apart

A message that is taken or answered hands its number and its channel on, so
neither is ever in two places.  Each field of the invariant is shown for every
turn, and put together at the end.
-/

namespace UsbIp
namespace Link

open Foundation
open Protocol
open Client (Shared SubmitRequest)
open Server (Urb Urbs Answer Outcome Completion Job urbOf unlinkStatus)

/-!
# Numbers
-/

theorem nodup_of_counts {α : Type} [DecidableEq α] {xs ys : List α} (h : xs.Nodup)
    (hcount : forall a, ys.count a ≤ xs.count a) : ys.Nodup := by
  rw [List.nodup_iff_count_le_one] at h ⊢
  intro a
  exact Nat.le_trans (hcount a) (h a)

theorem Dialogue.Unused.not_live {d : Dialogue} {n : UInt32} (h : d.Unused n) :
    n ∉ d.live := by
  unfold Dialogue.live
  intro hmem
  rcases List.mem_append.mp hmem with horder | hmem
  · rcases List.mem_map.mp horder with ⟨o, ho, hn⟩
    exact h.orders o ho hn
  · rcases List.mem_append.mp hmem with hjob | hanswer
    · rcases List.mem_map.mp hjob with ⟨job, hjob, hn⟩
      exact h.jobs job hjob hn
    · rcases List.mem_map.mp hanswer with ⟨a, ha, hn⟩
      exact h.unread a ha hn

theorem Dialogue.live_order {d d' : Dialogue} {o : Order} (hlive : d.live.Nodup)
    (horders : d'.orders = d.orders ++ [o]) (hunused : d.Unused o.seqnum)
    (hjobs : d'.server.jobs = d.server.jobs) (hunread : d'.unread = d.unread) :
    d'.live.Nodup := by
  have hcons : (o.seqnum :: d.live).Nodup :=
    List.nodup_cons.mpr ⟨hunused.not_live, hlive⟩
  apply nodup_of_counts hcons
  intro a
  simp only [Dialogue.live, horders, hjobs, hunread, List.map_append, List.map_cons,
    List.map_nil, List.count_append, List.count_cons, List.count_nil]
  omega

theorem Dialogue.live_read {d : Dialogue} {s : Shared} {e : Client.Event}
    (hlive : d.live.Nodup) (horders : (Dialogue.mk s d.server).orders = d.orders)
    (hlog : s.log = e :: d.client.log) : (Dialogue.mk s d.server).live.Nodup := by
  apply List.Nodup.sublist _ hlive
  unfold Dialogue.live
  rw [horders]
  exact List.Sublist.append (List.Sublist.refl _)
    (List.Sublist.append (List.Sublist.refl _) ((Dialogue.unread_sublist hlog).map _))

theorem added_seqnum_count (u : Urbs) (a : Answer) (n : UInt32) :
    ((added u a).map Answer.seqnum).count n ≤ [a.seqnum].count n := by
  unfold added
  split
  · exact Nat.zero_le _
  · exact Nat.le_refl _

theorem Turn.live {d d' : Dialogue} (h : Turn d d') (hok : d.Sound) : d'.live.Nodup := by
  have hlive := hok.live
  cases h with
  | idle frames => exact hlive
  | @submit req n _ _ _ hunused =>
      exact Dialogue.live_order hlive (Dialogue.orders_register hok.taken_le) hunused rfl
        (Dialogue.unread_client rfl rfl)
  | @unlink target n p _ _ _ _ hunused =>
      exact Dialogue.live_order hlive (Dialogue.orders_registerUnlink hok.taken_le) hunused
        rfl (Dialogue.unread_client rfl rfl)
  | close reason =>
      unfold Dialogue.live
      rw [d.orders_close reason, d.unread_close reason]
      exact hlive
  | @takeSubmit reply cmd rest horders =>
      apply nodup_of_counts hlive
      intro a
      have hrest := Dialogue.orders_take (d := d) (d.server.submit_taken (urbOf cmd)) horders
      have hunread := Dialogue.unread_server (d := d) (u := d.server.submit (urbOf cmd)) rfl
      have hjobs : (d.server.submit (urbOf cmd)).jobs =
          d.server.jobs ++ [{ urb := urbOf cmd, cancel := d.server.cancels }] := rfl
      have hseqnum : (Order.submit reply cmd).seqnum = (urbOf cmd).seqnum := rfl
      unfold Dialogue.live
      rw [hrest, hunread, hjobs, horders]
      simp only [hseqnum, List.map_append, List.map_cons, List.map_nil, List.count_append,
        List.count_cons, List.count_nil]
      omega
  | @takeUnlink reply cmd rest horders =>
      apply nodup_of_counts hlive
      intro a
      have hrest := Dialogue.orders_take (d := d)
        (d.server.unlink_taken cmd.seqnum cmd.unlinkSeqnum) horders
      have hadded := added_seqnum_count d.server
        (Answer.unlink cmd.seqnum cmd.unlinkSeqnum
          (d.server.pending.lookup cmd.unlinkSeqnum)) a
      have hseqnum : (Order.unlink reply cmd).seqnum = cmd.seqnum := rfl
      have hunread := ((d.unread_unlink_sublist cmd.seqnum cmd.unlinkSeqnum).map
        Answer.seqnum).count_le a
      unfold Dialogue.live
      rw [hrest, d.server.unlink_jobs, horders]
      simp only [Answer.seqnum, List.count_cons, List.count_nil] at hadded
      simp only [List.map_append, List.count_append] at hunread
      simp only [hseqnum, List.map_cons, List.count_append, List.count_cons]
      omega
  | @drop front back job hjobs _ =>
      have hsub : (front ++ back).Sublist d.server.jobs := by
        rw [hjobs]
        exact List.Sublist.append (List.Sublist.refl _) (List.sublist_cons_self _ _)
      apply List.Nodup.sublist _ hlive
      exact List.Sublist.append (List.Sublist.refl _)
        (List.Sublist.append (hsub.map _) (List.Sublist.refl _))
  | @answer front back job cancel c hjobs _ _ _ =>
      apply nodup_of_counts hlive
      intro a
      have hadded := added_seqnum_count (takeOut d.server front job back)
        (Answer.ret job.cancel job.urb c) a
      have hleft : (takeOut d.server front job back).jobs = front ++ back := rfl
      have hunread := ((Dialogue.unread_put_sublist (d := d)
        (u := takeOut d.server front job back) (Answer.ret job.cancel job.urb c) rfl).map
        Answer.seqnum).count_le a
      unfold Dialogue.live
      rw [Dialogue.orders_answer]
      dsimp only
      rw [Urbs.put_jobs, hleft, hjobs]
      simp only [Answer.seqnum, List.count_cons, List.count_nil] at hadded
      simp only [List.map_append, List.count_append] at hunread
      simp only [List.map_append, List.map_cons, List.count_append, List.count_cons]
      omega
  | @disconnect front back job cancel hjobs _ =>
      have hsub : (front ++ back).Sublist d.server.jobs := by
        rw [hjobs]
        exact List.Sublist.append (List.Sublist.refl _) (List.sublist_cons_self _ _)
      have horders := Dialogue.orders_server (d := d)
        (u := { takeOut d.server front job back with ended := true })
        (takeOut_taken d.server front job back)
      have hunread := Dialogue.unread_server (d := d)
        (u := { takeOut d.server front job back with ended := true }) rfl
      apply List.Nodup.sublist _ hlive
      unfold Dialogue.live
      rw [horders, hunread]
      exact List.Sublist.append (List.Sublist.refl _)
        (List.Sublist.append (hsub.map _) (List.Sublist.refl _))
  | stop =>
      have hunread := Dialogue.unread_server (d := d) (u := d.server.stop) rfl
      apply List.Nodup.sublist _ hlive
      unfold Dialogue.live
      rw [Dialogue.orders_server d.server.stop_taken, hunread]
      exact List.Sublist.append (List.Sublist.refl _)
        (List.Sublist.append (List.nil_sublist _) (List.Sublist.refl _))
  | readRet _ =>
      exact Dialogue.live_read hlive (Dialogue.orders_finishSubmit hok.taken_le) rfl
  | readUnlink _ =>
      exact Dialogue.live_read hlive (Dialogue.orders_finishUnlink hok.taken_le)
        (d.client.finishUnlink_log _)
  | lateRet ret _ =>
      exact Dialogue.live_read hlive (Dialogue.orders_finishSubmit hok.taken_le) rfl
  | lateUnlink ret _ =>
      exact Dialogue.live_read hlive (Dialogue.orders_finishUnlink hok.taken_le)
        (d.client.finishUnlink_log _)

/-!
# Channels
-/

theorem added_channel_count (u : Urbs) (a : Answer) (c : Nat) :
    ((added u a).filterMap answerChannel?).count c ≤
      (answerChannel? a).toList.count c := by
  unfold added
  split
  · exact Nat.zero_le _
  · cases h : answerChannel? a <;> simp [h]

theorem pending_count_erase {t : Table UInt32 Nat} {n : UInt32} {c : Nat}
    (h : t.lookup n = some c) (a : Nat) :
    (t.entries.map (fun e => e.2)).count a =
      ((t.erase n).entries.map (fun e => e.2)).count a + (if c = a then 1 else 0) := by
  rw [((Table.entries_perm_erase h).map (fun e => e.2)).count_eq, List.map_cons,
    List.count_cons]
  simp

theorem Dialogue.channels_client {d : Dialogue} {s : Shared} (hchannels : d.channels.Nodup)
    (horders : (Dialogue.mk s d.server).orders = d.orders) :
    (Dialogue.mk s d.server).channels.Nodup := by
  unfold Dialogue.channels
  rw [horders]
  exact hchannels

theorem Dialogue.channels_less {d : Dialogue} {u : Urbs} (hchannels : d.channels.Nodup)
    (htaken : u.taken = d.server.taken) (hanswers : u.answers = d.server.answers)
    (hpending : (u.pending.entries.map (fun e => e.2)).Sublist
      (d.server.pending.entries.map (fun e => e.2))) :
    (Dialogue.mk d.client u).channels.Nodup := by
  apply List.Nodup.sublist _ hchannels
  unfold Dialogue.channels
  rw [Dialogue.orders_server htaken]
  dsimp only
  rw [hanswers]
  exact List.Sublist.append (List.Sublist.refl _)
    (List.Sublist.append hpending (List.Sublist.refl _))

theorem erase_entries_sublist (t : Table UInt32 Nat) (n : UInt32) :
    ((t.erase n).entries.map (fun e => e.2)).Sublist (t.entries.map (fun e => e.2)) :=
  (List.kerase_sublist n t.entries).map _

theorem Turn.channels {d d' : Dialogue} (h : Turn d d') (hok : d.Sound) :
    d'.channels.Nodup := by
  have hchannels := hok.channels
  cases h with
  | idle frames => exact hchannels
  | @submit req n _ _ _ _ =>
      have hnew : d.client.channels ∉ d.channels := fun hmem =>
        Nat.lt_irrefl _ (hok.channels_lt hmem)
      apply nodup_of_counts (List.nodup_cons.mpr ⟨hnew, hchannels⟩)
      intro a
      have hone : [Order.submit d.client.channels
          (req.command n d.client.devid)].filterMap Order.channel? =
          [d.client.channels] := rfl
      unfold Dialogue.channels
      rw [Dialogue.orders_register hok.taken_le, List.filterMap_append, hone]
      simp only [List.count_append, List.count_cons, List.count_nil]
      omega
  | @unlink target n p _ _ _ _ _ =>
      have hnone : [Order.unlink p.reply
          { seqnum := n, devid := d.client.devid, unlinkSeqnum := target }].filterMap
            Order.channel? = [] := rfl
      unfold Dialogue.channels
      rw [Dialogue.orders_registerUnlink hok.taken_le, List.filterMap_append, hnone,
        List.append_nil]
      exact hchannels
  | close reason => exact Dialogue.channels_client hchannels (d.orders_close reason)
  | @takeSubmit reply cmd rest horders =>
      have hreply := hok.head_reply horders
      have hnew : (urbOf cmd).seqnum ∉ d.server.pending :=
        hok.order_not_pending (o := Order.submit reply cmd) (horders ▸ List.mem_cons_self)
      have hentries : (d.server.submit (urbOf cmd)).pending.entries =
          ⟨(urbOf cmd).seqnum, d.server.cancels⟩ :: d.server.pending.entries :=
        AList.entries_insert_of_notMem hnew
      have hhead : (Order.submit reply cmd).channel? = some reply := rfl
      have hanswers : (d.server.submit (urbOf cmd)).answers = d.server.answers := rfl
      apply nodup_of_counts hchannels
      intro a
      unfold Dialogue.channels
      rw [Dialogue.orders_take (d.server.submit_taken (urbOf cmd)) horders, hentries,
        hanswers, horders, List.filterMap_cons_some hhead, hreply]
      simp only [List.map_cons, List.count_append, List.count_cons]
      omega
  | @takeUnlink reply cmd rest horders =>
      have hhead : (Order.unlink reply cmd).channel? = none := rfl
      apply nodup_of_counts hchannels
      intro a
      have hadded := added_channel_count d.server
        (Answer.unlink cmd.seqnum cmd.unlinkSeqnum
          (d.server.pending.lookup cmd.unlinkSeqnum)) a
      unfold Dialogue.channels
      rw [Dialogue.orders_take (d.server.unlink_taken _ _) horders, unlink_answers,
        Urbs.unlink_pending, horders, List.filterMap_cons_none hhead,
        List.filterMap_append]
      cases htarget : d.server.pending.lookup cmd.unlinkSeqnum with
      | none =>
          rw [htarget] at hadded
          rw [Table.erase_of_notMem (AList.lookup_eq_none.mp htarget)]
          simp only [answerChannel?, answerHeld, Option.map_none, Option.toList_none,
            List.count_nil] at hadded
          simp only [List.count_append]
          omega
      | some c =>
          have hcount := pending_count_erase htarget a
          rw [htarget] at hadded
          simp only [answerChannel?, answerHeld, Option.map_some, Option.toList_some,
            List.count_cons, List.count_nil, beq_iff_eq] at hadded
          simp only [List.count_append]
          omega
  | drop hjobs _ => exact hchannels
  | @answer front back job cancel c hjobs _ hpending _ =>
      have hcancel := hok.cancel_eq hjobs hpending
      apply nodup_of_counts hchannels
      intro a
      have hadded := added_channel_count (takeOut d.server front job back)
        (Answer.ret job.cancel job.urb c) a
      have hcount := pending_count_erase hpending a
      have herase : (takeOut d.server front job back).pending =
          d.server.pending.erase job.urb.seqnum := rfl
      have hanswers : (takeOut d.server front job back).answers = d.server.answers := rfl
      unfold Dialogue.channels
      rw [Dialogue.orders_answer]
      dsimp only
      rw [Urbs.put_pending, put_answers, herase, hanswers, List.filterMap_append]
      simp only [answerChannel?, answerHeld, Option.map_some, Option.toList_some,
        List.count_cons, List.count_nil, beq_iff_eq] at hadded
      rw [hcancel] at hcount
      simp only [List.count_append]
      omega
  | @disconnect front back job cancel hjobs _ =>
      exact Dialogue.channels_less hchannels (takeOut_taken d.server front job back) rfl
        (erase_entries_sublist _ _)
  | stop =>
      exact Dialogue.channels_less hchannels d.server.stop_taken rfl (List.nil_sublist _)
  | readRet _ =>
      exact Dialogue.channels_client hchannels (Dialogue.orders_finishSubmit hok.taken_le)
  | readUnlink _ =>
      exact Dialogue.channels_client hchannels (Dialogue.orders_finishUnlink hok.taken_le)
  | lateRet ret _ =>
      exact Dialogue.channels_client hchannels (Dialogue.orders_finishSubmit hok.taken_le)
  | lateUnlink ret _ =>
      exact Dialogue.channels_client hchannels (Dialogue.orders_finishUnlink hok.taken_le)

/-!
# Jobs
-/

theorem Dialogue.Sound.pending_left {d : Dialogue} (hok : d.Sound) {front back : List Job}
    {job : Job} (hjobs : d.server.jobs = front ++ job :: back) {n : UInt32} {c : Nat}
    (hpending : d.server.pending.lookup n = some c)
    (hother : n ≠ job.urb.seqnum ∨ c ≠ job.cancel) :
    exists other, other ∈ front ++ back ∧ other.cancel = c ∧ other.urb.seqnum = n := by
  rcases hok.pending_job n c hpending with ⟨other, hmem, rfl, rfl⟩
  rw [hjobs] at hmem
  refine ⟨other, ?_, rfl, rfl⟩
  rcases List.mem_append.mp hmem with hfront | hback
  · exact List.mem_append_left _ hfront
  · rcases List.mem_cons.mp hback with rfl | hback
    · rcases hother with h | h <;> exact absurd rfl h
    · exact List.mem_append_right _ hback

theorem Turn.pending_job {d d' : Dialogue} (h : Turn d d') (hok : d.Sound) {n : UInt32}
    {c : Nat} (hpending : d'.server.pending.lookup n = some c) :
    exists job, job ∈ d'.server.jobs ∧ job.cancel = c ∧ job.urb.seqnum = n := by
  cases h with
  | @takeSubmit reply cmd rest _ =>
      change (d.server.pending.insert (urbOf cmd).seqnum d.server.cancels).lookup n =
        some c at hpending
      rw [Table.lookup_insert_eq] at hpending
      split at hpending
      · rename_i hn
        cases hpending
        exact ⟨_, List.mem_append_right _ List.mem_cons_self, rfl, hn.symm⟩
      · rcases hok.pending_job n c hpending with ⟨job, hjob, hrest⟩
        exact ⟨job, List.mem_append_left _ hjob, hrest⟩
  | takeUnlink _ =>
      rw [Urbs.unlink_pending] at hpending
      rcases hok.pending_job n c (Table.lookup_of_erase hpending).right with
        ⟨job, hjob, hrest⟩
      exact ⟨job, (d.server.unlink_jobs _ _).symm ▸ hjob, hrest⟩
  | @drop front back job hjobs hgone =>
      apply hok.pending_left hjobs hpending
      rcases hgone with hnone | hgone
      · left
        rintro rfl
        change d.server.pending.lookup job.urb.seqnum = some c at hpending
        rw [hnone] at hpending
        cases hpending
      · right
        rintro rfl
        exact hgone n hpending
  | @answer front back job cancel a hjobs _ _ _ =>
      dsimp only at hpending ⊢
      rw [Urbs.put_pending] at hpending
      rw [Urbs.put_jobs]
      rcases Table.lookup_of_erase hpending with ⟨hne, hold⟩
      exact hok.pending_left hjobs hold (Or.inl hne)
  | @disconnect front back job cancel hjobs _ =>
      rcases Table.lookup_of_erase hpending with ⟨hne, hold⟩
      exact hok.pending_left hjobs hold (Or.inl hne)
  | stop => cases hpending
  | _ => exact hok.pending_job n c hpending

theorem Turn.log {d d' : Dialogue} (h : Turn d d') {e : Client.Event}
    (he : e ∈ d.client.log) : e ∈ d'.client.log := by
  cases h with
  | submit _ _ _ _ => exact List.mem_cons_of_mem _ he
  | unlink _ _ _ _ _ => exact List.mem_cons_of_mem _ he
  | close reason =>
      show e ∈ (d.client.close reason).log
      unfold Shared.close
      split
      · exact he
      · exact List.mem_cons_of_mem _ he
  | readRet _ => exact List.mem_cons_of_mem _ he
  | readUnlink _ =>
      show e ∈ (d.client.finishUnlink _).log
      rw [Shared.finishUnlink_log]
      exact List.mem_cons_of_mem _ he
  | lateRet ret _ => exact List.mem_cons_of_mem _ he
  | lateUnlink ret _ =>
      show e ∈ (d.client.finishUnlink _).log
      rw [Shared.finishUnlink_log]
      exact List.mem_cons_of_mem _ he
  | _ => exact he

theorem Turn.jobs_issued {d d' : Dialogue} (h : Turn d d') (hok : d.Sound) {job : Job}
    (hjob : job ∈ d'.server.jobs) : IssuedAs d'.client job.cancel job.urb := by
  have hold : forall other, other ∈ d.server.jobs ->
      IssuedAs d'.client other.cancel other.urb := fun other hother =>
    (hok.jobs_issued other hother).mono fun _ he => h.log he
  have hpart : forall front other back, d.server.jobs = front ++ other :: back ->
      job ∈ front ++ back -> IssuedAs d'.client job.cancel job.urb := by
    intro front other back hjobs hmem
    apply hold
    rw [hjobs]
    rcases List.mem_append.mp hmem with hfront | hback
    · exact List.mem_append_left _ hfront
    · exact List.mem_append_right _ (List.mem_cons_of_mem _ hback)
  cases h with
  | @takeSubmit reply cmd rest horders =>
      rcases List.mem_append.mp hjob with hmem | hnew
      · exact hold job hmem
      · rw [List.mem_singleton.mp hnew]
        have hmem : Order.submit reply cmd ∈ d.orders := horders ▸ List.mem_cons_self
        have hlog := mem_ordersOf_submit.mp (Dialogue.mem_orders hmem)
        rw [hok.head_reply horders] at hlog
        exact ⟨cmd, hlog, rfl⟩
  | takeUnlink _ => exact hold job ((d.server.unlink_jobs _ _) ▸ hjob)
  | drop hjobs _ => exact hpart _ _ _ hjobs hjob
  | answer hjobs _ _ _ =>
      rw [Urbs.put_jobs] at hjob
      exact hpart _ _ _ hjobs hjob
  | disconnect hjobs _ => exact hpart _ _ _ hjobs hjob
  | stop => cases hjob
  | _ => exact hold job hjob

/-!
# Answers
-/

theorem mem_put_answers {u : Urbs} {a b : Answer} (h : b ∈ (u.put a).answers) :
    b ∈ u.answers ∨ b = a := by
  rw [put_answers] at h
  rcases List.mem_append.mp h with hold | hnew
  · exact Or.inl hold
  · unfold added at hnew
    split at hnew
    · cases hnew
    · exact Or.inr (List.mem_singleton.mp hnew)

theorem Turn.new_answer {d d' : Dialogue} (h : Turn d d') {a : Answer}
    (ha : a ∈ d'.server.answers) :
    a ∈ d.server.answers ∨
      (exists job c, job ∈ d.server.jobs ∧ Fits job.urb (Outcome.complete c) ∧
        a = Answer.ret job.cancel job.urb c) ∨
      exists u t, a = Answer.unlink u t (d.server.pending.lookup t) := by
  cases h with
  | takeUnlink _ =>
      rcases mem_put_answers ha with hold | rfl
      · exact Or.inl hold
      · exact Or.inr (Or.inr ⟨_, _, rfl⟩)
  | @answer front back job cancel c hjobs _ _ hfits =>
      rcases mem_put_answers ha with hold | rfl
      · exact Or.inl hold
      · refine Or.inr (Or.inl ⟨job, c, ?_, hfits, rfl⟩)
        rw [hjobs]
        exact List.mem_append_right _ List.mem_cons_self
  | _ => exact Or.inl ha

theorem Turn.answers_issued {d d' : Dialogue} (h : Turn d d') (hok : d.Sound) {cancel : Nat}
    {urb : Urb} {c : Completion} (ha : Answer.ret cancel urb c ∈ d'.server.answers) :
    Fits urb (Outcome.complete c) ∧ IssuedAs d'.client cancel urb := by
  rcases h.new_answer ha with hold | ⟨job, c', hjob, hfits, hnew⟩ | ⟨u, t, hnew⟩
  · rcases hok.answers_issued cancel urb c hold with ⟨hfits, hissued⟩
    exact ⟨hfits, hissued.mono fun _ he => h.log he⟩
  · cases hnew
    exact ⟨hfits, (hok.jobs_issued job hjob).mono fun _ he => h.log he⟩
  · cases hnew

theorem Turn.cancelled_issued {d d' : Dialogue} (h : Turn d d') (hok : d.Sound)
    {u t : UInt32} {cancel : Nat}
    (ha : Answer.unlink u t (some cancel) ∈ d'.server.answers) :
    exists urb, IssuedAs d'.client cancel urb ∧ urb.seqnum = t := by
  rcases h.new_answer ha with hold | ⟨job, c', _, _, hnew⟩ | ⟨v, s, hnew⟩
  · rcases hok.cancelled_issued u t cancel hold with ⟨urb, hissued, hseqnum⟩
    exact ⟨urb, hissued.mono fun _ he => h.log he, hseqnum⟩
  · cases hnew
  · simp only [Answer.unlink.injEq] at hnew
    rcases hnew with ⟨_, rfl, hpending⟩
    rcases hok.pending_job t cancel hpending.symm with ⟨job, hjob, rfl, hseqnum⟩
    exact ⟨job.urb, (hok.jobs_issued job hjob).mono fun _ he => h.log he, hseqnum⟩

/-!
# Open sessions
-/

theorem close_closed (s : Shared) (reason : String) :
    (s.close reason).state.closed ≠ none :=
  Option.isSome_iff_ne_none.mp (s.close_closed reason)

theorem finishUnlink_closed (s : Shared) (ret : RetUnlink) :
    (s.finishUnlink ret).state.closed = s.state.closed := by
  unfold Shared.finishUnlink
  dsimp only
  split
  · rfl
  · split <;> rfl

theorem Turn.open_before {d d' : Dialogue} (h : Turn d d')
    (hopen : d'.client.state.closed = none) : d.client.state.closed = none := by
  cases h with
  | close reason => exact absurd hopen (close_closed d.client reason)
  | readUnlink _ => exact (finishUnlink_closed d.client _).symm.trans hopen
  | lateUnlink ret _ => exact (finishUnlink_closed d.client ret).symm.trans hopen
  | _ => exact hopen

theorem Turn.serving_before {d d' : Dialogue} (h : Turn d d')
    (hserving : d'.server.ended = false) : d.server.ended = false := by
  cases h with
  | takeUnlink _ => exact (d.server.unlink_ended _ _).symm.trans hserving
  | @answer front back job cancel c _ _ _ _ =>
      exact (Urbs.put_ended (takeOut d.server front job back) _).symm.trans hserving
  | disconnect _ _ => cases hserving
  | stop => cases hserving
  | _ => exact hserving

/-!
# Counters
-/

theorem finishUnlink_channels (s : Shared) (ret : RetUnlink) :
    (s.finishUnlink ret).channels = s.channels := by
  unfold Shared.finishUnlink
  dsimp only
  split
  · rfl
  · split <;> rfl

theorem Turn.taken_le {d d' : Dialogue} (h : Turn d d') (hok : d.Sound) :
    d'.server.taken ≤ (ordersOf d'.client).length := by
  have hmore : forall (s : Shared) (e : Client.Event), s.log = e :: d.client.log ->
      d.server.taken ≤ (ordersOf s).length := by
    intro s e hlog
    rw [ordersOf_cons hlog, List.length_append]
    exact Nat.le_trans hok.taken_le (Nat.le_add_right _ _)
  cases h with
  | idle frames => exact hok.taken_le
  | submit _ _ _ _ => exact hmore _ _ rfl
  | unlink _ _ _ _ _ => exact hmore _ _ rfl
  | close reason =>
      dsimp only
      rw [close_orders]
      exact hok.taken_le
  | takeSubmit horders =>
      dsimp only
      rw [d.server.submit_taken]
      exact (drop_cons_next horders).left
  | takeUnlink horders =>
      dsimp only
      rw [d.server.unlink_taken]
      exact (drop_cons_next horders).left
  | drop _ _ => exact hok.taken_le
  | answer _ _ _ _ =>
      dsimp only
      rw [Urbs.put_taken, takeOut_taken]
      exact hok.taken_le
  | @disconnect front back job cancel _ _ =>
      exact Nat.le_trans (Nat.le_of_eq (takeOut_taken d.server front job back)) hok.taken_le
  | stop =>
      dsimp only
      rw [d.server.stop_taken]
      exact hok.taken_le
  | readRet _ => exact hmore _ _ rfl
  | readUnlink _ => exact hmore _ _ (d.client.finishUnlink_log _)
  | lateRet ret _ => exact hmore _ _ rfl
  | lateUnlink ret _ => exact hmore _ _ (d.client.finishUnlink_log _)

theorem put_length (u : Urbs) (a : Answer) :
    u.answers.length ≤ (u.put a).answers.length := by
  rw [put_answers, List.length_append]
  exact Nat.le_add_right _ _

theorem Turn.reads_le {d d' : Dialogue} (h : Turn d d') (hok : d.Sound)
    (hopen' : d'.client.state.closed = none) :
    readsOf d'.client ≤ d'.server.answers.length := by
  have hreads := hok.reads_le (h.open_before hopen')
  cases h with
  | submit _ _ _ _ =>
      dsimp only
      rw [readsOf_cons (s := d.client) rfl]
      exact hreads
  | unlink _ _ _ _ _ =>
      dsimp only
      rw [readsOf_cons (s := d.client) rfl]
      exact hreads
  | close reason => exact absurd hopen' (close_closed d.client reason)
  | takeUnlink _ =>
      dsimp only
      rw [unlink_answers, List.length_append]
      exact Nat.le_trans hreads (Nat.le_add_right _ _)
  | answer _ _ _ _ => exact Nat.le_trans hreads (put_length (takeOut _ _ _ _) _)
  | readRet hunread =>
      dsimp only
      rw [readsOf_cons (s := d.client) rfl]
      exact (drop_cons_next hunread).left
  | readUnlink hunread =>
      dsimp only
      rw [readsOf_cons (d.client.finishUnlink_log _)]
      exact (drop_cons_next hunread).left
  | lateRet ret hclosed =>
      change d.client.state.closed = none at hopen'
      rw [hopen'] at hclosed
      cases hclosed
  | lateUnlink ret hclosed =>
      rw [(finishUnlink_closed d.client ret).symm.trans hopen'] at hclosed
      cases hclosed
  | _ => exact hreads

theorem Turn.next {d d' : Dialogue} (h : Turn d d') (hok : d.Sound) :
    exists k, d'.orders.filterMap Order.channel? = List.range' d'.server.cancels k ∧
      d'.server.cancels + k = d'.client.channels := by
  rcases hok.next with ⟨k, hrange, hcount⟩
  cases h with
  | idle frames => exact ⟨k, hrange, hcount⟩
  | @submit req n _ _ _ _ =>
      refine ⟨k + 1, ?_, ?_⟩
      · rw [Dialogue.orders_register hok.taken_le, List.filterMap_append, hrange,
          List.range'_concat, Nat.one_mul, hcount]
        rfl
      · show d.server.cancels + (k + 1) = d.client.channels + 1
        rw [← hcount, Nat.add_assoc]
  | @unlink target n p _ _ _ _ _ =>
      refine ⟨k, ?_, hcount⟩
      rw [Dialogue.orders_registerUnlink hok.taken_le, List.filterMap_append, hrange]
      exact List.append_nil _
  | close reason =>
      refine ⟨k, ?_, ?_⟩
      · rw [d.orders_close reason]
        exact hrange
      · rw [hcount]
        show d.client.channels = (d.client.close reason).channels
        unfold Shared.close
        split <;> rfl
  | @takeSubmit reply cmd rest horders =>
      rw [horders] at hrange
      cases k with
      | zero => cases hrange
      | succ k =>
          refine ⟨k, ?_, ?_⟩
          · rw [Dialogue.orders_take (d.server.submit_taken _) horders]
            exact (List.cons.inj hrange).right
          · show d.server.cancels + 1 + k = d.client.channels
            omega
  | takeUnlink horders =>
      rw [horders] at hrange
      refine ⟨k, ?_, ?_⟩
      · rw [Dialogue.orders_take (d.server.unlink_taken _ _) horders]
        dsimp only
        rw [Urbs.unlink_cancels]
        exact hrange
      · dsimp only
        rw [Urbs.unlink_cancels]
        exact hcount
  | drop _ _ => exact ⟨k, hrange, hcount⟩
  | answer _ _ _ _ =>
      rw [Dialogue.orders_answer]
      dsimp only
      rw [Urbs.put_cancels]
      exact ⟨k, hrange, hcount⟩
  | @disconnect front back job cancel _ _ =>
      refine ⟨k, ?_, hcount⟩
      rw [Dialogue.orders_server (d := d)
        (u := { takeOut d.server front job back with ended := true })
        (takeOut_taken d.server front job back)]
      exact hrange
  | stop =>
      refine ⟨k, ?_, hcount⟩
      rw [Dialogue.orders_server d.server.stop_taken]
      exact hrange
  | readRet _ =>
      refine ⟨k, ?_, hcount⟩
      rw [Dialogue.orders_finishSubmit hok.taken_le]
      exact hrange
  | readUnlink _ =>
      refine ⟨k, ?_, ?_⟩
      · rw [Dialogue.orders_finishUnlink hok.taken_le]
        exact hrange
      · rw [hcount]
        exact (finishUnlink_channels _ _).symm
  | lateRet ret _ =>
      refine ⟨k, ?_, hcount⟩
      rw [Dialogue.orders_finishSubmit hok.taken_le]
      exact hrange
  | lateUnlink ret _ =>
      refine ⟨k, ?_, ?_⟩
      · rw [Dialogue.orders_finishUnlink hok.taken_le]
        exact hrange
      · rw [hcount]
        exact (finishUnlink_channels _ _).symm

/-!
# All of it
-/

theorem Turn.replies {d d' : Dialogue} (h : Turn d d') (hok : d.Sound) :
    d'.client.RepliesOk := by
  have hreplies := hok.replies
  cases h with
  | idle frames => exact hreplies.withFrames frames
  | submit _ hopen hfree _ => exact (hreplies.register hopen hfree).withFrames []
  | unlink hp hopen hnew hfree _ =>
      exact (hreplies.registerUnlink hp hopen hnew hfree).withFrames []
  | close reason => exact hreplies.close reason
  | readRet _ => exact hreplies.finishSubmit _
  | readUnlink _ => exact hreplies.finishUnlink _
  | lateRet ret _ => exact hreplies.finishSubmit ret
  | lateUnlink ret _ => exact hreplies.finishUnlink ret
  | _ => exact hreplies

theorem Turn.sound {d d' : Dialogue} (h : Turn d d') (hok : d.Sound) : d'.Sound where
  replies := h.replies hok
  taken_le := h.taken_le hok
  reads_le := h.reads_le hok
  live := h.live hok
  pending_job := fun _ _ hpending => h.pending_job hok hpending
  jobs_issued := fun _ hjob => h.jobs_issued hok hjob
  answers_issued := fun _ _ _ ha => h.answers_issued hok ha
  cancelled_issued := fun _ _ _ ha => h.cancelled_issued hok ha
  channels := h.channels hok
  next := h.next hok

end Link
end UsbIp
