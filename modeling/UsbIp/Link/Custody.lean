import UsbIp.Link.Sound

/-!
# Who has a transfer

While the session is open, a transfer in the client's table is in exactly one
place on its way: in an order the server has not taken, in the server's table,
or in an answer the client has not read.  This module says where, and shows how
each turn moves a transfer from one place to the next.
-/

namespace UsbIp
namespace Link

open Foundation
open Protocol
open Client (Shared SubmitRequest)
open Server (Urb Urbs Answer Outcome Completion Job urbOf unlinkStatus)

/-!
# Places
-/

/-- Somebody between the client's submit and its answer has the transfer. -/
def HeldBy (orders : List Order) (pending : Table UInt32 Nat) (answers : List Answer)
    (n : UInt32) (c : Nat) : Prop :=
  (exists o, o ∈ orders ∧ o.held = some (n, c)) ∨
    pending.lookup n = some c ∨
    exists a, a ∈ answers ∧ answerHeld a = some (n, c)

def Dialogue.Held (d : Dialogue) (n : UInt32) (c : Nat) : Prop :=
  HeldBy d.orders d.server.pending d.unread n c

theorem HeldBy.mono {orders orders' : List Order} {pending pending' : Table UInt32 Nat}
    {answers answers' : List Answer} {n : UInt32} {c : Nat}
    (h : HeldBy orders pending answers n c)
    (horders : forall o, o ∈ orders -> o.held = some (n, c) -> o ∈ orders')
    (hpending : pending.lookup n = some c -> pending'.lookup n = some c)
    (hanswers : forall a, a ∈ answers -> answerHeld a = some (n, c) -> a ∈ answers') :
    HeldBy orders' pending' answers' n c := by
  rcases h with ⟨o, ho, hheld⟩ | hlook | ⟨a, ha, hheld⟩
  · exact Or.inl ⟨o, horders o ho hheld, hheld⟩
  · exact Or.inr (Or.inl (hpending hlook))
  · exact Or.inr (Or.inr ⟨a, hanswers a ha hheld, hheld⟩)

theorem channel_of_held {o : Order} {n : UInt32} {c : Nat} (h : o.held = some (n, c)) :
    o.channel? = some c := by
  unfold Order.channel?
  rw [h]
  rfl

theorem answerChannel_of_held {a : Answer} {n : UInt32} {c : Nat}
    (h : answerHeld a = some (n, c)) : answerChannel? a = some c := by
  unfold answerChannel?
  rw [h]
  rfl

/-- A channel that the oldest unread answer gives back is nowhere else. -/
theorem Dialogue.Sound.held_once {d : Dialogue} (hok : d.Sound) {a : Answer}
    {rest : List Answer} (hunread : d.unread = a :: rest) {n : UInt32} {c : Nat}
    (ha : answerHeld a = some (n, c)) (m : UInt32) :
    ¬ HeldBy d.orders d.server.pending rest m c := by
  have hchannels := hok.channels
  unfold Dialogue.channels at hchannels
  have hsplit : d.server.answers = d.server.answers.take (readsOf d.client) ++ a :: rest := by
    rw [← hunread]
    exact (List.take_append_drop _ _).symm
  rw [hsplit, List.filterMap_append,
    List.filterMap_cons_some (answerChannel_of_held ha)] at hchannels
  rw [List.nodup_append] at hchannels
  rcases hchannels with ⟨_, htail, horders⟩
  rw [List.nodup_append] at htail
  rcases htail with ⟨_, hanswers, hpending⟩
  have hlast : c ∈ (d.server.answers.take (readsOf d.client)).filterMap answerChannel? ++
      c :: rest.filterMap answerChannel? :=
    List.mem_append_right _ List.mem_cons_self
  rintro (⟨o, ho, hheld⟩ | hlook | ⟨b, hb, hheld⟩)
  · have hmem : c ∈ d.orders.filterMap Order.channel? :=
      List.mem_filterMap.mpr ⟨o, ho, channel_of_held hheld⟩
    exact horders c hmem c (List.mem_append_right _ hlast) rfl
  · have hmem : c ∈ d.server.pending.entries.map (fun e => e.2) :=
      List.mem_map.mpr ⟨_, Table.mem_entries_iff.mpr hlook, rfl⟩
    exact hpending c hmem c hlast rfl
  · have hmem : c ∈ rest.filterMap answerChannel? :=
      List.mem_filterMap.mpr ⟨b, hb, answerChannel_of_held hheld⟩
    exact (List.nodup_cons.mp (List.nodup_append.mp hanswers).right.left).left hmem

/-!
# How a turn moves transfers
-/

theorem Order.held_submit {o : Order} {n : UInt32} {c : Nat} (h : o.held = some (n, c)) :
    exists cmd, o = Order.submit c cmd ∧ cmd.seqnum = n := by
  cases o with
  | submit reply cmd =>
      cases h
      exact ⟨cmd, rfl, rfl⟩
  | unlink reply cmd => cases h

theorem mem_added {u : Urbs} {a b : Answer} (h : b ∈ added u a) : b = a := by
  unfold added at h
  split at h
  · cases h
  · exact List.mem_singleton.mp h

theorem mem_added_self {u : Urbs} (h : u.ended = false) (a : Answer) : a ∈ added u a := by
  unfold added
  rw [h]
  exact List.mem_singleton_self a

theorem Dialogue.Sound.held_takeSubmit {d : Dialogue} (hok : d.Sound) {reply : Nat}
    {cmd : CmdSubmit} {rest : List Order} (horders : d.orders = Order.submit reply cmd :: rest)
    (n : UInt32) (c : Nat) :
    (Dialogue.mk d.client (d.server.submit (urbOf cmd))).Held n c <-> d.Held n c := by
  have hreply := hok.head_reply horders
  have hnew : cmd.seqnum ∉ d.server.pending :=
    hok.order_not_pending (o := Order.submit reply cmd) (horders ▸ List.mem_cons_self)
  have hlook : (d.server.submit (urbOf cmd)).pending.lookup n =
      if n = cmd.seqnum then some d.server.cancels else d.server.pending.lookup n :=
    Table.lookup_insert_eq _ _ _ _
  unfold Dialogue.Held
  rw [Dialogue.orders_take (d.server.submit_taken _) horders,
    Dialogue.unread_server (u := d.server.submit (urbOf cmd)) rfl, horders]
  unfold HeldBy
  dsimp only
  rw [hlook]
  constructor
  · rintro (⟨o, ho, hheld⟩ | hpending | hanswer)
    · exact Or.inl ⟨o, List.mem_cons_of_mem _ ho, hheld⟩
    · split at hpending
      · rename_i hn
        cases hpending
        refine Or.inl ⟨Order.submit reply cmd, List.mem_cons_self, ?_⟩
        rw [hn, ← hreply]
        rfl
      · exact Or.inr (Or.inl hpending)
    · exact Or.inr (Or.inr hanswer)
  · rintro (⟨o, ho, hheld⟩ | hpending | hanswer)
    · rcases List.mem_cons.mp ho with rfl | ho
      · cases hheld
        right
        left
        rw [if_pos rfl, hreply]
      · exact Or.inl ⟨o, ho, hheld⟩
    · right
      left
      rw [if_neg]
      · exact hpending
      · rintro rfl
        exact hnew (Table.mem_iff_lookup.mpr ⟨c, hpending⟩)
    · exact Or.inr (Or.inr hanswer)

theorem held_answered {orders : List Order} {pending : Table UInt32 Nat}
    {unread : List Answer} {u : Urbs} {a : Answer} {t : UInt32} {found : Option Nat}
    (hlook : pending.lookup t = found) (ha : answerHeld a = found.map (fun c => (t, c)))
    (n : UInt32) (c : Nat) :
    (HeldBy orders (pending.erase t) (unread ++ added u a) n c ->
        HeldBy orders pending unread n c) ∧
      (u.ended = false -> HeldBy orders pending unread n c ->
        HeldBy orders (pending.erase t) (unread ++ added u a) n c) := by
  constructor
  · rintro (horder | hpending | ⟨b, hb, hheld⟩)
    · exact Or.inl horder
    · exact Or.inr (Or.inl (Table.lookup_of_erase hpending).right)
    · rcases List.mem_append.mp hb with hold | hnew
      · exact Or.inr (Or.inr ⟨b, hold, hheld⟩)
      · right
        left
        rw [mem_added hnew, ha] at hheld
        cases found with
        | none => cases hheld
        | some cancel =>
            cases hheld
            exact hlook
  · intro hopen
    rintro (horder | hpending | ⟨b, hb, hheld⟩)
    · exact Or.inl horder
    · by_cases hn : n = t
      · right
        right
        refine ⟨a, List.mem_append_right _ (mem_added_self hopen a), ?_⟩
        rw [ha, ← hlook, ← hn, hpending]
        rfl
      · right
        left
        rw [Table.lookup_erase_eq, if_neg hn]
        exact hpending
    · exact Or.inr (Or.inr ⟨b, List.mem_append_left _ hb, hheld⟩)

theorem Dialogue.Sound.held_takeUnlink {d : Dialogue} (hok : d.Sound) {reply : Nat}
    {cmd : CmdUnlink} {rest : List Order} (horders : d.orders = Order.unlink reply cmd :: rest)
    (hopen : d.client.state.closed = none) (n : UInt32) (c : Nat) :
    ((Dialogue.mk d.client (d.server.unlink cmd.seqnum cmd.unlinkSeqnum)).Held n c ->
        d.Held n c) ∧
      (d.server.ended = false -> d.Held n c ->
        (Dialogue.mk d.client (d.server.unlink cmd.seqnum cmd.unlinkSeqnum)).Held n c) := by
  have hskip : HeldBy d.orders d.server.pending d.unread n c <->
      HeldBy rest d.server.pending d.unread n c := by
    rw [horders]
    constructor
    · intro h
      apply h.mono _ (fun h => h) (fun _ ha _ => ha)
      intro o ho hheld
      rcases List.mem_cons.mp ho with rfl | ho
      · cases hheld
      · exact ho
    · intro h
      exact h.mono (fun _ ho _ => List.mem_cons_of_mem _ ho) (fun h => h) (fun _ ha _ => ha)
  have hanswer : answerHeld (Answer.unlink cmd.seqnum cmd.unlinkSeqnum
      (d.server.pending.lookup cmd.unlinkSeqnum)) =
      (d.server.pending.lookup cmd.unlinkSeqnum).map (fun c => (cmd.unlinkSeqnum, c)) := by
    cases d.server.pending.lookup cmd.unlinkSeqnum <;> rfl
  unfold Dialogue.Held
  rw [Dialogue.orders_take (d.server.unlink_taken _ _) horders,
    Dialogue.unread_unlink (hok.reads_le hopen), hskip]
  dsimp only
  rw [Urbs.unlink_pending]
  exact held_answered rfl hanswer n c

theorem Dialogue.Sound.held_answer {d : Dialogue} (hok : d.Sound) {front back : List Job}
    {job : Job} {cancel : Nat} {a : Completion}
    (hjobs : d.server.jobs = front ++ job :: back)
    (hpending : d.server.pending.lookup job.urb.seqnum = some cancel)
    (hopen : d.client.state.closed = none) (n : UInt32) (c : Nat) :
    ((Dialogue.mk d.client ((takeOut d.server front job back).put
        (Answer.ret job.cancel job.urb a))).Held n c -> d.Held n c) ∧
      (d.server.ended = false -> d.Held n c ->
        (Dialogue.mk d.client ((takeOut d.server front job back).put
          (Answer.ret job.cancel job.urb a))).Held n c) := by
  have hcancel := hok.cancel_eq hjobs hpending
  unfold Dialogue.Held
  rw [Dialogue.orders_answer, Dialogue.unread_answer (hok.reads_le hopen)]
  dsimp only
  rw [Urbs.put_pending]
  exact held_answered (u := takeOut d.server front job back) hpending (hcancel ▸ rfl) n c

theorem Dialogue.held_less {d : Dialogue} {u : Urbs} (htaken : u.taken = d.server.taken)
    (hanswers : u.answers = d.server.answers) {n : UInt32} {c : Nat}
    (hpending : u.pending.lookup n = some c -> d.server.pending.lookup n = some c)
    (h : (Dialogue.mk d.client u).Held n c) : d.Held n c := by
  unfold Dialogue.Held at h ⊢
  rw [Dialogue.orders_server htaken, Dialogue.unread_server hanswers] at h
  exact h.mono (fun _ ho _ => ho) hpending (fun _ ha _ => ha)

theorem held_tail {orders : List Order} {pending : Table UInt32 Nat} {a : Answer}
    {rest : List Answer} {n : UInt32} {c : Nat} (h : HeldBy orders pending (a :: rest) n c) :
    HeldBy orders pending rest n c ∨ answerHeld a = some (n, c) := by
  rcases h with horder | hpending | ⟨b, hb, hheld⟩
  · exact Or.inl (Or.inl horder)
  · exact Or.inl (Or.inr (Or.inl hpending))
  · rcases List.mem_cons.mp hb with rfl | hb
    · exact Or.inr hheld
    · exact Or.inl (Or.inr (Or.inr ⟨b, hb, hheld⟩))

theorem HeldBy.cons {orders : List Order} {pending : Table UInt32 Nat} {rest : List Answer}
    {n : UInt32} {c : Nat} (h : HeldBy orders pending rest n c) (a : Answer) :
    HeldBy orders pending (a :: rest) n c :=
  h.mono (fun _ ho _ => ho) (fun h => h) (fun _ hb _ => List.mem_cons_of_mem a hb)

end Link
end UsbIp
