import UsbIp.Client.Resolution
import UsbIp.Link.Dialogue

/-!
# Numbers and channels under way

Every sequence number is that of at most one message or queued URB at a time,
and every reply channel is in at most one place for good: in an order under way,
in the server's table of pending URBs, or in an answer.  What a server calls the
cancel channel of a URB has the same number as the reply channel that the client
waits on, since both sides count the same submits in the same order.
-/

namespace UsbIp
namespace Link

open Foundation
open Protocol
open Client (Shared SubmitRequest)
open Server (Urb Urbs Answer Outcome Completion Job urbOf unlinkStatus)

/-!
# How the queues change
-/

theorem Dialogue.orders_client {d : Dialogue} {s : Shared} {e : Client.Event}
    (htaken : d.server.taken ≤ (ordersOf d.client).length)
    (hlog : s.log = e :: d.client.log) :
    (Dialogue.mk s d.server).orders = d.orders ++ (order? e).toList := by
  unfold Dialogue.orders
  rw [ordersOf_cons hlog, drop_concat htaken]

theorem Dialogue.orders_register {d : Dialogue} {req : SubmitRequest} {n : UInt32}
    (htaken : d.server.taken ≤ (ordersOf d.client).length) :
    (Dialogue.mk (sent (d.client.register req n { d.client.state with nextSeqnum := n }))
      d.server).orders =
      d.orders ++ [Order.submit d.client.channels (req.command n d.client.devid)] := by
  rw [Dialogue.orders_client htaken rfl]
  rfl

theorem Dialogue.orders_registerUnlink {d : Dialogue} {target n : UInt32} {reply : Nat}
    (htaken : d.server.taken ≤ (ordersOf d.client).length) :
    (Dialogue.mk (sent (d.client.registerUnlink target reply n
      { d.client.state with nextSeqnum := n })) d.server).orders =
      d.orders ++ [Order.unlink reply
        { seqnum := n, devid := d.client.devid, unlinkSeqnum := target }] := by
  rw [Dialogue.orders_client htaken rfl]
  rfl

theorem Dialogue.unread_client {d : Dialogue} {s : Shared} {e : Client.Event}
    (hlog : s.log = e :: d.client.log) (he : isReply e = false) :
    (Dialogue.mk s d.server).unread = d.unread := by
  unfold Dialogue.unread
  rw [readsOf_cons hlog, he]
  rfl

theorem Dialogue.unread_read {d : Dialogue} {s : Shared} {e : Client.Event} {a : Answer}
    {rest : List Answer} (hlog : s.log = e :: d.client.log) (he : isReply e = true)
    (h : d.unread = a :: rest) : (Dialogue.mk s d.server).unread = rest := by
  unfold Dialogue.unread at h ⊢
  rw [readsOf_cons hlog, he, if_pos rfl]
  exact (drop_cons_next h).right

theorem Dialogue.orders_server {d : Dialogue} {u : Urbs} (h : u.taken = d.server.taken) :
    (Dialogue.mk d.client u).orders = d.orders := by
  unfold Dialogue.orders
  rw [h]

theorem Dialogue.orders_take {d : Dialogue} {u : Urbs} {o : Order} {rest : List Order}
    (h : u.taken = d.server.taken + 1) (horders : d.orders = o :: rest) :
    (Dialogue.mk d.client u).orders = rest := by
  unfold Dialogue.orders at horders ⊢
  rw [h]
  exact (drop_cons_next horders).right

theorem Dialogue.unread_server {d : Dialogue} {u : Urbs}
    (h : u.answers = d.server.answers) : (Dialogue.mk d.client u).unread = d.unread := by
  unfold Dialogue.unread
  rw [h]

theorem Dialogue.unread_sublist {d : Dialogue} {s : Shared} {e : Client.Event}
    (hlog : s.log = e :: d.client.log) : (Dialogue.mk s d.server).unread.Sublist d.unread := by
  unfold Dialogue.unread
  rw [readsOf_cons hlog, ← List.drop_drop]
  exact List.drop_sublist _ _

def added (u : Urbs) (a : Answer) : List Answer :=
  if u.ended then [] else [a]

theorem put_answers (u : Urbs) (a : Answer) : (u.put a).answers = u.answers ++ added u a := by
  unfold Urbs.put added
  split
  · simp
  · rfl

theorem Dialogue.unread_put {d : Dialogue} {u : Urbs} (a : Answer)
    (hreads : readsOf d.client ≤ d.server.answers.length)
    (h : u.answers = d.server.answers) :
    (Dialogue.mk d.client (u.put a)).unread = d.unread ++ added u a := by
  unfold Dialogue.unread
  rw [put_answers, h, drop_concat hreads]

theorem drop_append_sublist {α : Type} (xs ys : List α) (n : Nat) :
    ((xs ++ ys).drop n).Sublist (xs.drop n ++ ys) := by
  rw [List.drop_append]
  exact List.Sublist.append (List.Sublist.refl _) (List.drop_sublist _ _)

theorem Dialogue.unread_put_sublist {d : Dialogue} {u : Urbs} (a : Answer)
    (h : u.answers = d.server.answers) :
    (Dialogue.mk d.client (u.put a)).unread.Sublist (d.unread ++ added u a) := by
  unfold Dialogue.unread
  rw [put_answers, h]
  exact drop_append_sublist _ _ _

theorem takeOut_taken (u : Urbs) (front : List Job) (job : Job) (back : List Job) :
    (takeOut u front job back).taken = u.taken := by
  simp [Urbs.taken, takeOut, Server.Event.isCommand]

theorem Dialogue.orders_answer {d : Dialogue} {front back : List Job} {job : Job}
    {a : Answer} :
    (Dialogue.mk d.client ((takeOut d.server front job back).put a)).orders = d.orders :=
  Dialogue.orders_server ((Urbs.put_taken _ _).trans (takeOut_taken _ _ _ _))

theorem Dialogue.unread_answer {d : Dialogue} {front back : List Job} {job : Job}
    {a : Answer} (hreads : readsOf d.client ≤ d.server.answers.length) :
    (Dialogue.mk d.client ((takeOut d.server front job back).put a)).unread =
      d.unread ++ added (takeOut d.server front job back) a :=
  Dialogue.unread_put a hreads rfl

theorem unlink_answers (u : Urbs) (seqnum target : UInt32) :
    (u.unlink seqnum target).answers =
      u.answers ++ added u (Answer.unlink seqnum target (u.pending.lookup target)) :=
  put_answers _ _

theorem Dialogue.unread_unlink {d : Dialogue} {seqnum target : UInt32}
    (hreads : readsOf d.client ≤ d.server.answers.length) :
    (Dialogue.mk d.client (d.server.unlink seqnum target)).unread =
      d.unread ++ added d.server
        (Answer.unlink seqnum target (d.server.pending.lookup target)) := by
  unfold Dialogue.unread
  rw [unlink_answers, drop_concat hreads]

theorem Dialogue.unread_unlink_sublist (d : Dialogue) (seqnum target : UInt32) :
    (Dialogue.mk d.client (d.server.unlink seqnum target)).unread.Sublist
      (d.unread ++ added d.server
        (Answer.unlink seqnum target (d.server.pending.lookup target))) := by
  unfold Dialogue.unread
  rw [unlink_answers]
  exact drop_append_sublist _ _ _

theorem Dialogue.orders_finishSubmit {d : Dialogue} {ret : RetSubmit}
    (htaken : d.server.taken ≤ (ordersOf d.client).length) :
    (Dialogue.mk (d.client.finishSubmit ret) d.server).orders = d.orders := by
  rw [Dialogue.orders_client (e := Client.Event.received ret) htaken rfl]
  exact List.append_nil _

theorem Dialogue.orders_finishUnlink {d : Dialogue} {ret : RetUnlink}
    (htaken : d.server.taken ≤ (ordersOf d.client).length) :
    (Dialogue.mk (d.client.finishUnlink ret) d.server).orders = d.orders := by
  rw [Dialogue.orders_client htaken (d.client.finishUnlink_log ret)]
  exact List.append_nil _

theorem close_orders (s : Shared) (reason : String) :
    ordersOf (s.close reason) = ordersOf s := by
  unfold Shared.close
  split
  · rfl
  · rw [ordersOf_cons rfl]
    simp [order?]

theorem close_reads (s : Shared) (reason : String) :
    readsOf (s.close reason) = readsOf s := by
  unfold Shared.close
  split
  · rfl
  · rw [readsOf_cons rfl]
    rfl

theorem Dialogue.orders_close (d : Dialogue) (reason : String) :
    (Dialogue.mk (d.client.close reason) d.server).orders = d.orders := by
  unfold Dialogue.orders
  rw [close_orders]

theorem Dialogue.unread_close (d : Dialogue) (reason : String) :
    (Dialogue.mk (d.client.close reason) d.server).unread = d.unread := by
  unfold Dialogue.unread
  rw [close_reads]

theorem Dialogue.mem_orders {d : Dialogue} {o : Order} (h : o ∈ d.orders) :
    o ∈ ordersOf d.client :=
  List.mem_of_mem_drop h

theorem Dialogue.mem_unread {d : Dialogue} {a : Answer} (h : a ∈ d.unread) :
    a ∈ d.server.answers :=
  List.mem_of_mem_drop h

/-!
# What is under way
-/

def Dialogue.live (d : Dialogue) : List UInt32 :=
  d.orders.map Order.seqnum ++
    (d.server.jobs.map (fun job => job.urb.seqnum) ++ d.unread.map Answer.seqnum)

def Order.channel? (o : Order) : Option Nat :=
  o.held.map Prod.snd

def answerChannel? (a : Answer) : Option Nat :=
  (answerHeld a).map Prod.snd

/-- The channels in the orders under way, in the server's table, and in all answers. -/
def Dialogue.channels (d : Dialogue) : List Nat :=
  d.orders.filterMap Order.channel? ++
    (d.server.pending.entries.map (fun e => e.2) ++
      d.server.answers.filterMap answerChannel?)

def IssuedAs (s : Shared) (channel : Nat) (urb : Urb) : Prop :=
  exists cmd, Client.Event.submitted channel cmd ∈ s.log ∧ urb = urbOf cmd

structure Dialogue.Sound (d : Dialogue) : Prop where
  replies : d.client.RepliesOk
  taken_le : d.server.taken ≤ (ordersOf d.client).length
  reads_le : d.client.state.closed = none -> readsOf d.client ≤ d.server.answers.length
  live : d.live.Nodup
  pending_job : forall n c, d.server.pending.lookup n = some c ->
    exists job, job ∈ d.server.jobs ∧ job.cancel = c ∧ job.urb.seqnum = n
  jobs_issued : forall job, job ∈ d.server.jobs -> IssuedAs d.client job.cancel job.urb
  answers_issued : forall cancel urb c, Answer.ret cancel urb c ∈ d.server.answers ->
    Fits urb (Outcome.complete c) ∧ IssuedAs d.client cancel urb
  cancelled_issued : forall u t cancel, Answer.unlink u t (some cancel) ∈ d.server.answers ->
    exists urb, IssuedAs d.client cancel urb ∧ urb.seqnum = t
  channels : d.channels.Nodup
  /-- Both sides have counted the same submits. -/
  next : exists k, d.orders.filterMap Order.channel? = List.range' d.server.cancels k ∧
    d.server.cancels + k = d.client.channels

theorem Dialogue.start_sound (devid : UInt32) : (Dialogue.start devid).Sound where
  replies := Client.Shared.initial_repliesOk devid
  taken_le := Nat.le_refl 0
  reads_le := fun _ => Nat.le_refl 0
  live := List.nodup_nil
  pending_job := by simp [Dialogue.start, Urbs.initial]
  jobs_issued := by simp [Dialogue.start, Urbs.initial]
  answers_issued := by simp [Dialogue.start, Urbs.initial]
  cancelled_issued := by simp [Dialogue.start, Urbs.initial]
  channels := List.nodup_nil
  next := ⟨0, rfl, rfl⟩

theorem IssuedAs.mono {s s' : Shared} {channel : Nat} {urb : Urb}
    (h : IssuedAs s channel urb) (hlog : forall e, e ∈ s.log -> e ∈ s'.log) :
    IssuedAs s' channel urb := by
  rcases h with ⟨cmd, hmem, heq⟩
  exact ⟨cmd, hlog _ hmem, heq⟩

theorem Dialogue.Sound.channels_lt {d : Dialogue} (hok : d.Sound) {channel : Nat}
    (h : channel ∈ d.channels) : channel < d.client.channels := by
  have hissued : forall urb, IssuedAs d.client channel urb -> channel < d.client.channels := by
    rintro urb ⟨cmd, hmem, _⟩
    exact hok.replies.submitted_lt channel cmd hmem
  unfold Dialogue.channels at h
  rcases List.mem_append.mp h with horder | h
  · rcases hok.next with ⟨k, hrange, hcount⟩
    rw [hrange, List.mem_range'_1] at horder
    omega
  · rcases List.mem_append.mp h with hpending | hanswer
    · rcases List.mem_map.mp hpending with ⟨e, he, rfl⟩
      rcases hok.pending_job e.1 e.2 (Table.mem_entries_iff.mp he) with ⟨job, hjob, hcancel, _⟩
      exact hissued job.urb (hcancel ▸ hok.jobs_issued job hjob)
    · rcases List.mem_filterMap.mp hanswer with ⟨a, ha, hchannel⟩
      cases a with
      | ret cancel urb c =>
          cases hchannel
          exact hissued urb (hok.answers_issued _ urb c ha).right
      | unlink u t cancelled =>
          cases cancelled with
          | none => cases hchannel
          | some cancel =>
              cases hchannel
              rcases hok.cancelled_issued u t _ ha with ⟨urb, hurb, _⟩
              exact hissued urb hurb

theorem Dialogue.Sound.cancel_eq {d : Dialogue} (hok : d.Sound) {front back : List Job}
    {job : Job} (hjobs : d.server.jobs = front ++ job :: back) {cancel : Nat}
    (hpending : d.server.pending.lookup job.urb.seqnum = some cancel) :
    cancel = job.cancel := by
  rcases hok.pending_job _ _ hpending with ⟨other, hother, rfl, hseqnum⟩
  have hnodup : (d.server.jobs.map fun job => job.urb.seqnum).Nodup :=
    (List.nodup_append.mp (List.nodup_append.mp hok.live).right.left).left
  have hjob : job ∈ d.server.jobs := hjobs ▸ List.mem_append_right _ List.mem_cons_self
  rw [List.inj_on_of_nodup_map hnodup hother hjob hseqnum]

theorem Dialogue.Sound.pending_live {d : Dialogue} (hok : d.Sound) {n : UInt32}
    (h : n ∈ d.server.pending) :
    n ∈ d.server.jobs.map fun job => job.urb.seqnum := by
  rcases Table.mem_iff_lookup.mp h with ⟨c, hc⟩
  rcases hok.pending_job n c hc with ⟨job, hjob, _, rfl⟩
  exact List.mem_map.mpr ⟨job, hjob, rfl⟩

/-- The server never sees the number of an order in its table. -/
theorem Dialogue.Sound.order_not_pending {d : Dialogue} (hok : d.Sound) {o : Order}
    (h : o ∈ d.orders) : o.seqnum ∉ d.server.pending := by
  intro hpending
  have hjob := hok.pending_live hpending
  have horder : o.seqnum ∈ d.orders.map Order.seqnum := List.mem_map.mpr ⟨o, h, rfl⟩
  exact (List.nodup_append.mp hok.live).right.right _ horder _
    (List.mem_append_left _ hjob) rfl

theorem Dialogue.Sound.head_reply {d : Dialogue} (hok : d.Sound) {reply : Nat}
    {cmd : CmdSubmit} {rest : List Order} (horders : d.orders = Order.submit reply cmd :: rest) :
    reply = d.server.cancels := by
  rcases hok.next with ⟨k, hrange, _⟩
  rw [horders] at hrange
  cases k with
  | zero => cases hrange
  | succ k => exact (List.cons.inj hrange).left

end Link
end UsbIp
