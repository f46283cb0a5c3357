import UsbIp.Link.Runs

/-!
# What is delivered

What the two programs do for each other over a whole run: the server takes the
commands of the client in the order in which they were issued and unchanged,
every transfer in the client's table is in one place on its way, every result a
caller gets is what the device or the unlink came to for that very transfer,
and the transfers of one endpoint are answered in turn.
-/

namespace UsbIp
namespace Link

open Foundation
open Protocol
open Client (Shared SubmitRequest TransferResult TransferError Session ExportedDevice)
open Server (Urb Urbs Answer Outcome Completion Job Connection urbOf unlinkStatus)

/-!
# Commands
-/

inductive Taken where
  | submit (urb : Urb)
  | unlink (seqnum target : UInt32)
deriving DecidableEq, Repr

def Order.taken : Order -> Taken
  | Order.submit _ cmd => Taken.submit (urbOf cmd)
  | Order.unlink _ cmd => Taken.unlink cmd.seqnum cmd.unlinkSeqnum

def taken? : Server.Event -> Option Taken
  | Server.Event.submit urb => some (Taken.submit urb)
  | Server.Event.unlink seqnum target _ => some (Taken.unlink seqnum target)
  | _ => none

/-- The commands that the server has logged, oldest first. -/
def takenOf (u : Urbs) : List Taken :=
  u.log.reverse.filterMap taken?

theorem takenOf_cons {u u' : Urbs} {e : Server.Event} (hlog : u'.log = e :: u.log) :
    takenOf u' = takenOf u ++ (taken? e).toList := by
  unfold takenOf
  rw [hlog, List.reverse_cons, List.filterMap_append]
  cases h : taken? e <;> simp [h]

theorem takenOf_put (u : Urbs) (a : Answer) : takenOf (u.put a) = takenOf u := by
  unfold Urbs.put
  split <;> rfl

theorem takenOf_submit (u : Urbs) (urb : Urb) :
    takenOf (u.submit urb) = takenOf u ++ [Taken.submit urb] := by
  unfold takenOf Urbs.submit
  dsimp only
  split <;> simp [taken?]

theorem takenOf_unlink (u : Urbs) (seqnum target : UInt32) :
    takenOf (u.unlink seqnum target) = takenOf u ++ [Taken.unlink seqnum target] := by
  unfold Urbs.unlink
  rw [takenOf_put, takenOf_cons (u := u) rfl]
  rfl

/-- The server has taken the oldest orders, each for what it is. -/
def Dialogue.Arrived (d : Dialogue) : Prop :=
  takenOf d.server = ((ordersOf d.client).take d.server.taken).map Order.taken

theorem take_succ {α : Type} {xs rest : List α} {x : α} {n : Nat}
    (h : xs.drop n = x :: rest) : xs.take (n + 1) = xs.take n ++ [x] := by
  rw [List.take_add, h]
  rfl

theorem Turn.arrived {d d' : Dialogue} (h : Turn d d') (hsound : d.Sound)
    (hold : d.Arrived) : d'.Arrived := by
  have hclient : d'.server = d.server -> d'.Arrived := by
    intro hserver
    unfold Dialogue.Arrived at hold ⊢
    rw [hserver, h.grows, List.take_append_of_le_length hsound.taken_le]
    exact hold
  have hserver : forall {u : Urbs}, takenOf u = takenOf d.server ->
      u.taken = d.server.taken -> (Dialogue.mk d.client u).Arrived := by
    intro u htaken hcount
    unfold Dialogue.Arrived at hold ⊢
    rw [htaken, hcount]
    exact hold
  have hnext : forall {u : Urbs} {o : Order} {rest : List Order}, d.orders = o :: rest ->
      takenOf u = takenOf d.server ++ [o.taken] -> u.taken = d.server.taken + 1 ->
      (Dialogue.mk d.client u).Arrived := by
    intro u o rest horders htaken hcount
    unfold Dialogue.Arrived at hold ⊢
    rw [htaken, hcount, take_succ horders, List.map_append, ← hold]
    rfl
  cases h with
  | takeSubmit horders => exact hnext horders (takenOf_submit _ _) (d.server.submit_taken _)
  | takeUnlink horders => exact hnext horders (takenOf_unlink _ _ _) (d.server.unlink_taken _ _)
  | drop _ _ => exact hserver rfl rfl
  | @answer front back job _ _ _ _ _ _ =>
      apply hserver
      · rw [takenOf_put, takenOf_cons (u := d.server) rfl]
        exact List.append_nil _
      · exact (Urbs.put_taken _ _).trans (takeOut_taken _ front job back)
  | @disconnect front back job _ _ _ =>
      apply hserver
      · rw [takenOf_cons (u := d.server) rfl]
        exact List.append_nil _
      · exact takeOut_taken _ front job back
  | stop =>
      apply hserver
      · rw [takenOf_cons (u := d.server) rfl]
        exact List.append_nil _
      · exact d.server.stop_taken
  | _ => exact hclient rfl

/-!
# Transfers
-/

/-- The transfers on their way, with their reply channels, wherever they are. -/
def Dialogue.holders (d : Dialogue) : List (UInt32 × Nat) :=
  d.orders.filterMap Order.held ++
    (d.server.pending.entries.map (fun e => (e.1, e.2)) ++ d.unread.filterMap answerHeld)

/-- The transfers that the client waits for, with their reply channels. -/
def awaited (s : Shared) : List (UInt32 × Nat) :=
  s.state.submits.entries.map fun e => (e.1, e.2.reply)

theorem Dialogue.mem_holders {d : Dialogue} {n : UInt32} {c : Nat} :
    (n, c) ∈ d.holders <-> d.Held n c := by
  unfold Dialogue.holders Dialogue.Held HeldBy
  rw [List.mem_append, List.mem_append, List.mem_filterMap, List.mem_filterMap]
  have hpending : (n, c) ∈ d.server.pending.entries.map (fun e => (e.1, e.2)) <->
      d.server.pending.lookup n = some c := by
    rw [← Table.mem_entries_iff, List.mem_map]
    constructor
    · rintro ⟨⟨m, x⟩, hmem, heq⟩
      cases heq
      exact hmem
    · intro hmem
      exact ⟨_, hmem, rfl⟩
  rw [hpending]

theorem mem_awaited {s : Shared} {n : UInt32} {c : Nat} :
    (n, c) ∈ awaited s <-> Registered s n c := by
  unfold awaited Registered
  rw [List.mem_map]
  constructor
  · rintro ⟨⟨m, p⟩, hmem, heq⟩
    cases heq
    exact ⟨p, Table.mem_entries_iff.mp hmem, rfl⟩
  · rintro ⟨p, hp, rfl⟩
    exact ⟨⟨n, p⟩, Table.mem_entries_iff.mpr hp, rfl⟩

theorem awaited_nodup (s : Shared) : (awaited s).Nodup := by
  apply List.Nodup.of_map Prod.fst
  unfold awaited
  rw [List.map_map]
  exact s.state.submits.nodupKeys

theorem Dialogue.Sound.holders_nodup {d : Dialogue} (hok : d.Sound) : d.holders.Nodup := by
  apply List.Nodup.of_map Prod.snd
  have horders : (d.orders.filterMap Order.held).map Prod.snd =
      d.orders.filterMap Order.channel? := List.map_filterMap
  have hanswers : (d.unread.filterMap answerHeld).map Prod.snd =
      d.unread.filterMap answerChannel? := List.map_filterMap
  unfold Dialogue.holders
  rw [List.map_append, List.map_append, List.map_map, horders, hanswers]
  apply List.Nodup.sublist _ hok.channels
  apply List.Sublist.append (List.Sublist.refl _)
  apply List.Sublist.append (List.Sublist.refl _)
  exact (List.drop_sublist _ _).filterMap _

/-- No transfer is lost and none is doubled while both sides go on. -/
theorem Dialogue.Ok.conserved {d : Dialogue} (hok : d.Ok)
    (hopen : d.client.state.closed = none) (hserving : d.server.ended = false) :
    d.holders.Perm (awaited d.client) := by
  rw [List.perm_ext_iff_of_nodup hok.sound.holders_nodup (awaited_nodup d.client)]
  rintro ⟨n, c⟩
  rw [Dialogue.mem_holders, mem_awaited]
  constructor
  · exact hok.agrees.held hopen n c
  · exact hok.agrees.registered hopen hserving n c

theorem Dialogue.Ok.settled {d : Dialogue} (hok : d.Ok)
    (hopen : d.client.state.closed = none) (hserving : d.server.ended = false)
    (horders : d.orders = []) (hunread : d.unread = []) :
    (d.server.pending.entries.map fun e => (e.1, e.2)).Perm (awaited d.client) ∧
      d.client.state.unlinks = ∅ := by
  constructor
  · have hperm := hok.conserved hopen hserving
    unfold Dialogue.holders at hperm
    rw [horders, hunread, List.filterMap_nil, List.filterMap_nil, List.nil_append,
      List.append_nil] at hperm
    exact hperm
  · apply AList.ext
    apply List.eq_nil_iff_forall_not_mem.mpr
    rintro ⟨u, t⟩ hmem
    have hu : u ∈ d.client.state.unlinks :=
      Table.mem_iff_lookup.mpr ⟨t, Table.mem_entries_iff.mp hmem⟩
    rcases hok.agrees.unlinks hopen hserving u hu with ⟨reply, cmd, ho, _⟩ | ⟨x, found, ha⟩
    · rw [horders] at ho
      cases ho
    · rw [hunread] at ha
      cases ha

/-!
# The turns of an endpoint
-/

/-- Of two answers for one address, the first is for the transfer submitted first. -/
def InTurn : Answer -> Answer -> Prop
  | Answer.ret cancel urb _, Answer.ret cancel' urb' _ =>
      urb.address = urb'.address -> cancel < cancel'
  | _, _ => True

structure UrbsInTurn (u : Urbs) : Prop where
  jobs : u.jobs.Pairwise fun job other => job.cancel < other.cancel
  jobs_lt : forall job, job ∈ u.jobs -> job.cancel < u.cancels
  answered_lt : forall cancel urb c, Answer.ret cancel urb c ∈ u.answers ->
    cancel < u.cancels
  before : forall cancel urb c, Answer.ret cancel urb c ∈ u.answers ->
    forall job, job ∈ u.jobs -> urb.address = job.urb.address -> cancel < job.cancel
  answers : u.answers.Pairwise InTurn

theorem initial_inTurn : UrbsInTurn Urbs.initial where
  jobs := List.Pairwise.nil
  jobs_lt := by simp [Urbs.initial]
  answered_lt := by simp [Urbs.initial]
  before := by simp [Urbs.initial]
  answers := List.Pairwise.nil

theorem UrbsInTurn.submit {u : Urbs} (h : UrbsInTurn u) (urb : Urb) :
    UrbsInTurn (u.submit urb) where
  jobs := by
    apply List.pairwise_append.mpr
    refine ⟨h.jobs, List.pairwise_singleton _ _, ?_⟩
    intro job hjob other hother
    rw [List.mem_singleton.mp hother]
    exact h.jobs_lt job hjob
  jobs_lt := by
    intro job hjob
    rcases List.mem_append.mp hjob with hold | hnew
    · exact Nat.lt_succ_of_lt (h.jobs_lt job hold)
    · rw [List.mem_singleton.mp hnew]
      exact Nat.lt_succ_self u.cancels
  answered_lt := fun cancel urb c ha => Nat.lt_succ_of_lt (h.answered_lt cancel urb c ha)
  before := by
    intro cancel other c ha job hjob haddress
    rcases List.mem_append.mp hjob with hold | hnew
    · exact h.before cancel other c ha job hold haddress
    · rw [List.mem_singleton.mp hnew]
      exact h.answered_lt cancel other c ha
  answers := h.answers

theorem UrbsInTurn.shrink {u u' : Urbs} (h : UrbsInTurn u) (hjobs : u'.jobs.Sublist u.jobs)
    (hcancels : u'.cancels = u.cancels) (hanswers : u'.answers = u.answers) :
    UrbsInTurn u' where
  jobs := h.jobs.sublist hjobs
  jobs_lt := by
    intro job hjob
    rw [hcancels]
    exact h.jobs_lt job (hjobs.subset hjob)
  answered_lt := by
    rw [hcancels, hanswers]
    exact h.answered_lt
  before := by
    rw [hanswers]
    intro cancel urb c ha job hjob
    exact h.before cancel urb c ha job (hjobs.subset hjob)
  answers := by
    rw [hanswers]
    exact h.answers

theorem UrbsInTurn.put {u : Urbs} (h : UrbsInTurn u) {a : Answer}
    (hlt : forall cancel urb c, a = Answer.ret cancel urb c -> cancel < u.cancels)
    (hjobs : forall cancel urb c, a = Answer.ret cancel urb c -> forall job, job ∈ u.jobs ->
      urb.address = job.urb.address -> cancel < job.cancel)
    (hlast : forall b, b ∈ u.answers -> InTurn b a) : UrbsInTurn (u.put a) := by
  unfold Urbs.put
  split
  · exact h
  · exact
      { jobs := h.jobs
        jobs_lt := h.jobs_lt
        answered_lt := by
          intro cancel urb c ha
          rcases List.mem_append.mp ha with hold | hnew
          · exact h.answered_lt cancel urb c hold
          · exact hlt cancel urb c (List.mem_singleton.mp hnew).symm
        before := by
          intro cancel urb c ha
          rcases List.mem_append.mp ha with hold | hnew
          · exact h.before cancel urb c hold
          · exact hjobs cancel urb c (List.mem_singleton.mp hnew).symm
        answers := by
          apply List.pairwise_append.mpr
          refine ⟨h.answers, List.pairwise_singleton _ _, ?_⟩
          intro b hb other hother
          rw [List.mem_singleton.mp hother]
          exact hlast b hb }

theorem UrbsInTurn.unlink {u : Urbs} (h : UrbsInTurn u) (seqnum target : UInt32) :
    UrbsInTurn (u.unlink seqnum target) := by
  have hnone : forall cancel urb c,
      Answer.unlink seqnum target (u.pending.lookup target) ≠ Answer.ret cancel urb c := by
    intro cancel urb c heq
    cases heq
  apply UrbsInTurn.put
  · exact h.shrink (List.Sublist.refl _) rfl rfl
  · exact fun cancel urb c heq => absurd heq (hnone cancel urb c)
  · exact fun cancel urb c heq => absurd heq (hnone cancel urb c)
  · intro b _
    cases b <;> exact trivial

theorem UrbsInTurn.answer {u : Urbs} (h : UrbsInTurn u) {front back : List Job} {job : Job}
    (hjobs : u.jobs = front ++ job :: back)
    (hfront : forall other, other ∈ front -> other.urb.address ≠ job.urb.address)
    (c : Completion) :
    UrbsInTurn ((takeOut u front job back).put (Answer.ret job.cancel job.urb c)) := by
  have hmem : job ∈ u.jobs := hjobs ▸ List.mem_append_right _ List.mem_cons_self
  have hsub : (front ++ back).Sublist u.jobs := by
    rw [hjobs]
    exact List.Sublist.append (List.Sublist.refl _) (List.sublist_cons_self _ _)
  have hsorted := h.jobs
  rw [hjobs] at hsorted
  have hback := (List.pairwise_cons.mp (List.pairwise_append.mp hsorted).right.left).left
  apply UrbsInTurn.put
  · exact h.shrink hsub rfl rfl
  · intro cancel urb c heq
    cases heq
    exact h.jobs_lt job hmem
  · intro cancel urb c heq other hother haddress
    cases heq
    rcases List.mem_append.mp hother with hfirst | hrest
    · exact absurd haddress.symm (hfront other hfirst)
    · exact hback other hrest
  · intro b hb
    cases b with
    | ret cancel urb c => exact h.before cancel urb c hb job hmem
    | unlink _ _ _ => exact trivial

theorem Turn.inTurn {d d' : Dialogue} (h : Turn d d') (hold : UrbsInTurn d.server) :
    UrbsInTurn d'.server := by
  have hdrop : forall {front back : List Job} {job : Job}, d.server.jobs = front ++ job :: back ->
      (front ++ back).Sublist d.server.jobs := by
    intro front back job hjobs
    rw [hjobs]
    exact List.Sublist.append (List.Sublist.refl _) (List.sublist_cons_self _ _)
  cases h with
  | takeSubmit _ => exact hold.submit _
  | takeUnlink _ => exact hold.unlink _ _
  | drop hjobs _ => exact hold.shrink (hdrop hjobs) rfl rfl
  | answer hjobs hfront _ _ => exact hold.answer hjobs hfront _
  | disconnect hjobs _ => exact hold.shrink (hdrop hjobs) rfl rfl
  | stop => exact hold.shrink (List.nil_sublist _) rfl rfl
  | _ => exact hold

/-!
# Results
-/

/-- What a caller gets is what the server has said of its transfer, or the end. -/
def Justified (d : Dialogue) (reply : Nat) : TransferResult -> Prop
  | .ok ret => exists urb c, Answer.ret reply urb c ∈ d.server.answers ∧ ret = urb.reply c
  | .error (.unlinked status) => status = -Server.econnreset ∧
      exists u t, Answer.unlink u t (some reply) ∈ d.server.answers
  | .error (.disconnected reason) => d.client.state.closed = some reason
  | .error (.invalid _) => False

def Dialogue.Honest (d : Dialogue) : Prop :=
  forall reply result, (reply, result) ∈ d.client.sent -> Justified d reply result

theorem Turn.answers {d d' : Dialogue} (h : Turn d d') :
    exists new, d'.server.answers = d.server.answers ++ new := by
  cases h with
  | takeUnlink _ => exact ⟨_, unlink_answers _ _ _⟩
  | answer _ _ _ _ => exact ⟨_, put_answers _ _⟩
  | _ => exact ⟨[], (List.append_nil _).symm⟩

theorem Turn.closed_after {d d' : Dialogue} (h : Turn d d') {reason : String}
    (hclosed : d.client.state.closed = some reason) :
    d'.client.state.closed = some reason := by
  cases h with
  | close other =>
      show (d.client.close other).state.closed = _
      unfold Shared.close
      rw [hclosed]
      exact hclosed
  | readUnlink _ => exact (finishUnlink_closed d.client _).trans hclosed
  | lateUnlink ret _ => exact (finishUnlink_closed d.client ret).trans hclosed
  | _ => exact hclosed

theorem Justified.mono {d d' : Dialogue} {reply : Nat} {result : TransferResult}
    (hold : Justified d reply result) (h : Turn d d') : Justified d' reply result := by
  rcases h.answers with ⟨new, hanswers⟩
  have hmem : forall {a : Answer}, a ∈ d.server.answers -> a ∈ d'.server.answers := by
    intro a ha
    rw [hanswers]
    exact List.mem_append_left _ ha
  cases result with
  | ok ret =>
      rcases hold with ⟨urb, c, ha, hret⟩
      exact ⟨urb, c, hmem ha, hret⟩
  | error e =>
      cases e with
      | unlinked status =>
          rcases hold with ⟨hstatus, u, t, ha⟩
          exact ⟨hstatus, u, t, hmem ha⟩
      | disconnected reason => exact h.closed_after hold
      | invalid text => exact hold

inductive Sent (d d' : Dialogue) : Prop where
  | none : d'.client.sent = d.client.sent -> Sent d d'
  | ret {cancel : Nat} {urb : Urb} {c : Completion} {rest : List Answer} :
      d.unread = Answer.ret cancel urb c :: rest ->
      d'.client.sent = (cancel, .ok (urb.reply c)) :: d.client.sent ->
      readsOf d'.client = readsOf d.client + 1 -> Sent d d'
  | unlink {u t : UInt32} {cancel : Nat} {rest : List Answer} :
      d.unread = Answer.unlink u t (some cancel) :: rest ->
      d'.client.sent =
        (cancel, .error (.unlinked (unlinkStatus (some cancel)))) :: d.client.sent ->
      Sent d d'
  | close (reason : String) (entries : List (Nat × TransferResult)) :
      d'.client.state.closed = some reason ->
      d'.client.sent = entries ++ d.client.sent ->
      (forall e, e ∈ entries -> e.2 = .error (.disconnected reason)) -> Sent d d'

theorem finishSubmit_late {s : Shared} (htables : s.state.TablesOk)
    (hclosed : s.state.closed.isSome = true) (ret : RetSubmit) :
    (s.finishSubmit ret).sent = s.sent := by
  unfold Shared.finishSubmit
  dsimp only
  rw [(htables.closed_empty hclosed).left]
  rfl

theorem finishUnlink_late {s : Shared} (htables : s.state.TablesOk)
    (hclosed : s.state.closed.isSome = true) (ret : RetUnlink) :
    (s.finishUnlink ret).sent = s.sent := by
  have hnone : s.state.unlinks.lookup ret.seqnum = none := by
    rw [(htables.closed_empty hclosed).right]
    rfl
  unfold Shared.finishUnlink
  dsimp only
  rw [hnone]

theorem Turn.sent {d d' : Dialogue} (h : Turn d d') (hok : d.Ok) : Sent d d' := by
  have htables := hok.sound.replies.tables
  cases h with
  | close reason =>
      cases hclosed : d.client.state.closed with
      | some earlier =>
          apply Sent.none
          show (d.client.close reason).sent = _
          unfold Shared.close
          rw [hclosed]
      | none =>
          apply Sent.close reason (d.client.state.submits.entries.map
            fun e => (e.2.reply, .error (.disconnected reason)))
          · show (d.client.close reason).state.closed = _
            unfold Shared.close
            rw [hclosed]
          · show (d.client.close reason).sent = _
            unfold Shared.close
            rw [hclosed]
          · intro e he
            rcases List.mem_map.mp he with ⟨entry, _, rfl⟩
            rfl
  | @readRet cancel urb c rest hunread =>
      cases hclosed : d.client.state.closed with
      | some reason =>
          apply Sent.none
          exact finishSubmit_late htables (by rw [hclosed]; rfl) _
      | none =>
          have hmem : Answer.ret cancel urb c ∈ d.unread := hunread ▸ List.mem_cons_self
          rcases hok.agrees.held hclosed _ cancel (Dialogue.held_unread hmem rfl) with
            ⟨p, hp, rfl⟩
          apply Sent.ret hunread
          · have hlook : d.client.state.submits.lookup (urb.reply c).seqnum = some p := hp
            show (d.client.finishSubmit (urb.reply c)).sent = _
            unfold Shared.finishSubmit
            dsimp only
            rw [hlook]
          · exact readsOf_cons (s := d.client) (e := Client.Event.received (urb.reply c)) rfl
  | @readUnlink u t found rest hunread =>
      cases hclosed : d.client.state.closed with
      | some reason =>
          apply Sent.none
          exact finishUnlink_late htables (by rw [hclosed]; rfl) _
      | none =>
          cases hok.agrees.unlinked hok.sound hclosed hunread with
          | cancelled p _ _ _ _ hsent => exact Sent.unlink hunread hsent
          | missed _ _ hsent => exact Sent.none hsent
  | lateRet ret hclosed => exact Sent.none (finishSubmit_late htables hclosed ret)
  | lateUnlink ret hclosed => exact Sent.none (finishUnlink_late htables hclosed ret)
  | _ => exact Sent.none rfl

theorem Turn.honest {d d' : Dialogue} (h : Turn d d') (hok : d.Ok) (hold : d.Honest) :
    d'.Honest := by
  have hkept : forall reply result, (reply, result) ∈ d.client.sent ->
      Justified d' reply result :=
    fun reply result hmem => (hold reply result hmem).mono h
  rcases h.answers with ⟨new, hanswers⟩
  have hunread : forall {a : Answer} {rest : List Answer}, d.unread = a :: rest ->
      a ∈ d'.server.answers := by
    intro a rest heq
    rw [hanswers]
    exact List.mem_append_left _ (Dialogue.mem_unread (heq ▸ List.mem_cons_self))
  intro reply result hmem
  cases h.sent hok with
  | none hsent =>
      rw [hsent] at hmem
      exact hkept reply result hmem
  | ret hhead hsent _ =>
      rw [hsent] at hmem
      rcases List.mem_cons.mp hmem with hnew | hmem
      · cases hnew
        exact ⟨_, _, hunread hhead, rfl⟩
      · exact hkept reply result hmem
  | unlink hhead hsent =>
      rw [hsent] at hmem
      rcases List.mem_cons.mp hmem with hnew | hmem
      · cases hnew
        exact ⟨rfl, _, _, hunread hhead⟩
      · exact hkept reply result hmem
  | close reason entries hclosed hsent hentries =>
      rw [hsent] at hmem
      rcases List.mem_append.mp hmem with hnew | hmem
      · have hresult : result = _ := hentries _ hnew
        rw [hresult]
        exact hclosed
      · exact hkept reply result hmem

/-!
# The order of results
-/

def retChannel? : Answer -> Option Nat
  | Answer.ret cancel _ _ => some cancel
  | Answer.unlink _ _ _ => none

def completed? : Nat × TransferResult -> Option Nat
  | (reply, .ok _) => some reply
  | (_, .error _) => none

/-- The reply channels of the transfers that have completed, oldest first. -/
def delivered (s : Shared) : List Nat :=
  s.sent.reverse.filterMap completed?

def Dialogue.Delivers (d : Dialogue) : Prop :=
  (delivered d.client).Sublist
    ((d.server.answers.take (readsOf d.client)).filterMap retChannel?)

theorem Turn.reads {d d' : Dialogue} (h : Turn d d') :
    readsOf d.client ≤ readsOf d'.client := by
  have hcons : forall {s : Shared} {e : Client.Event}, s.log = e :: d.client.log ->
      readsOf d.client ≤ readsOf s := by
    intro s e hlog
    rw [readsOf_cons hlog]
    exact Nat.le_add_right _ _
  cases h with
  | submit _ _ _ _ => exact hcons rfl
  | unlink _ _ _ _ _ => exact hcons rfl
  | close reason => exact Nat.le_of_eq (close_reads d.client reason).symm
  | readRet _ => exact hcons rfl
  | readUnlink _ => exact hcons (d.client.finishUnlink_log _)
  | lateRet ret _ => exact hcons rfl
  | lateUnlink ret _ => exact hcons (d.client.finishUnlink_log ret)
  | _ => exact Nat.le_refl _

theorem take_sublist_take {α : Type} {xs : List α} (new : List α) {n m : Nat} (h : n ≤ m) :
    (xs.take n).Sublist ((xs ++ new).take m) := by
  rw [List.take_append]
  exact ((List.take_prefix_take_left h).sublist).trans (List.sublist_append_left _ _)

theorem Turn.delivers {d d' : Dialogue} (h : Turn d d') (hok : d.Ok) (hold : d.Delivers) :
    d'.Delivers := by
  rcases h.answers with ⟨new, hanswers⟩
  have hkept : (delivered d.client).Sublist
      ((d'.server.answers.take (readsOf d'.client)).filterMap retChannel?) := by
    rw [hanswers]
    exact hold.trans ((take_sublist_take new h.reads).filterMap _)
  unfold Dialogue.Delivers
  cases h.sent hok with
  | none hsent =>
      unfold delivered
      rw [hsent]
      exact hkept
  | @ret cancel urb c rest hhead hsent hreads =>
      have hnext : (d'.server.answers.take (readsOf d'.client)).filterMap retChannel? =
          (d.server.answers.take (readsOf d.client)).filterMap retChannel? ++ [cancel] := by
        have hread := take_succ hhead
        have hlength : readsOf d.client + 1 ≤ d.server.answers.length :=
          (drop_cons_next hhead).left
        rw [hanswers, hreads, List.take_append_of_le_length hlength, hread,
          List.filterMap_append]
        rfl
      unfold delivered
      rw [hnext, hsent, List.reverse_cons, List.filterMap_append]
      exact List.Sublist.append hold (List.Sublist.refl _)
  | unlink _ hsent =>
      unfold delivered
      rw [hsent, List.reverse_cons, List.filterMap_append]
      exact (List.append_nil _).symm ▸ hkept
  | close reason entries _ hsent hentries =>
      have hnone : entries.reverse.filterMap completed? = [] := by
        apply List.filterMap_eq_nil_iff.mpr
        rintro ⟨reply, result⟩ he
        have hresult : result = _ := hentries _ (List.mem_reverse.mp he)
        rw [hresult]
        rfl
      unfold delivered
      rw [hsent, List.reverse_append, List.filterMap_append, hnone, List.append_nil]
      exact hkept

/-- Of two channels of one address, the one created first comes first. -/
def ChannelsInTurn (s : Shared) (first second : Nat) : Prop :=
  forall urb urb', IssuedAs s first urb -> IssuedAs s second urb' ->
    urb.address = urb'.address -> first < second

/-- Of two completions for one address, that of the transfer submitted first comes first. -/
theorem Dialogue.Ok.in_turn {d : Dialogue} (hok : d.Ok) (hturn : UrbsInTurn d.server)
    (hdelivers : d.Delivers) : (delivered d.client).Pairwise (ChannelsInTurn d.client) := by
  have hissued : forall {channel : Nat} {urb : Urb} {c : Completion} {other : Urb},
      Answer.ret channel urb c ∈ d.server.answers -> IssuedAs d.client channel other ->
      urb = other := by
    rintro channel urb c other ha ⟨cmd, hcmd, rfl⟩
    rcases (hok.sound.answers_issued channel urb c ha).right with ⟨cmd', hcmd', rfl⟩
    rw [hok.sound.replies.submitted_injective channel cmd cmd' hcmd hcmd']
  have hanswers : (d.server.answers.filterMap retChannel?).Pairwise
      (ChannelsInTurn d.client) := by
    apply List.pairwise_filterMap.mpr
    apply hturn.answers.imp_of_mem
    intro a b ha hb hpair first hfirst second hsecond urb urb' hurb hurb' haddress
    cases a with
    | unlink _ _ _ => cases hfirst
    | ret cancel given c =>
        cases b with
        | unlink _ _ _ => cases hsecond
        | ret cancel' given' c' =>
            cases hfirst
            cases hsecond
            have hleft := hissued ha hurb
            have hright := hissued hb hurb'
            subst hleft
            subst hright
            exact hpair haddress
  exact hanswers.sublist (hdelivers.trans ((List.take_sublist _ _).filterMap _))

/-!
# Over a run of the dialogue
-/

structure Dialogue.Delivered (d : Dialogue) : Prop where
  ok : d.Ok
  arrived : d.Arrived
  turns : UrbsInTurn d.server
  honest : d.Honest
  delivers : d.Delivers

theorem Dialogue.start_delivered (devid : UInt32) : (Dialogue.start devid).Delivered where
  ok := Dialogue.start_ok devid
  arrived := rfl
  turns := initial_inTurn
  honest := by
    intro reply result hmem
    cases hmem
  delivers := List.nil_sublist _

theorem Turn.delivered {d d' : Dialogue} (h : Turn d d') (hold : d.Delivered) :
    d'.Delivered where
  ok := h.ok hold.ok
  arrived := h.arrived hold.ok.sound hold.arrived
  turns := h.inTurn hold.turns
  honest := h.honest hold.ok hold.honest
  delivers := h.delivers hold.ok hold.delivers

theorem System.Run.delivered {device : ExportedDevice} {endpoints : List (UInt8 × UInt8)}
    {steps : List Step} (h : System.Run device endpoints steps)
    (hdevnum : device.devnum.toNat < 65536) :
    (System.after device endpoints steps).dialogue.Delivered := by
  rcases h.dialogue hdevnum with ⟨moves, hmoves, hend⟩
  rw [hend]
  exact invariant_of_guarded (fun d m hm hold => (Dialogue.step_turn hm).delivered hold)
    hmoves (Dialogue.start_delivered device.devid)

/-!
# Results
-/

/-- What the result on a reply channel says about the transfer that it is for. -/
def System.Answered (l : System) (reply : Nat) : TransferResult -> Prop
  | .ok ret => exists cmd c, Client.Event.submitted reply cmd ∈ l.client.shared.log ∧
      Answer.ret reply (urbOf cmd) c ∈ l.server.urbs.answers ∧ ret = (urbOf cmd).reply c
  | .error (.unlinked status) => status = -Server.econnreset ∧
      exists cmd u, Client.Event.submitted reply cmd ∈ l.client.shared.log ∧
        Answer.unlink u cmd.seqnum (some reply) ∈ l.server.urbs.answers ∧
        forall urb c, Answer.ret reply urb c ∉ l.server.urbs.answers
  | .error (.disconnected reason) => l.client.shared.state.closed = some reason
  | .error (.invalid _) => False

theorem Dialogue.Sound.answer_once {d : Dialogue} (hok : d.Sound) {a b : Answer} {c : Nat}
    (ha : a ∈ d.server.answers) (hb : b ∈ d.server.answers)
    (hac : answerChannel? a = some c) (hbc : answerChannel? b = some c) : a = b := by
  have hchannels := hok.channels
  unfold Dialogue.channels at hchannels
  have hanswers := (List.nodup_append.mp (List.nodup_append.mp hchannels).right.left).right.left
  have hpairs := List.pairwise_filterMap.mp hanswers
  by_contra hne
  have hsymm : Std.Symm fun a b : Answer => forall x, answerChannel? a = some x ->
      forall y, answerChannel? b = some y -> x ≠ y :=
    ⟨fun _ _ h x hx y hy heq => h y hy x hx heq.symm⟩
  exact hpairs.forall ha hb hne c hac c hbc rfl

/-- What a caller gets is an answer to its own transfer, or says that the session is over. -/
theorem System.answered {l : System} (h : l.dialogue.Delivered) {reply : Nat}
    {result : TransferResult} (hsent : (reply, result) ∈ l.client.shared.sent) :
    l.Answered reply result := by
  have hsound := h.ok.sound
  have hjustified := h.honest reply result hsent
  cases result with
  | ok ret =>
      rcases hjustified with ⟨urb, c, ha, hret⟩
      rcases (hsound.answers_issued reply urb c ha).right with ⟨cmd, hcmd, rfl⟩
      exact ⟨cmd, c, hcmd, ha, hret⟩
  | error e =>
      cases e with
      | unlinked status =>
          rcases hjustified with ⟨hstatus, u, t, ha⟩
          rcases hsound.cancelled_issued u t reply ha with ⟨urb, ⟨cmd, hcmd, rfl⟩, rfl⟩
          refine ⟨hstatus, cmd, u, hcmd, ha, ?_⟩
          intro urb c hret
          cases hsound.answer_once ha hret rfl rfl
      | disconnected reason => exact hjustified
      | invalid text => exact hjustified

end Link
end UsbIp
