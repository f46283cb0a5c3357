import UsbIp.Link.Runs

/-!
# Numbers before the counter wraps

A command may not get the number of something that is still under way, and
nothing in the client looks at what is under way.  What keeps it from happening
is the counter: as long as it has not wrapped, the number of a command is how
many were issued up to it, and so it belongs to no other.
-/

namespace UsbIp
namespace Link

open Foundation
open Protocol
open Client (Shared SubmitRequest Session ExportedDevice)
open Server (Urb Urbs Answer Outcome Completion Job Connection urbOf unlinkStatus)

/-!
# The client's numbers
-/

/-- Commands are numbered from 1 on, and no unlink mentions a number beyond the counter. -/
structure Numbered (s : Shared) : Prop where
  next : s.state.nextSeqnum.toNat = (ordersOf s).length
  numbers : (ordersOf s).map (fun o => o.seqnum.toNat) = List.range' 1 (ordersOf s).length
  targets : forall o, o ∈ ordersOf s -> forall t, o.target? = some t ->
    t.toNat ≤ (ordersOf s).length

theorem initial_numbered (devid : UInt32) : Numbered (Shared.initial devid) where
  next := rfl
  numbers := rfl
  targets := by
    intro o ho
    cases ho

theorem Numbered.le {s : Shared} (h : Numbered s) {o : Order} (ho : o ∈ ordersOf s) :
    o.seqnum.toNat ≤ (ordersOf s).length := by
  have hmem : o.seqnum.toNat ∈ (ordersOf s).map fun o => o.seqnum.toNat :=
    List.mem_map.mpr ⟨o, ho, rfl⟩
  rw [h.numbers, List.mem_range'_1] at hmem
  omega

theorem mem_ordersOf_unlink {s : Shared} {reply : Nat} {cmd : CmdUnlink}
    (h : Client.Event.unlinking reply cmd ∈ s.log) : Order.unlink reply cmd ∈ ordersOf s :=
  List.mem_filterMap.mpr ⟨_, List.mem_reverse.mpr h, rfl⟩

theorem repliesOk_of_sent {s : Shared} (h : (sent s).RepliesOk) : s.RepliesOk where
  tables := h.tables
  submitted_lt := h.submitted_lt
  sent_lt := h.sent_lt
  pending := h.pending
  reply_injective := h.reply_injective
  submitted_injective := h.submitted_injective
  unlink_of := h.unlink_of
  outcome := h.outcome

theorem Numbered.submits_le {s : Shared} (h : Numbered s) (hok : s.RepliesOk) {n : UInt32}
    (hn : n ∈ s.state.submits) : n.toNat ≤ (ordersOf s).length := by
  rcases Table.mem_iff_lookup.mp hn with ⟨p, hp⟩
  rcases hok.pending n p hp with ⟨cmd, rfl, hcmd⟩
  exact h.le (mem_ordersOf_submit.mpr hcmd)

theorem Numbered.unlinks_le {s : Shared} (h : Numbered s) (hok : s.RepliesOk) {u : UInt32}
    (hu : u ∈ s.state.unlinks) : u.toNat ≤ (ordersOf s).length := by
  rcases Table.mem_iff_lookup.mp hu with ⟨t, ht⟩
  rcases Table.mem_iff_lookup.mp (hok.tables.target_pending u t ht) with ⟨p, hp⟩
  rcases hok.unlink_of u t p ht hp with ⟨unlink, cmd, rfl, _, hevents⟩
  exact h.le (mem_ordersOf_unlink (hevents.subset List.mem_cons_self))

theorem Numbered.next_toNat {s : Shared} (h : Numbered s)
    (hfew : (ordersOf s).length + 1 < UInt32.size) :
    (s.state.nextSeqnum + 1).toNat = (ordersOf s).length + 1 := by
  rw [UInt32.toNat_add, h.next]
  exact Nat.mod_eq_of_lt hfew

theorem Numbered.free {s : Shared} (h : Numbered s) (hok : s.RepliesOk)
    (hfew : (ordersOf s).length + 1 < UInt32.size) :
    s.state.Free (s.state.nextSeqnum + 1) := by
  have hnext := h.next_toNat hfew
  refine ⟨?_, ?_, ?_⟩
  · intro hzero
    rw [hzero] at hnext
    cases hnext
  · intro hmem
    have hle := h.submits_le hok hmem
    omega
  · intro hmem
    have hle := h.unlinks_le hok hmem
    omega

theorem Numbered.firstFree {s : Shared} (h : Numbered s) (hok : s.RepliesOk)
    (hfew : (ordersOf s).length + 1 < UInt32.size) {n : UInt32}
    (hn : s.state.FirstFree n) : n.toNat = (ordersOf s).length + 1 := by
  rw [hn.unique (Client.State.firstFree_next (h.free hok hfew))]
  exact h.next_toNat hfew

theorem ordersOf_order {s s' : Shared} {e : Client.Event} {o : Order}
    (hlog : s'.log = e :: s.log) (horder : order? e = some o) :
    ordersOf s' = ordersOf s ++ [o] := by
  rw [ordersOf_cons hlog, horder]
  rfl

theorem Numbered.more {s s' : Shared} (h : Numbered s) {o : Order}
    (horders : ordersOf s' = ordersOf s ++ [o])
    (hnext : s'.state.nextSeqnum = o.seqnum)
    (hseqnum : o.seqnum.toNat = (ordersOf s).length + 1)
    (htarget : forall t, o.target? = some t -> t.toNat ≤ (ordersOf s).length) :
    Numbered s' := by
  have hlength : (ordersOf s').length = (ordersOf s).length + 1 := by
    rw [horders, List.length_append]
    rfl
  constructor
  · rw [hnext, hseqnum, hlength]
  · rw [hlength, horders, List.map_append, h.numbers, List.range'_1_concat, List.map_singleton,
      hseqnum, Nat.add_comm]
  · intro other hother t ht
    rw [hlength]
    rw [horders] at hother
    rcases List.mem_append.mp hother with hold | hnew
    · exact Nat.le_succ_of_le (h.targets other hold t ht)
    · rw [List.mem_singleton.mp hnew] at ht
      exact Nat.le_succ_of_le (htarget t ht)

theorem Numbered.same {s s' : Shared} (h : Numbered s) (horders : ordersOf s' = ordersOf s)
    (hnext : s'.state.nextSeqnum = s.state.nextSeqnum) : Numbered s' where
  next := by
    rw [hnext, horders]
    exact h.next
  numbers := by
    rw [horders]
    exact h.numbers
  targets := by
    rw [horders]
    exact h.targets

theorem close_next (s : Shared) (reason : String) :
    (s.close reason).state.nextSeqnum = s.state.nextSeqnum := by
  unfold Shared.close
  split <;> rfl

theorem LocalSection.numbered {s : Session} {shared : Shared} (h : LocalSection s shared)
    (hok : s.shared.RepliesOk) (hold : Numbered s.shared)
    (hfew : (ordersOf shared).length < UInt32.size) :
    Numbered shared ∧ forall o, o ∈ newOrders s.shared shared ->
      (ordersOf s.shared).length < o.seqnum.toNat := by
  have hquiet : ordersOf shared = ordersOf s.shared ->
      shared.state.nextSeqnum = s.shared.state.nextSeqnum ->
      Numbered shared ∧ forall o, o ∈ newOrders s.shared shared ->
        (ordersOf s.shared).length < o.seqnum.toNat := by
    intro horders hnext
    refine ⟨hold.same horders hnext, ?_⟩
    rw [newOrders_of_eq horders]
    intro o ho
    cases ho
  have hmore : forall o : Order, ordersOf shared = ordersOf s.shared ++ [o] ->
      shared.state.nextSeqnum = o.seqnum -> s.shared.state.FirstFree o.seqnum ->
      (forall t, o.target? = some t -> t ∈ s.shared.state.submits) ->
      Numbered shared ∧ forall o, o ∈ newOrders s.shared shared ->
        (ordersOf s.shared).length < o.seqnum.toNat := by
    intro o horders hnext hfirst htarget
    rw [horders, List.length_append] at hfew
    have hseqnum := hold.firstFree hok hfew hfirst
    refine ⟨hold.more horders hnext hseqnum ?_, ?_⟩
    · intro t ht
      exact hold.submits_le hok (htarget t ht)
    · unfold newOrders
      rw [horders, List.drop_left]
      intro other hother
      rw [List.mem_singleton.mp hother, hseqnum]
      exact Nat.lt_succ_self _
  cases h with
  | frames frames => exact hquiet rfl rfl
  | @submit req _ _ hsub =>
      rcases Shared.submit_cases hsub with ⟨_, _, rfl, _⟩ | ⟨n, _, _, _, hfirst, rfl⟩
      · exact hquiet rfl rfl
      · apply hmore (Order.submit s.shared.channels (req.command n s.shared.devid))
          (ordersOf_order rfl rfl) rfl hfirst
        intro t ht
        cases ht
  | @unlink target _ hun =>
      rcases Shared.unlink_cases hun with ⟨rfl, _⟩ | ⟨p, n, hp, _, _, hfirst, rfl⟩
      · exact hquiet rfl rfl
      · apply hmore (Order.unlink p.reply
            { seqnum := n, devid := s.shared.devid, unlinkSeqnum := target })
          (ordersOf_order rfl rfl) rfl hfirst
        intro t ht
        cases ht
        exact Table.mem_iff_lookup.mpr ⟨p, hp⟩
  | close _ => exact hquiet (close_orders _ _) (close_next _ _)
  | fail _ => exact hquiet (close_orders _ _) (close_next _ _)

theorem ReadSection.numbered {s : Session} {shared : Shared} (h : ReadSection s shared)
    (hold : Numbered s.shared) : Numbered shared := by
  apply hold.same h.orders
  cases h with
  | same => rfl
  | ret ret => rfl
  | unlink ret =>
      unfold Shared.finishUnlink
      dsimp only
      split
      · rfl
      · split <;> rfl

/-!
# Both sides
-/

/-- The counter is beyond every number on its way. -/
structure System.Counted (l : System) : Prop where
  client : Numbered l.client.shared
  answers : forall a, a ∈ l.server.urbs.answers ->
    a.seqnum.toNat ≤ (ordersOf l.client.shared).length

theorem System.Counted.unused {l : System} (h : l.Counted) (hl : l.Sync) {n : UInt32}
    (hn : (ordersOf l.client.shared).length < n.toNat) : l.dialogue.Unused n where
  orders := by
    rintro o ho rfl
    have hle := h.client.le (Dialogue.mem_orders ho)
    omega
  targets := by
    intro o ho ht
    have hle := h.client.targets o (Dialogue.mem_orders ho) n ht
    omega
  jobs := by
    rintro job hjob rfl
    rcases hl.ok.sound.jobs_issued job hjob with ⟨cmd, hcmd, hurb⟩
    have hle := h.client.le (mem_ordersOf_submit.mpr hcmd)
    rw [hurb] at hn
    exact absurd hn (Nat.not_lt.mpr hle)
  unread := by
    rintro a ha rfl
    have hle := h.answers a (Dialogue.mem_unread ha)
    omega

/--
The client asks for nothing that the server complains about and has issued fewer
commands than there are numbers, and a device returns no more than it was asked
for.
-/
def System.Few (l : System) : Step -> Prop
  | Step.client st =>
      (ordersOf (l.client.step st).shared).length + 1 < UInt32.size ∧
        forall o, o ∈ newOrders l.client.shared (l.client.step st).shared ->
          OrderPolite l.server.endpoints o
  | Step.server (Server.Step.finish address outcome) =>
      outcomeFits l.server.urbs address outcome
  | _ => True

instance (l : System) (st : Step) : Decidable (l.Few st) :=
  match st with
  | Step.client st =>
      inferInstanceAs (Decidable
        ((ordersOf (l.client.step st).shared).length + 1 < UInt32.size ∧
          forall o, o ∈ newOrders l.client.shared (l.client.step st).shared ->
            OrderPolite l.server.endpoints o))
  | Step.server (Server.Step.finish address outcome) =>
      inferInstanceAs (Decidable (outcomeFits l.server.urbs address outcome))
  | Step.server (Server.Step.receive _) => isTrue trivial
  | Step.server Server.Step.readFails => isTrue trivial
  | Step.server Server.Step.read => isTrue trivial
  | Step.server (Server.Step.skip _) => isTrue trivial
  | Step.server Server.Step.write => isTrue trivial
  | Step.server (Server.Step.writeFails _) => isTrue trivial
  | Step.toServer _ => isTrue trivial
  | Step.toClient _ => isTrue trivial
  | Step.hangUp => isTrue trivial

theorem System.Counted.issued {l : System} (h : l.Counted) (hl : l.Sync) {st : Client.Step}
    (hown : isOwn st = true)
    (hfew : (ordersOf (l.client.step st).shared).length < UInt32.size) :
    Numbered (l.client.step st).shared ∧
      forall o, o ∈ newOrders l.client.shared (l.client.step st).shared ->
        (ordersOf l.client.shared).length < o.seqnum.toNat := by
  cases hreads : st.reads with
  | true =>
      have hsection := step_reads l.client hreads
      refine ⟨hsection.numbered h.client, ?_⟩
      rw [newOrders_of_eq hsection.orders]
      intro o ho
      cases ho
  | false =>
      exact (step_local l.client hown hreads).numbered
        (repliesOk_of_sent hl.ok.sound.replies) h.client hfew

theorem step_notOwn (s : Session) {st : Client.Step} (hown : isOwn st = false) :
    (s.step st).shared = s.shared := by
  cases st with
  | receive bytes =>
      simp only [Session.step]
      split <;> rfl
  | hangUp => rfl
  | _ => cases hown

theorem System.Few.allowed {l : System} {st : Step} (h : l.Few st) (hl : l.Sync)
    (hcounted : l.Counted) : l.Allowed st := by
  cases st with
  | client st =>
      intro o ho
      refine ⟨?_, h.right o ho⟩
      cases hown : isOwn st with
      | true => exact hcounted.unused hl ((hcounted.issued hl hown (Nat.lt_of_succ_lt h.left)).right o ho)
      | false =>
          rw [step_notOwn l.client hown, newOrders_of_eq rfl] at ho
          cases ho
  | server st => cases st <;> exact h
  | _ => exact trivial

theorem Turn.answers_numbered {d d' : Dialogue} (h : Turn d d') (hok : d.Ok) {bound : Nat}
    (hnumbers : forall o, o ∈ ordersOf d.client -> o.seqnum.toNat ≤ bound)
    (hold : forall a, a ∈ d.server.answers -> a.seqnum.toNat ≤ bound) :
    forall a, a ∈ d'.server.answers -> a.seqnum.toNat ≤ bound := by
  have hadded : forall {u : Urbs} {b : Answer}, b.seqnum.toNat ≤ bound ->
      forall a, a ∈ d.server.answers ++ added u b -> a.seqnum.toNat ≤ bound := by
    intro u b hb a ha
    rcases List.mem_append.mp ha with hmem | hnew
    · exact hold a hmem
    · unfold added at hnew
      split at hnew
      · cases hnew
      · rw [List.mem_singleton.mp hnew]
        exact hb
  intro a ha
  cases h with
  | @takeUnlink reply cmd rest horders =>
      dsimp only at ha
      rw [unlink_answers] at ha
      have hmem : Order.unlink reply cmd ∈ ordersOf d.client :=
        Dialogue.mem_orders (horders ▸ List.mem_cons_self)
      exact hadded (b := Answer.unlink cmd.seqnum _ _) (hnumbers _ hmem) a ha
  | @answer front back job cancel c hjobs _ _ _ =>
      dsimp only at ha
      rw [put_answers] at ha
      have hjob : job ∈ d.server.jobs := hjobs ▸ List.mem_append_right _ List.mem_cons_self
      rcases hok.sound.jobs_issued job hjob with ⟨cmd, hcmd, hurb⟩
      have hle := hnumbers _ (mem_ordersOf_submit.mpr hcmd)
      refine hadded (b := Answer.ret job.cancel job.urb c) ?_ a ha
      show job.urb.seqnum.toNat ≤ bound
      rw [hurb]
      exact hle
  | _ => exact hold a ha

theorem System.Counted.step {l : System} (h : l.Counted) (hl : l.Sync) {st : Step}
    (hfew : l.Few st) : (l.step st).Counted := by
  have hturn := (hl.step (hfew.allowed hl h)).right.turn
  have hlength : (ordersOf l.client.shared).length ≤
      (ordersOf (l.step st).client.shared).length := by
    have hgrow : ordersOf (l.step st).client.shared = _ := hturn.grows
    rw [hgrow, List.length_append]
    exact Nat.le_add_right _ _
  constructor
  · cases st with
    | client st =>
        simp only [System.step]
        split
        · rename_i hown
          exact (h.issued hl hown (Nat.lt_of_succ_lt hfew.left)).left
        · exact h.client
    | server st =>
        simp only [System.step]
        split <;> exact h.client
    | toServer n => exact h.client
    | toClient n =>
        simp only [System.step]
        split
        · exact h.client
        · dsimp only
          rw [step_notOwn l.client rfl]
          exact h.client
    | hangUp =>
        simp only [System.step]
        split <;> exact h.client
  · apply hturn.answers_numbered hl.ok
    · intro o ho
      exact Nat.le_trans (h.client.le ho) hlength
    · intro a ha
      exact Nat.le_trans (h.answers a ha) hlength

theorem System.start_counted (device : ExportedDevice) (endpoints : List (UInt8 × UInt8)) :
    (System.start device endpoints).Counted where
  client := initial_numbered _
  answers := by
    intro a ha
    cases ha

theorem few_step {l : System} {st : Step} (hfew : l.Few st) (h : l.Sync ∧ l.Counted) :
    l.Allowed st ∧ (l.step st).Sync ∧ (l.step st).Counted := by
  have hallowed := hfew.allowed h.left h.right
  exact ⟨hallowed, (h.left.step hallowed).left, h.right.step h.left hfew⟩

/-- Before the counter wraps, numbers need no care. -/
theorem run_of_few {device : ExportedDevice} {endpoints : List (UInt8 × UInt8)}
    {steps : List Step} (hdevnum : device.devnum.toNat < 65536)
    (h : Guarded System.step System.Few (System.start device endpoints) steps) :
    System.Run device endpoints steps := by
  exact Guarded.weaken (I := fun l => l.Sync ∧ l.Counted) (fun _ _ => few_step) h
    ⟨System.start_sync endpoints (exportDevid_eq hdevnum), System.start_counted _ _⟩

theorem counted_of_few {device : ExportedDevice} {endpoints : List (UInt8 × UInt8)}
    {steps : List Step} (hdevnum : device.devnum.toNat < 65536)
    (h : Guarded System.step System.Few (System.start device endpoints) steps) :
    (System.after device endpoints steps).Counted :=
  (invariant_of_guarded (I := fun l => l.Sync ∧ l.Counted)
    (fun _ _ hfew hinv => (few_step hfew hinv).right) h
    ⟨System.start_sync endpoints (exportDevid_eq hdevnum),
      System.start_counted _ _⟩).right

end Link
end UsbIp
