import UsbIp.Link.Draining

/-!
# Detaching

A client that detaches unlinks everything and waits until no transfer is
pending.  It does not wait for the device: each transfer that is pending when
`unlink_all` takes its snapshot is completed or unlinked, and an unlink is
answered by the server alone.
-/

namespace UsbIp
namespace Link

open Foundation
open Protocol
open Client (Shared SubmitRequest Session ExportedDevice)
open Server (Urb Urbs Answer Outcome Completion Job Connection urbOf unlinkStatus)

/-!
# Transfers with an unlink
-/

/-- Every pending transfer has an unlink under way, or is one of these targets. -/
def Unlinking (s : Shared) (targets : List UInt32) : Prop :=
  forall n, n ∈ s.state.submits ->
    (exists u, s.state.unlinks.lookup u = some n) ∨ n ∈ targets

theorem Unlinking.of_less {s s' : Shared} {targets : List UInt32} (h : Unlinking s targets)
    (hsubmits : forall n, n ∈ s'.state.submits -> n ∈ s.state.submits)
    (hunlinks : forall u n, n ∈ s'.state.submits -> s.state.unlinks.lookup u = some n ->
      s'.state.unlinks.lookup u = some n) : Unlinking s' targets := by
  intro n hn
  rcases h n (hsubmits n hn) with ⟨u, hu⟩ | hmem
  · exact Or.inl ⟨u, hunlinks u n hn hu⟩
  · exact Or.inr hmem

theorem Unlinking.close {s : Shared} {targets : List UInt32} (h : Unlinking s targets)
    (reason : String) : Unlinking (s.close reason) targets := by
  unfold Shared.close
  split
  · exact h
  · intro n hn
    exact absurd hn (AList.notMem_empty n)

theorem Unlinking.finishSubmit {s : Shared} {targets : List UInt32} (h : Unlinking s targets)
    (ret : RetSubmit) : Unlinking (s.finishSubmit ret) targets := by
  have hne : forall n, n ∈ (s.finishSubmit ret).state.submits -> n ≠ ret.seqnum := by
    rintro n hn rfl
    exact (AList.mem_erase.mp hn).left rfl
  apply h.of_less
  · intro n hn
    exact (AList.mem_erase.mp hn).right
  · intro u n hn hu
    exact Table.lookup_retain_iff.mpr ⟨hu, decide_eq_true (hne n hn)⟩

theorem Unlinking.finishUnlink {s : Shared} {targets : List UInt32} (h : Unlinking s targets)
    (ret : RetUnlink) : Unlinking (s.finishUnlink ret) targets := by
  unfold Shared.finishUnlink
  dsimp only
  split
  · exact h
  · rename_i target htarget
    have hkept : forall u n, n ≠ target -> s.state.unlinks.lookup u = some n ->
        (s.state.unlinks.erase ret.seqnum).lookup u = some n := by
      intro u n hne hu
      rw [Table.lookup_erase_eq, if_neg]
      · exact hu
      · rintro rfl
        rw [htarget] at hu
        exact hne (Option.some.inj hu).symm
    split
    · rename_i hnone
      refine h.of_less (fun n hn => hn) ?_
      intro u n hn hu
      apply hkept u n _ hu
      rintro rfl
      exact AList.lookup_eq_none.mp hnone hn
    · rename_i p hp
      apply h.of_less
      · intro n hn
        exact (AList.mem_erase.mp hn).right
      · intro u n hn hu
        exact hkept u n (AList.mem_erase.mp hn).left hu

theorem registerUnlink_lookup {s : Shared} {target n u m : UInt32} {reply : Nat}
    (hfree : s.state.Free n) (hu : s.state.unlinks.lookup u = some m) :
    (s.registerUnlink target reply n
      { s.state with nextSeqnum := n }).state.unlinks.lookup u = some m := by
  have hne : u ≠ n := by
    rintro rfl
    exact hfree.right.right (Table.mem_iff_lookup.mpr ⟨m, hu⟩)
  exact (AList.lookup_insert_ne hne).trans hu

theorem Unlinking.unlink {s s' : Shared} {targets : List UInt32} (h : Unlinking s targets)
    {target : UInt32} (hun : s.unlink target = some s') : Unlinking s' targets := by
  rcases Shared.unlink_cases hun with ⟨rfl, _⟩ | ⟨p, n, _, _, _, hfirst, rfl⟩
  · exact h
  · refine h.of_less (fun n hn => hn) ?_
    intro u m _ hu
    exact registerUnlink_lookup hfirst.free hu

theorem Unlinking.unlink_head {s s' : Shared} {target : UInt32} {rest : List UInt32}
    (h : Unlinking s (target :: rest)) (hok : s.state.TablesOk)
    (hun : s.unlink target = some s') : Unlinking s' rest := by
  have hdrop : target ∉ s'.state.submits ∨
      (exists u, s'.state.unlinks.lookup u = some target) := by
    rcases Shared.unlink_cases hun with
      ⟨rfl, hnone | hclosed | hunlink⟩ | ⟨p, n, _, _, _, _, rfl⟩
    · exact Or.inl hnone
    · left
      rw [(hok.closed_empty hclosed).left]
      exact AList.notMem_empty target
    · exact Or.inr hunlink
    · exact Or.inr ⟨n, AList.lookup_insert _⟩
  intro n hn
  rcases h.unlink hun n hn with hunlink | hmem
  · exact Or.inl hunlink
  · rcases List.mem_cons.mp hmem with rfl | hrest
    · rcases hdrop with hgone | hunlink
      · exact absurd hn hgone
      · exact Or.inl hunlink
    · exact Or.inr hrest

/-!
# Threads inside `unlink_all`
-/

def remaining (threads : List (List UInt32)) (thread : Nat) : List UInt32 :=
  (threads[thread]?).getD []

/-- Every pending transfer has an unlink under way or is left to the thread. -/
def Covered (thread : Nat) (s : Session) : Prop :=
  Unlinking s.shared (remaining s.threads thread)

theorem Covered.of_threads {s s' : Session} {thread : Nat}
    (h : Unlinking s'.shared (remaining s.threads thread))
    (hthreads : s'.threads = s.threads) : Covered thread s' := by
  unfold Covered
  rw [hthreads]
  exact h

theorem withShared_threads (s : Session) (shared : Option Shared) :
    (s.withShared shared).threads = s.threads := by
  unfold Session.withShared
  split <;> rfl

theorem readerFails_threads (s : Session) (e : ProtocolError) :
    (s.readerFails e).threads = s.threads := by
  unfold Session.readerFails
  split
  · split <;> rfl
  · rfl

theorem step_reads_threads (s : Session) {st : Client.Step} (hreads : st.reads = true) :
    (s.step st).threads = s.threads := by
  cases st with
  | readHeader =>
      simp only [Session.step, Session.readHeader]
      split
      · split
        · rfl
        · rfl
        · exact readerFails_threads s _
      · rfl
  | readPayload =>
      simp only [Session.step, Session.readPayload]
      split
      · split
        · rfl
        · exact readerFails_threads s _
      · rfl
  | _ => cases hreads

theorem Covered.read {s : Session} {thread : Nat} (h : Covered thread s) {st : Client.Step}
    (hreads : st.reads = true) : Covered thread (s.step st) := by
  have hsection := step_reads s hreads
  refine Covered.of_threads ?_ (step_reads_threads s hreads)
  generalize (s.step st).shared = shared at hsection
  cases hsection with
  | same => exact h
  | ret ret => exact Unlinking.finishSubmit h ret
  | unlink ret => exact Unlinking.finishUnlink h ret

theorem Covered.unlink {s : Session} {thread : Nat} (h : Covered thread s) (target : UInt32) :
    Covered thread (s.withShared (s.shared.unlink target)) := by
  cases hun : s.shared.unlink target with
  | none => exact h
  | some shared => exact Unlinking.unlink h hun

theorem Covered.unlinkNext {s : Session} {thread : Nat} (h : Covered thread s)
    (hok : s.shared.state.TablesOk) (hnumbers : forall target, s.shared.unlink target ≠ none)
    (other : Nat) : Covered thread (s.unlinkNext other) := by
  unfold Session.unlinkNext
  split
  · rename_i target rest hother
    unfold Covered
    dsimp only
    by_cases heq : other = thread
    · subst heq
      have hleft : remaining s.threads other = target :: rest := by
        unfold remaining
        rw [hother]
        rfl
      have hnext : remaining (s.threads.set other rest) other = rest := by
        unfold remaining
        rw [List.getElem?_set_self (List.getElem?_eq_some_iff.mp hother).choose]
        rfl
      unfold Covered at h
      rw [hleft] at h
      rw [hnext]
      cases hun : s.shared.unlink target with
      | none => exact absurd hun (hnumbers target)
      | some shared => exact h.unlink_head hok hun
    · have hsame : remaining (s.threads.set other rest) thread =
          remaining s.threads thread := by
        unfold remaining
        rw [List.getElem?_set_ne heq]
      rw [hsame]
      have hnext := h.unlink target
      unfold Covered at hnext
      rw [withShared_threads] at hnext
      exact hnext
  · exact h

theorem Covered.step {s : Session} {thread : Nat} (h : Covered thread s)
    (hlt : thread < s.threads.length) (hok : s.shared.state.TablesOk)
    {st : Client.Step} (hst : forall req, st ≠ Client.Step.submit req)
    (hnumbers : forall other, st = Client.Step.unlinkNext other ->
      forall target, s.shared.unlink target ≠ none) :
    Covered thread (s.step st) ∧ thread < (s.step st).threads.length := by
  cases st with
  | submit req => exact absurd rfl (hst req)
  | unlink target =>
      refine ⟨h.unlink target, ?_⟩
      show thread < (s.withShared _).threads.length
      rw [withShared_threads]
      exact hlt
  | unlinkAll targets =>
      simp only [Session.step]
      split
      · constructor
        · unfold Covered remaining
          dsimp only
          rw [List.getElem?_append_left hlt]
          exact h
        · rw [List.length_append]
          exact Nat.lt_add_right _ hlt
      · exact ⟨h, hlt⟩
  | unlinkNext other =>
      refine ⟨h.unlinkNext hok (hnumbers other rfl) other, ?_⟩
      simp only [Session.step, Session.unlinkNext]
      split
      · rw [List.length_set]
        exact hlt
      · exact hlt
  | close => exact ⟨Unlinking.close h _, hlt⟩
  | receive bytes =>
      simp only [Session.step]
      split <;> exact ⟨h, hlt⟩
  | hangUp => exact ⟨h, hlt⟩
  | readError text =>
      simp only [Session.step]
      split <;> exact ⟨h, hlt⟩
  | readHeader =>
      refine ⟨h.read rfl, ?_⟩
      rw [step_reads_threads s rfl]
      exact hlt
  | readPayload =>
      refine ⟨h.read rfl, ?_⟩
      rw [step_reads_threads s rfl]
      exact hlt
  | readerCloses =>
      simp only [Session.step, Session.readerCloses]
      split
      · exact ⟨Unlinking.close h _, hlt⟩
      · exact ⟨h, hlt⟩
  | readerStops =>
      simp only [Session.step]
      split <;> exact ⟨h, hlt⟩
  | takeFrame =>
      simp only [Session.step, Session.takeFrame]
      split
      · exact ⟨h, hlt⟩
      · split <;> exact ⟨h, hlt⟩
      · exact ⟨h, hlt⟩
  | sealBatch =>
      simp only [Session.step]
      split <;> exact ⟨h, hlt⟩
  | writeBytes n =>
      simp only [Session.step, Session.writeBytes]
      split <;> exact ⟨h, hlt⟩
  | writerFails text =>
      simp only [Session.step, Session.writerFails]
      split
      · exact ⟨Unlinking.close h _, hlt⟩
      · exact ⟨h, hlt⟩
  | writerStops =>
      simp only [Session.step]
      split
      · split <;> exact ⟨h, hlt⟩
      · exact ⟨h, hlt⟩

/-!
# Runs without new transfers
-/

theorem Numbered.unlink_returns {s : Shared} (h : Numbered s) (hok : s.RepliesOk)
    (hfew : (ordersOf s).length + 1 < UInt32.size) (target : UInt32) :
    s.unlink target ≠ none := by
  have hnext := Client.nextSeqnum_of_firstFree
    (Client.State.firstFree_next (h.free hok hfew))
  unfold Shared.unlink
  rw [hnext]
  split
  · exact Option.some_ne_none _
  · split <;> exact Option.some_ne_none _

theorem System.step_other {l : System} {st : Step} (h : forall own, st ≠ Step.client own) :
    (l.step st).client.shared = l.client.shared ∧
      (l.step st).client.threads = l.client.threads := by
  cases st with
  | client own => exact absurd rfl (h own)
  | server st =>
      simp only [System.step]
      split <;> exact ⟨rfl, rfl⟩
  | toServer n => exact ⟨rfl, rfl⟩
  | toClient n =>
      simp only [System.step, Session.step]
      split <;> exact ⟨rfl, rfl⟩
  | hangUp =>
      simp only [System.step]
      split <;> exact ⟨rfl, rfl⟩

theorem covered_step {l : System} {thread : Nat} (hl : l.Sync) (hcounted : l.Counted)
    (h : Covered thread l.client) (hlt : thread < l.client.threads.length) {st : Step}
    (hfew : l.Few st) (hst : forall req, st ≠ Step.client (Client.Step.submit req)) :
    Covered thread (l.step st).client ∧ thread < (l.step st).client.threads.length := by
  have hother : (forall own, st ≠ Step.client own) ->
      Covered thread (l.step st).client ∧ thread < (l.step st).client.threads.length := by
    intro hne
    rcases System.step_other (l := l) hne with ⟨hshared, hthreads⟩
    unfold Covered
    rw [hshared, hthreads]
    exact ⟨h, hlt⟩
  cases st with
  | client own =>
      have hallowed := hfew.allowed hl hcounted
      simp only [System.step]
      split
      · rename_i hown
        have hreplies := repliesOk_of_sent hl.ok.sound.replies
        have hgrows : (ordersOf l.client.shared).length ≤
            (ordersOf (l.client.step own).shared).length := by
          have hmore : ordersOf (l.client.step own).shared = _ :=
            (hl.client hown hallowed).right.turn.grows
          rw [hmore, List.length_append]
          exact Nat.le_add_right _ _
        apply h.step hlt hreplies.tables
        · rintro req rfl
          exact hst req rfl
        · intro _ _
          exact hcounted.client.unlink_returns hreplies
            (Nat.lt_of_le_of_lt (Nat.succ_le_succ hgrows) hfew.left)
      · exact ⟨h, hlt⟩
  | _ => exact hother fun own heq => by cases heq

/-- A run without new transfers forgets none of the old ones. -/
theorem covered_run {thread : Nat} {during : List Step} {l : System} (hl : l.Sync)
    (hcounted : l.Counted) (h : Covered thread l.client)
    (hlt : thread < l.client.threads.length)
    (hfew : Guarded System.step System.Few l during)
    (hquiet : forall req, Step.client (Client.Step.submit req) ∉ during) :
    Covered thread (during.foldl System.step l).client := by
  induction during generalizing l with
  | nil => exact h
  | cons st rest ih =>
      rcases hfew with ⟨hguard, hrest⟩
      have hst : forall req, st ≠ Step.client (Client.Step.submit req) := by
        rintro req rfl
        exact hquiet req List.mem_cons_self
      rcases few_step hguard ⟨hl, hcounted⟩ with ⟨_, hl', hcounted'⟩
      rcases covered_step hl hcounted h hlt hguard hst with ⟨h', hlt'⟩
      exact ih hl' hcounted' h' hlt' hrest fun req hmem =>
        hquiet req (List.mem_cons_of_mem st hmem)

theorem unlinking_of_task {l : System} {targets : List UInt32}
    (h : Unlinking l.client.shared targets) {st : Step} {t : Task}
    (htask : taskOf st = some t) : Unlinking (l.step st).client.shared targets := by
  have hother : (forall own, st ≠ Step.client own) ->
      Unlinking (l.step st).client.shared targets := by
    intro hne
    rw [(System.step_other (l := l) hne).left]
    exact h
  have hreads : forall {own : Client.Step}, own.reads = true ->
      Unlinking (l.client.step own).shared targets := by
    intro own hown
    have hsection := step_reads l.client hown
    generalize (l.client.step own).shared = shared at hsection
    cases hsection with
    | same => exact h
    | ret ret => exact h.finishSubmit ret
    | unlink ret => exact h.finishUnlink ret
  cases st with
  | client own =>
      simp only [System.step]
      split
      · cases own with
        | takeFrame =>
            rcases l.client.takeFrame_shared with ⟨frames, heq⟩
            show Unlinking l.client.takeFrame.shared targets
            rw [heq]
            exact h
        | sealBatch =>
            show Unlinking (l.client.step Client.Step.sealBatch).shared targets
            simp only [Session.step]
            split <;> exact h
        | writeBytes n =>
            show Unlinking (l.client.writeBytes n).shared targets
            simp only [Session.writeBytes]
            split <;> exact h
        | readHeader => exact hreads rfl
        | readPayload => exact hreads rfl
        | _ => cases htask
      · exact h
  | _ => exact hother fun own heq => by cases heq

theorem unlinking_of_tasks {l : System} {targets : List UInt32}
    (h : Unlinking l.client.shared targets) {more : List Step}
    (honly : forall st, st ∈ more -> exists t, taskOf st = some t) :
    Unlinking (more.foldl System.step l).client.shared targets := by
  induction more generalizing l with
  | nil => exact h
  | cons st rest ih =>
      rcases honly st List.mem_cons_self with ⟨t, htask⟩
      exact ih (unlinking_of_task h htask) fun k hk => honly k (List.mem_cons_of_mem st hk)

theorem snapshot_covered {l : System} {targets : List UInt32}
    (htargets : targets.isPerm l.client.shared.state.submits.keys = true) :
    Covered l.client.threads.length
        (l.step (Step.client (Client.Step.unlinkAll targets))).client ∧
      l.client.threads.length <
        (l.step (Step.client (Client.Step.unlinkAll targets))).client.threads.length := by
  have hstep : (l.step (Step.client (Client.Step.unlinkAll targets))).client =
      { l.client with threads := l.client.threads ++ [targets] } := by
    show l.client.step (Client.Step.unlinkAll targets) = _
    simp only [Session.step, htargets, if_true]
  rw [hstep]
  constructor
  · intro n hn
    refine Or.inr ?_
    unfold remaining
    dsimp only
    rw [List.getElem?_concat_length]
    exact (List.isPerm_iff.mp htargets).mem_iff.mpr hn
  · rw [List.length_append]
    exact Nat.lt_succ_self _

theorem System.Settled.nothing_pending {l : System} (h : l.Settled)
    (hunlinking : Unlinking l.client.shared []) : l.client.shared.state.submits = ∅ := by
  apply AList.ext
  apply List.eq_nil_iff_forall_not_mem.mpr
  rintro ⟨n, p⟩ hmem
  have hn := Table.mem_iff_lookup.mpr ⟨p, Table.mem_entries_iff.mp hmem⟩
  rcases hunlinking n hn with ⟨u, hu⟩ | hnone
  · rw [h.unlinks] at hu
    cases hu
  · cases hnone

end Link
end UsbIp
