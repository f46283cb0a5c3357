import UsbIp.Client.Session

/-!
# The session tables

The three tables and the closed flag are changed by six different locked
sections.  This module says once what each section can do, and derives the
table invariant from that: the two tables of registered numbers are disjoint,
every unlink has a pending target of its own, and a closed session has nothing
registered.  It follows that a number is never issued while an earlier command
with that number is registered.
-/

namespace UsbIp
namespace Client

open Foundation
open Protocol

/-!
# What the local calls can do
-/

def SubmitRequest.Accepted (req : SubmitRequest) : Prop :=
  (req.direction = Direction.out -> req.data.length = req.length.toNat) ∧
    (req.direction = Direction.in -> req.data = [])

/-- A free number with no free number before it, in cyclic order after `nextSeqnum`. -/
structure State.FirstFree (st : State) (n : UInt32) : Prop where
  free : st.Free n
  first : forall m, st.Free m ->
    (n - (st.nextSeqnum + 1)).toNat ≤ (m - (st.nextSeqnum + 1)).toNat

theorem nextSeqnumLoop_some {st : State} {rounds : Nat} {start n : UInt32}
    (h : nextSeqnumLoop st rounds start = some n) :
    st.Free n ∧ exists i, i < rounds ∧ n = start + 1 + UInt32.ofNat i ∧
      forall j, j < i -> ¬ st.Free (start + 1 + UInt32.ofNat j) := by
  induction rounds generalizing start with
  | zero => cases h
  | succ rounds ih =>
      unfold nextSeqnumLoop at h
      split at h
      · rename_i hfree
        cases h
        exact ⟨hfree, 0, Nat.zero_lt_succ rounds, (UInt32.add_zero _).symm, by simp⟩
      · rename_i hfree
        rcases ih h with ⟨hn, i, hi, heq, hbefore⟩
        refine ⟨hn, i + 1, Nat.succ_lt_succ hi, ?_, ?_⟩
        · rw [heq, UInt32.ofNat_add, UInt32.add_comm (UInt32.ofNat i), ← UInt32.add_assoc]
          rfl
        · intro j hj
          cases j with
          | zero => simpa using hfree
          | succ j =>
              rw [UInt32.ofNat_add, UInt32.add_comm (UInt32.ofNat j), ← UInt32.add_assoc]
              exact hbefore j (Nat.lt_of_succ_lt_succ hj)

theorem nextSeqnum_first {st st' : State} {n : UInt32}
    (h : nextSeqnum st = some (n, st')) :
    st.FirstFree n ∧ st' = { st with nextSeqnum := n } := by
  unfold nextSeqnum at h
  split at h
  · rename_i found hloop
    simp only [Option.some.injEq, Prod.mk.injEq] at h
    rcases h with ⟨rfl, rfl⟩
    rcases nextSeqnumLoop_some hloop with ⟨hfree, i, hi, heq, hbefore⟩
    refine ⟨⟨hfree, ?_⟩, rfl⟩
    intro m hm
    have hdistance : (found - (st.nextSeqnum + 1)).toNat = i := by
      rw [heq, UInt32.add_comm, UInt32.add_sub_cancel, UInt32.toNat_ofNat_of_lt' hi]
    rw [hdistance]
    apply Nat.le_of_not_lt
    intro hlt
    apply hbefore _ hlt
    rw [UInt32.ofNat_toNat, UInt32.add_comm, UInt32.sub_add_cancel]
    exact hm
  · cases h

theorem State.FirstFree.unique {st : State} {n m : UInt32} (hn : st.FirstFree n)
    (hm : st.FirstFree m) : n = m := by
  have hdistance := Nat.le_antisymm (hn.first m hm.free) (hm.first n hn.free)
  have hsub := UInt32.toNat_inj.mp hdistance
  rw [← UInt32.sub_add_cancel n (st.nextSeqnum + 1), hsub, UInt32.sub_add_cancel]

def State.Full (st : State) : Prop :=
  forall n, ¬ st.Free n

theorem nextSeqnumLoop_none {st : State} {rounds : Nat} {start : UInt32}
    (h : nextSeqnumLoop st rounds start = none) {i : Nat} (hi : i < rounds) :
    ¬ st.Free (start + 1 + UInt32.ofNat i) := by
  induction rounds generalizing start i with
  | zero => cases hi
  | succ rounds ih =>
      unfold nextSeqnumLoop at h
      split at h
      · cases h
      · rename_i hfree
        cases i with
        | zero => simpa using hfree
        | succ i =>
            have hnext := ih h (Nat.lt_of_succ_lt_succ hi)
            rw [UInt32.ofNat_add, UInt32.add_comm (UInt32.ofNat i), ← UInt32.add_assoc]
            exact hnext

theorem nextSeqnum_none {st : State} (h : nextSeqnum st = none) : st.Full := by
  intro n
  unfold nextSeqnum at h
  split at h
  · cases h
  · rename_i hloop
    have hnot := nextSeqnumLoop_none hloop (n - (st.nextSeqnum + 1)).toNat_lt
    rw [UInt32.ofNat_toNat, UInt32.add_comm, UInt32.sub_add_cancel] at hnot
    exact hnot

theorem nextSeqnum_of_firstFree {st : State} {n : UInt32} (h : st.FirstFree n) :
    nextSeqnum st = some (n, { st with nextSeqnum := n }) := by
  cases hnext : nextSeqnum st with
  | none => exact absurd h.free (nextSeqnum_none hnext n)
  | some found =>
      rcases found with ⟨m, st'⟩
      rcases nextSeqnum_first hnext with ⟨hm, rfl⟩
      rw [h.unique hm]

theorem State.firstFree_next {st : State} (h : st.Free (st.nextSeqnum + 1)) :
    st.FirstFree (st.nextSeqnum + 1) where
  free := h
  first := by
    intro m _
    rw [UInt32.sub_self]
    exact Nat.zero_le _

theorem Shared.submit_cases {s s' : Shared} {req : SubmitRequest}
    {result : Except TransferError (UInt32 × Nat)}
    (h : s.submit req = some (result, s')) :
    (exists e, result = .error e ∧ s' = s ∧
      (req.Accepted -> exists reason, s.state.closed = some reason)) ∨
      exists seqnum, result = .ok (seqnum, s.channels) ∧ req.Accepted ∧
        s.state.closed = none ∧ s.state.FirstFree seqnum ∧
        s' = s.register req seqnum { s.state with nextSeqnum := seqnum } := by
  unfold Shared.submit at h
  split at h
  · rename_i hout
    simp only [Option.some.injEq, Prod.mk.injEq] at h
    rcases h with ⟨rfl, rfl⟩
    refine Or.inl ⟨_, rfl, rfl, ?_⟩
    intro haccepted
    exact absurd (haccepted.left hout.left) hout.right
  · rename_i hout
    split at h
    · rename_i hin
      simp only [Option.some.injEq, Prod.mk.injEq] at h
      rcases h with ⟨rfl, rfl⟩
      refine Or.inl ⟨_, rfl, rfl, ?_⟩
      intro haccepted
      exact absurd (haccepted.right hin.left) hin.right
    · rename_i hin
      have haccepted : req.Accepted := by
        constructor
        · intro hdir
          by_contra hlen
          exact hout ⟨hdir, hlen⟩
        · intro hdir
          by_contra hdata
          exact hin ⟨hdir, hdata⟩
      split at h
      · rename_i reason hclosed
        simp only [Option.some.injEq, Prod.mk.injEq] at h
        rcases h with ⟨rfl, rfl⟩
        exact Or.inl ⟨_, rfl, rfl, fun _ => ⟨reason, hclosed⟩⟩
      · rename_i hclosed
        split at h
        · rename_i seqnum st hnext
          simp only [Option.some.injEq, Prod.mk.injEq] at h
          rcases h with ⟨rfl, rfl⟩
          rcases nextSeqnum_first hnext with ⟨hfree, rfl⟩
          exact Or.inr ⟨seqnum, rfl, haccepted, hclosed, hfree, rfl⟩
        · cases h

theorem Shared.submit_of_firstFree {s : Shared} {req : SubmitRequest} {n : UInt32}
    (haccepted : req.Accepted) (hopen : s.state.closed = none) (hn : s.state.FirstFree n) :
    s.submit req = some (.ok (n, s.channels),
      s.register req n { s.state with nextSeqnum := n }) := by
  have hout : ¬ (req.direction = Direction.out ∧ req.data.length ≠ req.length.toNat) :=
    fun h => h.right (haccepted.left h.left)
  have hin : ¬ (req.direction = Direction.in ∧ req.data ≠ []) :=
    fun h => h.right (haccepted.right h.left)
  unfold Shared.submit
  rw [if_neg hout, if_neg hin, hopen]
  simp only [nextSeqnum_of_firstFree hn]

theorem Shared.submit_none {s : Shared} {req : SubmitRequest} (h : s.submit req = none) :
    s.state.Full := by
  unfold Shared.submit at h
  split at h
  · cases h
  · split at h
    · cases h
    · split at h
      · cases h
      · split at h
        · cases h
        · rename_i hnext
          exact nextSeqnum_none hnext

theorem Shared.submit_ok_open {s s' : Shared} {req : SubmitRequest}
    {accepted : UInt32 × Nat} (h : s.submit req = some (.ok accepted, s')) :
    s.state.closed = none := by
  rcases Shared.submit_cases h with ⟨_, herr, _⟩ | ⟨_, _, _, hopen, _⟩
  · cases herr
  · exact hopen

theorem Shared.submit_error_closed {s s' : Shared} {req : SubmitRequest}
    {err : TransferError} (h : s.submit req = some (.error err, s'))
    (haccepted : req.Accepted) : s.state.closed.isSome = true := by
  rcases Shared.submit_cases h with ⟨_, _, _, hclosed⟩ | ⟨_, hok, _⟩
  · rcases hclosed haccepted with ⟨reason, hreason⟩
    rw [hreason]
    rfl
  · cases hok

theorem Shared.submit_error_open {s s' : Shared} {req : SubmitRequest}
    {err : TransferError} (h : s.submit req = some (.error err, s'))
    (hopen : s.state.closed = none) : exists text, err = .invalid text := by
  unfold Shared.submit at h
  split at h
  · cases h
    exact ⟨_, rfl⟩
  · split at h
    · cases h
      exact ⟨_, rfl⟩
    · rw [hopen] at h
      dsimp only at h
      split at h
      · cases h
      · cases h

theorem Shared.unlink_cases {s s' : Shared} {target : UInt32}
    (h : s.unlink target = some s') :
    (s' = s ∧ (target ∉ s.state.submits ∨ s.state.closed.isSome = true ∨
      exists u, s.state.unlinks.lookup u = some target)) ∨
      exists p seqnum, s.state.submits.lookup target = some p ∧
        s.state.closed = none ∧
        (forall u, s.state.unlinks.lookup u ≠ some target) ∧
        s.state.FirstFree seqnum ∧
        s' = s.registerUnlink target p.reply seqnum
          { s.state with nextSeqnum := seqnum } := by
  unfold Shared.unlink at h
  split at h
  · rename_i hnone
    cases h
    exact Or.inl ⟨rfl, Or.inl (AList.lookup_eq_none.mp hnone)⟩
  · rename_i p hp
    split at h
    · rename_i hskip
      cases h
      refine Or.inl ⟨rfl, Or.inr ?_⟩
      rcases hskip with hclosed | hvalue
      · exact Or.inl hclosed
      · exact Or.inr (Table.hasValue_iff.mp hvalue)
    · rename_i hskip
      split at h
      · rename_i seqnum st hnext
        cases h
        rcases nextSeqnum_first hnext with ⟨hfree, rfl⟩
        refine Or.inr ⟨p, seqnum, hp, ?_, ?_, hfree, rfl⟩
        · simpa using fun hclosed => hskip (Or.inl hclosed)
        · intro u hu
          exact hskip (Or.inr (Table.hasValue_iff.mpr ⟨u, hu⟩))
      · cases h

theorem Shared.unlink_of_firstFree {s : Shared} {target n : UInt32} {p : PendingSubmit}
    (hp : s.state.submits.lookup target = some p) (hopen : s.state.closed = none)
    (hnew : forall u, s.state.unlinks.lookup u ≠ some target) (hn : s.state.FirstFree n) :
    s.unlink target =
      some (s.registerUnlink target p.reply n { s.state with nextSeqnum := n }) := by
  have hskip : ¬ (s.state.closed.isSome = true ∨
      Table.hasValue s.state.unlinks target = true) := by
    rintro (hclosed | hvalue)
    · rw [hopen] at hclosed
      cases hclosed
    · rcases Table.hasValue_iff.mp hvalue with ⟨u, hu⟩
      exact hnew u hu
  unfold Shared.unlink
  simp only [hp, if_neg hskip, nextSeqnum_of_firstFree hn]

theorem Shared.unlink_none {s : Shared} {target : UInt32} (h : s.unlink target = none) :
    s.state.Full := by
  unfold Shared.unlink at h
  split at h
  · cases h
  · split at h
    · cases h
    · split at h
      · cases h
      · rename_i hnext
        exact nextSeqnum_none hnext

/-!
# The table invariant
-/

structure State.TablesOk (st : State) : Prop where
  disjoint : forall n, n ∈ st.submits -> n ∉ st.unlinks
  submits_ne_zero : forall n, n ∈ st.submits -> n ≠ 0
  unlinks_ne_zero : forall n, n ∈ st.unlinks -> n ≠ 0
  target_pending : forall u t, st.unlinks.lookup u = some t -> t ∈ st.submits
  target_unique : forall u v t,
    st.unlinks.lookup u = some t -> st.unlinks.lookup v = some t -> u = v
  unlinked_bounded : st.unlinked.length ≤ 256
  closed_empty : st.closed.isSome = true -> st.submits = ∅ ∧ st.unlinks = ∅

theorem State.initial_tablesOk : State.initial.TablesOk where
  disjoint := by
    intro n hn
    exact absurd hn (AList.notMem_empty n)
  submits_ne_zero := by
    intro n hn
    exact absurd hn (AList.notMem_empty n)
  unlinks_ne_zero := by
    intro n hn
    exact absurd hn (AList.notMem_empty n)
  target_pending := by
    intro u t hu
    simp [State.initial] at hu
  target_unique := by
    intro u v t hu
    simp [State.initial] at hu
  unlinked_bounded := by
    simp [State.initial]
  closed_empty := by
    intro _
    exact ⟨rfl, rfl⟩

theorem State.TablesOk.register {s : Shared} (hok : s.state.TablesOk)
    {req : SubmitRequest} {seqnum : UInt32} (hopen : s.state.closed = none)
    (hfree : s.state.Free seqnum) :
    (s.register req seqnum { s.state with nextSeqnum := seqnum }).state.TablesOk where
  disjoint := by
    intro n hn
    rcases (AList.mem_insert _).mp hn with rfl | hold
    · exact hfree.right.right
    · exact hok.disjoint n hold
  submits_ne_zero := by
    intro n hn
    rcases (AList.mem_insert _).mp hn with rfl | hold
    · exact hfree.left
    · exact hok.submits_ne_zero n hold
  unlinks_ne_zero := hok.unlinks_ne_zero
  target_pending := by
    intro u t hu
    exact (AList.mem_insert _).mpr (Or.inr (hok.target_pending u t hu))
  target_unique := hok.target_unique
  unlinked_bounded := hok.unlinked_bounded
  closed_empty := by
    intro hclosed
    simp [Shared.register, hopen] at hclosed

theorem State.TablesOk.registerUnlink {s : Shared} (hok : s.state.TablesOk)
    {target seqnum : UInt32} {p : PendingSubmit}
    (hp : s.state.submits.lookup target = some p) (hopen : s.state.closed = none)
    (hnew : forall u, s.state.unlinks.lookup u ≠ some target)
    (hfree : s.state.Free seqnum) :
    (s.registerUnlink target p.reply seqnum
      { s.state with nextSeqnum := seqnum }).state.TablesOk where
  disjoint := by
    intro n hn hu
    rcases (AList.mem_insert _).mp hu with rfl | hold
    · exact hfree.right.left hn
    · exact hok.disjoint n hn hold
  submits_ne_zero := hok.submits_ne_zero
  unlinks_ne_zero := by
    intro n hn
    rcases (AList.mem_insert _).mp hn with rfl | hold
    · exact hfree.left
    · exact hok.unlinks_ne_zero n hold
  target_pending := by
    intro u t hu
    rw [Shared.registerUnlink, Table.lookup_insert_eq] at hu
    split at hu
    · cases hu
      exact Table.mem_iff_lookup.mpr ⟨p, hp⟩
    · exact hok.target_pending u t hu
  target_unique := by
    intro u v t hu hv
    rw [Shared.registerUnlink, Table.lookup_insert_eq] at hu hv
    split at hu <;> split at hv
    · rename_i hus hvs
      rw [hus, hvs]
    · cases hu
      exact absurd hv (hnew v)
    · cases hv
      exact absurd hu (hnew u)
    · exact hok.target_unique u v t hu hv
  unlinked_bounded := hok.unlinked_bounded
  closed_empty := by
    intro hclosed
    simp [Shared.registerUnlink, hopen] at hclosed

theorem Shared.close_closed (s : Shared) (reason : String) :
    (s.close reason).state.closed.isSome = true := by
  unfold Shared.close
  split
  · rename_i hclosed
    rw [hclosed]
    rfl
  · rfl

theorem State.TablesOk.close {s : Shared} (hok : s.state.TablesOk) (reason : String) :
    (s.close reason).state.TablesOk := by
  unfold Shared.close
  split
  · exact hok
  · exact
      { disjoint := fun n hn => absurd hn (AList.notMem_empty n)
        submits_ne_zero := fun n hn => absurd hn (AList.notMem_empty n)
        unlinks_ne_zero := fun n hn => absurd hn (AList.notMem_empty n)
        target_pending := by
          intro u t hu
          simp at hu
        target_unique := by
          intro u v t hu
          simp at hu
        unlinked_bounded := hok.unlinked_bounded
        closed_empty := fun _ => ⟨rfl, rfl⟩ }

theorem State.TablesOk.forget {st : State} (hok : st.TablesOk) (seqnum : UInt32) :
    (st.forget seqnum).TablesOk where
  disjoint := by
    intro n hn hu
    have hsub : n ∈ st.submits := (AList.mem_erase.mp hn).right
    rcases Table.mem_iff_lookup.mp hu with ⟨t, ht⟩
    exact hok.disjoint n hsub (Table.mem_iff_lookup.mpr ⟨t, Table.lookup_of_retain ht⟩)
  submits_ne_zero := by
    intro n hn
    exact hok.submits_ne_zero n (AList.mem_erase.mp hn).right
  unlinks_ne_zero := by
    intro n hn
    rcases Table.mem_iff_lookup.mp hn with ⟨t, ht⟩
    exact hok.unlinks_ne_zero n (Table.mem_iff_lookup.mpr ⟨t, Table.lookup_of_retain ht⟩)
  target_pending := by
    intro u t hu
    rcases Table.lookup_retain_iff.mp hu with ⟨hlook, hne⟩
    exact AList.mem_erase.mpr ⟨by simpa using hne, hok.target_pending u t hlook⟩
  target_unique := by
    intro u v t hu hv
    exact hok.target_unique u v t (Table.lookup_of_retain hu) (Table.lookup_of_retain hv)
  unlinked_bounded := by
    exact Nat.le_trans (List.length_filter_le _ _) hok.unlinked_bounded
  closed_empty := by
    intro hclosed
    rcases hok.closed_empty hclosed with ⟨hsub, hun⟩
    constructor
    · change st.submits.erase seqnum = ∅
      rw [hsub]
      rfl
    · simp only [State.forget, hun]
      rfl

theorem rememberUnlinked_length {unlinked : List (UInt32 × Direction × UInt32)}
    (h : unlinked.length ≤ 256) (entry : UInt32 × Direction × UInt32) :
    (rememberUnlinked unlinked entry).length ≤ 256 := by
  unfold rememberUnlinked unlinkedCapacity
  split
  · simp only [List.length_append, List.length_tail, List.length_singleton]
    omega
  · simp only [List.length_append, List.length_singleton]
    omega

theorem State.TablesOk.finishUnlink {s : Shared} (hok : s.state.TablesOk)
    (ret : RetUnlink) : (s.finishUnlink ret).state.TablesOk := by
  unfold Shared.finishUnlink
  cases htarget : s.state.unlinks.lookup ret.seqnum with
  | none =>
      simpa [htarget] using hok
  | some target =>
      have hpending : target ∈ s.state.submits :=
        hok.target_pending ret.seqnum target htarget
      rcases Table.mem_iff_lookup.mp hpending with ⟨p, hp⟩
      have hmem : forall n, n ∈ s.state.unlinks.erase ret.seqnum -> n ∈ s.state.unlinks :=
        fun n hn => (AList.mem_erase.mp hn).right
      simp only [htarget, hp]
      exact
        { disjoint := fun n hn hu =>
            hok.disjoint n (AList.mem_erase.mp hn).right (hmem n hu)
          submits_ne_zero := fun n hn => hok.submits_ne_zero n (AList.mem_erase.mp hn).right
          unlinks_ne_zero := fun n hn => hok.unlinks_ne_zero n (hmem n hn)
          target_pending := by
            intro u t hu
            rcases Table.lookup_of_erase hu with ⟨hne, hu'⟩
            refine AList.mem_erase.mpr ⟨?_, hok.target_pending u t hu'⟩
            -- The removed unlink was the only one with this target.
            intro hsame
            subst hsame
            exact hne (hok.target_unique u ret.seqnum t hu' htarget)
          target_unique := fun u v t hu hv =>
            hok.target_unique u v t (Table.lookup_of_erase hu).right
              (Table.lookup_of_erase hv).right
          unlinked_bounded := rememberUnlinked_length hok.unlinked_bounded _
          closed_empty := by
            intro hclosed
            have hempty := (hok.closed_empty hclosed).left
            rw [hempty] at hpending
            exact absurd hpending (AList.notMem_empty target) }

theorem State.TablesOk.section {request : Option SubmitRequest} {s s' : Shared}
    (hstep : Section request s s') (hok : s.state.TablesOk) : s'.state.TablesOk := by
  cases hstep with
  | submit h =>
      rcases Shared.submit_cases h with ⟨_, _, rfl, _⟩ | ⟨seqnum, _, _, hopen, hfree, rfl⟩
      · exact hok
      · exact hok.register hopen hfree.free
  | unlink h =>
      rcases Shared.unlink_cases h with ⟨rfl, _⟩ | ⟨p, seqnum, hp, hopen, hnew, hfree, rfl⟩
      · exact hok
      · exact hok.registerUnlink hp hopen hnew hfree.free
  | close reason => exact hok.close reason
  | finishSubmit ret => exact hok.forget ret.seqnum
  | finishUnlink ret => exact hok.finishUnlink ret

theorem Session.tablesOk {s : Session} (h : s.Reachable) : s.shared.state.TablesOk :=
  Session.shared_invariant (I := fun s => s.state.TablesOk)
    (fun _ => State.initial_tablesOk) (fun _ _ hok => hok)
    (fun _ _ _ hstep hok => hok.section hstep) h

/-!
# Numbers that are issued
-/

theorem Shared.issued_cons_command {s : Shared} {e : Event} {c : Command}
    {log : List Event} (hlog : s.log = e :: log) (he : e.command? = some c) :
    s.issued = log.reverse.filterMap Event.command? ++ [c] := by
  simp [Shared.issued, hlog, he]

theorem Shared.register_issued (s : Shared) (req : SubmitRequest) (seqnum : UInt32)
    (st : State) :
    (s.register req seqnum st).issued =
      s.issued ++ [Command.submit (req.command seqnum s.devid)] :=
  Shared.issued_cons_command rfl rfl

theorem Shared.registerUnlink_issued (s : Shared) (target : UInt32) (reply : Nat)
    (seqnum : UInt32) (st : State) :
    (s.registerUnlink target reply seqnum st).issued =
      s.issued ++ [Command.unlink
        { seqnum := seqnum, devid := s.devid, unlinkSeqnum := target }] :=
  Shared.issued_cons_command rfl rfl

theorem Shared.close_issued (s : Shared) (reason : String) :
    (s.close reason).issued = s.issued := by
  unfold Shared.close
  split
  · rfl
  · simp [Shared.issued, Event.command?]

theorem Shared.finishSubmit_issued (s : Shared) (ret : RetSubmit) :
    (s.finishSubmit ret).issued = s.issued := by
  simp [Shared.issued, Shared.finishSubmit, Event.command?]

theorem Shared.finishUnlink_log (s : Shared) (ret : RetUnlink) :
    (s.finishUnlink ret).log = Event.confirmed ret :: s.log := by
  unfold Shared.finishUnlink
  dsimp only
  split
  · rfl
  · split <;> rfl

theorem Shared.finishUnlink_issued (s : Shared) (ret : RetUnlink) :
    (s.finishUnlink ret).issued = s.issued := by
  simp [Shared.issued, s.finishUnlink_log ret, Event.command?]

/-- A locked section issues nothing, or one command with a free number. -/
theorem Section.issued {request : Option SubmitRequest} {s s' : Shared}
    (hstep : Section request s s') :
    s'.issued = s.issued ∨
      exists c, s'.issued = s.issued ++ [c] ∧ s.state.Free c.seqnum := by
  cases hstep with
  | submit h =>
      rcases Shared.submit_cases h with ⟨_, _, rfl, _⟩ | ⟨seqnum, _, _, _, hfree, rfl⟩
      · exact Or.inl rfl
      · exact Or.inr ⟨_, s.register_issued _ _ _, hfree.free⟩
  | unlink h =>
      rcases Shared.unlink_cases h with ⟨rfl, _⟩ | ⟨p, seqnum, _, _, _, hfree, rfl⟩
      · exact Or.inl rfl
      · exact Or.inr ⟨_, s.registerUnlink_issued _ _ _ _, hfree.free⟩
  | close reason => exact Or.inl (s.close_issued reason)
  | finishSubmit ret => exact Or.inl (s.finishSubmit_issued ret)
  | finishUnlink ret => exact Or.inl (s.finishUnlink_issued ret)

/-- The commands that a step adds carry numbers that are registered nowhere. -/
theorem Session.step_issued (s : Session) (st : Step) :
    exists new, (s.step st).shared.issued = s.shared.issued ++ new ∧
      forall c, c ∈ new -> s.shared.state.Free c.seqnum := by
  rcases s.step_shared st with ⟨frames, heq⟩ | hstep
  · exact ⟨[], by simp [heq, Shared.issued], by simp⟩
  · rcases hstep.issued with hsame | ⟨c, hc, hfree⟩
    · exact ⟨[], by simp [hsame], by simp⟩
    · refine ⟨[c], hc, ?_⟩
      intro d hd
      rw [List.mem_singleton.mp hd]
      exact hfree

/--
In every state of every run the table invariant holds, and the next step, of
whatever kind, issues no number that is still registered in either table.
-/
theorem session_tables_consistent (device : ExportedDevice) (steps : List Step) :
    let s := List.foldl Session.step (Session.start device) steps
    s.shared.state.TablesOk ∧
      forall st, exists new,
        (s.step st).shared.issued = s.shared.issued ++ new ∧
          forall c, c ∈ new ->
            c.seqnum ∉ s.shared.state.submits ∧ c.seqnum ∉ s.shared.state.unlinks := by
  intro s
  constructor
  · exact Session.tablesOk ⟨device, steps, rfl⟩
  · intro st
    rcases s.step_issued st with ⟨new, hnew, hfree⟩
    exact ⟨new, hnew, fun c hc => (hfree c hc).right⟩

end Client
end UsbIp
