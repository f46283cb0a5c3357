import Mathlib.Data.Finset.Card
import Mathlib.Data.Finset.Range
import UsbIp.Client.Tables

/-!
# Allocating a number

The loop in `next_seqnum` has no counter that runs out, so that it ends rests
on a count of the keys: there are `2^32 - 1` numbers other than zero, and one
of them is left as soon as the two tables have fewer keys than that.  The
number of rounds is then the cyclic distance to the first free number.
-/

namespace UsbIp
namespace Client

open Foundation
open Protocol

/-!
# Counting the keys
-/

def State.registered (st : State) : Finset UInt32 :=
  (st.submits.keys ++ st.unlinks.keys).toFinset

theorem State.mem_registered {st : State} {n : UInt32} :
    n ∈ st.registered <-> n ∈ st.submits ∨ n ∈ st.unlinks := by
  unfold State.registered
  rw [List.mem_toFinset, List.mem_append, AList.mem_keys, AList.mem_keys]

def seqnums : Finset UInt32 :=
  (Finset.range (UInt32.size - 1)).image (fun i => UInt32.ofNat (i + 1))

theorem succ_lt_size {i : Nat} (h : i ∈ Finset.range (UInt32.size - 1)) :
    i + 1 < UInt32.size :=
  Nat.add_lt_of_lt_sub (Finset.mem_range.mp h)

theorem seqnums_card : seqnums.card = UInt32.size - 1 := by
  unfold seqnums
  rw [Finset.card_image_of_injOn, Finset.card_range]
  intro i hi j hj heq
  have hnat := congrArg UInt32.toNat heq
  simp only [UInt32.toNat_ofNat_of_lt' (succ_lt_size hi),
    UInt32.toNat_ofNat_of_lt' (succ_lt_size hj)] at hnat
  exact Nat.succ.inj hnat

theorem ne_zero_of_mem_seqnums {n : UInt32} (h : n ∈ seqnums) : n ≠ 0 := by
  rcases Finset.mem_image.mp h with ⟨i, hi, rfl⟩
  intro hzero
  have hnat := congrArg UInt32.toNat hzero
  rw [UInt32.toNat_ofNat_of_lt' (succ_lt_size hi)] at hnat
  exact Nat.succ_ne_zero i hnat

theorem State.exists_free {st : State} (h : st.registered.card < UInt32.size - 1) :
    exists n, st.Free n := by
  have hcard : st.registered.card < seqnums.card := by
    rw [seqnums_card]
    exact h
  rcases Finset.exists_mem_notMem_of_card_lt_card hcard with ⟨n, hn, hnot⟩
  rw [State.mem_registered, not_or] at hnot
  exact ⟨n, ne_zero_of_mem_seqnums hn, hnot.left, hnot.right⟩

/-!
# The rounds of the loop
-/

/-- The number of rounds that find nothing before the loop comes to `n`. -/
def State.distance (st : State) (n : UInt32) : Nat :=
  (n - (st.nextSeqnum + 1)).toNat

theorem State.at_distance (st : State) (n : UInt32) :
    st.nextSeqnum + 1 + UInt32.ofNat (st.distance n) = n := by
  unfold State.distance
  rw [UInt32.ofNat_toNat, UInt32.add_comm, UInt32.sub_add_cancel]

theorem State.distance_le (st : State) (i : Nat) :
    st.distance (st.nextSeqnum + 1 + UInt32.ofNat i) ≤ i := by
  unfold State.distance
  rw [UInt32.add_comm, UInt32.add_sub_cancel, UInt32.toNat_ofNat']
  exact Nat.mod_le i _

/-- After so many rounds the loop has returned the first free number, or has not come to it. -/
theorem nextSeqnumLoop_rounds {st : State} {n : UInt32} (h : st.FirstFree n) (rounds : Nat) :
    nextSeqnumLoop st rounds st.nextSeqnum =
      if st.distance n < rounds then some n else none := by
  have hat := st.at_distance n
  cases hloop : nextSeqnumLoop st rounds st.nextSeqnum with
  | none =>
      rw [if_neg]
      intro hlt
      apply nextSeqnumLoop_none hloop hlt
      rw [hat]
      exact h.free
  | some m =>
      rcases nextSeqnumLoop_some hloop with ⟨hm, i, hi, rfl, hbefore⟩
      have hle : st.distance n ≤ i := Nat.le_trans (h.first _ hm) (st.distance_le i)
      have hge : i ≤ st.distance n := by
        apply Nat.le_of_not_lt
        intro hlt
        apply hbefore _ hlt
        rw [hat]
        exact h.free
      have heq : st.distance n = i := Nat.le_antisymm hle hge
      rw [if_pos (heq ▸ hi), ← heq, hat]

theorem firstFree_of_free {st : State} {n : UInt32} (h : st.Free n) :
    exists m, st.FirstFree m := by
  cases hnext : nextSeqnum st with
  | none => exact absurd h (nextSeqnum_none hnext n)
  | some found => exact ⟨found.1, (nextSeqnum_first hnext).left⟩

/--
While the two tables have fewer than `2^32 - 1` keys, the loop returns the
first free number, and more rounds change nothing.
-/
theorem nextSeqnum_allocates (st : State) (h : st.registered.card < UInt32.size - 1) :
    exists n, st.FirstFree n ∧
      nextSeqnum st = some (n, { st with nextSeqnum := n }) ∧
      forall rounds, nextSeqnumLoop st rounds st.nextSeqnum =
        if st.distance n < rounds then some n else none := by
  rcases State.exists_free h with ⟨m, hm⟩
  rcases firstFree_of_free hm with ⟨n, hn⟩
  exact ⟨n, hn, nextSeqnum_of_firstFree hn, nextSeqnumLoop_rounds hn⟩

def State.atWrap : State :=
  { State.initial with
    nextSeqnum := 4294967294
    submits := State.initial.submits.insert 4294967295
      { direction := Direction.in, length := 8, reply := 0 }
    unlinks := State.initial.unlinks.insert 1 4294967295 }

theorem nextSeqnum_allocates_at_wrap :
    State.atWrap.registered.card < UInt32.size - 1 ∧
      exists n, State.atWrap.FirstFree n ∧
        nextSeqnum State.atWrap = some (n, { State.atWrap with nextSeqnum := n }) ∧
        forall rounds, nextSeqnumLoop State.atWrap rounds State.atWrap.nextSeqnum =
          if State.atWrap.distance n < rounds then some n else none := by
  have hroom : State.atWrap.registered.card < UInt32.size - 1 := by decide
  exact ⟨hroom, nextSeqnum_allocates State.atWrap hroom⟩

/-- The two numbers are skipped, and so is zero between them. -/
example : nextSeqnumLoop State.atWrap 4 4294967294 = some 2 := by decide

end Client
end UsbIp
