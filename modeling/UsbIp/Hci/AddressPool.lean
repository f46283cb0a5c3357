import Mathlib.Data.List.Range
import UsbIp.Hci.Commands

/-!
# Device addresses

Lowest-free allocation of USB device addresses.  The pool is a word of 128 bits;
the laws say what its operations do to the set of addresses that are in use.
-/

namespace UsbIp
namespace Hci

structure AddressPool where
  used : BitVec 128
deriving DecidableEq

namespace AddressPool

def empty : AddressPool where
  used := 0

/-- The pool with the lowest of the free addresses 1 to 127 taken, and that address. -/
def allocate (pool : AddressPool) : Option (UInt8 × AddressPool) :=
  match (List.range' 1 127).find? (fun a => pool.used &&& (1#128 <<< a) = 0) with
  | some a => some (UInt8.ofNat a, { used := pool.used ||| (1#128 <<< a) })
  | none => none

def release (pool : AddressPool) (address : UInt8) : AddressPool :=
  if address < 128 then
    { used := pool.used &&& ~~~(1#128 <<< address.toNat) }
  else
    pool

/-!
# Addresses in use
-/

def marked (pool : AddressPool) (address : UInt8) : Bool :=
  pool.used.getLsbD address.toNat

@[simp] theorem empty_marked (address : UInt8) : empty.marked address = false := by
  simp [empty, marked]

theorem getLsbD_shift {a : Nat} (ha : a < 128) (i : Nat) :
    (1#128 <<< a).getLsbD i = decide (i = a) := by
  rw [← BitVec.twoPow_eq, BitVec.getLsbD_twoPow, decide_eq_true ha, Bool.true_and]
  exact decide_eq_decide.mpr eq_comm

theorem and_shift_eq_zero (used : BitVec 128) {a : Nat} (ha : a < 128) :
    used &&& (1#128 <<< a) = 0 <-> used.getLsbD a = false := by
  rw [← BitVec.twoPow_eq, BitVec.and_twoPow]
  cases used.getLsbD a with
  | false => simp
  | true =>
      have hbit : (BitVec.twoPow 128 a).getLsbD a = true := by
        rw [BitVec.twoPow_eq, getLsbD_shift ha, decide_eq_true rfl]
      constructor
      · intro h
        rw [if_pos rfl] at h
        rw [h] at hbit
        simp at hbit
      · intro h
        cases h

theorem release_marked (pool : AddressPool) (address a : UInt8) :
    (pool.release address).marked a = (pool.marked a && decide (a ≠ address)) := by
  unfold release marked
  split
  · rename_i hlow
    have hbit := getLsbD_shift (UInt8.lt_iff_toNat_lt.mp hlow) a.toNat
    rw [BitVec.getLsbD_and, BitVec.getLsbD_not, hbit]
    by_cases ha : a.toNat < 128
    · simp [ha, UInt8.toNat_inj]
    · simp [BitVec.getLsbD_of_ge pool.used a.toNat (Nat.le_of_not_lt ha)]
  · rename_i hhigh
    by_cases ha : a = address
    · have hlarge : 128 ≤ a.toNat := by
        rw [ha]
        exact Nat.le_of_not_lt fun h => hhigh (UInt8.lt_iff_toNat_lt.mpr h)
      simp [BitVec.getLsbD_of_ge pool.used a.toNat hlarge]
    · simp [ha]

/-- The lowest of the addresses 1 to 127 that are available. -/
structure Lowest (available : UInt8 -> Prop) (address : UInt8) : Prop where
  low : 1 ≤ address
  high : address ≤ 127
  free : available address
  least : forall a, 1 ≤ a -> a < address -> ¬ available a

/-- The address that `allocate` hands out is the lowest one not in use. -/
theorem allocate_some {pool pool' : AddressPool} {address : UInt8}
    (h : pool.allocate = some (address, pool')) :
    Lowest (fun a => pool.marked a = false) address ∧
      forall a, pool'.marked a = (pool.marked a || decide (a = address)) := by
  unfold allocate at h
  split at h
  · rename_i n hfind
    cases h
    rw [List.find?_range'_eq_some, List.mem_range'_1] at hfind
    rcases hfind with ⟨hfree, ⟨hlow, hhigh⟩, hleast⟩
    have hn : (UInt8.ofNat n).toNat = n := UInt8.toNat_ofNat_of_lt (Nat.lt_trans hhigh (by decide))
    constructor
    · constructor
      · exact UInt8.le_iff_toNat_le.mpr (by rw [hn]; exact hlow)
      · exact UInt8.le_iff_toNat_le.mpr (by rw [hn]; exact Nat.le_of_lt_succ hhigh)
      · rw [marked, hn, ← and_shift_eq_zero pool.used hhigh]
        exact of_decide_eq_true hfree
      · intro a hpos ha hfalse
        have ha' : a.toNat < n := by
          rw [← hn]
          exact UInt8.lt_iff_toNat_lt.mp ha
        have htaken := hleast a.toNat (UInt8.le_iff_toNat_le.mp hpos) ha'
        rw [marked, ← and_shift_eq_zero pool.used (by omega)] at hfalse
        rw [decide_eq_true hfalse] at htaken
        cases htaken
    · intro a
      have hsame : decide (a.toNat = n) = decide (a = UInt8.ofNat n) := by
        apply decide_eq_decide.mpr
        rw [← UInt8.toNat_inj, hn]
      rw [marked, marked, BitVec.getLsbD_or, getLsbD_shift hhigh, hsame]
  · cases h

theorem allocate_none {pool : AddressPool} (h : pool.allocate = none) {address : UInt8}
    (hlow : 1 ≤ address) (hhigh : address ≤ 127) : pool.marked address = true := by
  unfold allocate at h
  split at h
  · cases h
  · rename_i hfind
    rw [List.find?_range'_eq_none] at hfind
    have hlt : address.toNat < 128 := Nat.lt_succ_of_le (UInt8.le_iff_toNat_le.mp hhigh)
    have htaken := hfind address.toNat (UInt8.le_iff_toNat_le.mp hlow) hlt
    cases hmarked : pool.marked address with
    | true => rfl
    | false =>
        rw [marked, ← and_shift_eq_zero pool.used hlt] at hmarked
        rw [decide_eq_true hmarked] at htaken
        cases htaken

end AddressPool

end Hci
end UsbIp
