import Mathlib.Data.List.ReduceOption
import Mathlib.Data.List.Nodup
import Mathlib.Data.List.Perm.Basic

/-!
# Leases

Parties that each hold at most one key, and a register of the keys that are
held.  A key is given to a party that holds none, if the register does not have
it; what a party gives back is struck off the register.  The register then always
has the keys that are held and no others, so no two parties hold the same key.
-/

namespace UsbIp
namespace Foundation

variable {key : Type*}

/-- The register has the keys that are held, and each of them once. -/
structure Leased (register : List key) (held : List (Option key)) : Prop where
  perm : register.Perm held.reduceOption
  nodup : register.Nodup

/-!
# One party
-/

theorem split_at_index {α : Type*} {xs : List α} {i : Nat} {x : α} (h : xs[i]? = some x) :
    exists front back, xs = front ++ x :: back ∧ front.length = i := by
  rcases List.getElem?_eq_some_iff.mp h with ⟨hlt, hx⟩
  refine ⟨xs.take i, xs.drop (i + 1), ?_, List.length_take_of_le (Nat.le_of_lt hlt)⟩
  rw [← hx, List.getElem_cons_drop, List.take_append_drop]

theorem set_at_index {α : Type*} {front back : List α} (x y : α) :
    (front ++ x :: back).set front.length y = front ++ y :: back := by
  rw [List.set_append_right _ _ (Nat.le_refl _), Nat.sub_self, List.set_cons_zero]

theorem set_same_index {α : Type*} {xs : List α} {i : Nat} {x : α} (h : xs[i]? = some x) :
    xs.set i x = xs := by
  rcases split_at_index h with ⟨front, back, rfl, rfl⟩
  exact set_at_index x x

theorem getElem?_set_index {α : Type*} {xs : List α} {i : Nat} {x : α} (h : xs[i]? = some x)
    (y : α) : (xs.set i y)[i]? = some y := by
  rcases List.getElem?_eq_some_iff.mp h with ⟨hlt, _⟩
  exact List.getElem?_set_self hlt

theorem reduceOption_around {front back : List (Option key)} (k : key) :
    (front ++ some k :: back).reduceOption.Perm (k :: (front ++ none :: back).reduceOption) := by
  rw [List.reduceOption_append, List.reduceOption_append, List.reduceOption_cons_of_some,
    List.reduceOption_cons_of_none]
  exact List.perm_middle

theorem Leased.start : Leased ([] : List key) [] where
  perm := List.Perm.refl []
  nodup := List.nodup_nil

theorem Leased.join {register : List key} {held : List (Option key)}
    (h : Leased register held) : Leased register (held ++ [none]) where
  perm := by
    rw [List.reduceOption_append, List.reduceOption_cons_of_none, List.reduceOption_nil,
      List.append_nil]
    exact h.perm
  nodup := h.nodup

theorem Leased.grant {register : List key} {held : List (Option key)} {i : Nat} {k : key}
    (h : Leased register held) (hparty : held[i]? = some none) (hfree : k ∉ register) :
    Leased (register ++ [k]) (held.set i (some k)) where
  perm := by
    rcases split_at_index hparty with ⟨front, back, rfl, rfl⟩
    rw [set_at_index]
    have hmore : (register ++ [k]).Perm (k :: register) := List.perm_append_singleton k register
    exact (hmore.trans (h.perm.cons k)).trans (reduceOption_around k).symm
  nodup := List.nodup_append.mpr ⟨h.nodup, List.nodup_singleton k, by
    intro j hj l hl hsame
    rw [List.mem_singleton.mp hl] at hsame
    rw [hsame] at hj
    exact hfree hj⟩

theorem Leased.release [DecidableEq key] {register : List key} {held : List (Option key)}
    {i : Nat} {k : key} (h : Leased register held) (hparty : held[i]? = some (some k)) :
    Leased (register.filter fun j => j ≠ k) (held.set i none) where
  perm := by
    rcases split_at_index hparty with ⟨front, back, rfl, rfl⟩
    rw [set_at_index]
    have hperm := h.perm.trans (reduceOption_around k)
    have hnodup : (k :: (front ++ none :: back).reduceOption).Nodup := hperm.nodup_iff.mp h.nodup
    rcases List.nodup_cons.mp hnodup with ⟨hnot, _⟩
    have hrest : (front ++ none :: back).reduceOption.filter (fun j => j ≠ k) =
        (front ++ none :: back).reduceOption := by
      apply List.filter_eq_self.mpr
      intro j hj
      apply decide_eq_true
      intro hsame
      rw [hsame] at hj
      exact hnot hj
    have hfilter := hperm.filter fun j => decide (j ≠ k)
    rw [List.filter_cons_of_neg (by simp), hrest] at hfilter
    exact hfilter
  nodup := h.nodup.filter _

/-!
# Two parties
-/

theorem mem_reduceOption_of_index {held : List (Option key)} {i : Nat} {k : key}
    (h : held[i]? = some (some k)) : k ∈ held.reduceOption :=
  List.reduceOption_mem_iff.mpr (List.mem_of_getElem? h)

theorem Leased.mem_iff {register : List key} {held : List (Option key)}
    (h : Leased register held) {k : key} :
    k ∈ register <-> exists i : Nat, held[i]? = some (some k) := by
  rw [h.perm.mem_iff, List.reduceOption_mem_iff]
  constructor
  · intro hmem
    exact List.mem_iff_getElem?.mp hmem
  · rintro ⟨i, hi⟩
    exact List.mem_of_getElem? hi

/-- No two parties hold the same key. -/
theorem Leased.unique {register : List key} {held : List (Option key)}
    (h : Leased register held) {i j : Nat} {k : key} (hi : held[i]? = some (some k))
    (hj : held[j]? = some (some k)) : i = j := by
  have hnodup : held.reduceOption.Nodup := h.perm.nodup_iff.mp h.nodup
  rcases split_at_index hi with ⟨front, back, rfl, rfl⟩
  rcases List.nodup_cons.mp ((reduceOption_around k).nodup_iff.mp hnodup) with ⟨hnot, _⟩
  rw [List.reduceOption_append, List.reduceOption_cons_of_none, List.mem_append,
    not_or] at hnot
  rcases Nat.lt_trichotomy j front.length with hlt | heq | hgt
  · rw [List.getElem?_append_left hlt] at hj
    exact absurd (mem_reduceOption_of_index hj) hnot.left
  · exact heq.symm
  · rw [List.getElem?_append_right (Nat.le_of_lt hgt)] at hj
    rcases Nat.exists_eq_add_of_lt hgt with ⟨d, rfl⟩
    have hd : front.length + d + 1 - front.length = d + 1 := by omega
    rw [hd, List.getElem?_cons_succ] at hj
    exact absurd (mem_reduceOption_of_index hj) hnot.right

end Foundation
end UsbIp
