import Mathlib.Data.List.AList

/-!
# Finite tables

A table is a Mathlib association list whose value type does not depend on the
key.  The library lemmas on lookup come in an equal-key and an other-key form;
here they are joined into one equation per operation, so that a proof about a
table is a case split on a key comparison.
-/

namespace UsbIp
namespace Foundation

variable {key value : Type*} [DecidableEq key]

abbrev Table (key value : Type*) := AList (fun _ : key => value)

namespace Table

theorem lookup_insert_eq (t : Table key value) (k j : key) (v : value) :
    (t.insert k v).lookup j = if j = k then some v else t.lookup j := by
  split
  · rename_i h
    rw [h]
    exact AList.lookup_insert t
  · rename_i h
    exact AList.lookup_insert_ne h

theorem lookup_erase_eq (t : Table key value) (k j : key) :
    (t.erase k).lookup j = if j = k then none else t.lookup j := by
  split
  · rename_i h
    rw [h]
    exact AList.lookup_erase k t
  · rename_i h
    exact AList.lookup_erase_ne h

theorem lookup_of_erase {t : Table key value} {k j : key} {v : value}
    (h : (t.erase k).lookup j = some v) : j ≠ k ∧ t.lookup j = some v := by
  rw [lookup_erase_eq] at h
  split at h
  · cases h
  · rename_i hne
    exact ⟨hne, h⟩

theorem mem_iff_lookup {t : Table key value} {k : key} :
    k ∈ t <-> exists v, t.lookup k = some v := by
  rw [← AList.lookup_isSome]
  exact Option.isSome_iff_exists

/-!
# Retained entries
-/

def retain (test : key -> value -> Bool) (t : Table key value) : Table key value where
  entries := t.entries.filter fun e => test e.1 e.2
  nodupKeys := List.NodupKeys.sublist List.filter_sublist t.nodupKeys

theorem mem_entries_iff {t : Table key value} {k : key} {v : value} :
    Sigma.mk k v ∈ t.entries <-> t.lookup k = some v :=
  AList.mem_lookup_iff.symm

theorem lookup_retain_iff {test : key -> value -> Bool} {t : Table key value}
    {k : key} {v : value} :
    (retain test t).lookup k = some v <-> t.lookup k = some v ∧ test k v = true := by
  rw [← mem_entries_iff, ← mem_entries_iff]
  simp [retain]

theorem lookup_of_retain {test : key -> value -> Bool} {t : Table key value}
    {k : key} {v : value} (h : (retain test t).lookup k = some v) :
    t.lookup k = some v :=
  (lookup_retain_iff.mp h).left

theorem mem_retain_keys {test : key -> Bool} {t : Table key value} {k : key} :
    k ∈ retain (fun j _ => test j) t <-> k ∈ t ∧ test k = true := by
  rw [mem_iff_lookup, mem_iff_lookup]
  constructor
  · intro h
    rcases h with ⟨v, hv⟩
    exact ⟨⟨v, lookup_of_retain hv⟩, (lookup_retain_iff.mp hv).right⟩
  · intro h
    rcases h with ⟨⟨v, hv⟩, htest⟩
    exact ⟨v, lookup_retain_iff.mpr ⟨hv, htest⟩⟩

theorem retain_of_forall {test : key -> value -> Bool} {t : Table key value}
    (h : forall k v, t.lookup k = some v -> test k v = true) : retain test t = t := by
  apply AList.ext
  apply List.filter_eq_self.mpr
  intro e he
  exact h e.1 e.2 (mem_entries_iff.mp he)

theorem erase_of_notMem {t : Table key value} {k : key} (h : k ∉ t) : t.erase k = t := by
  apply AList.ext
  exact List.kerase_of_notMem_keys h

theorem entries_perm_erase {t : Table key value} {k : key} {v : value}
    (h : t.lookup k = some v) : t.entries.Perm (⟨k, v⟩ :: (t.erase k).entries) := by
  have hkey : k ∈ t.entries.keys := mem_iff_lookup.mpr ⟨v, h⟩
  rcases List.exists_of_kerase hkey with ⟨w, front, back, _, hsplit, herase⟩
  have hentry : Sigma.mk k w ∈ t.entries := by
    rw [hsplit]
    exact List.mem_append_right _ List.mem_cons_self
  have hvalue : w = v := by
    rw [mem_entries_iff, h] at hentry
    exact (Option.some.inj hentry).symm
  have hrest : (t.erase k).entries = front ++ back := herase
  rw [hrest, hsplit, hvalue]
  exact List.perm_middle

/-!
# Values
-/

def hasValue [DecidableEq value] (t : Table key value) (v : value) : Bool :=
  t.entries.any fun e => e.2 = v

theorem hasValue_iff [DecidableEq value] {t : Table key value} {v : value} :
    hasValue t v = true <-> exists k, t.lookup k = some v := by
  simp only [hasValue, List.any_eq_true, decide_eq_true_eq]
  constructor
  · intro h
    rcases h with ⟨⟨k, w⟩, hmem, hw⟩
    refine ⟨k, mem_entries_iff.mp ?_⟩
    rw [← hw]
    exact hmem
  · intro h
    rcases h with ⟨k, hk⟩
    exact ⟨⟨k, v⟩, mem_entries_iff.mpr hk, rfl⟩

theorem filterMap_entries_eq_singleton {t : Table key value} {k : key} {v : value}
    {image : Type*} {f : value -> Option image} {b : image}
    (hk : t.lookup k = some v) (hv : f v = some b)
    (hother : forall j w, t.lookup j = some w -> j ≠ k -> f w = none) :
    t.entries.filterMap (fun e => f e.2) = [b] := by
  rcases List.append_of_mem (mem_entries_iff.mpr hk) with ⟨front, back, hsplit⟩
  have hkeys : (front.keys ++ k :: back.keys).Nodup := by
    have h := t.nodupKeys
    rw [hsplit] at h
    simpa [List.NodupKeys, List.keys] using h
  rcases List.nodup_middle.mp hkeys with hmiddle
  have hk_notMem : k ∉ front.keys ++ back.keys := (List.nodup_cons.mp hmiddle).left
  have hnone : forall e, e ∈ front ∨ e ∈ back -> f e.2 = none := by
    intro e he
    have hmem : e ∈ t.entries := by
      rw [hsplit]
      rcases he with hfront | hback
      · exact List.mem_append_left _ hfront
      · exact List.mem_append_right _ (List.mem_cons_of_mem _ hback)
    apply hother e.1 e.2 (mem_entries_iff.mp hmem)
    intro hsame
    apply hk_notMem
    rw [← hsame]
    rcases he with hfront | hback
    · exact List.mem_append_left _ (List.mem_keys_of_mem hfront)
    · exact List.mem_append_right _ (List.mem_keys_of_mem hback)
  have hfront : front.filterMap (fun e => f e.2) = [] :=
    List.filterMap_eq_nil_iff.mpr fun e he => hnone e (Or.inl he)
  have hback : back.filterMap (fun e => f e.2) = [] :=
    List.filterMap_eq_nil_iff.mpr fun e he => hnone e (Or.inr he)
  rw [hsplit]
  simp [hfront, hback, hv]

end Table

end Foundation
end UsbIp
