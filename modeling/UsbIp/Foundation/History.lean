import Mathlib.Data.List.Basic
import Mathlib.Data.List.Sort

/-!
# Histories

A history is a list of events, newest first.  Statements about a whole run are
statements about its history: every event was justified by what came before it,
or nothing of some kind has happened since an event of another kind.  Both are
defined by recursion on the history, so that a step that adds an event is
followed by one look at that event, and both are shown to mean what they say
about every position in the history.
-/

namespace UsbIp
namespace Foundation

variable {event : Type*}

/-!
# Since
-/

/-- There was a `start`, and nothing `bad` has happened since the last one. -/
def Since (start bad : event -> Prop) : List event -> Prop
  | [] => False
  | x :: older => start x ∨ (¬ bad x ∧ Since start bad older)

theorem Since.here {start bad : event -> Prop} {x : event} {older : List event}
    (h : start x) : Since start bad (x :: older) :=
  Or.inl h

theorem Since.later {start bad : event -> Prop} {x : event} {older : List event}
    (hx : ¬ bad x) (h : Since start bad older) : Since start bad (x :: older) :=
  Or.inr ⟨hx, h⟩

theorem Since.split {start bad : event -> Prop} {log : List event}
    (h : Since start bad log) :
    exists newer x older, log = newer ++ x :: older ∧ start x ∧
      forall y, y ∈ newer -> ¬ bad y := by
  induction log with
  | nil => cases h
  | cons x older ih =>
      rcases h with hstart | ⟨hx, hrest⟩
      · refine ⟨[], x, older, rfl, hstart, ?_⟩
        intro y hy
        cases hy
      · rcases ih hrest with ⟨newer, z, oldest, hsplit, hz, hnot⟩
        refine ⟨x :: newer, z, oldest, by rw [hsplit]; rfl, hz, ?_⟩
        intro y hy
        rcases List.mem_cons.mp hy with rfl | hy
        · exact hx
        · exact hnot y hy

theorem Since.exists {start bad : event -> Prop} {log : List event}
    (h : Since start bad log) : exists x, x ∈ log ∧ start x := by
  rcases h.split with ⟨newer, x, older, rfl, hx, _⟩
  exact ⟨x, List.mem_append_right _ List.mem_cons_self, hx⟩

theorem Since.between {start bad : event -> Prop} {newer older : List event} {x : event}
    (h : Since start bad (newer ++ x :: older)) (hbad : bad x) (hstart : ¬ start x) :
    exists y, y ∈ newer ∧ start y := by
  induction newer with
  | nil =>
      rcases h with hx | ⟨hx, _⟩
      · exact absurd hx hstart
      · exact absurd hbad hx
  | cons y newer ih =>
      rcases h with hy | ⟨_, hrest⟩
      · exact ⟨y, List.mem_cons_self, hy⟩
      · rcases ih hrest with ⟨z, hz, hstartz⟩
        exact ⟨z, List.mem_cons_of_mem y hz, hstartz⟩

/-!
# Justified events
-/

/-- Every event is justified by the history before it. -/
def Justified (why : event -> List event -> Prop) : List event -> Prop
  | [] => True
  | x :: older => why x older ∧ Justified why older

theorem Justified.at {why : event -> List event -> Prop} {log : List event}
    (h : Justified why log) {newer older : List event} {x : event}
    (hsplit : log = newer ++ x :: older) : why x older := by
  induction newer generalizing log with
  | nil =>
      subst hsplit
      exact h.left
  | cons y newer ih =>
      subst hsplit
      exact ih h.right rfl

theorem Justified.pairwise {why : event -> List event -> Prop} {r : event -> event -> Prop}
    (hwhy : forall x older, why x older -> forall y, y ∈ older -> r x y) {log : List event}
    (h : Justified why log) : log.Pairwise r := by
  induction log with
  | nil => exact List.Pairwise.nil
  | cons x older ih => exact List.Pairwise.cons (hwhy x older h.left) (ih h.right)

/-!
# Two records in order
-/

/--
Two records of values, each in the order of its own numbers.  If every value of
the first is found in the second under a number that goes up with its own, the
first record is part of the second.
-/
theorem sublist_of_match {value : Type*} (pairs : Nat -> Nat -> Prop)
    {xs ys : List (Nat × value)} (hxs : xs.Pairwise fun x y => x.1 < y.1)
    (hys : ys.Pairwise fun x y => x.1 < y.1)
    (hmatch : forall x, x ∈ xs -> exists n, pairs x.1 n ∧ (n, x.2) ∈ ys)
    (hmono : forall t n t' n', pairs t n -> pairs t' n' -> t < t' -> n < n') :
    (xs.map Prod.snd).Sublist (ys.map Prod.snd) := by
  choose! number hnumber using hmatch
  have hsorted : (xs.map fun x => (number x, x.2)).Pairwise fun x y => x.1 < y.1 := by
    apply List.pairwise_map.mpr
    refine hxs.imp_of_mem ?_
    intro x y hx hy hlt
    exact hmono _ _ _ _ (hnumber x hx).left (hnumber y hy).left hlt
  have hsubset : (xs.map fun x => (number x, x.2)) ⊆ ys := by
    intro y hy
    rcases List.mem_map.mp hy with ⟨x, hx, rfl⟩
    exact (hnumber x hx).right
  have hantisymm : Std.Antisymm fun x y : Nat × value => x.1 < y.1 :=
    ⟨fun _ _ h h' => absurd h' (Nat.lt_asymm h)⟩
  have hnodup : (xs.map fun x => (number x, x.2)).Nodup :=
    hsorted.imp fun hlt heq => Nat.ne_of_lt hlt (congrArg Prod.fst heq)
  have hsub := List.sublist_of_subperm_of_pairwise
    (List.subperm_of_subset hnodup hsubset) hsorted hys
  have hvalues := hsub.map Prod.snd
  rw [List.map_map] at hvalues
  exact hvalues

end Foundation
end UsbIp
