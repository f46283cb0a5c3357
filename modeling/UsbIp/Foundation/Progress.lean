import UsbIp.Foundation.Transition

/-!
# Progress

Tasks that work on one state, each on what another one has left for it.  A step
of a task that has nothing to do changes nothing, and every other step leaves
less to do.  Then there is an end to it: after as many rounds as there is work,
each of which gives every task a turn, nothing is left.  A round may take the
tasks in any order, and each of them any number of times.
-/

namespace UsbIp
namespace Foundation

variable {state label task : Type*}

/-- Steps of tasks keep an invariant, and get done what there is to do. -/
structure Descent (step : state -> label -> state) (taskOf : label -> Option task)
    (I : state -> Prop) (idle : task -> state -> Prop) (left : state -> Nat) : Prop where
  kept : forall {s : state} {l : label} {t : task}, I s -> taskOf l = some t -> I (step s l)
  lowers : forall {s : state} {l : label} {t : task}, I s -> taskOf l = some t ->
    (step s l = s ∧ idle t s) ∨ left (step s l) < left s
  done : forall {s : state}, I s -> (forall t, idle t s) -> left s = 0

/-- Every task gets a turn, and nothing else happens. -/
structure Round (taskOf : label -> Option task) (round : List label) : Prop where
  only : forall l, l ∈ round -> exists t, taskOf l = some t
  every : forall t, exists l, l ∈ round ∧ taskOf l = some t

section

variable {step : state -> label -> state} {taskOf : label -> Option task}
  {I : state -> Prop} {idle : task -> state -> Prop} {left : state -> Nat}

theorem Descent.kept_run (h : Descent step taskOf I idle left) {s : state} {ls : List label}
    (honly : forall l, l ∈ ls -> exists t, taskOf l = some t) (hs : I s) :
    I (ls.foldl step s) := by
  induction ls generalizing s with
  | nil =>
      exact hs
  | cons l rest ih =>
      rcases honly l List.mem_cons_self with ⟨t, ht⟩
      exact ih (fun k hk => honly k (List.mem_cons_of_mem l hk)) (h.kept hs ht)

theorem Descent.run (h : Descent step taskOf I idle left) {s : state} {ls : List label}
    (honly : forall l, l ∈ ls -> exists t, taskOf l = some t) (hs : I s) :
    (ls.foldl step s = s ∧ forall l, l ∈ ls -> forall t, taskOf l = some t -> idle t s) ∨
      left (ls.foldl step s) < left s := by
  induction ls generalizing s with
  | nil =>
      refine Or.inl ⟨rfl, ?_⟩
      intro l hl
      cases hl
  | cons l rest ih =>
      rcases honly l List.mem_cons_self with ⟨t, ht⟩
      have hrest := ih (fun k hk => honly k (List.mem_cons_of_mem l hk)) (h.kept hs ht)
      rw [List.foldl_cons]
      rcases h.lowers hs ht with ⟨hsame, hidle⟩ | hless
      · rw [hsame] at hrest ⊢
        rcases hrest with ⟨hend, hidles⟩ | hless
        · refine Or.inl ⟨hend, ?_⟩
          intro k hk u hu
          rcases List.mem_cons.mp hk with rfl | hmem
          · rw [ht] at hu
            cases hu
            exact hidle
          · exact hidles k hmem u hu
        · exact Or.inr hless
      · rcases hrest with ⟨hend, _⟩ | hrest
        · rw [hend]
          exact Or.inr hless
        · exact Or.inr (Nat.lt_trans hrest hless)

theorem Descent.round (h : Descent step taskOf I idle left) {s : state} {round : List label}
    (hround : Round taskOf round) (hs : I s) (hleft : left s ≠ 0) :
    left (round.foldl step s) < left s := by
  rcases h.run hround.only hs with ⟨_, hidle⟩ | hless
  · refine absurd (h.done hs ?_) hleft
    intro t
    rcases hround.every t with ⟨l, hl, ht⟩
    exact hidle l hl t ht
  · exact hless

theorem Descent.run_le (h : Descent step taskOf I idle left) {s : state} {ls : List label}
    (honly : forall l, l ∈ ls -> exists t, taskOf l = some t) (hs : I s) :
    left (ls.foldl step s) ≤ left s := by
  rcases h.run honly hs with ⟨hend, _⟩ | hless
  · exact Nat.le_of_eq (congrArg left hend)
  · exact Nat.le_of_lt hless

/-- As many rounds as there is work leave nothing to do. -/
theorem Descent.rounds (h : Descent step taskOf I idle left) {s : state}
    {rounds : List (List label)} (hrounds : forall round, round ∈ rounds -> Round taskOf round)
    (hs : I s) (hmany : left s ≤ rounds.length) :
    left (rounds.flatten.foldl step s) = 0 := by
  induction rounds generalizing s with
  | nil => exact Nat.le_zero.mp hmany
  | cons round rest ih =>
      have hround := hrounds round List.mem_cons_self
      rw [List.flatten_cons, List.foldl_append]
      apply ih (fun other hother => hrounds other (List.mem_cons_of_mem round hother))
        (h.kept_run hround.only hs)
      by_cases hzero : left s = 0
      · have hle := h.run_le hround.only hs
        rw [hzero] at hle
        exact Nat.le_trans hle (Nat.zero_le _)
      · have hless := h.round hround hs hzero
        rw [List.length_cons] at hmany
        exact Nat.le_of_lt_succ (Nat.lt_of_lt_of_le hless hmany)

theorem rounds_only {rounds : List (List label)}
    (h : forall round, round ∈ rounds -> Round taskOf round) :
    forall l, l ∈ rounds.flatten -> exists t, taskOf l = some t := by
  intro l hl
  rcases List.mem_flatten.mp hl with ⟨round, hround, hmem⟩
  exact (h round hround).only l hmem

end

end Foundation
end UsbIp
