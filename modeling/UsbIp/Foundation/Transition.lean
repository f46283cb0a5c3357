import Mathlib.Data.List.Basic

/-!
# Runs of a transition function

A system is a step function on states, driven by a list of labels.  A run is
the left fold of the step function over the labels.  This module packages the
two inductions every safety proof needs: an invariant of single steps holds
after every run, and an invariant of the steps a guard admits holds after every
run whose labels all pass the guard in the state they meet.
-/

namespace UsbIp
namespace Foundation

variable {state label : Type*}

/-!
# Guarded runs

A guard may look at the state in which a label is taken, so it is checked along
the run and not on the list of labels alone.
-/

/-- Every label of the run passes the guard in the state it meets. -/
def Guarded (step : state -> label -> state) (guard : state -> label -> Prop) :
    state -> List label -> Prop
  | _, [] => True
  | s, l :: rest => guard s l ∧ Guarded step guard (step s l) rest

instance guardedDecidable (step : state -> label -> state)
    (guard : state -> label -> Prop) [forall s l, Decidable (guard s l)] :
    forall (s : state) (ls : List label), Decidable (Guarded step guard s ls)
  | _, [] => isTrue trivial
  | s, l :: rest =>
      have := guardedDecidable step guard (step s l) rest
      inferInstanceAs (Decidable (guard s l ∧ Guarded step guard (step s l) rest))

theorem guarded_of_forall {step : state -> label -> state}
    {guard : state -> label -> Prop} {ls : List label}
    (h : forall l, l ∈ ls -> forall s, guard s l) (s : state) :
    Guarded step guard s ls := by
  induction ls generalizing s with
  | nil =>
      exact trivial
  | cons l rest ih =>
      constructor
      · exact h l List.mem_cons_self s
      · exact ih (fun k hk => h k (List.mem_cons_of_mem l hk)) (step s l)

theorem guarded_append {step : state -> label -> state} {guard : state -> label -> Prop}
    {s : state} {front back : List label}
    (h : Guarded step guard s (front ++ back)) :
    Guarded step guard s front ∧ Guarded step guard (front.foldl step s) back := by
  induction front generalizing s with
  | nil =>
      exact ⟨trivial, h⟩
  | cons l front ih =>
      rcases h with ⟨hl, hrest⟩
      exact ⟨⟨hl, (ih hrest).left⟩, (ih hrest).right⟩

theorem Guarded.append {step : state -> label -> state} {guard : state -> label -> Prop}
    {s : state} {front back : List label} (hfront : Guarded step guard s front)
    (hback : Guarded step guard (front.foldl step s) back) :
    Guarded step guard s (front ++ back) := by
  induction front generalizing s with
  | nil =>
      exact hback
  | cons l front ih =>
      rcases hfront with ⟨hl, hrest⟩
      exact ⟨hl, ih hrest hback⟩

/-- Where an invariant lets one guard stand for another, it does so along the run. -/
theorem Guarded.weaken {step : state -> label -> state}
    {guard guard' : state -> label -> Prop} {I : state -> Prop}
    (hstep : forall s l, guard s l -> I s -> guard' s l ∧ I (step s l))
    {s : state} {ls : List label} (h : Guarded step guard s ls) (hinit : I s) :
    Guarded step guard' s ls := by
  induction ls generalizing s with
  | nil =>
      exact trivial
  | cons l rest ih =>
      rcases h with ⟨hl, hrest⟩
      rcases hstep s l hl hinit with ⟨hguard, hnext⟩
      exact ⟨hguard, ih hrest hnext⟩

theorem invariant_of_guarded
    {step : state -> label -> state} {guard : state -> label -> Prop}
    {I : state -> Prop}
    (hstep : forall s l, guard s l -> I s -> I (step s l))
    {s : state} {ls : List label}
    (hguard : Guarded step guard s ls) (hinit : I s) :
    I (ls.foldl step s) := by
  induction ls generalizing s with
  | nil =>
      exact hinit
  | cons l rest ih =>
      rcases hguard with ⟨hl, hrest⟩
      exact ih hrest (hstep s l hl hinit)

/--
If every guarded step of one system shows in the view of another as a guarded
run of it, then so does every guarded run.
-/
theorem simulation_of_guarded_runs {state' label' : Type*}
    {step : state -> label -> state} {guard : state -> label -> Prop}
    {step' : state' -> label' -> state'} {guard' : state' -> label' -> Prop}
    {I : state -> Prop} {view : state -> state'}
    (hstep : forall s l, guard s l -> I s -> I (step s l) ∧
      exists ms, Guarded step' guard' (view s) ms ∧
        view (step s l) = ms.foldl step' (view s))
    {s : state} {ls : List label} (hguard : Guarded step guard s ls) (hinit : I s) :
    exists ms, Guarded step' guard' (view s) ms ∧
      view (ls.foldl step s) = ms.foldl step' (view s) := by
  induction ls generalizing s with
  | nil =>
      exact ⟨[], trivial, rfl⟩
  | cons l rest ih =>
      rcases hguard with ⟨hl, hrest⟩
      rcases hstep s l hl hinit with ⟨hnext, front, hfront, hview⟩
      rcases ih hrest hnext with ⟨back, hback, hend⟩
      rw [hview] at hback hend
      refine ⟨front ++ back, hfront.append hback, ?_⟩
      rw [List.foldl_append]
      exact hend

theorem simulation_of_guarded {state' label' : Type*}
    {step : state -> label -> state} {guard : state -> label -> Prop}
    {step' : state' -> label' -> state'} {guard' : state' -> label' -> Prop}
    {I : state -> Prop} {view : state -> state'}
    (hstep : forall s l, guard s l -> I s -> I (step s l) ∧
      (view (step s l) = view s ∨
        exists m, guard' (view s) m ∧ view (step s l) = step' (view s) m))
    {s : state} {ls : List label} (hguard : Guarded step guard s ls) (hinit : I s) :
    exists ms, Guarded step' guard' (view s) ms ∧
      view (ls.foldl step s) = ms.foldl step' (view s) := by
  refine simulation_of_guarded_runs (I := I) ?_ hguard hinit
  intro s l hl hs
  rcases hstep s l hl hs with ⟨hnext, hsame | ⟨m, hm, hmove⟩⟩
  · exact ⟨hnext, [], trivial, hsame⟩
  · exact ⟨hnext, [m], ⟨hm, trivial⟩, hmove⟩

theorem invariant_of_step
    {step : state -> label -> state} {I : state -> Prop}
    (hstep : forall s l, I s -> I (step s l))
    {s : state} (ls : List label) (hinit : I s) :
    I (ls.foldl step s) := by
  induction ls generalizing s with
  | nil =>
      exact hinit
  | cons l rest ih =>
      exact ih (hstep s l hinit)

theorem relation_of_step
    {step : state -> label -> state} {r : state -> state -> Prop}
    (hrefl : forall s, r s s)
    (htrans : forall s t u, r s t -> r t u -> r s u)
    (hstep : forall s l, r s (step s l))
    (s : state) (ls : List label) :
    r s (ls.foldl step s) := by
  induction ls generalizing s with
  | nil =>
      exact hrefl s
  | cons l rest ih =>
      exact htrans s (step s l) _ (hstep s l) (ih (step s l))

end Foundation
end UsbIp
