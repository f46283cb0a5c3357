import Mathlib.Data.List.TakeWhile

/-!
# Sections of a list

A list falls into the elements before the first one that opens a section, and
the sections, each from an opening element up to the next one.  The two parts
put together are the list again, and sections put behind each other are found
again one by one.
-/

namespace UsbIp
namespace Foundation

variable {α : Type} (opens : α -> Bool)

def leading (xs : List α) : List α :=
  xs.takeWhile fun x => !opens x

def sections : List α -> List (List α)
  | [] => []
  | x :: xs => if opens x then (x :: leading opens xs) :: sections xs else sections xs

variable {opens}

theorem leading_cons_opens {x : α} (h : opens x = true) (xs : List α) :
    leading opens (x :: xs) = [] := by
  simp [leading, h]

theorem leading_cons_other {x : α} (h : opens x = false) (xs : List α) :
    leading opens (x :: xs) = x :: leading opens xs := by
  simp [leading, h]

theorem sections_cons_opens {x : α} (h : opens x = true) (xs : List α) :
    sections opens (x :: xs) = (x :: leading opens xs) :: sections opens xs := by
  simp [sections, h]

theorem sections_cons_other {x : α} (h : opens x = false) (xs : List α) :
    sections opens (x :: xs) = sections opens xs := by
  simp [sections, h]

theorem leading_append_sections (opens : α -> Bool) (xs : List α) :
    leading opens xs ++ (sections opens xs).flatten = xs := by
  induction xs with
  | nil => rfl
  | cons x xs ih =>
      cases hx : opens x with
      | true =>
          rw [leading_cons_opens hx, sections_cons_opens hx, List.flatten_cons,
            List.nil_append, List.cons_append, ih]
      | false =>
          rw [leading_cons_other hx, sections_cons_other hx, List.cons_append, ih]

/-- A list that opens with its first element and nowhere else. -/
def IsSection (opens : α -> Bool) (s : List α) : Prop :=
  exists x xs, s = x :: xs ∧ opens x = true ∧ forall y, y ∈ xs -> opens y = false

theorem mem_leading {x : α} {xs : List α} (h : x ∈ leading opens xs) :
    opens x = false := by
  simpa using List.mem_takeWhile_imp h

theorem isSection_of_mem {s : List α} {xs : List α} (h : s ∈ sections opens xs) :
    IsSection opens s := by
  induction xs with
  | nil => cases h
  | cons x xs ih =>
      cases hx : opens x with
      | true =>
          rw [sections_cons_opens hx] at h
          rcases List.mem_cons.mp h with rfl | h
          · exact ⟨x, leading opens xs, rfl, hx, fun y hy => mem_leading hy⟩
          · exact ih h
      | false =>
          rw [sections_cons_other hx] at h
          exact ih h

theorem sections_append_of_other {front : List α}
    (h : forall x, x ∈ front -> opens x = false) (xs : List α) :
    sections opens (front ++ xs) = sections opens xs := by
  induction front with
  | nil => rfl
  | cons x front ih =>
      rw [List.cons_append, sections_cons_other (h x List.mem_cons_self)]
      exact ih fun y hy => h y (List.mem_cons_of_mem x hy)

theorem leading_append_of_other {front : List α}
    (h : forall x, x ∈ front -> opens x = false) (xs : List α) :
    leading opens (front ++ xs) = front ++ leading opens xs := by
  induction front with
  | nil => rfl
  | cons x front ih =>
      rw [List.cons_append, leading_cons_other (h x List.mem_cons_self),
        ih fun y hy => h y (List.mem_cons_of_mem x hy), List.cons_append]

theorem leading_flatten_append {ss : List (List α)}
    (h : forall s, s ∈ ss -> IsSection opens s) {xs : List α} (hxs : leading opens xs = []) :
    leading opens (ss.flatten ++ xs) = [] := by
  cases ss with
  | nil => exact hxs
  | cons s ss =>
      rcases h s List.mem_cons_self with ⟨x, rest, rfl, hx, _⟩
      rw [List.flatten_cons, List.append_assoc, List.cons_append, leading_cons_opens hx]

theorem sections_flatten_append {ss : List (List α)}
    (h : forall s, s ∈ ss -> IsSection opens s) {xs : List α} (hxs : leading opens xs = []) :
    sections opens (ss.flatten ++ xs) = ss ++ sections opens xs := by
  induction ss with
  | nil => rfl
  | cons s ss ih =>
      have htail : forall t, t ∈ ss -> IsSection opens t := fun t ht =>
        h t (List.mem_cons_of_mem s ht)
      rcases h s List.mem_cons_self with ⟨x, rest, rfl, hx, hrest⟩
      rw [List.flatten_cons, List.append_assoc, List.cons_append, sections_cons_opens hx,
        leading_append_of_other hrest, leading_flatten_append htail hxs, List.append_nil,
        sections_append_of_other hrest, ih htail, List.cons_append]

theorem sections_flatten {ss : List (List α)}
    (h : forall s, s ∈ ss -> IsSection opens s) : sections opens ss.flatten = ss := by
  have happend : sections opens (ss.flatten ++ []) = ss ++ sections opens [] :=
    sections_flatten_append h rfl
  rw [List.append_nil] at happend
  rw [happend]
  exact List.append_nil ss

theorem head_of_opens {ss : List (List α)} (h : forall s, s ∈ ss -> IsSection opens s)
    {x : α} (hx : x ∈ ss.flatten) (hopens : opens x = true) :
    exists rest, (x :: rest) ∈ ss := by
  rcases List.mem_flatten.mp hx with ⟨s, hs, hxs⟩
  rcases h s hs with ⟨y, rest, rfl, _, hrest⟩
  rcases List.mem_cons.mp hxs with rfl | hxs
  · exact ⟨rest, hs⟩
  · rw [hrest x hxs] at hopens
    cases hopens

theorem mem_of_section {x : α} {rest xs : List α} (h : (x :: rest) ∈ sections opens xs) :
    x ∈ xs ∧ opens x = true := by
  constructor
  · rw [← leading_append_sections opens xs]
    exact List.mem_append_right _ (List.mem_flatten.mpr ⟨_, h, List.mem_cons_self⟩)
  · rcases isSection_of_mem h with ⟨y, ys, heq, hy, _⟩
    cases heq
    exact hy

end Foundation
end UsbIp
