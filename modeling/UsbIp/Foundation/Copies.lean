import Mathlib.Data.List.Basic

/-!
# Copies into a buffer

A copy writes a piece of data over the elements of a buffer from some position
on.  After a list of copies, an element is the one that the last copy over its
position wrote, and where no copy went it is the one that was there before.
-/

namespace UsbIp
namespace Foundation

variable {α : Type}

/-- A piece of data and the position it goes to. -/
structure Copy (α : Type) where
  start : Nat
  piece : List α

def Copy.Covers (c : Copy α) (i : Nat) : Prop :=
  c.start ≤ i ∧ i < c.start + c.piece.length

def Copy.Fits (c : Copy α) (length : Nat) : Prop :=
  c.start + c.piece.length ≤ length

def Copy.written (c : Copy α) (i : Nat) : Option α :=
  if c.start ≤ i then c.piece[i - c.start]? else none

def copyInto (buffer : List α) (c : Copy α) : List α :=
  buffer.take c.start ++ (c.piece ++ buffer.drop (c.start + c.piece.length))

def copyAll (buffer : List α) (copies : List (Copy α)) : List α :=
  copies.foldl copyInto buffer

/-- What the copies leave at a position, if any of them goes there. -/
def lastWritten : List (Copy α) -> Nat -> Option α
  | [], _ => none
  | c :: copies, i => (lastWritten copies i).or (c.written i)

/-!
# One copy
-/

theorem Copy.written_eq_none {c : Copy α} {i : Nat} (h : ¬ c.Covers i) :
    c.written i = none := by
  unfold Copy.written
  split
  · rename_i hstart
    rw [List.getElem?_eq_none]
    unfold Copy.Covers at h
    omega
  · rfl

theorem Copy.written_of_covers {c : Copy α} {i : Nat} (h : c.Covers i) :
    c.written i = c.piece[i - c.start]? :=
  if_pos h.left

theorem Copy.exists_written {c : Copy α} {i : Nat} (h : c.Covers i) :
    exists x, c.written i = some x := by
  rw [Copy.written_of_covers h]
  have hlt : i - c.start < c.piece.length := by
    unfold Copy.Covers at h
    omega
  exact ⟨c.piece[i - c.start], List.getElem?_eq_getElem hlt⟩

theorem copyInto_length {buffer : List α} {c : Copy α} (h : c.Fits buffer.length) :
    (copyInto buffer c).length = buffer.length := by
  unfold Copy.Fits at h
  unfold copyInto
  rw [List.length_append, List.length_append, List.length_take, List.length_drop]
  omega

theorem copyInto_getElem? {buffer : List α} {c : Copy α} (h : c.Fits buffer.length)
    (i : Nat) : (copyInto buffer c)[i]? = (c.written i).or buffer[i]? := by
  unfold Copy.Fits at h
  have hfront : (buffer.take c.start).length = c.start := by
    rw [List.length_take]
    omega
  unfold copyInto
  by_cases hbefore : i < c.start
  · rw [List.getElem?_append_left (by omega), List.getElem?_take_of_lt hbefore,
      Copy.written_eq_none, Option.none_or]
    intro hcovers
    exact Nat.not_le_of_lt hbefore hcovers.left
  · rw [List.getElem?_append_right (by omega), hfront]
    by_cases hinside : i < c.start + c.piece.length
    · have hcovers : c.Covers i := ⟨Nat.le_of_not_lt hbefore, hinside⟩
      rcases Copy.exists_written hcovers with ⟨x, hx⟩
      rw [List.getElem?_append_left (by omega), ← Copy.written_of_covers hcovers, hx,
        Option.some_or]
    · have hnot : ¬ c.Covers i := fun hcovers => hinside hcovers.right
      rw [List.getElem?_append_right (by omega), List.getElem?_drop,
        Copy.written_eq_none hnot, Option.none_or]
      congr 1
      omega

/-!
# Many copies
-/

theorem copyAll_length {copies : List (Copy α)} {buffer : List α}
    (h : forall c, c ∈ copies -> c.Fits buffer.length) :
    (copyAll buffer copies).length = buffer.length := by
  induction copies generalizing buffer with
  | nil => rfl
  | cons c copies ih =>
      have hone := copyInto_length (h c List.mem_cons_self)
      show (copyAll (copyInto buffer c) copies).length = buffer.length
      rw [ih, hone]
      intro d hd
      rw [hone]
      exact h d (List.mem_cons_of_mem c hd)

theorem copyAll_getElem? {copies : List (Copy α)} {buffer : List α}
    (h : forall c, c ∈ copies -> c.Fits buffer.length) (i : Nat) :
    (copyAll buffer copies)[i]? = (lastWritten copies i).or buffer[i]? := by
  induction copies generalizing buffer with
  | nil => rfl
  | cons c copies ih =>
      have hfits : c.Fits buffer.length := h c List.mem_cons_self
      show (copyAll (copyInto buffer c) copies)[i]? = _
      rw [ih, copyInto_getElem? hfits, lastWritten, Option.or_assoc]
      intro d hd
      rw [copyInto_length hfits]
      exact h d (List.mem_cons_of_mem c hd)

theorem lastWritten_eq_none {copies : List (Copy α)} {i : Nat}
    (h : forall c, c ∈ copies -> ¬ c.Covers i) : lastWritten copies i = none := by
  induction copies with
  | nil => rfl
  | cons c copies ih =>
      rw [lastWritten, ih fun d hd => h d (List.mem_cons_of_mem c hd),
        Copy.written_eq_none (h c List.mem_cons_self), Option.none_or]

theorem lastWritten_of_last {copies : List (Copy α)} {k i : Nat} {c : Copy α}
    (hk : copies[k]? = some c) (hcovers : c.Covers i)
    (hlast : forall j d, k < j -> copies[j]? = some d -> ¬ d.Covers i) :
    lastWritten copies i = c.piece[i - c.start]? := by
  induction copies generalizing k with
  | nil => cases hk
  | cons d copies ih =>
      rw [lastWritten]
      cases k with
      | zero =>
          cases hk
          have hrest : lastWritten copies i = none := by
            apply lastWritten_eq_none
            intro e he
            rcases List.mem_iff_getElem?.mp he with ⟨j, hj⟩
            exact hlast (j + 1) e (Nat.succ_pos j) hj
          rw [hrest, Option.none_or, Copy.written_of_covers hcovers]
      | succ k =>
          have hrest := ih hk fun j e hj he => hlast (j + 1) e (Nat.succ_lt_succ hj) he
          have hlt : i - c.start < c.piece.length := by
            unfold Copy.Covers at hcovers
            omega
          rw [hrest, List.getElem?_eq_getElem hlt, Option.some_or]

/-- Where all copies over a position write the same, that is what they leave there. -/
theorem lastWritten_of_agree {copies : List (Copy α)} {i : Nat} {x : α}
    (hagree : forall c, c ∈ copies -> c.Covers i -> c.written i = some x)
    (hex : exists c, c ∈ copies ∧ c.Covers i) : lastWritten copies i = some x := by
  induction copies with
  | nil =>
      rcases hex with ⟨c, hc, _⟩
      cases hc
  | cons c copies ih =>
      have hrest := fun d hd => hagree d (List.mem_cons_of_mem c hd)
      rw [lastWritten]
      by_cases hlater : exists d, d ∈ copies ∧ d.Covers i
      · rw [ih hrest hlater, Option.some_or]
      · have hnone : lastWritten copies i = none := by
          apply lastWritten_eq_none
          intro d hd hcovers
          exact hlater ⟨d, hd, hcovers⟩
        rcases hex with ⟨d, hd, hcovers⟩
        rcases List.mem_cons.mp hd with rfl | hmem
        · rw [hnone, Option.none_or]
          exact hagree d List.mem_cons_self hcovers
        · exact absurd ⟨d, hmem, hcovers⟩ hlater

end Foundation
end UsbIp
