import UsbIp.Foundation.Bytes

/-!
# Checked operations

What a build with overflow checks does: an operation whose result is out of the
range of its type panics, and so does an index or a slice outside of a byte
string.  A panic is nothing here, and a computation that yields something did
not panic.
-/

namespace UsbIp
namespace Foundation

/-- A number that is stored in a type with so many values. -/
def fit (size n : Nat) : Option Nat :=
  if n < size then some n else none

/-- A size or position of a program for a 64-bit machine. -/
def usize (n : Nat) : Option Nat :=
  fit UInt64.size n

def u128 (n : Nat) : Option Nat :=
  fit 340282366920938463463374607431768211456 n

def checkedSub (x y : Nat) : Option Nat :=
  if y ≤ x then some (x - y) else none

def checkedDiv (x y : Nat) : Option Nat :=
  if y = 0 then none else some (x / y)

def slice (bytes : Bytes) (start stop : Nat) : Option Bytes :=
  if start ≤ stop ∧ stop ≤ bytes.length then
    some ((bytes.drop start).take (stop - start))
  else
    none

def neg32 (x : Int32) : Option Int32 :=
  if x = Int32.minValue then none else some (-x)

theorem fit_of_lt {size n : Nat} (h : n < size) : fit size n = some n :=
  if_pos h

theorem usize_of_lt {n : Nat} (h : n < 4294967296) : usize n = some n :=
  fit_of_lt (Nat.lt_trans h (by decide))

theorem u128_of_lt {n : Nat} (h : n < 340282366920938463463374607431768211456) :
    u128 n = some n :=
  fit_of_lt h

theorem checkedSub_of_le {x y : Nat} (h : y ≤ x) : checkedSub x y = some (x - y) :=
  if_pos h

theorem checkedDiv_of_pos {x y : Nat} (h : 0 < y) : checkedDiv x y = some (x / y) :=
  if_neg (Nat.ne_of_gt h)

theorem slice_of_le {bytes : Bytes} {start stop : Nat} (h : start ≤ stop)
    (hstop : stop ≤ bytes.length) :
    slice bytes start stop = some ((bytes.drop start).take (stop - start)) :=
  if_pos ⟨h, hstop⟩

theorem anyM_of_pure {α : Type} {f : α -> Option Bool} {p : α -> Bool} {xs : List α}
    (h : forall x, x ∈ xs -> f x = some (p x)) : xs.anyM f = some (xs.any p) := by
  induction xs with
  | nil => rfl
  | cons x xs ih =>
      rw [List.anyM, h x List.mem_cons_self, List.any_cons]
      cases hx : p x with
      | true => rfl
      | false =>
          simpa using ih fun y hy => h y (List.mem_cons_of_mem x hy)

def filterChecked {α : Type} (f : α -> Option Bool) : List α -> Option (List α)
  | [] => some []
  | x :: xs => do
      let keep ← f x
      let rest ← filterChecked f xs
      return if keep then x :: rest else rest

theorem filterChecked_of_pure {α : Type} {f : α -> Option Bool} {p : α -> Bool}
    {xs : List α} (h : forall x, x ∈ xs -> f x = some (p x)) :
    filterChecked f xs = some (xs.filter p) := by
  induction xs with
  | nil => rfl
  | cons x xs ih =>
      have hrest := ih fun y hy => h y (List.mem_cons_of_mem x hy)
      rw [filterChecked, h x List.mem_cons_self, hrest, List.filter_cons]
      rfl

end Foundation
end UsbIp
