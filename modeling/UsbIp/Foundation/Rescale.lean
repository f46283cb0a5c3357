import Mathlib.Data.Nat.Init

/-!
# Changing the scale

A number counted in one unit is counted in another by multiplying with the one
size and dividing by the other, rounded down.  There and back again never comes
out above where it began, one step further on the coarse scale comes out at or
above it, and nothing is lost if the coarse unit is a multiple of the fine one.
-/

namespace UsbIp
namespace Foundation

/-- `x` units of size `fine` in units of size `coarse`, rounded down. -/
def rescale (fine coarse x : Nat) : Nat :=
  x * fine / coarse

theorem rescale_mono {fine coarse x y : Nat} (h : x ≤ y) :
    rescale fine coarse x ≤ rescale fine coarse y :=
  Nat.div_le_div_right (Nat.mul_le_mul_right fine h)

theorem rescale_le {fine coarse : Nat} (h : fine ≤ coarse) (x : Nat) :
    rescale fine coarse x ≤ x := by
  apply Nat.div_le_of_le_mul
  calc
    x * fine ≤ x * coarse := Nat.mul_le_mul_left x h
    _ = coarse * x := Nat.mul_comm x coarse

theorem rescale_mul_le (fine coarse x : Nat) : rescale fine coarse x * coarse ≤ x * fine :=
  Nat.div_mul_le_self (x * fine) coarse

theorem lt_rescale_succ_mul {coarse : Nat} (hcoarse : 0 < coarse) (fine x : Nat) :
    x * fine < (rescale fine coarse x + 1) * coarse := by
  rw [Nat.mul_comm (rescale fine coarse x + 1)]
  exact Nat.lt_mul_div_succ (x * fine) hcoarse

/-- Back on the fine scale, what was counted on the coarse one began at `x` or before. -/
theorem rescale_rescale_le (fine coarse x : Nat) :
    rescale coarse fine (rescale fine coarse x) ≤ x := by
  apply Nat.div_le_of_le_mul
  rw [Nat.mul_comm fine]
  exact rescale_mul_le fine coarse x

theorem le_rescale_succ {fine coarse : Nat} (hfine : 0 < fine) (hcoarse : 0 < coarse)
    (x : Nat) : x ≤ rescale coarse fine (rescale fine coarse x + 1) := by
  apply (Nat.le_div_iff_mul_le hfine).mpr
  exact Nat.le_of_lt (lt_rescale_succ_mul hcoarse fine x)

section Multiple

variable {fine coarse : Nat} (hdvd : fine ∣ coarse)
include hdvd

theorem rescale_mul_cancel (y : Nat) : rescale coarse fine y * fine = y * coarse :=
  Nat.div_mul_cancel (Nat.dvd_trans hdvd (Nat.dvd_mul_left coarse y))

theorem lt_rescale_succ (hcoarse : 0 < coarse) (x : Nat) :
    x < rescale coarse fine (rescale fine coarse x + 1) := by
  apply Nat.lt_of_mul_lt_mul_right (a := fine)
  rw [rescale_mul_cancel hdvd]
  exact lt_rescale_succ_mul hcoarse fine x

theorem rescale_rescale (hcoarse : 0 < coarse) (y : Nat) :
    rescale fine coarse (rescale coarse fine y) = y := by
  show rescale coarse fine y * fine / coarse = y
  rw [rescale_mul_cancel hdvd]
  exact Nat.mul_div_cancel y hcoarse

end Multiple

end Foundation
end UsbIp
