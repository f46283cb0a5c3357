import Mathlib.Tactic.TypeStar

/-!
# Recursive code

The body of a recursive function, or of several that call each other, is code that
gets the answers to its own calls from outside.  The functions it defines are those
that solve its equation.  Where every call of the body is a tail call with a smaller
argument, there is exactly one solution, and it is what calls nested deep enough
come to, whatever answers the calls below that depth.
-/

namespace UsbIp
namespace Foundation

variable {α β : Type*}

/-- The function satisfies the equation that the code states. -/
def Solves (code : (α -> β) -> α -> β) (f : α -> β) : Prop :=
  forall x, f x = code f x

/-- Calls nested so deep. Those further down are answered by `bottom`. -/
def nested (code : (α -> β) -> α -> β) (bottom : α -> β) : Nat -> α -> β
  | 0 => bottom
  | depth + 1 => code (nested code bottom depth)

/-- What a call comes to, whoever answers the calls it makes in turn. -/
inductive Unfolds (code : (α -> β) -> α -> β) (Returns : α -> β -> Prop)
    (Calls : α -> α -> Prop) (x : α) : Prop where
  | returns (y : β) (hreturns : Returns x y) (h : forall f, code f x = y)
  | calls (x' : α) (hcalls : Calls x x') (h : forall f, code f x = f x')

/-- Tail calls whose arguments become smaller. -/
structure TailCalls (code : (α -> β) -> α -> β) (Returns : α -> β -> Prop)
    (Calls : α -> α -> Prop) (size : α -> Nat) : Prop where
  unfolds : forall x, Unfolds code Returns Calls x
  smaller : forall {x x' : α}, Calls x x' -> size x' < size x

variable {code : (α -> β) -> α -> β} {Returns : α -> β -> Prop} {Calls : α -> α -> Prop}
  {size : α -> Nat}

theorem Solves.nested_eq {f : α -> β} (h : Solves code f) (depth : Nat) (x : α) :
    nested code f depth x = f x := by
  induction depth generalizing x with
  | zero => rfl
  | succ depth ih =>
      have hbelow : nested code f depth = f := funext ih
      rw [nested, hbelow]
      exact (h x).symm

namespace TailCalls

theorem nested_eq (h : TailCalls code Returns Calls size) (bottom bottom' : α -> β)
    {m n : Nat} {x : α} (hm : size x < m) (hn : size x < n) :
    nested code bottom m x = nested code bottom' n x := by
  induction m generalizing n x with
  | zero => cases hm
  | succ m ih =>
      cases n with
      | zero => cases hn
      | succ n =>
          rw [nested, nested]
          cases h.unfolds x with
          | returns _ _ hcode => rw [hcode, hcode]
          | calls _ hcalls hcode =>
              have hsmaller := h.smaller hcalls
              rw [hcode, hcode]
              apply ih
              · exact Nat.lt_of_lt_of_le hsmaller (Nat.le_of_lt_succ hm)
              · exact Nat.lt_of_lt_of_le hsmaller (Nat.le_of_lt_succ hn)

/-- Calls nested deep enough for their argument solve the equation. -/
theorem solves (h : TailCalls code Returns Calls size) (bottom : α -> β) :
    Solves code fun x => nested code bottom (size x + 1) x := by
  intro x
  dsimp only
  rw [nested]
  cases h.unfolds x with
  | returns _ _ hcode => rw [hcode, hcode]
  | calls _ hcalls hcode =>
      rw [hcode, hcode]
      exact h.nested_eq bottom bottom (h.smaller hcalls) (Nat.lt_succ_self _)

theorem nested_eq_of_solves (h : TailCalls code Returns Calls size) {f : α -> β}
    (hf : Solves code f) (bottom : α -> β) {n : Nat} {x : α} (hn : size x < n) :
    nested code bottom n x = f x := by
  rw [h.nested_eq bottom f hn hn]
  exact hf.nested_eq n x

/-- What holds of each answer and passes back through each call holds of the solution. -/
theorem post (h : TailCalls code Returns Calls size) {f : α -> β} (hf : Solves code f)
    {P : α -> β -> Prop} (hreturns : forall {x y}, Returns x y -> P x y)
    (hcalls : forall {x x' y}, Calls x x' -> P x' y -> P x y) (x : α) : P x (f x) := by
  induction hn : size x using Nat.strongRecOn generalizing x with
  | ind n ih =>
      cases h.unfolds x with
      | returns _ hreturn hcode =>
          rw [hf x, hcode]
          exact hreturns hreturn
      | calls x' hcall hcode =>
          have hsmaller : size x' < n := by
            rw [← hn]
            exact h.smaller hcall
          rw [hf x, hcode]
          exact hcalls hcall (ih (size x') hsmaller x' rfl)

end TailCalls

end Foundation
end UsbIp
