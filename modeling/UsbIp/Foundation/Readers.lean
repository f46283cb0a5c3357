import Mathlib.Data.List.Basic

/-!
# Readers

A reader takes elements off the front of a list and leaves the rest to the next
one, or fails.  What matters of a reader that is to decode a stream is that it
does not look behind what it takes: with more elements behind the list it takes
the same ones and leaves the others.  Such a reader fails on every part of an
encoding that lacks something at its end.
-/

namespace UsbIp
namespace Foundation

abbrev Reader (σ ε α : Type) := StateT (List σ) (Except ε) α

namespace Reader

variable {σ ε α β : Type}

/-- More elements behind the list do not change what is read. -/
def Extends (r : Reader σ ε α) : Prop :=
  forall xs a rest more, r xs = .ok (a, rest) -> r (xs ++ more) = .ok (a, rest ++ more)

theorem bind_ok {r : Reader σ ε α} {xs rest : List σ} {a : α} (h : r xs = .ok (a, rest))
    (f : α -> Reader σ ε β) : (r >>= f) xs = f a rest := by
  show (r xs >>= fun x => f x.1 x.2) = f a rest
  rw [h]
  rfl

theorem bind_error {r : Reader σ ε α} {xs : List σ} {e : ε} (h : r xs = .error e)
    (f : α -> Reader σ ε β) : (r >>= f) xs = .error e := by
  show (r xs >>= fun x => f x.1 x.2) = .error e
  rw [h]
  rfl

theorem bind_eq_ok {r : Reader σ ε α} {f : α -> Reader σ ε β} {xs rest : List σ} {b : β}
    (h : (r >>= f) xs = .ok (b, rest)) :
    exists a middle, r xs = .ok (a, middle) ∧ f a middle = .ok (b, rest) := by
  cases hr : r xs with
  | error e =>
      rw [bind_error hr] at h
      cases h
  | ok found =>
      rcases found with ⟨a, middle⟩
      rw [bind_ok hr] at h
      exact ⟨a, middle, rfl, h⟩

theorem Extends.bind {r : Reader σ ε α} {f : α -> Reader σ ε β} (hr : r.Extends)
    (hf : forall a, (f a).Extends) : (r >>= f).Extends := by
  intro xs b rest more h
  rcases bind_eq_ok h with ⟨a, middle, ha, hb⟩
  rw [bind_ok (hr xs a middle more ha)]
  exact hf a middle b rest more hb

theorem Extends.pure (a : α) : (Pure.pure a : Reader σ ε α).Extends := by
  intro xs b rest more h
  cases h
  rfl

theorem Extends.throw (e : ε) : (throw e : Reader σ ε α).Extends := by
  intro xs a rest more h
  cases h

theorem Extends.ite {p : Prop} [Decidable p] {r s : Reader σ ε α} (hr : r.Extends)
    (hs : s.Extends) : (if p then r else s).Extends := by
  split
  · exact hr
  · exact hs

theorem Extends.front_fails {r : Reader σ ε α} (hr : r.Extends) {front back : List σ} {a : α}
    (h : r (front ++ back) = .ok (a, [])) (hback : back ≠ []) :
    exists e, r front = .error e := by
  cases hfront : r front with
  | error e => exact ⟨e, rfl⟩
  | ok found =>
      rcases found with ⟨b, rest⟩
      have hlonger := hr front b rest back hfront
      rw [h] at hlonger
      simp only [Except.ok.injEq, Prod.mk.injEq] at hlonger
      exact absurd (List.append_eq_nil_iff.mp hlonger.right.symm).right hback

/-!
# Reading several
-/

def replicate (r : Reader σ ε α) : Nat -> Reader σ ε (List α)
  | 0 => Pure.pure []
  | n + 1 => do
      let a ← r
      let more ← replicate r n
      return a :: more

theorem Extends.replicate {r : Reader σ ε α} (hr : r.Extends) (n : Nat) :
    (r.replicate n).Extends := by
  induction n with
  | zero => exact Extends.pure []
  | succ n ih => exact hr.bind fun a => ih.bind fun more => Extends.pure (a :: more)

theorem replicate_flatMap {r : Reader σ ε α} {encode : β -> List σ} {value : β -> α}
    {xs : List β}
    (h : forall x, x ∈ xs -> forall rest, r (encode x ++ rest) = .ok (value x, rest))
    (rest : List σ) :
    r.replicate xs.length (xs.flatMap encode ++ rest) = .ok (xs.map value, rest) := by
  induction xs with
  | nil => rfl
  | cons x xs ih =>
      have hmore := ih fun y hy => h y (List.mem_cons_of_mem x hy)
      rw [List.flatMap_cons, List.append_assoc, List.length_cons, Reader.replicate,
        bind_ok (h x List.mem_cons_self _), bind_ok hmore]
      rfl

/-!
# Waiting

A reader of a stream that is still coming in waits where it fails for want of
more.  What it makes of the stream must not depend on where it had to wait.
-/

/-- An error that is not for want of more stays with more behind the list. -/
def Settled (short : ε -> Prop) (r : Reader σ ε α) : Prop :=
  forall xs e more, r xs = .error e -> ¬ short e -> r (xs ++ more) = .error e

section Waiting

variable {short : ε -> Prop}

theorem Settled.bind {r : Reader σ ε α} {f : α -> Reader σ ε β} (hr : r.Settled short)
    (hextends : r.Extends) (hf : forall a, (f a).Settled short) :
    (r >>= f).Settled short := by
  intro xs e more h hlong
  cases hxs : r xs with
  | error e' =>
      rw [bind_error hxs] at h
      cases h
      exact bind_error (hr xs e more hxs hlong) f
  | ok found =>
      rcases found with ⟨a, middle⟩
      rw [bind_ok hxs] at h
      rw [bind_ok (hextends xs a middle more hxs)]
      exact hf a middle e more h hlong

theorem Settled.pure (a : α) : (Pure.pure a : Reader σ ε α).Settled short := by
  intro xs e more h
  cases h

theorem Settled.throw (e : ε) : (throw e : Reader σ ε α).Settled short := by
  intro xs e' more h _
  cases h
  rfl

theorem Settled.ite {p : Prop} [Decidable p] {r s : Reader σ ε α} (hr : r.Settled short)
    (hs : s.Settled short) : (if p then r else s).Settled short := by
  split
  · exact hr
  · exact hs

theorem Settled.replicate {r : Reader σ ε α} (hr : r.Settled short) (hextends : r.Extends)
    (n : Nat) : (r.replicate n).Settled short := by
  induction n with
  | zero => exact Settled.pure []
  | succ n ih =>
      exact hr.bind hextends fun a => ih.bind (hextends.replicate n) fun more =>
        Settled.pure (a :: more)

/--
Of a stream that begins with an encoding, the reader has the value as soon as
the encoding is there, and waits until then.
-/
theorem Settled.of_stream {r : Reader σ ε α} (hr : r.Settled short) (hextends : r.Extends)
    {encoding : List σ} {a : α} (h : r encoding = .ok (a, [])) {front back behind : List σ}
    (hstream : front ++ back = encoding ++ behind) :
    (exists more, front = encoding ++ more ∧ r front = .ok (a, more)) ∨
      exists e, short e ∧ r front = .error e := by
  rcases List.append_eq_append_iff.mp hstream with ⟨rest, hrest, _⟩ | ⟨more, hmore, _⟩
  · cases hfront : r front with
    | error e =>
        by_cases hshort : short e
        · exact Or.inr ⟨e, hshort, rfl⟩
        · have hwhole := hr front e rest hfront hshort
          rw [← hrest, h] at hwhole
          cases hwhole
    | ok found =>
        rcases found with ⟨b, left⟩
        have hwhole := hextends front b left rest hfront
        rw [← hrest, h] at hwhole
        simp only [Except.ok.injEq, Prod.mk.injEq] at hwhole
        rcases hwhole with ⟨rfl, hnil⟩
        rcases List.append_eq_nil_iff.mp hnil.symm with ⟨rfl, rfl⟩
        rw [List.append_nil] at hrest
        exact Or.inl ⟨[], by rw [List.append_nil, hrest], rfl⟩
  · refine Or.inl ⟨more, hmore, ?_⟩
    rw [hmore]
    exact hextends encoding a [] more h

end Waiting

end Reader

end Foundation
end UsbIp
