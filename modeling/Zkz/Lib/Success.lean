/-!
# When a computation with errors succeeds

`Exactly E x C P` says of a computation `x` in `Except ε` that it succeeds if and only if `C` holds:
with a result that satisfies `P` if it does, and with an error in `E` if it does not. The rules
follow the structure of a computation and collect the condition. `Extends x y` says that `y`
succeeds with the same result where `x` does. `matchFrom` compares what is read one after the other.
-/

namespace Zkz.Lib

variable {ε α β : Type}

structure Exactly (E : ε → Prop) (x : Except ε α) (C : Prop) (P : α → Prop) : Prop where
  ok : C → ∃ a, x = .ok a ∧ P a
  error : ¬ C → ∃ e, x = .error e ∧ E e

section Rules

variable {E : ε → Prop} {x y : Except ε α} {f : α → Except ε β} {C C' D : Prop} {P P' : α → Prop}
  {Q : β → Prop}

theorem exactly_ok {a : α} (h : P a) : Exactly E (.ok a) True P :=
  ⟨fun _ => ⟨a, rfl, h⟩, fun hn => absurd trivial hn⟩

theorem exactly_error {e : ε} (h : E e) : Exactly E (.error e : Except ε α) False P :=
  ⟨False.elim, fun _ => ⟨e, rfl, h⟩⟩

theorem Exactly.congr (h : Exactly E x C P) (hC : C ↔ C') : Exactly E x C' P :=
  ⟨fun hc => h.ok (hC.mpr hc), fun hc => h.error fun h' => hc (hC.mp h')⟩

theorem Exactly.mono (h : Exactly E x C P) (hP : ∀ a, P a → P' a) : Exactly E x C P' := by
  refine ⟨fun hc => ?_, h.error⟩
  obtain ⟨a, hx, ha⟩ := h.ok hc
  exact ⟨a, hx, hP a ha⟩

/-- A second part is only begun where the first has succeeded. -/
theorem Exactly.bind (hx : Exactly E x C P) (hf : ∀ a, P a → C → Exactly E (f a) D Q) :
    Exactly E (x >>= f) (C ∧ D) Q := by
  by_cases hc : C
  · obtain ⟨a, rfl, ha⟩ := hx.ok hc
    exact (hf a ha hc).congr (and_iff_right hc).symm
  · obtain ⟨e, rfl, he⟩ := hx.error hc
    exact (exactly_error he).congr (iff_of_false id fun h => hc h.1)

/-- The rule for a first part whose result is known. -/
theorem Exactly.bind_eq {v : α} (hx : Exactly E x C (· = v)) (hf : C → Exactly E (f v) D Q) :
    Exactly E (x >>= f) (C ∧ D) Q :=
  hx.bind fun _ ha hc => ha ▸ hf hc

theorem Exactly.ite {c : Prop} [Decidable c] (ht : c → Exactly E x C P)
    (he : ¬ c → Exactly E y D P) :
    Exactly E (if c then x else y) ((c → C) ∧ (¬ c → D)) P := by
  split
  · rename_i hc
    exact (ht hc).congr ⟨fun h => ⟨fun _ => h, fun hn => absurd hc hn⟩, fun h => h.1 hc⟩
  · rename_i hc
    exact (he hc).congr ⟨fun h => ⟨fun hn => absurd hn hc, fun _ => h⟩, fun h => h.2 hc⟩

theorem Exactly.of_ok (h : Exactly E x C P) {a : α} (hx : x = .ok a) : C ∧ P a := by
  by_cases hc : C
  · obtain ⟨a', ha', hP⟩ := h.ok hc
    rw [hx] at ha'
    cases ha'
    exact ⟨hc, hP⟩
  · obtain ⟨e, he, -⟩ := h.error hc
    rw [hx] at he
    cases he

theorem Exactly.of_error (h : Exactly E x C P) {e : ε} (hx : x = .error e) : E e := by
  by_cases hc : C
  · obtain ⟨a, ha, -⟩ := h.ok hc
    rw [hx] at ha
    cases ha
  · obtain ⟨e', he', hE⟩ := h.error hc
    rw [hx] at he'
    cases he'
    exact hE

end Rules

/-! ## The same results -/

/-- Where `x` succeeds, `y` does so with the same result. -/
def Extends (x y : Except ε α) : Prop := ∀ a, x = .ok a → y = .ok a

section Extends

variable {x y : Except ε α} {f g : α → Except ε β}

theorem Extends.refl (x : Except ε α) : Extends x x := fun _ h => h

theorem extends_error (e : ε) (y : Except ε α) : Extends (.error e) y := by
  intro a h
  cases h

theorem Extends.bind (hx : Extends x y) (hf : ∀ a, Extends (f a) (g a)) :
    Extends (x >>= f) (y >>= g) := by
  intro b h
  cases hrun : x with
  | error e =>
    rw [hrun] at h
    cases h
  | ok a =>
    rw [hrun] at h
    rw [hx a hrun]
    exact hf a b h

theorem Extends.ite {c : Prop} [Decidable c] {x' y' : Except ε α} (ht : Extends x y)
    (he : Extends x' y') : Extends (if c then x else x') (if c then y else y') := by
  split
  · exact ht
  · exact he

end Extends

/-! ## Comparisons -/

section Comparisons

variable {M : Type → Type} [Monad M] [DecidableEq β]

/-- What is read from an index on is what some computations give; the first that differs ends the
comparison. -/
def matchFrom (read : Nat → M β) : List (M β) → Nat → M Bool
  | [], _ => return true
  | x :: xs, i => do
    if (← read i) = (← x) then matchFrom read xs (i + 1) else return false

theorem matchFrom_pure_cons [LawfulMonad M] (read : Nat → M β) (b : β) (bs : List β) (i : Nat) :
    matchFrom read ((b :: bs).map pure) i =
      (do if (← read i) = b then matchFrom read (bs.map pure) (i + 1) else return false) := by
  rw [List.map_cons, matchFrom]
  simp only [pure_bind]

end Comparisons

end Zkz.Lib
