/-!
# Runs and postconditions of computations with a state and errors

Computations in `StateT S (Except ε)`. `run_bind` and its companions reduce a run from a
state; `Post x s P` says that `P` holds of every successful result of `x` from `s`, and the
`post_` rules follow the structure of a computation. A computation that fails satisfies
every postcondition. `Avoids F x s` says which errors it does not end with.
-/

namespace Zkz.Lib

variable {S ε α β : Type}

/-! ## Runs -/

@[simp] theorem run_get (s : S) : (get : StateT S (Except ε) S) s = .ok (s, s) := rfl

theorem run_bind (x : StateT S (Except ε) α) (f : α → StateT S (Except ε) β) (s : S) :
    (x >>= f) s = match x s with
      | .ok (a, s') => f a s'
      | .error e => .error e := by
  simp only [bind, StateT.bind, Except.bind]
  cases x s <;> rfl

/-- A run whose first part succeeds goes on from the state it leaves. -/
theorem run_bind_ok {x : StateT S (Except ε) α} {f : α → StateT S (Except ε) β} {s s' : S}
    {a : α} (h : x s = .ok (a, s')) : (x >>= f) s = f a s' := by
  rw [run_bind, h]

theorem run_bind_eq_ok {x : StateT S (Except ε) α} {f : α → StateT S (Except ε) β} {s s'' : S}
    {b : β} :
    (x >>= f) s = .ok (b, s'') ↔ ∃ a s', x s = .ok (a, s') ∧ f a s' = .ok (b, s'') := by
  rw [run_bind]
  constructor
  · intro h
    cases hx : x s with
    | error e => rw [hx] at h; cases h
    | ok p =>
      rw [hx] at h
      exact ⟨p.1, p.2, rfl, h⟩
  · rintro ⟨a, s', hx, hf⟩
    rw [hx]
    exact hf

/-- A run of which something is observed has succeeded. -/
theorem exists_ok_of_observed {γ : Type} {x : StateT S (Except ε) α} {s : S} {f : α × S → γ}
    {v : γ} (h : (x s).toOption.map f = some v) : ∃ a s', x s = .ok (a, s') ∧ f (a, s') = v := by
  cases hx : x s with
  | error e => rw [hx] at h; cases h
  | ok p =>
    rw [hx] at h
    exact ⟨p.1, p.2, rfl, Option.some.inj h⟩

/-! ## Postconditions of successful runs -/

/-- Every successful result of `x` from `s` satisfies `P`. -/
def Post (x : StateT S (Except ε) α) (s : S) (P : α → S → Prop) : Prop :=
  ∀ a s', x s = .ok (a, s') → P a s'

variable {x : StateT S (Except ε) α} {f : α → StateT S (Except ε) β} {s : S}
  {P Q : α → S → Prop} {R : β → S → Prop}

theorem post_ok {a : α} {s' : S} (h : x s = .ok (a, s')) (hP : P a s') : Post x s P := by
  intro b t hb
  rw [h] at hb
  cases hb
  exact hP

/-- A run that is that of another computation. -/
theorem post_of_eq {y : StateT S (Except ε) α} {s' : S} (h : x s = y s') (hy : Post y s' P) :
    Post x s P := by
  intro a t hrun
  rw [h] at hrun
  exact hy a t hrun

theorem post_pure {a : α} (h : P a s) : Post (pure a : StateT S (Except ε) α) s P :=
  post_ok rfl h

theorem post_throw (e : ε) : Post (throw e : StateT S (Except ε) α) s P := by
  intro a s' h
  cases h

theorem post_bind (hx : Post x s Q) (hf : ∀ a s', Q a s' → Post (f a) s' R) :
    Post (x >>= f) s R := by
  intro b s'' h
  obtain ⟨a, s', hxs, hfs⟩ := run_bind_eq_ok.mp h
  exact hf a s' (hx a s' hxs) b s'' hfs

/-- The rule for a first part whose result is known. -/
theorem post_bind_ok {a : α} {s' : S} (h : x s = .ok (a, s')) (hf : Post (f a) s' R) :
    Post (x >>= f) s R :=
  post_bind (post_ok (P := fun b t => b = a ∧ t = s') h ⟨rfl, rfl⟩) fun b t hbt => by
    obtain ⟨rfl, rfl⟩ := hbt
    exact hf

theorem post_mono (h : Post x s P) (hPQ : ∀ a s', P a s' → Q a s') : Post x s Q :=
  fun a s' hx => hPQ a s' (h a s' hx)

theorem post_and (hP : Post x s P) (hQ : Post x s Q) : Post x s fun a s' => P a s' ∧ Q a s' :=
  fun a s' hx => ⟨hP a s' hx, hQ a s' hx⟩

/-- The state read by `get` is the state at that point. -/
theorem post_get_bind {f : S → StateT S (Except ε) β} (h : Post (f s) s R) :
    Post (get >>= f) s R := post_bind_ok rfl h

theorem post_ite {c : Prop} [Decidable c] {y : StateT S (Except ε) α} (ht : c → Post x s P)
    (he : ¬ c → Post y s P) : Post (if c then x else y) s P := by
  split
  · exact ht ‹_›
  · exact he ‹_›

/-! ## Errors -/

/-- `x` does not end with an error in `F` from `s`. -/
def Avoids (F : ε → Prop) (x : StateT S (Except ε) α) (s : S) : Prop :=
  ∀ e, x s = .error e → ¬ F e

variable {F : ε → Prop}

theorem avoids_ok {r : α × S} (h : x s = .ok r) : Avoids F x s := by
  intro e he
  rw [h] at he
  cases he

theorem avoids_error {e : ε} (h : x s = .error e) (he : ¬ F e) : Avoids F x s := by
  intro e' he'
  rw [h] at he'
  cases he'
  exact he

/-- The rule for a first part of which something is known when it succeeds. -/
theorem avoids_bind_post (hx : Avoids F x s) (hpost : Post x s Q)
    (hf : ∀ a s', Q a s' → Avoids F (f a) s') : Avoids F (x >>= f) s := by
  intro e he
  rw [run_bind] at he
  cases hrun : x s with
  | error e' =>
    rw [hrun] at he
    cases he
    exact hx e hrun
  | ok r =>
    rw [hrun] at he
    exact hf r.1 r.2 (hpost r.1 r.2 hrun) e he

theorem avoids_bind (hx : Avoids F x s) (hf : ∀ a s', Avoids F (f a) s') :
    Avoids F (x >>= f) s :=
  avoids_bind_post (Q := fun _ _ => True) hx (fun _ _ _ => trivial) fun a s' _ => hf a s'

theorem avoids_of_bind (h : Avoids F (x >>= f) s) : Avoids F x s := by
  intro e he
  apply h e
  rw [run_bind, he]

/-- The rule for a first part whose result is known. -/
theorem avoids_bind_ok {a : α} {s' : S} (h : x s = .ok (a, s')) :
    Avoids F (x >>= f) s ↔ Avoids F (f a) s' := by
  unfold Avoids
  rw [run_bind_ok h]

theorem avoids_ite {c : Prop} [Decidable c] {y : StateT S (Except ε) α}
    (ht : c → Avoids F x s) (he : ¬ c → Avoids F y s) : Avoids F (if c then x else y) s := by
  split
  · exact ht ‹_›
  · exact he ‹_›

end Zkz.Lib
