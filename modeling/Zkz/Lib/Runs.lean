import Zkz.Lib.Post

/-!
# Runs of a sequence of operations

`runAll step ops s` performs the operations `ops` one after the other, each a computation
on a value and a state. `runAll_inv` carries an invariant through it, and `runAll_iff` a
property that every operation keeps exactly when a condition on the state before it holds.

A loop made of rounds goes on while a round ends with `none`. `post_rounds` carries an
invariant through it, with a condition on the state each round starts from.
-/

namespace Zkz.Lib

variable {S ε ι α : Type}

/-- The operations in order, each from the value and the state the last one left. -/
def runAll (step : ι → α → StateT S (Except ε) α) : List ι → α → StateT S (Except ε) α
  | [], a => pure a
  | op :: ops, a => do runAll step ops (← step op a)

variable {step : ι → α → StateT S (Except ε) α}

theorem runAll_cons_eq_ok {op : ι} {ops : List ι} {a c : α} {s s'' : S} :
    runAll step (op :: ops) a s = .ok (c, s'') ↔
      ∃ b s', step op a s = .ok (b, s') ∧ runAll step ops b s' = .ok (c, s'') :=
  run_bind_eq_ok

/-- An invariant that every operation keeps holds after every run. -/
theorem runAll_inv {I : α → S → Prop} (hstep : ∀ op a s, I a s → Post (step op a) s I)
    {ops : List ι} {a b : α} {s s' : S} (h0 : I a s) (h : runAll step ops a s = .ok (b, s')) :
    I b s' := by
  induction ops generalizing a s with
  | nil => cases h; exact h0
  | cons op ops ih =>
    obtain ⟨c, t, hop, hops⟩ := runAll_cons_eq_ok.mp h
    exact ih (hstep op a s h0 c t hop) hops

/-- Every operation of the run meets `C` in the state it starts from. -/
def AllSteps (step : ι → α → StateT S (Except ε) α) (C : ι → α → S → Prop) :
    List ι → α → S → Prop
  | [], _, _ => True
  | op :: ops, a, s => C op a s ∧ ∀ b s', step op a s = .ok (b, s') → AllSteps step C ops b s'

/-- An invariant that an operation keeps under `C` holds after every run whose steps
meet `C`. -/
theorem runAll_inv_of_allSteps {I : α → S → Prop} {C : ι → α → S → Prop}
    (hstep : ∀ op a s, I a s → C op a s → Post (step op a) s I)
    {ops : List ι} {a b : α} {s s' : S} (h0 : I a s) (hC : AllSteps step C ops a s)
    (h : runAll step ops a s = .ok (b, s')) : I b s' := by
  induction ops generalizing a s with
  | nil => cases h; exact h0
  | cons op ops ih =>
    obtain ⟨c, t, hop, hops⟩ := runAll_cons_eq_ok.mp h
    exact ih (hstep op a s h0 hC.1 c t hop) (hC.2 c t hop) hops

theorem allSteps_of_forall_mem {C : ι → α → S → Prop} {ops : List ι}
    (h : ∀ op ∈ ops, ∀ a s, C op a s) (a : α) (s : S) : AllSteps step C ops a s := by
  induction ops generalizing a s with
  | nil => trivial
  | cons op ops ih =>
    refine ⟨h op (List.mem_cons_self ..) a s, ?_⟩
    intro b s' _
    exact ih (fun op' hop => h op' (List.mem_cons_of_mem _ hop)) b s'

/-- A property that holds after an operation exactly when it held before and the operation
met `C` holds after a run exactly when it held at the start and every step met `C`. -/
theorem runAll_iff {I J : α → S → Prop} {C : ι → α → S → Prop}
    (hI : ∀ op a s, I a s → Post (step op a) s I)
    (hstep : ∀ op a s, I a s → Post (step op a) s fun b s' => J b s' ↔ J a s ∧ C op a s)
    {ops : List ι} {a b : α} {s s' : S} (h0 : I a s) (h : runAll step ops a s = .ok (b, s')) :
    J b s' ↔ J a s ∧ AllSteps step C ops a s := by
  induction ops generalizing a s with
  | nil => cases h; simp [AllSteps]
  | cons op ops ih =>
    obtain ⟨c, t, hop, hops⟩ := runAll_cons_eq_ok.mp h
    have hJ : J c t ↔ J a s ∧ C op a s := hstep op a s h0 c t hop
    rw [ih (hI op a s h0 c t hop) hops, hJ, AllSteps, and_assoc]
    constructor
    · rintro ⟨hJ, hC, hrest⟩
      refine ⟨hJ, hC, ?_⟩
      intro b' s₁ hb
      rw [hop] at hb
      cases hb
      exact hrest
    · rintro ⟨hJ, hC, hrest⟩
      exact ⟨hJ, hC, hrest c t hop⟩

/-! ## Rounds -/

/-- Each of the next `n` rounds that a loop starts, the first with index `i`, starts in a
state that meets `C`. -/
def AllRounds {β : Type} (round : Nat → StateT S (Except ε) (Option β)) (C : Nat → S → Prop) :
    Nat → Nat → S → Prop
  | _, 0, _ => True
  | i, n + 1, s => C i s ∧ ∀ s', round i s = .ok (none, s') → AllRounds round C (i + 1) n s'

theorem allRounds_of_forall {β : Type} {round : Nat → StateT S (Except ε) (Option β)}
    {C : Nat → S → Prop} (hC : ∀ i s, C i s) (i n : Nat) (s : S) : AllRounds round C i n s := by
  induction n generalizing i s with
  | zero => trivial
  | succ n ih => exact ⟨hC i s, fun s' _ => ih (i + 1) s'⟩

/-- A round, and what follows it if it does not return. -/
def roundThen {β : Type} (round : StateT S (Except ε) (Option β))
    (rest : StateT S (Except ε) β) : StateT S (Except ε) β := do
  match ← round with
  | some a => return a
  | none => rest

/-- A loop whose rounds keep `I` until one returns with `Q`. `I i n` is about the state before
the round with index `i`, with at most `n` rounds to go, and `f` is what the loop makes of a
later round's result. -/
theorem post_rounds {β : Type} (round : Nat → StateT S (Except ε) (Option β))
    (L : Nat → Nat → StateT S (Except ε) β) (f : β → β) {C : Nat → S → Prop}
    {I : Nat → Nat → S → Prop} {Q : β → S → Prop}
    (hsucc : ∀ i n, L i (n + 1) = roundThen (round i) (do return f (← L (i + 1) n)))
    (hzero : ∀ i s, I i 0 s → Post (L i 0) s Q) (hf : ∀ a s, Q a s → Q (f a) s)
    (hround : ∀ i n s, I i (n + 1) s → C i s → Post (round i) s fun o s' =>
      (∀ a, o = some a → Q a s') ∧ (o = none → I (i + 1) n s'))
    (n i : Nat) (s : S) (hI : I i n s) (hC : AllRounds round C i n s) : Post (L i n) s Q := by
  induction n generalizing i s with
  | zero => exact hzero i s hI
  | succ n ih =>
    rw [hsucc]
    intro b s' h
    obtain ⟨o, s₁, ho, h⟩ := run_bind_eq_ok.mp h
    obtain ⟨hsome, hnone⟩ := hround i n s hI hC.1 o s₁ ho
    cases o with
    | some a =>
      cases h
      exact hsome b rfl
    | none =>
      obtain ⟨c, s₂, hc, h⟩ := run_bind_eq_ok.mp h
      cases h
      exact hf c s' (ih (i + 1) s₁ (hnone rfl) (hC.2 s₁ ho) c s' hc)

/-- What every round of a loop keeps, the loop keeps. -/
theorem post_loop {β : Type} (round : Nat → StateT S (Except ε) (Option β))
    (L : Nat → Nat → StateT S (Except ε) β) (f : β → β) {C : Nat → S → Prop} {I : S → Prop}
    (hsucc : ∀ i n, L i (n + 1) = roundThen (round i) (do return f (← L (i + 1) n)))
    (hzero : ∀ i s, I s → Post (L i 0) s fun _ s' => I s')
    (hround : ∀ i s, I s → C i s → Post (round i) s fun _ s' => I s')
    (n i : Nat) (s : S) (hI : I s) (hC : AllRounds round C i n s) :
    Post (L i n) s fun _ s' => I s' := by
  refine post_rounds round L f (I := fun _ _ s => I s) hsucc hzero (fun _ _ h => h) ?_ n i s hI hC
  intro i n s h hC
  refine post_mono (hround i s h hC) ?_
  intro o s' h'
  exact ⟨fun _ _ => h', fun _ => h'⟩

/-- At most `n` rounds, the first with index `i`: the result of the one that returns, if one
does. -/
def rounds {β : Type} (round : Nat → StateT S (Except ε) (Option β)) :
    Nat → Nat → StateT S (Except ε) (Option β)
  | _, 0 => pure none
  | i, n + 1 => do
    match ← round i with
    | some a => return some a
    | none => rounds round (i + 1) n

/-- Rounds return what the first of them that returns does. -/
theorem rounds_eq_some_iff {β : Type} {round : Nat → StateT S (Except ε) (Option β)} {i n : Nat}
    {s s' : S} {a : β} :
    rounds round i n s = .ok (some a, s') ↔ ∃ k < n, ∃ s₀, rounds round i k s = .ok (none, s₀) ∧
      round (i + k) s₀ = .ok (some a, s') := by
  induction n generalizing i s with
  | zero =>
    refine iff_of_false (fun h => by cases h) ?_
    rintro ⟨k, hk, -⟩
    exact absurd hk (Nat.not_lt_zero k)
  | succ n ih =>
    constructor
    · intro h
      obtain ⟨o, s₁, ho, hrest⟩ := run_bind_eq_ok.mp h
      cases o with
      | some b =>
        cases hrest
        exact ⟨0, Nat.zero_lt_succ n, s, rfl, ho⟩
      | none =>
        obtain ⟨k, hk, s₀, hbefore, hat⟩ := ih.mp hrest
        refine ⟨k + 1, Nat.succ_lt_succ hk, s₀, (run_bind_ok ho).trans hbefore, ?_⟩
        rw [← Nat.add_assoc, Nat.add_right_comm]
        exact hat
    · rintro ⟨k, hk, s₀, hbefore, hat⟩
      cases k with
      | zero =>
        cases hbefore
        exact run_bind_ok hat
      | succ k =>
        obtain ⟨o, s₁, ho, hrest⟩ := run_bind_eq_ok.mp hbefore
        cases o with
        | some b => cases hrest
        | none =>
          rw [← Nat.add_assoc, Nat.add_right_comm] at hat
          exact (run_bind_ok ho).trans (ih.mpr ⟨k, Nat.lt_of_succ_lt_succ hk, s₀, hrest, hat⟩)

/-- The last of some rounds that go on. -/
theorem rounds_succ_eq_none {β : Type} {round : Nat → StateT S (Except ε) (Option β)} {i n : Nat}
    {s s' : S} :
    rounds round i (n + 1) s = .ok (none, s') ↔
      ∃ s₀, rounds round i n s = .ok (none, s₀) ∧ round (i + n) s₀ = .ok (none, s') := by
  induction n generalizing i s with
  | zero =>
    constructor
    · intro h
      obtain ⟨o, s₁, ho, hrest⟩ := run_bind_eq_ok.mp h
      cases o with
      | some b => cases hrest
      | none =>
        cases hrest
        exact ⟨s, rfl, ho⟩
    · rintro ⟨s₀, hbefore, hlast⟩
      cases hbefore
      exact run_bind_ok hlast
  | succ n ih =>
    have hindex : i + 1 + n = i + (n + 1) := by omega
    constructor
    · intro h
      obtain ⟨o, s₁, ho, hrest⟩ := run_bind_eq_ok.mp h
      cases o with
      | some b => cases hrest
      | none =>
        obtain ⟨s₀, hbefore, hlast⟩ := ih.mp hrest
        exact ⟨s₀, (run_bind_ok ho).trans hbefore, hindex ▸ hlast⟩
    · rintro ⟨s₀, hbefore, hlast⟩
      obtain ⟨o, s₁, ho, hrest⟩ := run_bind_eq_ok.mp hbefore
      cases o with
      | some b => cases hrest
      | none => exact (run_bind_ok ho).trans (ih.mpr ⟨s₀, hrest, hindex ▸ hlast⟩)

/-- What every round keeps, any number of rounds keeps. -/
theorem post_rounds_inv {β : Type} {round : Nat → StateT S (Except ε) (Option β)}
    {C : Nat → S → Prop} {I : S → Prop}
    (hround : ∀ i s, I s → C i s → Post (round i) s fun _ s' => I s')
    (n i : Nat) (s : S) (hI : I s) (hC : AllRounds round C i n s) :
    Post (rounds round i n) s fun _ s' => I s' := by
  induction n generalizing i s with
  | zero => exact post_pure hI
  | succ n ih =>
    intro b s' h
    obtain ⟨o, s₁, ho, h⟩ := run_bind_eq_ok.mp h
    have hI₁ := hround i s hI hC.1 o s₁ ho
    cases o with
    | some a =>
      cases h
      exact hI₁
    | none => exact ih (i + 1) s₁ hI₁ (hC.2 s₁ ho) b s' h

/-- A round that comes to its end meets `C`. -/
def IfEnds {β : Type} (round : Nat → StateT S (Except ε) (Option β)) (C : Nat → S → Prop)
    (i : Nat) (s : S) : Prop :=
  ∀ r, round i s = .ok r → C i s

/-- If a round keeps `L` exactly when it starts in a state that meets `C`, then `L` holds after
every number of rounds, up to `n`, exactly when all of them do. -/
theorem rounds_iff {β : Type} {round : Nat → StateT S (Except ε) (Option β)} {C : Nat → S → Prop}
    {L : Option β → S → Prop}
    (hround : ∀ i s, L none s → Post (round i) s fun o s' => L o s' ↔ C i s)
    (n i : Nat) (s : S) (h : L none s) :
    (∀ m ≤ n, Post (rounds round i m) s L) ↔ AllRounds round (IfEnds round C) i n s := by
  induction n generalizing i s with
  | zero =>
    refine iff_of_true ?_ trivial
    intro m hm
    obtain rfl : m = 0 := Nat.le_zero.mp hm
    exact post_pure h
  | succ n ih =>
    constructor
    · intro hL
      have hfirst : Post (round i) s L := by
        intro o s' ho
        refine hL 1 (by omega) o s' ?_
        rw [rounds, run_bind_ok ho]
        cases o with
        | some a => rfl
        | none => rfl
      refine ⟨fun r hr => (hround i s h r.1 r.2 hr).mp (hfirst r.1 r.2 hr), ?_⟩
      intro s' ho
      refine (ih (i + 1) s' (hfirst none s' ho)).mp fun m hm o s'' hrest => ?_
      refine hL (m + 1) (by omega) o s'' ?_
      rw [rounds, run_bind_ok ho]
      exact hrest
    · rintro ⟨hC, hrest⟩ m hm
      cases m with
      | zero => exact post_pure h
      | succ m =>
        intro o s'' hrun
        obtain ⟨o₁, s₁, ho, hrun⟩ := run_bind_eq_ok.mp hrun
        have hL₁ := (hround i s h o₁ s₁ ho).mpr (hC _ ho)
        cases o₁ with
        | some a =>
          cases hrun
          exact hL₁
        | none => exact (ih (i + 1) s₁ hL₁).mpr (hrest s₁ ho) m (by omega) o s'' hrun

/-- A loop returns what a round of it returns, if `f` changes nothing of it. -/
theorem loop_of_rounds {β : Type} {round : Nat → StateT S (Except ε) (Option β)}
    (L : Nat → Nat → StateT S (Except ε) β) (f : β → β)
    (hsucc : ∀ i n, L i (n + 1) = roundThen (round i) (do return f (← L (i + 1) n)))
    (hf : ∀ i s, Post (round i) s fun o _ => ∀ a, o = some a → f a = a) {n i : Nat} {s s' : S}
    {a : β} (h : rounds round i n s = .ok (some a, s')) : L i n s = .ok (a, s') := by
  have hloop : L i n s = .ok (a, s') ∧ f a = a := by
    induction n generalizing i s with
    | zero => cases h
    | succ n ih =>
      obtain ⟨o, s₁, ho, hrest⟩ := run_bind_eq_ok.mp h
      rw [hsucc, roundThen, run_bind_ok ho]
      cases o with
      | some b =>
        cases hrest
        exact ⟨rfl, hf i s _ _ ho a rfl⟩
      | none =>
        obtain ⟨hL, ha⟩ := ih hrest
        refine ⟨?_, ha⟩
        simp only
        rw [run_bind_ok hL, ha]
        rfl
  exact hloop.1

/-- What a loop leaves, from what its rounds leave. -/
theorem post_of_rounds {β : Type} {round : Nat → StateT S (Except ε) (Option β)}
    (L : Nat → Nat → StateT S (Except ε) β) (f : β → β) {Q : Option β → S → Prop}
    (hsucc : ∀ i n, L i (n + 1) = roundThen (round i) (do return f (← L (i + 1) n)))
    (hzero : ∀ i s, Q none s → Post (L i 0) s fun a s' => Q (some a) s')
    (hf : ∀ a s, Q (some a) s → Q (some (f a)) s) (n i : Nat) (s : S)
    (h : Post (rounds round i n) s Q) : Post (L i n) s fun a s' => Q (some a) s' := by
  induction n generalizing i s with
  | zero => exact hzero i s (h none s rfl)
  | succ n ih =>
    rw [hsucc]
    refine post_bind (Q := fun o s' => round i s = .ok (o, s')) (fun o s' ho => ho) ?_
    intro o s₁ ho
    have hrest : ∀ o' s', (match o with
        | some a => pure (some a)
        | none => rounds round (i + 1) n : StateT S (Except ε) (Option β)) s₁ = .ok (o', s') →
        Q o' s' := by
      intro o' s' hrun
      refine h o' s' ?_
      rw [rounds, run_bind_ok ho]
      exact hrun
    cases o with
    | some a => exact post_pure (hrest (some a) s₁ rfl)
    | none => exact post_bind (ih (i + 1) s₁ hrest) fun a s' ha => post_pure (hf a s' ha)

end Zkz.Lib
