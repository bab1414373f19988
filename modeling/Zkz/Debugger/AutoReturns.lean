import Zkz.Debugger.Rounds
import Zkz.Debugger.Stops

/-!
# What ends `StepAuto`

The loop of `StepAuto` is to go on until the debuggee ends or an enabled breakpoint is hit. Its
condition reads the outer `ret`, which the declaration inside the loop hides from the wait: it never
gets a value. If the exit status is what the stack holds there, the loop ends after one round, and
returns 0.

* `stepAutoRound_ends`, `stepAutoRound_goesOn`: what ends a round, and when it goes on.
* `autoReturns_iff`: `StepAuto` ends as it is to for every run that starts in a state, exactly if
  the variable does not hold the exit status or the first round ends it anyway.
-/

namespace Zkz.Debugger

open Zkz.Lib BreakpointList

variable {σ : Type}

/-! ## What ends a round -/

/-- The single step of a round ends, not with the end of the debuggee, and its registers are
`r`. -/
def StopsAt (K : Kernel σ) (d : Main σ) (r : UserRegs) (d' : Main σ) : Prop :=
  ∃ ret d₁, stepAndWait K "Ptrace eror" d = .ok (some ret, d₁) ∧ ret ≠ exitStatusRet ∧
    autoRegs K ret d₁ = .ok (some r, d')

/-- The single step of a round fails, or the registers cannot be read after it. -/
def RequestFails (K : Kernel σ) (d d' : Main σ) : Prop :=
  stepAndWait K "Ptrace eror" d = .ok (none, d') ∨
    ∃ ret d₁, stepAndWait K "Ptrace eror" d = .ok (some ret, d₁) ∧ ret ≠ exitStatusRet ∧
      autoRegs K ret d₁ = .ok (none, d')

/-- A stop at an enabled breakpoint is reported and the breakpoint restored. -/
def handleEnabled (K : Kernel σ) (b : Breakpoint) (r : UserRegs) : DbgM σ Int := do
  log .info "Stopped execution at %x : breakpoint number %d\n"
    [.hex (r.rip - 1), .int b.breakpointNumber]
  restoreBreakpoint K b (r.rip - 1)

/-- How a round of `StepAuto` from `d` is to end it, with which result and in which state. -/
inductive AutoEnds (K : Kernel σ) (li : BreakpointList) (d : Main σ) : Int → Main σ → Prop
  /-- Its own single step ends the debuggee. -/
  | exited {d' : Main σ} (h : stepAndWait K "Ptrace eror" d = .ok (some exitStatusRet, d')) :
      AutoEnds K li d exitStatusRet d'
  /-- It has handled a stop at an enabled breakpoint. -/
  | enabled {r : UserRegs} {b : Breakpoint} {res : Int} {d₁ d' : Main σ} (hstop : StopsAt K d r d₁)
      (hb : getElementByAddress li (r.rip - 1) = some b) (he : b.isEnabled = true)
      (h : handleEnabled K b r { d₁ with regs := r } = .ok (res, d')) : AutoEnds K li d 0 d'
  /-- A request has failed. -/
  | failed {d' : Main σ} (h : RequestFails K d d') : AutoEnds K li d (-1) d'

/-- The single step of a round stops the debuggee at no enabled breakpoint, and the restore of a
disabled one returns. -/
def GoesOn (K : Kernel σ) (li : BreakpointList) (d : Main σ) : Prop :=
  ∃ r d₁, StopsAt K d r d₁ ∧ ∀ b, getElementByAddress li (r.rip - 1) = some b →
    b.isEnabled = false ∧ ∃ res d', restoreBreakpoint K b (r.rip - 1) { d₁ with regs := r } =
      .ok (res, d')

section Rounds

variable {K : Kernel σ} {li : BreakpointList} {d d₁ d' : Main σ} {r : UserRegs}

theorem stepAutoAtStop_none (hb : getElementByAddress li (r.rip - 1) = none) :
    stepAutoAtStop K li r d = .ok (none, { d with regs := r }) := by
  unfold stepAutoAtStop
  rw [run_bind_ok (by rfl), hb]
  rfl

theorem stepAutoAtStop_enabled {b : Breakpoint} (hb : getElementByAddress li (r.rip - 1) = some b)
    (he : b.isEnabled = true) :
    stepAutoAtStop K li r d = (do
      let _ ← handleEnabled K b r
      return some 0 : DbgM σ (Option Int)) { d with regs := r } := by
  unfold stepAutoAtStop handleEnabled
  rw [run_bind_ok (by rfl), hb]
  simp only [he, if_true, bind_assoc]

theorem stepAutoAtStop_disabled {b : Breakpoint} (hb : getElementByAddress li (r.rip - 1) = some b)
    (he : b.isEnabled = false) :
    stepAutoAtStop K li r d = (do
      let _ ← restoreBreakpoint K b (r.rip - 1)
      return none : DbgM σ (Option Int)) { d with regs := r } := by
  unfold stepAutoAtStop
  rw [run_bind_ok (by rfl), hb]
  simp only [he, Bool.false_eq_true, if_false]

/-- A round that comes to its end has failed, has seen the end of the debuggee, or comes to a
stop. -/
theorem stepAutoRound_cases {o : Option Int} (h : stepAutoRound K li d = .ok (o, d')) :
    (o = some (-1) ∧ RequestFails K d d') ∨
      (o = some exitStatusRet ∧ stepAndWait K "Ptrace eror" d = .ok (some exitStatusRet, d')) ∨
      ∃ r d₁, StopsAt K d r d₁ ∧ stepAutoAtStop K li r d₁ = .ok (o, d') := by
  rw [stepAutoRound_eq] at h
  obtain ⟨stepped, d₁, hstep, h⟩ := run_bind_eq_ok.mp h
  cases stepped with
  | none =>
    cases h
    exact Or.inl ⟨rfl, Or.inl hstep⟩
  | some ret =>
    by_cases hexit : ret = exitStatusRet
    · simp only [hexit, if_true] at h
      cases h
      rw [hexit] at hstep
      exact Or.inr (Or.inl ⟨rfl, hstep⟩)
    · simp only [hexit, if_false] at h
      obtain ⟨read, d₂, hread, h⟩ := run_bind_eq_ok.mp h
      cases read with
      | none =>
        cases h
        exact Or.inl ⟨rfl, Or.inr ⟨ret, d₁, hstep, hexit, hread⟩⟩
      | some r => exact Or.inr (Or.inr ⟨r, d₂, ⟨ret, d₁, hstep, hexit, hread⟩, h⟩)

theorem StopsAt.round (h : StopsAt K d r d₁) (li : BreakpointList) :
    stepAutoRound K li d = stepAutoAtStop K li r d₁ := by
  obtain ⟨ret, d₀, hstep, hne, hread⟩ := h
  rw [stepAutoRound_eq, run_bind_ok hstep]
  simp only [if_neg hne]
  rw [run_bind_ok hread]

theorem RequestFails.round (h : RequestFails K d d') (li : BreakpointList) :
    stepAutoRound K li d = .ok (some (-1), d') := by
  rw [stepAutoRound_eq]
  rcases h with hstep | ⟨ret, d₀, hstep, hne, hread⟩
  · rw [run_bind_ok hstep]
    rfl
  · rw [run_bind_ok hstep]
    simp only [if_neg hne]
    rw [run_bind_ok hread]
    rfl

/-- A round ends the loop exactly as it is to. -/
theorem stepAutoRound_ends {v : Int} :
    stepAutoRound K li d = .ok (some v, d') ↔ AutoEnds K li d v d' := by
  constructor
  · intro h
    rcases stepAutoRound_cases h with ⟨hv, hfails⟩ | ⟨hv, hexit⟩ | ⟨r, d₁, hstop, hat⟩
    · cases hv
      exact .failed hfails
    · cases hv
      exact .exited hexit
    · cases hb : getElementByAddress li (r.rip - 1) with
      | none =>
        rw [stepAutoAtStop_none hb] at hat
        cases hat
      | some b =>
        cases he : b.isEnabled with
        | true =>
          rw [stepAutoAtStop_enabled hb he] at hat
          obtain ⟨res, d₂, hhandled, hret⟩ := run_bind_eq_ok.mp hat
          cases hret
          exact .enabled hstop hb he hhandled
        | false =>
          rw [stepAutoAtStop_disabled hb he] at hat
          obtain ⟨res, d₂, -, hret⟩ := run_bind_eq_ok.mp hat
          cases hret
  · intro h
    cases h with
    | exited hstep =>
      rw [stepAutoRound_eq, run_bind_ok hstep]
      rfl
    | enabled hstop hb he hhandled =>
      rw [hstop.round, stepAutoAtStop_enabled hb he, run_bind_ok hhandled]
      rfl
    | failed hfails => exact hfails.round li

/-- The other rounds that come to their end go on. -/
theorem stepAutoRound_goesOn : (∃ d', stepAutoRound K li d = .ok (none, d')) ↔ GoesOn K li d := by
  constructor
  · rintro ⟨d', h⟩
    rcases stepAutoRound_cases h with ⟨hv, -⟩ | ⟨hv, -⟩ | ⟨r, d₁, hstop, hat⟩
    · cases hv
    · cases hv
    · refine ⟨r, d₁, hstop, ?_⟩
      intro b hb
      cases he : b.isEnabled with
      | true =>
        rw [stepAutoAtStop_enabled hb he] at hat
        obtain ⟨res, d₂, -, hret⟩ := run_bind_eq_ok.mp hat
        cases hret
      | false =>
        rw [stepAutoAtStop_disabled hb he] at hat
        obtain ⟨res, d₂, hrestore, -⟩ := run_bind_eq_ok.mp hat
        exact ⟨rfl, res, d₂, hrestore⟩
  · rintro ⟨r, d₁, hstop, hrestore⟩
    rw [hstop.round]
    cases hb : getElementByAddress li (r.rip - 1) with
    | none => exact ⟨_, stepAutoAtStop_none hb⟩
    | some b =>
      obtain ⟨he, res, d', hrun⟩ := hrestore b hb
      rw [stepAutoAtStop_disabled hb he, run_bind_ok hrun]
      exact ⟨d', rfl⟩

end Rounds

/-! ## Runs -/

/-- `StepAuto` from `d` ends as a round is to end it, and goes on as long as rounds go on. -/
structure AutoReturns (K : Kernel σ) (li : BreakpointList) (ret : Int) (d : Main σ) : Prop where
  only : ∀ n v d', stepAuto K li ret n d = .ok (v, d') → ∃ k < n, ∃ d₁,
    rounds (fun _ => stepAutoRound K li) 0 k d = .ok (none, d₁) ∧ AutoEnds K li d₁ v d'
  ends : ∀ k d₁ v d', rounds (fun _ => stepAutoRound K li) 0 k d = .ok (none, d₁) →
    AutoEnds K li d₁ v d' → ∀ n > k, stepAuto K li ret n d = .ok (v, d')
  goesOn : ∀ n d₁, rounds (fun _ => stepAutoRound K li) 0 n d = .ok (none, d₁) →
    stepAuto K li ret n d = .error .noReturn

section Runs

variable {K : Kernel σ} {li : BreakpointList} {ret : Int} {d d' : Main σ}

/-- What the rounds return, `StepAuto` does. -/
theorem stepAuto_eq_rounds (hret : ret ≠ exitStatusRet) {n : Nat} {v : Int} :
    stepAuto K li ret n d = .ok (v, d') ↔
      rounds (fun _ => stepAutoRound K li) 0 n d = .ok (some v, d') := by
  constructor
  · intro h
    exact post_of_rounds (fun _ n => stepAuto K li ret n) id
      (Q := fun o s => rounds (fun _ => stepAutoRound K li) 0 n d = .ok (o, s))
      (fun _ n => stepAuto_succ K li hret n) (fun _ _ _ => post_throw _) (fun _ _ h => h) n 0 d
      (fun _ _ h => h) v d' h
  · exact loop_of_rounds (fun _ n => stepAuto K li ret n) id
      (fun _ n => stepAuto_succ K li hret n) (fun _ _ _ _ _ _ _ => rfl)

/-- It has not returned after rounds that go on. -/
theorem stepAuto_goesOn (hret : ret ≠ exitStatusRet) (n : Nat)
    (h : rounds (fun _ => stepAutoRound K li) 0 n d = .ok (none, d')) :
    stepAuto K li ret n d = .error .noReturn := by
  have hany : ∀ i, rounds (fun _ => stepAutoRound K li) i n d = .ok (none, d') →
      stepAuto K li ret n d = .error .noReturn := by
    clear h
    induction n generalizing d with
    | zero => exact fun _ _ => rfl
    | succ n ih =>
      intro i h
      obtain ⟨o, d₁, ho, hrest⟩ := run_bind_eq_ok.mp h
      cases o with
      | some v => cases hrest
      | none =>
        rw [stepAuto_succ K li hret, roundThen, run_bind_ok ho]
        simp only [id]
        rw [run_bind, ih _ hrest]
  exact hany 0 h

/-- The rounds end as they are to, wherever they start. -/
theorem rounds_end {n : Nat} {v : Int} :
    rounds (fun _ => stepAutoRound K li) 0 n d = .ok (some v, d') ↔ ∃ k < n, ∃ d₁,
      rounds (fun _ => stepAutoRound K li) 0 k d = .ok (none, d₁) ∧ AutoEnds K li d₁ v d' := by
  rw [rounds_eq_some_iff]
  simp only [stepAutoRound_ends]

theorem autoReturns_of_ne (hret : ret ≠ exitStatusRet) : AutoReturns K li ret d where
  only _ _ _ h := rounds_end.mp ((stepAuto_eq_rounds hret).mp h)
  ends k d₁ _ _ hbefore hend _ hn :=
    (stepAuto_eq_rounds hret).mpr (rounds_end.mpr ⟨k, hn, d₁, hbefore, hend⟩)
  goesOn n _ h := stepAuto_goesOn hret n h

/-- The first round decides if no other is to follow. -/
theorem autoReturns_of_first (h : ¬ GoesOn K li d) : AutoReturns K li exitStatusRet d := by
  have hfirst : ∀ k d₁, rounds (fun _ => stepAutoRound K li) 0 k d = .ok (none, d₁) → k = 0 := by
    intro k d₁ hk
    cases k with
    | zero => rfl
    | succ k =>
      obtain ⟨o, d₂, ho, hrest⟩ := run_bind_eq_ok.mp hk
      cases o with
      | some v => cases hrest
      | none => exact absurd (stepAutoRound_goesOn.mp ⟨d₂, ho⟩) h
  refine ⟨?_, ?_, ?_⟩
  · intro n v d' hrun
    cases n with
    | zero => cases hrun
    | succ n =>
      rw [stepAuto_once, roundThen] at hrun
      obtain ⟨o, d₁, ho, hrest⟩ := run_bind_eq_ok.mp hrun
      cases o with
      | none => exact absurd (stepAutoRound_goesOn.mp ⟨d₁, ho⟩) h
      | some v =>
        cases hrest
        exact ⟨0, Nat.zero_lt_succ n, d, rfl, stepAutoRound_ends.mp ho⟩
  · intro k d₁ v d' hbefore hend n hn
    obtain rfl := hfirst k d₁ hbefore
    cases hbefore
    obtain ⟨n, rfl⟩ : ∃ m, n = m + 1 := ⟨n - 1, by omega⟩
    rw [stepAuto_once, roundThen, run_bind_ok (stepAutoRound_ends.mpr hend)]
    rfl
  · intro n d₁ hbefore
    obtain rfl := hfirst n d₁ hbefore
    rfl

end Runs

/-- **`StepAuto` ends only where it is to**, for every debuggee and list of breakpoints: with 0
behind the handling of an enabled breakpoint, with `EXIT_STATUS` when its own step ends the debuggee
and with -1 when a request fails. This holds exactly if the variable in its loop condition does not
hold the exit status, or the first round ends it anyway. -/
theorem autoReturns_iff (K : Kernel σ) (li : BreakpointList) (ret : Int) (d : Main σ) :
    AutoReturns K li ret d ↔ ret ≠ exitStatusRet ∨ ¬ GoesOn K li d := by
  constructor
  · intro h
    by_contra hboth
    obtain ⟨hret, hon⟩ := not_or.mp hboth
    obtain ⟨d₁, hround⟩ := stepAutoRound_goesOn.mpr (not_not.mp hon)
    have hone : rounds (fun _ => stepAutoRound K li) 0 1 d = .ok (none, d₁) := run_bind_ok hround
    have hnever := h.goesOn 1 d₁ hone
    rw [not_not.mp hret, stepAuto_once, roundThen, run_bind_ok hround] at hnever
    cases hnever
  · rintro (hret | hon)
    · exact autoReturns_of_ne hret
    · by_cases hret : ret = exitStatusRet
      · rw [hret]
        exact autoReturns_of_first hon
      · exact autoReturns_of_ne hret

/-! ## A run that ends too early -/

/-- A debuggee that executes one-byte instructions, from 0x1001 on. -/
def oneByteSteps : Script where
  stop _ := .never
  inner n := (stopStatus sigtrap, { rip := 0x1001 + BitVec.ofNat 64 n })

/-- Without any breakpoint the loop ends after one step, and returns 0. -/
theorem returns_without_breakpoint :
    (∃ d', stepAuto (scriptKernel oneByteSteps) [] exitStatusRet 5
        (Main.init ⟨0, 0, false, { rip := 0x1000 }⟩) = .ok (0, d') ∧ d'.kernel.steps = 1) ∧
      ¬ AutoReturns (scriptKernel oneByteSteps) [] exitStatusRet
        (Main.init ⟨0, 0, false, { rip := 0x1000 }⟩) := by
  have hobs : ((stepAuto (scriptKernel oneByteSteps) [] exitStatusRet 5
      (Main.init ⟨0, 0, false, { rip := 0x1000 }⟩)).toOption.map
        fun r => (r.1, r.2.kernel.steps)) = some (0, 1) := by decide +kernel
  obtain ⟨ret, d', hrun, hv⟩ := exists_ok_of_observed hobs
  simp only [Prod.mk.injEq] at hv
  obtain ⟨rfl, hsteps⟩ := hv
  refine ⟨⟨d', hrun, hsteps⟩, ?_⟩
  intro h
  obtain ⟨k, -, d₁, -, hend⟩ := h.only 5 0 d' hrun
  cases hend with
  | enabled hstop hb he hhandled => cases hb

end Zkz.Debugger
