import Zkz.Debugger.Refinement
import Zkz.Debugger.Steps

/-!
# Steps of the ideal debugger

A round of `StepX` or of `StepAuto` is one instruction of the ideal debugger, so the two commands are
what it does in some instructions and until a breakpoint.

* `SteppingRound.turns`: a round that begins with a single step is one instruction.
* `stepAuto_mimics`, `stepX_mimics`: the two commands.
-/

namespace Zkz.Debugger

open Zkz.Lib BreakpointList

variable {ε : Type} {C : Cpu ε} {code : Set Addr} {s₀ : Machine ε} {s : Ideal ε}
  {li : BreakpointList} (fuel : Nat) {d : Main (Proc ε)}

/-! ## Rounds of stepping -/

/-- No native instruction ends right behind `a`. -/
def Cpu.Solid (C : Cpu ε) (s₀ : Machine ε) (a : Addr) : Prop :=
  ∀ q q', C.deaf.Reaches s₀ q → C.deaf.step q = .next q' → q'.rip - 1 ≠ a

/-- A round that is one instruction of the ideal debugger. -/
def Turns (C : Cpu ε) (code : Set Addr) (s₀ : Machine ε) (s : Ideal ε) (li : BreakpointList)
    (round : DbgM (Proc ε) (Option Int)) (d : Main (Proc ε)) : Prop :=
  ∃ d', round d = .ok ((s.turn C).1, d') ∧ Shows C code s₀ (s.turn C).2 li d'.kernel

/-- A round that begins with a single step, and its part behind a stop. -/
structure SteppingRound {σ : Type} (K : Kernel σ) (li : BreakpointList)
    (round : DbgM σ (Option Int)) (atStop : UserRegs → DbgM σ (Option Int)) : Prop where
  fail : ∀ d s₁, K.singlestep d.debug.pid d.kernel = (false, s₁) →
    ∃ out, round d = .ok (some (-1), ⟨d.debug, d.regs, s₁, out⟩)
  stop : ∀ d s₁ s₂ w r, K.singlestep d.debug.pid d.kernel = (true, s₁) →
    K.waitpid d.debug.pid s₁ = some (some w, s₂) → wifstopped w = true →
    K.getregs d.debug.pid s₂ = (some r, s₂) →
    ∃ regs out, round d = atStop r ⟨d.debug, regs, s₂, out⟩
  gone : ∀ d s₁ s₂ w, K.singlestep d.debug.pid d.kernel = (true, s₁) →
    K.waitpid d.debug.pid s₁ = some (some w, s₂) → wifexited w = true ∨ wifsignaled w = true →
    K.getregs d.debug.pid s₂ = (none, s₂) →
    ∃ d', d'.kernel = s₂ ∧ round d = .ok (some (Ideal.endResult w), d')
  unlisted : ∀ d r, getElementByAddress li (r.rip - 1) = none →
    atStop r d = .ok (none, ⟨d.debug, r, d.kernel, d.out⟩)

/-- Such a round is one instruction of the ideal debugger, if it passes the traps it comes to. -/
theorem SteppingRound.turns {round : DbgM (Proc ε) (Option Int)}
    {atStop : UserRegs → DbgM (Proc ε) (Option Int)}
    (hround : SteppingRound (cpuKernel C fuel) li round atStop) (h : C.Tame code s₀)
    (hs : Shows C code s₀ s li d.kernel) (hsolid : ∀ e ∈ s.traps.marks, C.Solid s₀ e.address)
    (hpass : ∀ e d, s.isOver = false → s.hit = some e → AtTrap s d →
      Passes C code s₀ s li e (atStop s.behind) d) : Turns C code s₀ s li round d := by
  unfold Turns
  cases hover : s.isOver with
  | true =>
    obtain ⟨out, hrun⟩ := hround.fail d _ (start_reaped (hs.gone hover) .stepping)
    rw [Ideal.turn_over hover]
    exact ⟨_, hrun, hs⟩
  | false =>
    obtain ⟨hstop, hcall, hk⟩ := hs.alive hover
    obtain ⟨hstep, hwait⟩ := singlestep_wait (C := C) fuel hstop hcall
    rw [hk] at hwait
    cases he : s.hit with
    | some e =>
      rw [step_armed (Ideal.hit_eq_some.mp he).1] at hwait
      obtain ⟨regs, out, hrun⟩ := hround.stop d _ _ _ s.behind hstep hwait
        (wifstopped_stopStatus _) (getregs_stopped fuel rfl _)
      obtain ⟨d', hpassed, hshows⟩ := hpass e ⟨d.debug, regs, (d.kernel.inPhase .stepping).report
        (.trap ((s.machine.patched s.traps.armed).setRip (s.machine.rip + 1))), out⟩ hover he
        ⟨rfl, rfl, rfl⟩
      rw [Ideal.turn_hit hover he]
      exact ⟨d', hrun.trans hpassed, hshows⟩
    | none =>
      have hfree := Ideal.hit_eq_none.mp he
      have hplain := step_free h hs.reaches (fun a ha => hs.spot (s.traps.listed a ha)) hfree
      rw [hplain] at hwait
      have hshows := advance_shows h hs.toFits hover (d.kernel.inPhase .stepping)
      have hnative := deaf_step h hs.reaches
      -- the registers of a stop are those behind the instruction
      have hnext : ∀ q, C.deaf.exec s.machine = .next q →
          getElementByAddress li (q.regs.rip - 1) = none := by
        intro q ho
        rw [getElementByAddress_eq_none, hs.addresses]
        intro hin
        obtain ⟨e, he, haddr⟩ := List.mem_map.mp hin
        exact hsolid e he _ q hs.reaches (hnative.trans ho) haddr.symm
      have hdeaf : C.deaf.exec s.machine = (C.exec s.machine).deaf := rfl
      cases ho : C.exec s.machine with
      | next q =>
        rw [ho] at hwait hshows hdeaf
        obtain ⟨regs, out, hrun⟩ := hround.stop d _ _ _ q.regs hstep hwait
          (wifstopped_stopStatus _) (getregs_stopped fuel rfl _)
        rw [Ideal.advance_next hdeaf] at hshows
        rw [Ideal.turn_next hover he hdeaf]
        exact ⟨_, hrun.trans (hround.unlisted _ _ (hnext q hdeaf)), hshows⟩
      | trap q => exact absurd ho (C.exec_ne_trap _ _)
      | signal q sig =>
        rw [ho] at hwait hshows hdeaf
        obtain ⟨regs, out, hrun⟩ := hround.stop d _ _ _ q.regs hstep hwait
          (wifstopped_stopStatus _) (getregs_stopped fuel rfl _)
        rw [Ideal.advance_next hdeaf] at hshows
        rw [Ideal.turn_next hover he hdeaf]
        exact ⟨_, hrun.trans (hround.unlisted _ _ (hnext q hdeaf)), hshows⟩
      | gone w hw =>
        rw [ho] at hwait hshows
        obtain ⟨d', hker, hrun⟩ := hround.gone d _ _ w hstep hwait hw rfl
        rw [Ideal.turn_gone hover he ho]
        exact ⟨d', hrun, hker ▸ hshows⟩

/-! ## The rounds of the two commands -/

section Commands

variable {σ : Type} {K : Kernel σ}

theorem stepAutoRound_stepping (K : Kernel σ) (li : BreakpointList) :
    SteppingRound K li (stepAutoRound K li) (stepAutoAtStop K li) where
  fail _ _ hstep := stepAutoRound_fail li hstep
  stop _ _ _ _ _ hstep hwait hw hget := stepAutoRound_stop li hstep hwait hw hget
  gone d s₁ s₂ w hstep hwait hw hget := by
    obtain ⟨out, h⟩ := stepAndWait_run "Ptrace eror" hstep hwait
    rw [stepAutoRound_eq, run_bind_ok h]
    unfold Ideal.endResult
    rcases waitResult_gone hw with hex | ⟨hne, hsig⟩
    · rw [if_pos (waitResult_eq_exit.mp hex)]
      simp only [Option.getD_some, if_pos hex]
      exact ⟨_, rfl, rfl⟩
    · obtain ⟨d', hker, hregs⟩ := stopRegs_gone (d := ⟨afterWait w d.debug, d.regs, s₂,
        out ++ [⟨.print, "---> rip: %x\n", [.hex d.regs.rip]⟩]⟩) (by simpa using hget)
      rw [if_neg fun hex => hne (waitResult_eq_exit.mpr hex)]
      simp only [Option.getD_some, if_neg hne]
      rw [run_bind_ok ((autoRegs_print (Or.inr hsig)).trans hregs)]
      exact ⟨d', hker, rfl⟩
  unlisted _ _ hb := stepAutoAtStop_unlisted hb

theorem stepXRound_stepping (K : Kernel σ) (li : BreakpointList) (i : Nat) :
    SteppingRound K li (stepXRound K li i) (stepXAtStop K li i) where
  fail _ _ hstep := stepXRound_fail li hstep
  stop _ _ _ _ _ hstep hwait hw hget := stepXRound_stop li hstep hwait hw hget
  gone d s₁ s₂ w hstep hwait hw hget := by
    obtain ⟨out, h⟩ := stepAndWait_run "Ptrace error" hstep hwait
    rw [stepXRound_eq, run_bind_ok h]
    unfold Ideal.endResult
    rcases waitResult_gone hw with hex | ⟨hne, hsig⟩
    · rw [if_pos (waitResult_eq_exit.mp hex)]
      simp only [Option.getD_some, if_pos hex]
      exact ⟨_, rfl, rfl⟩
    · obtain ⟨d', hker, hregs⟩ := stopRegs_gone
        (d := ⟨afterWait w d.debug, d.regs, s₂, out⟩) (by simpa using hget)
      rw [if_neg fun hex => hne (waitResult_eq_exit.mpr hex)]
      simp only [Option.getD_some, if_neg hne, if_pos (Or.inr hsig)]
      rw [run_bind_ok hregs]
      exact ⟨d', hker, rfl⟩
  unlisted _ _ hb := stepXAtStop_unlisted hb

end Commands

/-! ## The two commands -/

/-- A command does what an ideal one does: it returns the same and shows the state that is left, and
it does not return if the ideal one has not ended. -/
def Mimics (C : Cpu ε) (code : Set Addr) (s₀ : Machine ε) (li : BreakpointList)
    (ideal : Option (Int × Ideal ε)) (run : Except Fault (Int × Main (Proc ε))) : Prop :=
  match ideal with
  | none => run = .error .noReturn
  | some (ret, t) => ∃ d', run = .ok (ret, d') ∧ Shows C code s₀ t li d'.kernel

theorem Mimics.of_ok {ideal : Option (Int × Ideal ε)} {run : Except Fault (Int × Main (Proc ε))}
    {ret : Int} (h : Mimics C code s₀ li ideal run) (hrun : run = .ok (ret, d)) :
    ∃ t, ideal = some (ret, t) ∧ Shows C code s₀ t li d.kernel := by
  cases ideal with
  | none => cases hrun.symm.trans h
  | some r =>
    obtain ⟨d', hrun', hshows⟩ := h
    cases hrun.symm.trans hrun'
    exact ⟨r.2, rfl, hshows⟩

/-- A round and what follows it. -/
theorem Turns.then {round : DbgM (Proc ε) (Option Int)} {x : DbgM (Proc ε) Int}
    {next : Ideal ε → Option (Int × Ideal ε)} (hround : Turns C code s₀ s li round d)
    (hrest : ∀ d₁, Shows C code s₀ (s.turn C).2 li d₁.kernel →
      Mimics C code s₀ li (next (s.turn C).2) (x d₁)) :
    Mimics C code s₀ li (Ideal.andThen next (s.turn C))
      (roundThen round (do return id (← x)) d) := by
  obtain ⟨d₁, hrun, hshows⟩ := hround
  have hx := hrest d₁ hshows
  rw [roundThen, run_bind_ok hrun]
  generalize s.turn C = r at hshows hx ⊢
  obtain ⟨o, t⟩ := r
  cases o with
  | some ret => exact ⟨d₁, rfl, hshows⟩
  | none =>
    simp only [Ideal.andThen, id, bind_pure]
    exact hx

/-- `StepAuto` is the ideal run, if its loop does not end because of what `ret` happens to be. -/
theorem stepAuto_mimics (h : C.Tame code s₀) (hs : Shows C code s₀ s li d.kernel)
    (hsolid : ∀ e ∈ s.traps.marks, C.Solid s₀ e.address) {ret : Int} (hret : ret ≠ exitStatusRet)
    (n : Nat) : Mimics C code s₀ li (s.run C n) (stepAuto (cpuKernel C fuel) li ret n d) := by
  induction n generalizing s d with
  | zero => rfl
  | succ n ih =>
    have hround := (stepAutoRound_stepping (cpuKernel C fuel) li).turns fuel h hs hsolid
      fun e d hover he hd => stepAutoAtStop_passes fuel h hs.toFits hover he hd
    rw [stepAuto_succ _ _ hret, Ideal.run_succ]
    refine hround.then fun d₁ h₁ => ih h₁ ?_
    rw [Ideal.turn_marks]
    exact hsolid

/-- `StepX` is as many instructions of the ideal debugger, if no breakpoint is disabled. -/
theorem stepX_mimics (h : C.Tame code s₀) (hs : Shows C code s₀ s li d.kernel)
    (hsolid : ∀ e ∈ s.traps.marks, C.Solid s₀ e.address)
    (hen : ∀ e ∈ s.traps.marks, e.isEnabled = true) (n : Int) :
    Mimics C code s₀ li (some (s.stepX C n.toNat)) (stepX (cpuKernel C fuel) li n d) := by
  suffices hloop : ∀ k i, Mimics C code s₀ li (some (s.stepX C k))
      (stepXLoop (cpuKernel C fuel) li i k d) from hloop n.toNat 0
  intro k i
  induction k generalizing s d i with
  | zero => exact ⟨_, rfl, hs⟩
  | succ k ih =>
    have hround := (stepXRound_stepping (cpuKernel C fuel) li i).turns fuel h hs hsolid
      fun e d hover he hd => stepXAtStop_passes fuel h hs.toFits hover he (hen e.1 e.2) hd i
    rw [stepXLoop_succ, Ideal.stepX_succ]
    refine hround.then fun d₁ h₁ => ih h₁ ?_ ?_ (i + 1)
    · rw [Ideal.turn_marks]
      exact hsolid
    · rw [Ideal.turn_marks]
      exact hen

end Zkz.Debugger
