import Zkz.Debugger.Loops
import Zkz.Debugger.Stepping

/-!
# Continues of the ideal debugger

A round of `ContinueExecution` is some instructions of the ideal debugger: those up to a signal, and
those up to a trap with the one under the trap. So a continue returns exactly if the ideal run ends,
and it does what `StepAuto` does.

* `Coasts`: instructions in which nothing is passed.
* `continueRound_bursts`: a round is such instructions and one more.
* `continueExecution_sound`, `continueExecution_total`: a continue that returns has done what the
  ideal run does, and it returns if the run ends and is given enough time.
-/

namespace Zkz.Debugger

open Zkz.Lib BreakpointList

variable {ε : Type} {C : Cpu ε} {code : Set Addr} {s₀ : Machine ε} {s s₁ : Ideal ε}
  {li : BreakpointList} (fuel : Nat) {d : Main (Proc ε)}

/-! ## Signals -/

/-- No native instruction ends with a signal right behind `a`. -/
def Cpu.Quiet (C : Cpu ε) (s₀ : Machine ε) (a : Addr) : Prop :=
  ∀ q q' sig, C.deaf.Reaches s₀ q → C.exec q = .signal q' sig → q'.rip - 1 ≠ a

theorem Cpu.Solid.quiet (h : C.Tame code s₀) {a : Addr} (ha : C.Solid s₀ a) : C.Quiet s₀ a := by
  intro q q' sig hq ho
  have hstep := deaf_step h hq
  rw [ho] at hstep
  exact ha q q' hq hstep

/-! ## Coasting -/

/-- After `k` instructions, in which nothing is passed, the ideal debugger is at `s₁`. -/
structure Coasts (C : Cpu ε) (s₀ : Machine ε) (k : Nat) (s s₁ : Ideal ε) : Prop where
  run : ∀ m, s.run C (k + m) = s₁.run C m
  alive : s₁.isOver = false
  traps : s₁.traps = s.traps
  reaches : C.deaf.Reaches s₀ s₁.machine

/-- One instruction more in front. -/
theorem Coasts.cons {q : Machine ε} {k : Nat} (hover : s.isOver = false) (hfree : s.hit = none)
    (ho : C.deaf.exec s.machine = .next q) (h : Coasts C s₀ k { s with machine := q } s₁) :
    Coasts C s₀ (k + 1) s s₁ := by
  refine ⟨fun m => ?_, h.alive, h.traps, h.reaches⟩
  rw [Nat.add_right_comm, Ideal.run_succ, Ideal.turn_next hover hfree ho]
  exact h.run m

theorem coasts_refl (hover : s.isOver = false) (hreach : C.deaf.Reaches s₀ s.machine) :
    Coasts C s₀ 0 s s :=
  ⟨fun m => by rw [Nat.zero_add], hover, rfl, hreach⟩

theorem run_stop (C : Cpu ε) (fuel : Nat) {o : Outcome ε} (h : ∀ p, o ≠ .next p) :
    C.run fuel o = some o := by
  cases o with
  | next p => exact absurd rfl (h p)
  | trap p => exact run_trap C fuel p
  | signal p sig => cases fuel <;> rfl
  | gone w hw => exact run_gone C fuel w hw

/-- An instruction that completes under the traps is a native one. -/
theorem step_patched_next (h : C.Tame code s₀) (hs : Fits C code s₀ s li) {p : Machine ε}
    (ho : C.step (s.machine.patched s.traps.armed) = .next p) :
    s.hit = none ∧ ∃ q, C.exec s.machine = .next q ∧ p = q.patched s.traps.armed := by
  cases he : s.hit with
  | some e =>
    rw [step_armed (Ideal.hit_eq_some.mp he).1] at ho
    cases ho
  | none =>
    rw [step_free h hs.reaches (fun a ha => hs.spot (s.traps.listed a ha))
      (Ideal.hit_eq_none.mp he)] at ho
    cases hexec : C.exec s.machine with
    | next q =>
      rw [hexec] at ho
      cases ho
      exact ⟨rfl, q, rfl, rfl⟩
    | _ => rw [hexec] at ho; cases ho

/-- The state behind a native instruction. -/
theorem Fits.next (h : C.Tame code s₀) (hs : Fits C code s₀ s li) {q : Machine ε}
    (ho : C.deaf.exec s.machine = .next q) : Fits C code s₀ { s with machine := q } li :=
  ⟨hs.list, hs.spots, hs.reaches.tail ((deaf_step h hs.reaches).trans ho)⟩

/-- A process that is resumed stops where the ideal debugger coasts to. -/
theorem run_coasts (h : C.Tame code s₀) (hs : Fits C code s₀ s li) (hover : s.isOver = false)
    {o : Outcome ε} (ho : C.run fuel (C.step (s.machine.patched s.traps.armed)) = some o) :
    ∃ k s₁, Coasts C s₀ k s s₁ ∧ o = C.step (s₁.machine.patched s.traps.armed) ∧
      ∀ p, o ≠ .next p := by
  have hhere : ∀ (fuel : Nat) (s : Ideal ε), s.isOver = false → C.deaf.Reaches s₀ s.machine →
      (∀ p, C.step (s.machine.patched s.traps.armed) ≠ .next p) →
      C.run fuel (C.step (s.machine.patched s.traps.armed)) = some o →
      ∃ k s₁, Coasts C s₀ k s s₁ ∧ o = C.step (s₁.machine.patched s.traps.armed) ∧
        ∀ p, o ≠ .next p := by
    intro fuel s hover hreach hstop ho
    rw [run_stop C fuel hstop] at ho
    cases ho
    exact ⟨0, s, coasts_refl hover hreach, rfl, hstop⟩
  induction fuel generalizing s with
  | zero => exact hhere 0 s hover hs.reaches (fun p hp => by rw [hp] at ho; cases ho) ho
  | succ fuel ih =>
    by_cases hnext : ∃ p, C.step (s.machine.patched s.traps.armed) = .next p
    · obtain ⟨p, hp⟩ := hnext
      obtain ⟨hfree, q, hq, rfl⟩ := step_patched_next h hs hp
      have hdeaf : C.deaf.exec s.machine = .next q := congrArg Outcome.deaf hq
      rw [hp] at ho
      obtain ⟨k, s₁, hcoast, hstop⟩ := ih (hs.next h hdeaf) hover ho
      exact ⟨k + 1, s₁, hcoast.cons hover hfree hdeaf, hstop⟩
    · exact hhere (fuel + 1) s hover hs.reaches (fun p hp => hnext ⟨p, hp⟩) ho

/-- It does stop if the ideal run ends. -/
theorem run_stops (h : C.Tame code s₀) (hs : Fits C code s₀ s li) (hover : s.isOver = false) {k : Nat}
    {r : Int × Ideal ε} (hrun : s.run C k = some r) (hk : k ≤ fuel + 1) :
    ∃ o, C.run fuel (C.step (s.machine.patched s.traps.armed)) = some o := by
  induction k generalizing s fuel with
  | zero => cases hrun
  | succ k ih =>
    by_cases hnext : ∃ p, C.step (s.machine.patched s.traps.armed) = .next p
    · obtain ⟨p, hp⟩ := hnext
      obtain ⟨hfree, q, hq, rfl⟩ := step_patched_next h hs hp
      have hdeaf : C.deaf.exec s.machine = .next q := congrArg Outcome.deaf hq
      rw [Ideal.run_succ, Ideal.turn_next hover hfree hdeaf] at hrun
      rw [hp]
      cases fuel with
      | zero =>
        obtain rfl : k = 0 := by omega
        cases hrun
      | succ fuel => exact ih fuel (hs.next h hdeaf) hover hrun (by omega)
    · exact ⟨_, run_stop C fuel fun p hp => hnext ⟨p, hp⟩⟩

/-! ## Rounds -/

/-- Some instructions of the ideal debugger, of which only the last may end a command, with `o`. -/
def Bursts (C : Cpu ε) (code : Set Addr) (s₀ : Machine ε) (s : Ideal ε) (li : BreakpointList)
    (o : Option Int) (k : Proc ε) : Prop :=
  ∃ n s₁, Shows C code s₀ s₁ li k ∧ s₁.traps.marks = s.traps.marks ∧
    ∀ m, s.run C (n + 1 + m) = Ideal.andThen (Ideal.run C m) (o, s₁)

/-- Coasting, and an instruction. -/
theorem Coasts.bursts {n : Nat} (h : Coasts C s₀ n s s₁) {k : Proc ε}
    (hshows : Shows C code s₀ (s₁.turn C).2 li k) : Bursts C code s₀ s li (s₁.turn C).1 k := by
  refine ⟨n, (s₁.turn C).2, hshows, ?_, fun m => ?_⟩
  · rw [Ideal.turn_marks, h.traps]
  · rw [Nat.add_assoc, Nat.add_comm 1, h.run, Ideal.run_succ]

theorem Coasts.fits {k : Nat} (h : Coasts C s₀ k s s₁) (hs : Fits C code s₀ s li) :
    Fits C code s₀ s₁ li := by
  refine ⟨?_, ?_, h.reaches⟩
  · rw [h.traps]
    exact hs.list
  · rw [h.traps]
    exact hs.spots

/-- The wait of a round reports the end of the program. -/
theorem continueFromWait_gone {σ : Type} {K : Kernel σ} {d : Main σ} {s₂ : σ} {w : Wstatus}
    (li : BreakpointList) (hwait : K.waitpid d.debug.pid d.kernel = some (some w, s₂))
    (hw : wifexited w = true ∨ wifsignaled w = true) :
    ∃ d', d'.kernel = s₂ ∧ continueFromWait K li d = .ok (some (Ideal.endResult w), d') := by
  obtain ⟨out, h⟩ := waitForProcess_run hwait
  unfold continueFromWait Ideal.endResult
  rw [run_bind_ok h]
  simp only [Option.getD_some]
  by_cases hex : wifexited w = true
  · rw [if_pos (waitResult_exited hex), if_pos hex]
    exact ⟨_, rfl, rfl⟩
  · have hstop : waitResult w ≠ stoppedStatusRet := by
      rw [Ne, waitResult_eq_stopped, wifstopped_gone hw]
      simp
    rw [if_neg (waitResult_ne_exit hex), if_neg hstop, if_neg hex]
    exact ⟨_, rfl, rfl⟩

/-- What a round does at the stop that the ideal debugger coasts to. -/
theorem continueFromWait_turns (h : C.Tame code s₀) (hs : Fits C code s₀ s li)
    (hover : s.isOver = false) (hquiet : ∀ e ∈ s.traps.marks, C.Quiet s₀ e.address)
    (hsys : d.debug.isSystrace = false) {k : Proc ε} {o : Outcome ε}
    (ho : o = C.step (s.machine.patched s.traps.armed)) (hnext : ∀ p, o ≠ .next p)
    (hwait : (cpuKernel C fuel).waitpid d.debug.pid d.kernel = some (some o.status, k.report o)) :
    Turns C code s₀ s li (continueFromWait (cpuKernel C fuel) li) d := by
  unfold Turns
  cases he : s.hit with
  | some e =>
    rw [step_armed (Ideal.hit_eq_some.mp he).1] at ho
    subst ho
    obtain ⟨out, hrun⟩ := continueFromWait_stop (K := cpuKernel C fuel) (r := s.behind) li hwait
      (wifstopped_stopStatus _) (getregs_stopped fuel rfl _)
    obtain ⟨d', hpassed, hshows⟩ := continueAtStop_passes fuel h hs hover he
      (d := ⟨d.debug, d.regs, k.report (.trap ((s.machine.patched s.traps.armed).setRip
        (s.machine.rip + 1))), out⟩) ⟨rfl, rfl, rfl⟩
    rw [Ideal.turn_hit hover he]
    exact ⟨d', hrun.trans hpassed, hshows⟩
  | none =>
    have hfree := Ideal.hit_eq_none.mp he
    rw [step_free h hs.reaches (fun a ha => hs.spot (s.traps.listed a ha)) hfree] at ho
    subst ho
    have hshows := advance_shows h hs hover k
    have hdeaf : C.deaf.exec s.machine = (C.exec s.machine).deaf := rfl
    cases ho : C.exec s.machine with
    | next q =>
      rw [ho] at hnext
      exact absurd rfl (hnext _)
    | trap q => exact absurd ho (C.exec_ne_trap _ _)
    | signal q sig =>
      rw [ho] at hwait hshows hdeaf
      obtain ⟨out, hrun⟩ := continueFromWait_stop (K := cpuKernel C fuel) (r := q.regs) li hwait
        (wifstopped_stopStatus _) (getregs_stopped fuel rfl _)
      have hunlisted : getElementByAddress li (q.regs.rip - 1) = none := by
        rw [getElementByAddress_eq_none, hs.addresses]
        intro hin
        obtain ⟨e, he, haddr⟩ := List.mem_map.mp hin
        exact hquiet e he _ q sig hs.reaches ho haddr.symm
      obtain ⟨out', hat⟩ := continueAtStop_unlisted (K := cpuKernel C fuel)
        (d := ⟨d.debug, d.regs, k.report (.signal (q.patched s.traps.armed) sig), out⟩) hsys
        hunlisted
      rw [Ideal.advance_next hdeaf] at hshows
      rw [Ideal.turn_next hover he hdeaf]
      exact ⟨_, hrun.trans hat, hshows⟩
    | gone w hw =>
      rw [ho] at hwait hshows
      obtain ⟨d', hker, hrun⟩ := continueFromWait_gone li hwait hw
      rw [Ideal.turn_gone hover he ho]
      exact ⟨d', hrun, hker ▸ hshows⟩

/-- A round resumes the process and waits for it. -/
theorem continueRound_waits (hs : Shows C code s₀ s li d.kernel) (hover : s.isOver = false)
    (hsys : d.debug.isSystrace = false) :
    ∃ d₁, d₁.debug = resumed d.debug ∧
      continueRound (cpuKernel C fuel) li d = continueFromWait (cpuKernel C fuel) li d₁ ∧
      (cpuKernel C fuel).waitpid d₁.debug.pid d₁.kernel =
        (C.run fuel (C.step (s.machine.patched s.traps.armed))).map fun o =>
          (some o.status, d₁.kernel.report o) := by
  obtain ⟨hstop, hcall, hk⟩ := hs.alive hover
  have hcont : resumeRequest (cpuKernel C fuel) d.debug.isSystrace d.debug.pid d.kernel =
      (true, d.kernel.inPhase .continuing) := by
    rw [hsys]
    exact start_stopped hstop .continuing
  obtain ⟨out, hround⟩ := continueRound_resume li hcont
  refine ⟨⟨resumed d.debug, d.regs, d.kernel.inPhase .continuing, out⟩, rfl, hround, ?_⟩
  rw [← hk, ← resume_inPhase hcall .continuing]
  exact waitpid_continuing fuel rfl _

/-- A round whose process stops is a burst. -/
theorem continueRound_bursts (h : C.Tame code s₀) (hs : Shows C code s₀ s li d.kernel)
    (hquiet : ∀ e ∈ s.traps.marks, C.Quiet s₀ e.address) (hsys : d.debug.isSystrace = false)
    (hstops : s.isOver = false →
      ∃ o, C.run fuel (C.step (s.machine.patched s.traps.armed)) = some o) :
    ∃ o d', continueRound (cpuKernel C fuel) li d = .ok (o, d') ∧
      Bursts C code s₀ s li o d'.kernel := by
  cases hover : s.isOver with
  | true =>
    have hcont : resumeRequest (cpuKernel C fuel) d.debug.isSystrace d.debug.pid d.kernel =
        (false, d.kernel) := by
      rw [hsys]
      exact start_reaped (hs.gone hover) .continuing
    obtain ⟨out, hround⟩ := continueRound_fail li hcont
    refine ⟨_, _, hround, 0, s, hs, rfl, fun m => ?_⟩
    rw [Nat.zero_add, Nat.add_comm, Ideal.run_succ, Ideal.turn_over hover]
  | false =>
    obtain ⟨d₁, hdebug, hround, hwait⟩ := continueRound_waits fuel hs hover hsys
    obtain ⟨o, ho⟩ := hstops hover
    rw [ho] at hwait
    obtain ⟨n, s₁, hcoast, hstep, hnext⟩ := run_coasts fuel h hs.toFits hover ho
    rw [← hcoast.traps] at hstep hquiet
    have hsys₁ : d₁.debug.isSystrace = false := by
      rw [hdebug]
      exact hsys
    obtain ⟨d', hrun, hshows⟩ := continueFromWait_turns fuel h (hcoast.fits hs.toFits)
      hcoast.alive hquiet hsys₁ hstep hnext hwait
    exact ⟨_, d', hround.trans hrun, hcoast.bursts hshows⟩

/-- So is a round that comes to an end. -/
theorem continueRound_ends (h : C.Tame code s₀) (hs : Shows C code s₀ s li d.kernel)
    (hquiet : ∀ e ∈ s.traps.marks, C.Quiet s₀ e.address) (hsys : d.debug.isSystrace = false) :
    Post (continueRound (cpuKernel C fuel) li) d fun o d' =>
      Bursts C code s₀ s li o d'.kernel := by
  intro o d' hrun
  obtain ⟨o₁, d₁, hround, hburst⟩ := continueRound_bursts fuel h hs hquiet hsys fun hover => by
    obtain ⟨d₁, -, hround, hwait⟩ := continueRound_waits fuel hs hover hsys
    refine Option.ne_none_iff_exists'.mp fun hnever => ?_
    rw [hnever] at hwait
    rw [hround, continueFromWait_never li hwait] at hrun
    cases hrun
  rw [hround] at hrun
  cases hrun
  exact hburst

/-! ## Continues -/

/-- Continues leave systrace as it is. -/
theorem systrace_rounds {σ : Type} (K : Kernel σ) (v : Bool) :
    KeepsRounds K (fun d => d.debug.isSystrace = v) (fun d => d.debug.isSystrace = v) where
  spoke d d' h hs := (congrArg Debug.isSystrace hs.debug).trans h
  spokeRunning d d' h hs := (congrArg Debug.isSystrace hs.debug).trans h
  getregs _ h := h
  resume _ _ _ h := ⟨fun _ => h, fun _ => h⟩
  wait d h := by
    refine post_mono (waitForProcess_post d) ?_
    rintro ret d' ⟨w, s, -, -, -, hd'⟩
    rw [hd']
    exact (afterWait_isSystrace _ _).trans h
  syscallState _ _ h := h
  restore b a d h := by
    refine post_mono (restoreBreakpoint_post b a d) ?_
    rintro ret d' ⟨o, -, hdebug, -⟩
    rw [hdebug]
    cases o with
    | none => exact h
    | some w => exact (afterWait_isSystrace _ _).trans h

theorem passResult_of {ret : Int} (h : ret = 0 ∨ ret = exitStatusRet ∨ ret = -1) :
    passResult ret = ret := by
  rcases h with rfl | rfl | rfl <;> rfl

/-- A continue that returns has done what the ideal run does. -/
theorem continueExecution_sound (h : C.Tame code s₀) (hs : Shows C code s₀ s li d.kernel)
    (hquiet : ∀ e ∈ s.traps.marks, C.Quiet s₀ e.address) (hsys : d.debug.isSystrace = false)
    (n : Nat) :
    Post (continueExecution (cpuKernel C fuel) li n) d fun ret d' => ∃ k t,
      s.run C k = some (ret, t) ∧ Shows C code s₀ t li d'.kernel := by
  induction n generalizing s d with
  | zero => exact post_throw _
  | succ n ih =>
    have hround := post_and (continueRound_ends fuel h hs hquiet hsys)
      ((systrace_rounds (cpuKernel C fuel) false).continueRound hsys)
    rw [continueExecution_succ]
    refine post_bind hround ?_
    rintro o d₁ ⟨⟨k, s₁, hshows, hmarks, hburst⟩, hsys₁⟩
    cases o with
    | some ret => exact post_pure ⟨k + 1, s₁, hburst 0, hshows⟩
    | none =>
      rw [← hmarks] at hquiet
      refine post_bind (ih hshows hquiet hsys₁) ?_
      rintro ret d' ⟨m, t, hrun, ht⟩
      refine post_pure ⟨k + 1 + m, t, ?_, ht⟩
      rw [passResult_of (Ideal.run_result hrun)]
      exact (hburst m).trans hrun

/-- A continue does what the ideal run does if that ends, given enough time. -/
theorem continueExecution_total (h : C.Tame code s₀) (hs : Shows C code s₀ s li d.kernel)
    (hquiet : ∀ e ∈ s.traps.marks, C.Quiet s₀ e.address) (hsys : d.debug.isSystrace = false)
    {k n : Nat} {ret : Int} {t : Ideal ε} (hrun : s.run C k = some (ret, t)) (hfuel : k ≤ fuel + 1)
    (hn : k ≤ n) :
    ∃ d', continueExecution (cpuKernel C fuel) li n d = .ok (ret, d') ∧
      Shows C code s₀ t li d'.kernel := by
  induction n generalizing s d k with
  | zero =>
    obtain rfl : k = 0 := Nat.le_zero.mp hn
    cases hrun
  | succ n ih =>
    obtain ⟨o, d₁, hround, k₁, s₁, hshows, hmarks, hburst⟩ := continueRound_bursts fuel h hs hquiet
      hsys fun hover => run_stops fuel h hs.toFits hover hrun hfuel
    have hsys₁ := (systrace_rounds (cpuKernel C fuel) false).continueRound hsys _ _ hround
    cases o with
    | some ret₁ =>
      cases Ideal.run_unique hrun (hburst 0)
      exact ⟨d₁, continueExecution_some hround n, hshows⟩
    | none =>
      rw [← hmarks] at hquiet
      -- the run that has ended is longer than the burst
      obtain ⟨m, rfl⟩ : ∃ m, k = k₁ + 1 + m := by
        by_contra hlong
        have hmore := Ideal.run_mono hrun (k₁ + 1 - k)
        rw [Nat.add_sub_cancel' (by_contra fun hle => hlong ⟨k - (k₁ + 1), by omega⟩)] at hmore
        cases hmore.symm.trans (hburst 0)
      obtain ⟨d', hrest, ht⟩ := ih hshows hquiet hsys₁ ((hburst m).symm.trans hrun) (by omega)
        (by omega)
      refine ⟨d', ?_, ht⟩
      rw [continueExecution_none hround, run_bind_ok hrest, passResult_of (Ideal.run_result hrun)]
      rfl

end Zkz.Debugger
