import Zkz.Lib.Runs
import Zkz.Debugger.Answers

/-!
# Rounds, given the kernel's answers

One round of `ContinueExecution`, of `StepX` and of `StepAuto`: how it begins with its request and
its wait, and how it goes on at a stop, by the first breakpoint listed behind the stop. The rounds of
the last two are put together from the same parts, `stepAndWait` and `stopRegs`.
-/

namespace Zkz.Debugger

open Zkz.Lib BreakpointList

variable {σ : Type}

/-! ## Rounds of `ContinueExecution` -/

variable {K : Kernel σ} {li : BreakpointList} {d : Main σ} {s₁ s₂ : σ} {r : UserRegs}
  {w : Option Wstatus}

/-- The debugger's fields when a round resumes the debuggee. -/
def resumed (debug : Debug) : Debug := { debug with isSysStopped := false }

theorem resumed_of_not {debug : Debug} (h : debug.isSysStopped = false) :
    resumed debug = debug := by
  unfold resumed
  rw [← h]

/-- The system call stop that is recorded is forgotten, before what comes next. -/
theorem resumed_then {α : Type} (d : Main σ) (f : DbgM σ α) :
    (if d.debug.isSysStopped = true then do setSyscallState false; f else f) d =
      f ⟨resumed d.debug, d.regs, d.kernel, d.out⟩ := by
  by_cases hstop : d.debug.isSysStopped = true
  · rw [if_pos hstop]
    rfl
  · rw [if_neg hstop, resumed_of_not (by simpa using hstop)]

/-- The request of a round. -/
def resumeRequest (K : Kernel σ) (systrace : Bool) : Int → σ → Bool × σ :=
  if systrace then K.syscall else K.cont

/-- A round begins with its request. -/
theorem continueRound_request (K : Kernel σ) (li : BreakpointList) (d : Main σ) :
    ∃ out, continueRound K li d =
      (do
        if !(← ptrace (resumeRequest K d.debug.isSystrace)) then
          log .pError "Ptrace error" []
          return some (-1)
        continueFromWait K li : DbgM σ (Option Int)) ⟨resumed d.debug, d.regs, d.kernel, out⟩ := by
  unfold continueRound
  rw [run_bind_ok (run_get d)]
  by_cases hsys : d.debug.isSystrace = true
  · refine ⟨d.out ++ [⟨.info, "Continuing execution...\n", []⟩] ++
      [⟨.debug, "stopping at syscalls\n", []⟩], (resumed_then d _).trans ?_⟩
    rw [resumeRequest, if_pos hsys, run_bind_ok (by rfl), run_bind_ok (by rfl),
      if_pos (by exact hsys), run_bind_ok (by rfl)]
  · refine ⟨d.out ++ [⟨.info, "Continuing execution...\n", []⟩], (resumed_then d _).trans ?_⟩
    rw [resumeRequest, if_neg hsys, run_bind_ok (by rfl), run_bind_ok (by rfl),
      if_neg (by exact hsys)]

/-- A round resumes the debuggee and waits. -/
theorem continueRound_resume (li : BreakpointList)
    (hreq : resumeRequest K d.debug.isSystrace d.debug.pid d.kernel = (true, s₁)) :
    ∃ out, continueRound K li d =
      continueFromWait K li ⟨resumed d.debug, d.regs, s₁, out⟩ := by
  obtain ⟨out, h⟩ := continueRound_request K li d
  refine ⟨out, ?_⟩
  rw [h, run_bind_ok (by simp only [ptrace, resumed, hreq]; rfl)]
  rfl

/-- A round that cannot resume the debuggee ends the recursion. -/
theorem continueRound_fail (li : BreakpointList)
    (hreq : resumeRequest K d.debug.isSystrace d.debug.pid d.kernel = (false, s₁)) :
    ∃ out, continueRound K li d = .ok (some (-1), ⟨resumed d.debug, d.regs, s₁, out⟩) := by
  obtain ⟨out, h⟩ := continueRound_request K li d
  refine ⟨out ++ [⟨.pError, "Ptrace error", []⟩], ?_⟩
  rw [h, run_bind_ok (by simp only [ptrace, resumed, hreq]; rfl)]
  rfl

/-- A round whose wait reports no stop ends the recursion. -/
theorem continueFromWait_ended (li : BreakpointList)
    (hwait : K.waitpid d.debug.pid d.kernel = some (w, s₂))
    (hw : wifstopped (w.getD 0) = false) :
    ∃ ret d', (ret = 1 ∨ ret = -1) ∧ d'.kernel = s₂ ∧
      d'.debug = afterWait (w.getD 0) d.debug ∧
      continueFromWait K li d = .ok (some ret, d') := by
  obtain ⟨out, h⟩ := waitForProcess_run hwait
  unfold continueFromWait
  rw [run_bind_ok h]
  by_cases hex : waitResult (w.getD 0) = exitStatusRet
  · rw [if_pos hex]
    exact ⟨1, _, Or.inl rfl, rfl, rfl, rfl⟩
  · have hstop : waitResult (w.getD 0) ≠ stoppedStatusRet := by
      rw [Ne, waitResult_eq_stopped, hw]
      simp
    rw [if_neg hex, if_neg hstop]
    exact ⟨-1, _, Or.inr rfl, rfl, rfl, rfl⟩

theorem continueFromWait_never (li : BreakpointList)
    (hwait : K.waitpid d.debug.pid d.kernel = none) :
    continueFromWait K li d = .error .noReturn := by
  unfold continueFromWait
  rw [run_bind, waitForProcess_never hwait]

/-- A round whose wait reports a stop goes on with the registers of the stop. -/
theorem continueFromWait_stop (li : BreakpointList)
    (hwait : K.waitpid d.debug.pid d.kernel = some (w, s₂))
    (hw : wifstopped (w.getD 0) = true) (hget : K.getregs d.debug.pid s₂ = (some r, s₂)) :
    ∃ out, continueFromWait K li d = continueAtStop K li r ⟨d.debug, d.regs, s₂, out⟩ := by
  obtain ⟨out, h⟩ := waitForProcess_run hwait
  refine ⟨out, ?_⟩
  have hex := waitResult_ne_exit_of_wifstopped hw
  unfold continueFromWait
  rw [run_bind_ok h, if_neg hex, if_pos (waitResult_eq_stopped.mpr hw), afterWait_stopped hw,
    run_bind_ok (by simp only [ptrace, hget]; rfl)]

/-- A stop at no listed address. -/
theorem continueAtStop_unlisted (hsys : d.debug.isSystrace = false)
    (hb : getElementByAddress li (r.rip - 1) = none) :
    ∃ out, continueAtStop K li r d = .ok (none, ⟨d.debug, r, d.kernel, out⟩) := by
  refine ⟨d.out ++ [⟨.debug, "Prcoess stopped at address %x\n", [.hex (r.rip - 1)]⟩], ?_⟩
  unfold continueAtStop
  rw [run_bind_ok (by rfl), run_bind_ok (by rfl), hb]
  simp only
  rw [run_bind_ok (by rfl)]
  simp only [hsys]
  rw [if_neg (by simp)]
  rfl

/-- A stop at no listed address, with systrace on. -/
theorem continueAtStop_syscall (hsys : d.debug.isSystrace = true)
    (hb : getElementByAddress li (r.rip - 1) = none)
    (hget : K.getregs d.debug.pid d.kernel = (some r, d.kernel)) :
    ∃ out, continueAtStop K li r d =
      .ok (some 0, ⟨{ d.debug with isSysStopped := true }, r, d.kernel, out⟩) := by
  unfold continueAtStop
  rw [run_bind_ok (by rfl), run_bind_ok (by rfl), hb]
  simp only
  rw [run_bind_ok (by rfl)]
  rw [if_pos (by exact hsys), run_bind_ok (by rfl), run_bind_ok (by rfl), run_bind_ok (by rfl)]
  split
  · rw [run_bind_ok (by rfl)]
    obtain ⟨out, hreg⟩ := infoRegistersAll_run (K := K) (r := r)
      (d := ⟨{ d.debug with isSysStopped := true }, r, d.kernel, d.out ++
        [⟨.debug, "Prcoess stopped at address %x\n", [.hex (r.rip - 1)]⟩] ++
        [⟨.info, "System call intercepted: %x\n", [.hex r.rax]⟩] ++
        [⟨.debug, "Register information flag is set\n", []⟩]⟩) hget
    exact ⟨out, run_bind_ok hreg⟩
  · exact ⟨_, rfl⟩

/-- A stop whose first breakpoint is disabled. -/
theorem continueAtStop_disabled {b : Breakpoint}
    (hb : getElementByAddress li (r.rip - 1) = some b) (he : b.isEnabled = false) :
    ∃ out, continueAtStop K li r d =
      (do
        if (← restoreBreakpoint K b (r.rip - 1)) < -1 then
          return some (-1)
        return none : DbgM σ (Option Int)) ⟨d.debug, r, d.kernel, out⟩ := by
  refine ⟨d.out ++ [⟨.debug, "Prcoess stopped at address %x\n", [.hex (r.rip - 1)]⟩] ++
    [⟨.debug, "Breakpoint hit\n", []⟩] ++ [⟨.debug, "Disabled breakpoint\n", []⟩], ?_⟩
  unfold continueAtStop
  rw [run_bind_ok (by rfl), run_bind_ok (by rfl), hb]
  simp only
  rw [run_bind_ok (by rfl)]
  simp only [he]
  rw [if_neg (by simp), run_bind_ok (by rfl)]

/-- A stop whose first breakpoint is enabled. -/
theorem continueAtStop_enabled {b : Breakpoint}
    (hb : getElementByAddress li (r.rip - 1) = some b) (he : b.isEnabled = true)
    (hget : K.getregs d.debug.pid d.kernel = (some r, d.kernel)) :
    ∃ out, continueAtStop K li r d =
      (do
        if (← restoreBreakpoint K b (r.rip - 1)) < -1 then
          return some (-1)
        return some 0 : DbgM σ (Option Int)) ⟨d.debug, r, d.kernel, out⟩ := by
  obtain ⟨regs, out, hregs, hinfo⟩ := inforeg_then (K := K) (r := r)
    (d := ⟨d.debug, r, d.kernel, d.out ++
      [⟨.debug, "Prcoess stopped at address %x\n", [.hex (r.rip - 1)]⟩] ++
      [⟨.debug, "Breakpoint hit\n", []⟩] ++
      [⟨.info, "Stopped execution at %x : breakpoint number %d\n",
        [.hex (r.rip - 1), .int b.breakpointNumber]⟩]⟩) hget (do
    log .debug "Enabled breakpoint\n" []
    if (← restoreBreakpoint K b ((← get).regs.rip - 1)) < -1 then
      return some (-1)
    return some 0)
  obtain rfl : regs = r := hregs.elim id id
  refine ⟨out ++ [⟨.debug, "Enabled breakpoint\n", []⟩], ?_⟩
  unfold continueAtStop
  rw [run_bind_ok (by rfl), run_bind_ok (by rfl), hb]
  simp only
  rw [run_bind_ok (by rfl)]
  simp only [he]
  rw [if_pos trivial, run_bind_ok (by rfl), run_bind_ok (by rfl)]
  refine hinfo.trans ?_
  rw [run_bind_ok (by rfl), run_bind_ok (by rfl)]

/-! ## The recursion of `ContinueExecution` -/

theorem continueExecution_some {ret : Int} {d' : Main σ}
    (h : continueRound K li d = .ok (some ret, d')) (fuel : Nat) :
    continueExecution K li (fuel + 1) d = .ok (ret, d') := by
  unfold continueExecution
  rw [run_bind_ok h]
  rfl

theorem continueExecution_succ (K : Kernel σ) (li : BreakpointList) (fuel : Nat) :
    continueExecution K li (fuel + 1) =
      roundThen (continueRound K li) (do return passResult (← continueExecution K li fuel)) := by
  rw [continueExecution, roundThen]
  congr 1
  funext o
  cases o <;> rfl

theorem continueExecution_none {d₁ : Main σ} (h : continueRound K li d = .ok (none, d₁))
    (fuel : Nat) : continueExecution K li (fuel + 1) d =
      (do return passResult (← continueExecution K li fuel) : DbgM σ Int) d₁ := by
  rw [continueExecution, run_bind_ok h]

/-! ## The parts of a step -/

/-- The single step of a round and the wait for it; `none` if there is no step. -/
def stepAndWait (K : Kernel σ) (msg : String) : DbgM σ (Option Int) := do
  if !(← ptrace K.singlestep) then
    log .pError msg []
    return none
  return some (← waitForProcess K)

/-- The registers of a stop, after they are dumped; `none` if they cannot be read. -/
def stopRegs (K : Kernel σ) : DbgM σ (Option UserRegs) := do
  if (← get).debug.isInforeg then
    let _ ← infoRegistersAll K
  let some r ← ptrace K.getregs | do
    log .pError "Ptrace error" []
    return none
  return some r

theorem stopRegs_then {α : Type} (K : Kernel σ) (onRegs : UserRegs → DbgM σ α) (fail : α) :
    (do
      match ← stopRegs K with
      | none => return fail
      | some r => onRegs r) = (do
      if (← get).debug.isInforeg then
        let _ ← infoRegistersAll K
      let some r ← ptrace K.getregs | do
        log .pError "Ptrace error" []
        return fail
      onRegs r) := by
  have hread : (do
      match ← (do
        let some r ← ptrace K.getregs | do
          log .pError "Ptrace error" []
          return none
        return some r : DbgM σ (Option UserRegs)) with
      | none => return fail
      | some r => onRegs r) = (do
      let some r ← ptrace K.getregs | do
        log .pError "Ptrace error" []
        return fail
      onRegs r) := by
    rw [bind_assoc]
    refine bind_congr fun o => ?_
    cases o with
    | none => simp
    | some r => simp
  unfold stopRegs
  simp only [bind_assoc]
  refine bind_congr fun d => ?_
  split
  · simp only [bind_assoc]
    exact bind_congr fun _ => (by simpa only [bind_assoc] using hread)
  · simpa only [bind_assoc] using hread

theorem stepAndWait_fail (msg : String)
    (hstep : K.singlestep d.debug.pid d.kernel = (false, s₁)) :
    ∃ out, stepAndWait K msg d = .ok (none, ⟨d.debug, d.regs, s₁, out⟩) := by
  unfold stepAndWait
  rw [run_bind_ok (by simp only [ptrace, hstep]; rfl)]
  exact ⟨_, rfl⟩

theorem stepAndWait_run (msg : String) (hstep : K.singlestep d.debug.pid d.kernel = (true, s₁))
    (hwait : K.waitpid d.debug.pid s₁ = some (w, s₂)) :
    ∃ out, stepAndWait K msg d = .ok (some (waitResult (w.getD 0)),
      ⟨afterWait (w.getD 0) d.debug, d.regs, s₂, out⟩) := by
  obtain ⟨out, h⟩ := waitForProcess_run (d := ⟨d.debug, d.regs, s₁, d.out⟩) hwait
  refine ⟨out, ?_⟩
  unfold stepAndWait
  rw [run_bind_ok (by simp only [ptrace, hstep]; rfl)]
  simp only [Bool.not_true, Bool.false_eq_true, if_false]
  rw [run_bind_ok h]
  rfl

/-- The registers are read after the dump, where there are any. -/
theorem stopRegs_run (hget : K.getregs d.debug.pid d.kernel = (some r, d.kernel)) :
    ∃ regs out, stopRegs K d = .ok (some r, ⟨d.debug, regs, d.kernel, out⟩) := by
  obtain ⟨regs, out, -, hinfo⟩ := inforeg_then hget (do
    let some r ← ptrace K.getregs | do
      log .pError "Ptrace error" []
      return none
    return some r : DbgM σ (Option UserRegs))
  refine ⟨regs, out, hinfo.trans ?_⟩
  rw [run_bind_ok (by simp only [ptrace, hget]; rfl)]
  rfl

theorem stopRegs_gone (hget : K.getregs d.debug.pid d.kernel = (none, d.kernel)) :
    ∃ d', d'.kernel = d.kernel ∧ stopRegs K d = .ok (none, d') := by
  unfold stopRegs
  rw [run_bind_ok (run_get d)]
  by_cases hinfo : d.debug.isInforeg = true
  · rw [if_pos hinfo, run_bind_ok (infoRegistersAll_fail hget)]
    simp only
    rw [run_bind_ok (by simp only [ptrace, hget]; rfl)]
    refine ⟨_, ?_, rfl⟩
    rfl
  · rw [if_neg hinfo]
    simp only
    rw [run_bind_ok (by simp only [ptrace, hget]; rfl)]
    refine ⟨_, ?_, rfl⟩
    rfl

/-- The wait reports the end of the debuggee: it has exited, or a signal has killed it. -/
theorem waitResult_gone {w : Wstatus} (hw : wifexited w = true ∨ wifsignaled w = true) :
    waitResult w = exitStatusRet ∨ waitResult w ≠ exitStatusRet ∧
      waitResult w = signaledStatusRet := by
  by_cases hex : wifexited w = true
  · exact Or.inl (waitResult_exited hex)
  · exact Or.inr ⟨waitResult_ne_exit hex, waitResult_eq_signaled.mpr (hw.resolve_left hex)⟩

/-! ## Rounds of `StepX` -/

variable {i : Nat}

theorem stepXRound_eq (K : Kernel σ) (li : BreakpointList) (i : Nat) :
    stepXRound K li i = (do
      match ← stepAndWait K "Ptrace error" with
      | none => return some (-1)
      | some ret =>
        if ret = exitStatusRet then return some exitStatusRet
        else if ret = stoppedStatusRet ∨ ret = signaledStatusRet then
          match ← stopRegs K with
          | none => return some (-1)
          | some r => stepXAtStop K li i r
        else return none) := by
  unfold stepXRound stepAndWait
  simp only [bind_assoc]
  refine bind_congr fun stepped => ?_
  cases stepped with
  | false => simp
  | true =>
    simp only [Bool.not_true, Bool.false_eq_true, if_false, bind_assoc, pure_bind]
    refine bind_congr fun ret => ?_
    split
    · rfl
    · split
      · exact (stopRegs_then K (stepXAtStop K li i) (some (-1))).symm
      · rfl

/-- A round that cannot step the debuggee ends the loop. -/
theorem stepXRound_fail (li : BreakpointList)
    (hstep : K.singlestep d.debug.pid d.kernel = (false, s₁)) :
    ∃ out, stepXRound K li i d = .ok (some (-1), ⟨d.debug, d.regs, s₁, out⟩) := by
  obtain ⟨out, h⟩ := stepAndWait_fail "Ptrace error" hstep
  rw [stepXRound_eq, run_bind_ok h]
  exact ⟨out, rfl⟩

/-- A round whose wait reports a stop goes on with the registers of the stop. -/
theorem stepXRound_stop (li : BreakpointList)
    (hstep : K.singlestep d.debug.pid d.kernel = (true, s₁))
    (hwait : K.waitpid d.debug.pid s₁ = some (w, s₂)) (hw : wifstopped (w.getD 0) = true)
    (hget : K.getregs d.debug.pid s₂ = (some r, s₂)) :
    ∃ regs out, stepXRound K li i d = stepXAtStop K li i r ⟨d.debug, regs, s₂, out⟩ := by
  obtain ⟨out, h⟩ := stepAndWait_run "Ptrace error" hstep hwait
  rw [afterWait_stopped hw] at h
  obtain ⟨regs, out', hregs⟩ := stopRegs_run (d := ⟨d.debug, d.regs, s₂, out⟩) hget
  refine ⟨regs, out', ?_⟩
  have hex := waitResult_ne_exit_of_wifstopped hw
  have hstop := waitResult_eq_stopped.mpr hw
  rw [stepXRound_eq, run_bind_ok h]
  simp only [if_neg hex, if_pos (Or.inl hstop)]
  rw [run_bind_ok hregs]

/-- A round whose wait reports the end of the debuggee ends the loop. -/
theorem stepXRound_gone (li : BreakpointList)
    (hstep : K.singlestep d.debug.pid d.kernel = (true, s₁))
    (hwait : K.waitpid d.debug.pid s₁ = some (w, s₂))
    (hw : wifexited (w.getD 0) = true ∨ wifsignaled (w.getD 0) = true)
    (hget : K.getregs d.debug.pid s₂ = (none, s₂)) :
    ∃ ret d', (ret = 1 ∨ ret = -1) ∧ d'.kernel = s₂ ∧
      stepXRound K li i d = .ok (some ret, d') := by
  obtain ⟨out, h⟩ := stepAndWait_run "Ptrace error" hstep hwait
  rw [stepXRound_eq, run_bind_ok h]
  rcases waitResult_gone hw with hex | ⟨hne, hsig⟩
  · simp only [if_pos hex]
    exact ⟨1, _, Or.inl rfl, rfl, rfl⟩
  · obtain ⟨d', hker, hregs⟩ := stopRegs_gone
      (d := ⟨afterWait (w.getD 0) d.debug, d.regs, s₂, out⟩) (by simpa using hget)
    simp only [if_neg hne, if_pos (Or.inr hsig)]
    rw [run_bind_ok hregs]
    exact ⟨-1, d', Or.inr rfl, hker, rfl⟩

/-- A stop at no listed address. -/
theorem stepXAtStop_unlisted (hb : getElementByAddress li (r.rip - 1) = none) :
    stepXAtStop K li i r d = .ok (none, ⟨d.debug, r, d.kernel, d.out⟩) := by
  unfold stepXAtStop
  rw [run_bind_ok (by rfl), hb]
  rfl

/-- A stop whose first breakpoint is enabled. -/
theorem stepXAtStop_enabled {b : Breakpoint}
    (hb : getElementByAddress li (r.rip - 1) = some b) (he : b.isEnabled = true) :
    ∃ out, stepXAtStop K li i r d =
      (do
        if (← restoreBreakpoint K b (r.rip - 1)) < -1 then
          return some (-1)
        return some 0 : DbgM σ (Option Int)) ⟨d.debug, r, d.kernel, out⟩ := by
  refine ⟨d.out ++ [⟨.info, "Stopped execution at %x : breakpoint number %d\n",
    [.hex (r.rip - 1), .int b.breakpointNumber]⟩], ?_⟩
  unfold stepXAtStop
  rw [run_bind_ok (by rfl), hb]
  simp only [he]
  rw [if_pos trivial, run_bind_ok (by rfl)]

/-- A stop whose first breakpoint is disabled. -/
theorem stepXAtStop_disabled {b : Breakpoint}
    (hb : getElementByAddress li (r.rip - 1) = some b) (he : b.isEnabled = false) :
    stepXAtStop K li i r d =
      (do
        if (← restoreBreakpoint K b (r.rip - BitVec.ofNat 64 i)) < -1 then
          return some (-1)
        return none : DbgM σ (Option Int)) ⟨d.debug, r, d.kernel, d.out⟩ := by
  unfold stepXAtStop
  rw [run_bind_ok (by rfl), hb]
  simp only [he]
  rw [if_neg (by simp)]

theorem stepXLoop_succ (K : Kernel σ) (li : BreakpointList) (i n : Nat) :
    stepXLoop K li i (n + 1) =
      roundThen (stepXRound K li i) (do return id (← stepXLoop K li (i + 1) n)) := by
  rw [stepXLoop, roundThen]
  congr 1
  funext o
  cases o with
  | none => exact (bind_pure _).symm
  | some ret => rfl

/-! ## Rounds of `StepAuto` -/

/-- A round of `StepAuto` from the result of its wait on, up to the registers of the stop. -/
def autoRegs (K : Kernel σ) (ret : Int) : DbgM σ (Option UserRegs) := do
  if ret = stoppedStatusRet ∨ ret = signaledStatusRet then
    log .print "---> rip: %x\n" [.hex (← get).regs.rip]
  stopRegs K

theorem stepAutoRound_eq (K : Kernel σ) (li : BreakpointList) :
    stepAutoRound K li = (do
      match ← stepAndWait K "Ptrace eror" with
      | none => return some (-1)
      | some ret =>
        if ret = exitStatusRet then return some exitStatusRet
        match ← autoRegs K ret with
        | none => return some (-1)
        | some r => stepAutoAtStop K li r) := by
  unfold stepAutoRound stepAndWait
  simp only [bind_assoc]
  refine bind_congr fun stepped => ?_
  cases stepped with
  | false => simp
  | true =>
    simp only [Bool.not_true, Bool.false_eq_true, if_false, bind_assoc, pure_bind]
    refine bind_congr fun ret => ?_
    split
    · rfl
    · unfold autoRegs
      split
      · simp only [bind_assoc]
        refine bind_congr fun d => bind_congr fun _ => ?_
        exact (stopRegs_then K (stepAutoAtStop K li) (some (-1))).symm
      · exact (stopRegs_then K (stepAutoAtStop K li) (some (-1))).symm

/-- A round that cannot step the debuggee ends the loop. -/
theorem stepAutoRound_fail (li : BreakpointList)
    (hstep : K.singlestep d.debug.pid d.kernel = (false, s₁)) :
    ∃ out, stepAutoRound K li d = .ok (some (-1), ⟨d.debug, d.regs, s₁, out⟩) := by
  obtain ⟨out, h⟩ := stepAndWait_fail "Ptrace eror" hstep
  rw [stepAutoRound_eq, run_bind_ok h]
  exact ⟨out, rfl⟩

/-- The registers are read behind the print. -/
theorem autoRegs_print {v : Int} (hv : v = stoppedStatusRet ∨ v = signaledStatusRet) :
    autoRegs K v d =
      stopRegs K { d with out := d.out ++ [⟨.print, "---> rip: %x\n", [.hex d.regs.rip]⟩] } := by
  unfold autoRegs
  rw [if_pos hv, run_bind_ok (run_get d), run_bind_ok (by rfl)]

/-- A round whose wait reports a stop goes on with the registers of the stop. -/
theorem stepAutoRound_stop (li : BreakpointList)
    (hstep : K.singlestep d.debug.pid d.kernel = (true, s₁))
    (hwait : K.waitpid d.debug.pid s₁ = some (w, s₂)) (hw : wifstopped (w.getD 0) = true)
    (hget : K.getregs d.debug.pid s₂ = (some r, s₂)) :
    ∃ regs out, stepAutoRound K li d = stepAutoAtStop K li r ⟨d.debug, regs, s₂, out⟩ := by
  obtain ⟨out, h⟩ := stepAndWait_run "Ptrace eror" hstep hwait
  rw [afterWait_stopped hw] at h
  obtain ⟨regs, out', hregs⟩ := stopRegs_run (d := ⟨d.debug, d.regs, s₂, out ++
    [⟨.print, "---> rip: %x\n", [.hex d.regs.rip]⟩]⟩) hget
  refine ⟨regs, out', ?_⟩
  have hex := waitResult_ne_exit_of_wifstopped hw
  have hstop := waitResult_eq_stopped.mpr hw
  rw [stepAutoRound_eq, run_bind_ok h]
  simp only [if_neg hex]
  rw [run_bind_ok ((autoRegs_print (Or.inl hstop)).trans hregs)]

/-- A round whose wait reports the end of the debuggee ends the loop. -/
theorem stepAutoRound_gone (li : BreakpointList)
    (hstep : K.singlestep d.debug.pid d.kernel = (true, s₁))
    (hwait : K.waitpid d.debug.pid s₁ = some (w, s₂))
    (hw : wifexited (w.getD 0) = true ∨ wifsignaled (w.getD 0) = true)
    (hget : K.getregs d.debug.pid s₂ = (none, s₂)) :
    ∃ ret d', d'.kernel = s₂ ∧ stepAutoRound K li d = .ok (some ret, d') := by
  obtain ⟨out, h⟩ := stepAndWait_run "Ptrace eror" hstep hwait
  rw [stepAutoRound_eq, run_bind_ok h]
  rcases waitResult_gone hw with hex | ⟨hne, hsig⟩
  · simp only [if_pos hex]
    exact ⟨1, _, rfl, rfl⟩
  · obtain ⟨d', hker, hregs⟩ := stopRegs_gone (d := ⟨afterWait (w.getD 0) d.debug, d.regs, s₂,
      out ++ [⟨.print, "---> rip: %x\n", [.hex d.regs.rip]⟩]⟩) (by simpa using hget)
    simp only [if_neg hne]
    rw [run_bind_ok ((autoRegs_print (Or.inr hsig)).trans hregs)]
    exact ⟨-1, d', hker, rfl⟩

/-- A stop at no listed address. -/
theorem stepAutoAtStop_unlisted (hb : getElementByAddress li (r.rip - 1) = none) :
    stepAutoAtStop K li r d = .ok (none, ⟨d.debug, r, d.kernel, d.out⟩) := by
  unfold stepAutoAtStop
  rw [run_bind_ok (by rfl), hb]
  rfl

/-- A stop at a listed address. -/
theorem stepAutoAtStop_listed {b : Breakpoint}
    (hb : getElementByAddress li (r.rip - 1) = some b) :
    ∃ out, stepAutoAtStop K li r d =
      (do
        let _ ← restoreBreakpoint K b (r.rip - 1)
        return if b.isEnabled then some 0 else none : DbgM σ (Option Int))
        ⟨d.debug, r, d.kernel, out⟩ := by
  unfold stepAutoAtStop
  rw [run_bind_ok (by rfl), hb]
  by_cases he : b.isEnabled = true
  · refine ⟨d.out ++ [⟨.info, "Stopped execution at %x : breakpoint number %d\n",
      [.hex (r.rip - 1), .int b.breakpointNumber]⟩], ?_⟩
    simp only [he, if_true]
    rw [run_bind_ok (by rfl)]
  · refine ⟨d.out, ?_⟩
    simp only [he]
    rfl

theorem stepAuto_succ (K : Kernel σ) (li : BreakpointList) {ret : Int} (hret : ret ≠ exitStatusRet)
    (fuel : Nat) :
    stepAuto K li ret (fuel + 1) =
      roundThen (stepAutoRound K li) (do return id (← stepAuto K li ret fuel)) := by
  rw [stepAuto, roundThen]
  congr 1
  funext o
  cases o with
  | none => exact (if_pos hret).trans (bind_pure _).symm
  | some ret' => rfl

/-- If the variable that the loop condition reads happens to hold the exit status, then the loop
ends after one round. -/
theorem stepAuto_once (K : Kernel σ) (li : BreakpointList) (fuel : Nat) :
    stepAuto K li exitStatusRet (fuel + 1) = roundThen (stepAutoRound K li) (pure 0) := by
  rw [stepAuto, roundThen]
  congr 1
  funext o
  cases o <;> rfl

end Zkz.Debugger
