import Zkz.Lib.Runs
import Zkz.Debugger.Loops
import Zkz.Debugger.Transparency

/-!
# Which stops rewind the debuggee

`RestoreBreakpoint` sets `rip` back whenever the address behind the stop is listed. `Genuine`
says that every change of `rip` so far followed a trap that the debuggee had just executed,
and went back over no more than it. Any number of rounds of the three loops keeps it, as long
as no stop that is not a trap is right behind a listed address, and `StepX` meets the trap of a
disabled breakpoint in its first two rounds only.

* `restore_genuine`: a restore behind a trap is genuine.
* `stepXRound_genuine`, `stepAutoRound_genuine`, `continueRound_genuine`: one round.
* `rewinds_genuine`: a session of commands, the last of which may not have returned.
-/

namespace Zkz.Debugger

open Zkz.Lib BreakpointList

variable {ε : Type} {C : Cpu ε} {li : BreakpointList} {i : Nat}

/-- `rip` was set back right behind a trap, over the trap or not at all. -/
def Rewind.Genuine (e : Rewind) : Prop :=
  e.lastTrap = some (e.before - 1) ∧ (e.after = e.before - 1 ∨ e.after = e.before)

def Genuine (s : Proc ε) : Prop := ∀ e ∈ s.rewinds, e.Genuine

/-- A stop that is not a trap is not right behind a listed address. -/
def Outcome.Clear (li : BreakpointList) : Outcome ε → Prop
  | .next p => p.rip - 1 ∉ addresses li
  | .signal p _ => p.rip - 1 ∉ addresses li
  | _ => True

/-- The next stop of a process is clear. -/
def StopClear (C : Cpu ε) (fuel : Nat) (li : BreakpointList) (phase : Phase) (s : Proc ε) :
    Prop :=
  s.phase = .stopped → ∀ o, C.nextStop fuel phase s = some o → o.1.Clear li

/-- If the first breakpoint at the trap that a process executes next is disabled, then the
round has index 0 or 1. -/
def TrapClear (C : Cpu ε) (li : BreakpointList) (i : Nat) (s : Proc ε) : Prop :=
  s.phase = .stopped → ∀ p b, C.resume s = .trap p →
    getElementByAddress li (p.rip - 1) = some b → b.isEnabled = false → i ≤ 1

/-! ## Stops -/

theorem report_rewinds (s : Proc ε) (o : Outcome ε) : (s.report o).rewinds = s.rewinds := by
  cases o <;> rfl

theorem genuine_report {s : Proc ε} (h : Genuine s) (o : Outcome ε) (inCall : Bool) :
    Genuine { s.report o with inCall := inCall } := by
  intro e he
  rw [report_rewinds] at he
  exact h e he

/-- The process is stopped, and behind a trap if the address behind the stop is listed. -/
structure StoppedClear (li : BreakpointList) (s : Proc ε) : Prop where
  genuine : Genuine s
  stopped : s.phase = .stopped
  trap : s.machine.rip - 1 ∈ addresses li → s.lastTrap = some (s.machine.rip - 1)

/-- A clear outcome ends the process or stops it clear. -/
theorem report_clear {s : Proc ε} (h : Genuine s) {o : Outcome ε} (ho : o.Clear li)
    (inCall : Bool) :
    (wifstopped o.status = true ∧ StoppedClear li { s.report o with inCall := inCall }) ∨
      (wifexited o.status = true ∨ wifsignaled o.status = true) ∧
        (s.report o).phase = .reaped := by
  have hgen := genuine_report h o inCall
  cases o with
  | next p => exact Or.inl ⟨wifstopped_stopStatus _, hgen, rfl, fun hp => absurd hp ho⟩
  | trap p => exact Or.inl ⟨wifstopped_stopStatus _, hgen, rfl, fun _ => rfl⟩
  | signal p sig => exact Or.inl ⟨wifstopped_stopStatus _, hgen, rfl, fun hp => absurd hp ho⟩
  | gone w hw => exact Or.inr ⟨hw, rfl⟩

variable (fuel : Nat) {d : Main (Proc ε)}

/-- A restore behind a trap is genuine. -/
theorem restore_genuine (h : Genuine d.kernel) (hstop : d.kernel.phase = .stopped)
    (htrap : d.kernel.lastTrap = some (d.kernel.machine.rip - 1)) (b : Breakpoint) {a : Addr}
    (ha : a = d.kernel.machine.rip - 1 ∨ a = d.kernel.machine.rip) :
    ∃ ret d', restoreBreakpoint (cpuKernel C fuel) b a d = .ok (ret, d') ∧ ¬ ret < -1 ∧
      Genuine d'.kernel := by
  obtain ⟨out, hrun⟩ := restoreBreakpoint_cpu C fuel b a hstop
  refine ⟨_, _, hrun, restoreResult_nonneg _, ?_⟩
  intro e he
  rw [report_rewinds] at he
  rcases List.mem_append.mp he with hold | hnew
  · exact h e hold
  · rw [List.mem_singleton] at hnew
    rw [hnew]
    exact ⟨htrap, ha⟩

theorem lastTrap_of_listed {r : UserRegs} {b : Breakpoint} (h : StoppedClear li d.kernel)
    (hr : d.kernel.machine.regs = r) (hb : getElementByAddress li (r.rip - 1) = some b) :
    d.kernel.lastTrap = some (d.kernel.machine.rip - 1) := by
  refine h.trap ?_
  obtain ⟨hmem, haddr⟩ := getElementByAddress_mem hb
  unfold Machine.rip
  rw [hr, ← haddr]
  exact List.mem_map_of_mem hmem

theorem continueAtStop_genuine (h : StoppedClear li d.kernel) {r : UserRegs}
    (hr : d.kernel.machine.regs = r) :
    Post (continueAtStop (cpuKernel C fuel) li r) d fun _ d' => Genuine d'.kernel := by
  have hget : (cpuKernel C fuel).getregs d.debug.pid d.kernel = (some r, d.kernel) := by
    rw [getregs_stopped fuel h.stopped, hr]
  cases hb : getElementByAddress li (r.rip - 1) with
  | none =>
    by_cases hsys : d.debug.isSystrace = true
    · obtain ⟨out, hat⟩ := continueAtStop_syscall hsys hb hget
      exact post_ok hat h.genuine
    · obtain ⟨out, hat⟩ := continueAtStop_unlisted (K := cpuKernel C fuel) (by simpa using hsys) hb
      exact post_ok hat h.genuine
  | some b =>
    have htrap := lastTrap_of_listed h hr hb
    have ha : r.rip - 1 = d.kernel.machine.rip - 1 := by rw [← hr]; rfl
    by_cases he : b.isEnabled = true
    · obtain ⟨out, hat⟩ := continueAtStop_enabled hb he hget
      obtain ⟨ret, d', hrest, hret, hgen⟩ := restore_genuine (C := C) fuel
        (d := ⟨d.debug, r, d.kernel, out⟩) h.genuine h.stopped htrap b (Or.inl ha)
      rw [run_bind_ok hrest, if_neg hret] at hat
      exact post_ok hat hgen
    · obtain ⟨out, hat⟩ := continueAtStop_disabled (K := cpuKernel C fuel) (d := d) hb
        (by simpa using he)
      obtain ⟨ret, d', hrest, hret, hgen⟩ := restore_genuine (C := C) fuel
        (d := ⟨d.debug, r, d.kernel, out⟩) h.genuine h.stopped htrap b (Or.inl ha)
      rw [run_bind_ok hrest, if_neg hret] at hat
      exact post_ok hat hgen

theorem stepXAtStop_genuine (h : StoppedClear li d.kernel) {r : UserRegs}
    (hr : d.kernel.machine.regs = r)
    (hi : ∀ b, getElementByAddress li (r.rip - 1) = some b → b.isEnabled = false → i ≤ 1) :
    Post (stepXAtStop (cpuKernel C fuel) li i r) d fun _ d' => Genuine d'.kernel := by
  cases hb : getElementByAddress li (r.rip - 1) with
  | none => exact post_ok (stepXAtStop_unlisted hb) h.genuine
  | some b =>
    have htrap := lastTrap_of_listed h hr hb
    have hrip : r.rip = d.kernel.machine.rip := by rw [← hr]; rfl
    have hback : r.rip - 1 = d.kernel.machine.rip - 1 := by rw [hrip]
    by_cases he : b.isEnabled = true
    · obtain ⟨out, hat⟩ := stepXAtStop_enabled (K := cpuKernel C fuel) (i := i) (d := d) hb he
      obtain ⟨ret, d', hrest, hret, hgen⟩ := restore_genuine (C := C) fuel
        (d := ⟨d.debug, r, d.kernel, out⟩) h.genuine h.stopped htrap b (Or.inl hback)
      rw [run_bind_ok hrest, if_neg hret] at hat
      exact post_ok hat hgen
    · have hdis : b.isEnabled = false := by simpa using he
      have ha : r.rip - BitVec.ofNat 64 i = d.kernel.machine.rip - 1 ∨
          r.rip - BitVec.ofNat 64 i = d.kernel.machine.rip := by
        rw [hrip]
        rcases Nat.le_one_iff_eq_zero_or_eq_one.mp (hi b hb hdis) with rfl | rfl
        · exact Or.inr (BitVec.sub_zero _)
        · exact Or.inl rfl
      have hat := stepXAtStop_disabled (K := cpuKernel C fuel) (i := i) (d := d) hb hdis
      obtain ⟨ret, d', hrest, hret, hgen⟩ := restore_genuine (C := C) fuel
        (d := ⟨d.debug, r, d.kernel, d.out⟩) h.genuine h.stopped htrap b ha
      rw [run_bind_ok hrest, if_neg hret] at hat
      exact post_ok hat hgen

theorem stepAutoAtStop_genuine (h : StoppedClear li d.kernel) {r : UserRegs}
    (hr : d.kernel.machine.regs = r) :
    Post (stepAutoAtStop (cpuKernel C fuel) li r) d fun _ d' => Genuine d'.kernel := by
  cases hb : getElementByAddress li (r.rip - 1) with
  | none => exact post_ok (stepAutoAtStop_unlisted hb) h.genuine
  | some b =>
    have htrap := lastTrap_of_listed h hr hb
    have hback : r.rip - 1 = d.kernel.machine.rip - 1 := by rw [← hr]; rfl
    obtain ⟨out, hat⟩ := stepAutoAtStop_listed (K := cpuKernel C fuel) (d := d) hb
    obtain ⟨ret, d', hrest, -, hgen⟩ := restore_genuine (C := C) fuel
      (d := ⟨d.debug, r, d.kernel, out⟩) h.genuine h.stopped htrap b (Or.inl hback)
    rw [run_bind_ok hrest] at hat
    exact post_ok hat hgen

/-! ## Rounds -/

theorem start_not_stopped {s : Proc ε} (h : ¬ s.phase = .stopped) (phase : Phase) :
    s.start phase = (false, s) := if_neg h

theorem resumeRequest_cpu (systrace : Bool) (pid : Int) (s : Proc ε) :
    resumeRequest (cpuKernel C fuel) systrace pid s =
      s.start (if systrace then .tracing else .continuing) := by
  cases systrace <;> rfl

theorem waitpid_inPhase {s : Proc ε} (phase : Phase) (pid : Int) (h₁ : phase ≠ .stopped)
    (h₂ : phase ≠ .reaped) : (cpuKernel C fuel).waitpid pid (s.inPhase phase) =
      (C.nextStop fuel phase s).map fun o =>
        (some o.1.status, { (s.inPhase phase).report o.1 with inCall := o.2 }) := by
  cases phase with
  | stopped => exact absurd rfl h₁
  | reaped => exact absurd rfl h₂
  | stepping => rfl
  | continuing => rfl
  | tracing => rfl

theorem getregs_reaped {s : Proc ε} (h : s.phase = .reaped) (pid : Int) :
    (cpuKernel C fuel).getregs pid s = (none, s) := by
  simp [cpuKernel, h]

/-- A round of a continue whose stop is clear. -/
theorem continueRound_genuine (h : Genuine d.kernel)
    (hclear : StopClear C fuel li (if d.debug.isSystrace then .tracing else .continuing)
      d.kernel) :
    Post (continueRound (cpuKernel C fuel) li) d fun _ d' => Genuine d'.kernel := by
  have hreq := resumeRequest_cpu (C := C) fuel d.debug.isSystrace d.debug.pid d.kernel
  generalize hphase : (if d.debug.isSystrace = true then Phase.tracing else .continuing) = phase
    at hreq hclear
  have hne : phase ≠ .stopped ∧ phase ≠ .reaped := by
    rw [← hphase]
    cases d.debug.isSystrace <;> simp
  by_cases hstop : d.kernel.phase = .stopped
  · rw [start_stopped hstop] at hreq
    obtain ⟨out, hround⟩ := continueRound_resume li hreq
    have hwait := waitpid_inPhase (C := C) fuel (s := d.kernel) _ d.debug.pid hne.1 hne.2
    intro o d' hrun
    rw [hround] at hrun
    cases hnext : C.nextStop fuel phase d.kernel with
    | none =>
      rw [hnext] at hwait
      have hnever := continueFromWait_never li
        (d := ⟨resumed d.debug, d.regs, d.kernel.inPhase phase, out⟩) hwait
      rw [hnever] at hrun
      cases hrun
    | some oc =>
      rw [hnext] at hwait
      rcases report_clear (s := d.kernel.inPhase phase) h (hclear hstop oc hnext) oc.2 with
        ⟨hw, hstopped⟩ | ⟨hw, -⟩
      · obtain ⟨out', hat⟩ := continueFromWait_stop (K := cpuKernel C fuel) li
          (d := ⟨resumed d.debug, d.regs, d.kernel.inPhase phase, out⟩) hwait hw
          (getregs_stopped fuel hstopped.stopped _)
        rw [hat] at hrun
        exact continueAtStop_genuine fuel hstopped rfl o d' hrun
      · obtain ⟨ret, d₁, -, hker, -, hend⟩ := continueFromWait_ended li
          (w := some oc.1.status)
          (d := ⟨resumed d.debug, d.regs, d.kernel.inPhase phase, out⟩) hwait
          (wifstopped_gone hw)
        rw [hend] at hrun
        cases hrun
        rw [hker]
        exact genuine_report h _ _
  · rw [start_not_stopped hstop] at hreq
    obtain ⟨out, hround⟩ := continueRound_fail li hreq
    exact post_ok hround h

/-- The wait of a stepped process reports a clear stop or its end. -/
theorem step_wait (h : Genuine d.kernel) (hstop : d.kernel.phase = .stopped)
    (hclear : StopClear C fuel li .stepping d.kernel) :
    (∃ w s, (cpuKernel C fuel).waitpid d.debug.pid (d.kernel.inPhase .stepping) =
        some (some w, s) ∧ wifstopped w = true ∧ StoppedClear li s ∧
        (s.machine.rip - 1 ∈ addresses li → C.resume d.kernel = .trap s.machine)) ∨
      ∃ w s, (cpuKernel C fuel).waitpid d.debug.pid (d.kernel.inPhase .stepping) =
        some (some w, s) ∧ (wifexited w = true ∨ wifsignaled w = true) ∧ Genuine s ∧
        s.phase = .reaped := by
  have hwait := waitpid_inPhase (C := C) fuel (s := d.kernel) .stepping d.debug.pid
    (by simp) (by simp)
  have ho : (C.resume d.kernel).Clear li := hclear hstop _ rfl
  rw [Cpu.nextStop, Option.map_some] at hwait
  rcases report_clear (s := d.kernel.inPhase .stepping) h ho false with
    ⟨hw, hstopped⟩ | ⟨hw, hreaped⟩
  · refine Or.inl ⟨_, _, hwait, hw, hstopped, ?_⟩
    intro hlisted
    cases hres : C.resume d.kernel with
    | next p =>
      rw [hres] at ho hlisted
      exact absurd hlisted ho
    | trap p => rfl
    | signal p sig =>
      rw [hres] at ho hlisted
      exact absurd hlisted ho
    | gone w hgone =>
      rw [hres] at hstopped
      have hphase := hstopped.stopped
      cases hphase
  · exact Or.inr ⟨_, _, hwait, hw, genuine_report h _ _, hreaped⟩

/-- A round that steps a process whose next stop is clear, from what it does at a stop, after the
end of the process, and without a process to step. -/
theorem stepRound_genuine {round : DbgM (Proc ε) (Option Int)} (h : Genuine d.kernel)
    (hclear : StopClear C fuel li .stepping d.kernel)
    (hstopped : ∀ w s, d.kernel.phase = .stopped →
      (cpuKernel C fuel).singlestep d.debug.pid d.kernel = (true, d.kernel.inPhase .stepping) →
      (cpuKernel C fuel).waitpid d.debug.pid (d.kernel.inPhase .stepping) = some (some w, s) →
      wifstopped w = true → StoppedClear li s →
      (s.machine.rip - 1 ∈ addresses li → C.resume d.kernel = .trap s.machine) →
      Post round d fun _ d' => Genuine d'.kernel)
    (hgone : ∀ w s,
      (cpuKernel C fuel).singlestep d.debug.pid d.kernel = (true, d.kernel.inPhase .stepping) →
      (cpuKernel C fuel).waitpid d.debug.pid (d.kernel.inPhase .stepping) = some (some w, s) →
      wifexited w = true ∨ wifsignaled w = true → s.phase = .reaped →
      ∃ ret d', d'.kernel = s ∧ round d = .ok (some ret, d'))
    (hfail : (cpuKernel C fuel).singlestep d.debug.pid d.kernel = (false, d.kernel) →
      ∃ out, round d = .ok (some (-1), ⟨d.debug, d.regs, d.kernel, out⟩)) :
    Post round d fun _ d' => Genuine d'.kernel := by
  by_cases hstop : d.kernel.phase = .stopped
  · have hstep : (cpuKernel C fuel).singlestep d.debug.pid d.kernel =
        (true, d.kernel.inPhase .stepping) := start_stopped hstop _
    rcases step_wait fuel h hstop hclear with
      ⟨w, s, hwait, hw, hs, hlisted⟩ | ⟨w, s, hwait, hw, hgen, hreaped⟩
    · exact hstopped w s hstop hstep hwait hw hs hlisted
    · obtain ⟨ret, d', hker, hround⟩ := hgone w s hstep hwait hw hreaped
      refine post_ok hround ?_
      rw [hker]
      exact hgen
  · obtain ⟨out, hround⟩ := hfail (start_not_stopped hstop .stepping)
    exact post_ok hround h

/-- A round of `StepX` whose stop is clear. -/
theorem stepXRound_genuine (h : Genuine d.kernel) (hclear : StopClear C fuel li .stepping d.kernel)
    (htrap : TrapClear C li i d.kernel) :
    Post (stepXRound (cpuKernel C fuel) li i) d fun _ d' => Genuine d'.kernel := by
  refine stepRound_genuine fuel h hclear ?_ ?_ fun hstep => stepXRound_fail li hstep
  · intro w s hstop hstep hwait hw hs hlisted
    obtain ⟨regs, out, hround⟩ := stepXRound_stop (i := i) li hstep hwait hw
      (getregs_stopped fuel hs.stopped _)
    have hi : ∀ b, getElementByAddress li (s.machine.rip - 1) = some b →
        b.isEnabled = false → i ≤ 1 := by
      intro b hb
      obtain ⟨hmem, haddr⟩ := getElementByAddress_mem hb
      have ha : s.machine.rip - 1 ∈ addresses li := by
        rw [← haddr]
        exact List.mem_map_of_mem hmem
      exact htrap hstop s.machine b (hlisted ha) hb
    exact post_of_eq hround (stepXAtStop_genuine fuel hs rfl hi)
  · intro w s hstep hwait hw hreaped
    obtain ⟨ret, d', -, hker, hround⟩ := stepXRound_gone (i := i) li hstep hwait hw
      (getregs_reaped fuel hreaped _)
    exact ⟨ret, d', hker, hround⟩

/-- A round of `StepAuto` whose stop is clear. -/
theorem stepAutoRound_genuine (h : Genuine d.kernel)
    (hclear : StopClear C fuel li .stepping d.kernel) :
    Post (stepAutoRound (cpuKernel C fuel) li) d fun _ d' => Genuine d'.kernel := by
  refine stepRound_genuine fuel h hclear ?_ ?_ fun hstep => stepAutoRound_fail li hstep
  · intro w s _ hstep hwait hw hs _
    obtain ⟨regs, out, hround⟩ := stepAutoRound_stop li hstep hwait hw
      (getregs_stopped fuel hs.stopped _)
    exact post_of_eq hround (stepAutoAtStop_genuine fuel hs rfl)
  · intro w s hstep hwait hw hreaped
    exact stepAutoRound_gone li hstep hwait hw (getregs_reaped fuel hreaped _)

/-! ## Loops -/

/-- The three functions that resume the debuggee. -/
inductive Loop where
  | continueExecution
  | stepX
  | stepAuto

/-- The rounds of each. -/
def loopRound {σ : Type} (K : Kernel σ) (li : BreakpointList) : Loop → Nat → DbgM σ (Option Int)
  | .continueExecution, _ => continueRound K li
  | .stepX, i => stepXRound K li i
  | .stepAuto, _ => stepAutoRound K li

/-- The next stop of the round with index `i` is clear. -/
def RoundClear (C : Cpu ε) (fuel : Nat) (li : BreakpointList) : Loop → Nat → Main (Proc ε) → Prop
  | .continueExecution, _, d =>
    StopClear C fuel li (if d.debug.isSystrace then .tracing else .continuing) d.kernel
  | .stepX, i, d => StopClear C fuel li .stepping d.kernel ∧ TrapClear C li i d.kernel
  | .stepAuto, _, d => StopClear C fuel li .stepping d.kernel

theorem loopRound_genuine (l : Loop) (h : Genuine d.kernel) (hclear : RoundClear C fuel li l i d) :
    Post (loopRound (cpuKernel C fuel) li l i) d fun _ d' => Genuine d'.kernel := by
  cases l with
  | continueExecution => exact continueRound_genuine fuel h hclear
  | stepX => exact stepXRound_genuine fuel h hclear.1 hclear.2
  | stepAuto => exact stepAutoRound_genuine fuel h hclear

/-- Each of the next `n` rounds of a loop is clear. -/
def LoopClear (C : Cpu ε) (fuel : Nat) (li : BreakpointList) (l : Loop) (n : Nat)
    (d : Main (Proc ε)) : Prop :=
  AllRounds (loopRound (cpuKernel C fuel) li l) (RoundClear C fuel li l) 0 n d

/-- Any number of clear rounds is genuine. -/
theorem rounds_genuine (l : Loop) (n : Nat) (h : Genuine d.kernel)
    (hclear : LoopClear C fuel li l n d) :
    Post (rounds (loopRound (cpuKernel C fuel) li l) 0 n) d fun _ d' => Genuine d'.kernel :=
  post_rounds_inv (I := fun d => Genuine d.kernel)
    (fun _ _ h hC => loopRound_genuine fuel l h hC) n 0 d h hclear

theorem continueExecution_genuine (n : Nat) (h : Genuine d.kernel)
    (hclear : LoopClear C fuel li .continueExecution n d) :
    Post (continueExecution (cpuKernel C fuel) li n) d fun _ d' => Genuine d'.kernel :=
  post_loop (loopRound (cpuKernel C fuel) li .continueExecution)
    (fun _ n => continueExecution (cpuKernel C fuel) li n) passResult
    (I := fun d => Genuine d.kernel) (fun _ n => continueExecution_succ _ li n)
    (fun _ _ _ => post_throw _) (fun _ _ h hC => loopRound_genuine fuel .continueExecution h hC)
    n 0 d h hclear

theorem stepX_genuine (n : Int) (h : Genuine d.kernel)
    (hclear : LoopClear C fuel li .stepX n.toNat d) :
    Post (stepX (cpuKernel C fuel) li n) d fun _ d' => Genuine d'.kernel :=
  post_loop (loopRound (cpuKernel C fuel) li .stepX) (stepXLoop (cpuKernel C fuel) li) id
    (I := fun d => Genuine d.kernel) (stepXLoop_succ _ li) (fun _ _ h => post_ok rfl h)
    (fun _ _ h hC => loopRound_genuine fuel .stepX h hC) n.toNat 0 d h hclear

/-- How many rounds `StepAuto` may take: its loop condition ends it after one if the variable
that it reads happens to hold the exit status. -/
def autoRounds (ret : Int) (n : Nat) : Nat := if ret = exitStatusRet then min n 1 else n

theorem stepAuto_genuine (ret : Int) (n : Nat) (h : Genuine d.kernel)
    (hclear : LoopClear C fuel li .stepAuto (autoRounds ret n) d) :
    Post (stepAuto (cpuKernel C fuel) li ret n) d fun _ d' => Genuine d'.kernel := by
  by_cases hret : ret = exitStatusRet
  · rw [autoRounds, if_pos hret] at hclear
    rw [hret]
    cases n with
    | zero => exact post_throw _
    | succ n =>
      rw [Nat.min_eq_right (Nat.succ_le_succ (Nat.zero_le n))] at hclear
      rw [stepAuto_once]
      refine post_bind (loopRound_genuine (i := 0) fuel .stepAuto h hclear.1) ?_
      intro o d₁ hgen
      cases o with
      | some a => exact post_pure hgen
      | none => exact post_pure hgen
  · rw [autoRounds, if_neg hret] at hclear
    exact post_loop (loopRound (cpuKernel C fuel) li .stepAuto)
      (fun _ n => stepAuto (cpuKernel C fuel) li ret n) id (I := fun d => Genuine d.kernel)
      (fun _ n => stepAuto_succ _ li hret n) (fun _ _ _ => post_throw _)
      (fun _ _ h hC => loopRound_genuine fuel .stepAuto h hC) n 0 d h hclear

/-! ## Lists of breakpoints -/

theorem poketext_rewinds (pid : Int) (a : Addr) (w : Word) (s : Proc ε) :
    ((cpuKernel C fuel).poketext pid a w s).2.rewinds = s.rewinds := by
  simp only [cpuKernel]
  split <;> rfl

theorem genuine_pokes : KeepsPokes (cpuKernel C fuel) fun d => Genuine d.kernel where
  spoke d d' h hs := by
    rw [hs.kernel]
    exact h
  peek _ _ h := h
  poke a w d h := by
    intro e he
    rw [poketext_rewinds] at he
    exact h e he

/-! ## Sessions -/

/-- The commands of a session. `ret` is what the loop condition of `StepAuto` reads. -/
inductive Motion where
  | place (address : Addr)
  | remove (breakpointNumber : Int)
  | disable (bNumber : Int)
  | continueExecution
  | stepX (numberOfSteps : Int)
  | stepAuto (ret : Int)

/-- A command and the list it leaves; `n` bounds the loops that have no bound. -/
def motion {σ : Type} (K : Kernel σ) (n : Nat) : Motion → BreakpointList → DbgM σ BreakpointList
  | .place address, li => do return (← placeBreakpoint K li address).2
  | .remove breakpointNumber, li => do return (← removeElement K li breakpointNumber).2
  | .disable bNumber, li => do return (← disableBreakpoint li bNumber).2
  | .continueExecution, li => do
    let _ ← continueExecution K li n
    return li
  | .stepX numberOfSteps, li => do
    let _ ← stepX K li numberOfSteps
    return li
  | .stepAuto ret, li => do
    let _ ← stepAuto K li ret n
    return li

/-- Every round of the command is clear. -/
def MotionClear (C : Cpu ε) (fuel n : Nat) : Motion → BreakpointList → Main (Proc ε) → Prop
  | .continueExecution, li, d => LoopClear C fuel li .continueExecution n d
  | .stepX numberOfSteps, li, d => LoopClear C fuel li .stepX numberOfSteps.toNat d
  | .stepAuto ret, li, d => LoopClear C fuel li .stepAuto (autoRounds ret n) d
  | _, _, _ => True

theorem motion_genuine (n : Nat) (op : Motion) (h : Genuine d.kernel)
    (hclear : MotionClear C fuel n op li d) :
    Post (motion (cpuKernel C fuel) n op li) d fun _ d' => Genuine d'.kernel := by
  cases op with
  | place a =>
    exact post_bind ((genuine_pokes fuel).placeBreakpoint h a) fun _ _ hgen => post_pure hgen
  | remove k =>
    exact post_bind ((genuine_pokes fuel).removeElement h k) fun _ _ hgen => post_pure hgen
  | disable k =>
    refine post_bind (disableBreakpoint_post li k d) ?_
    intro r d' hr
    obtain ⟨i, -, -, hker⟩ := hr
    refine post_pure ?_
    rw [hker]
    exact h
  | continueExecution =>
    exact post_bind (continueExecution_genuine fuel n h hclear) fun _ _ hgen => post_pure hgen
  | stepX k => exact post_bind (stepX_genuine fuel k h hclear) fun _ _ hgen => post_pure hgen
  | stepAuto ret =>
    exact post_bind (stepAuto_genuine fuel ret n h hclear) fun _ _ hgen => post_pure hgen

/-- If every round is clear, then every rewind of a session, in the rounds that a last command
has taken so far as well, went back over the trap that the debuggee had just executed. -/
theorem rewinds_genuine (C : Cpu ε) (fuel n m : Nat) (s₀ : Machine ε) (motions : List Motion)
    (l : Loop) (li : BreakpointList) (d d₁ d₂ : Main (Proc ε)) (o : Option Int)
    (hd : d.kernel = Proc.init s₀)
    (hclear : AllSteps (motion (cpuKernel C fuel) n) (MotionClear C fuel n) motions [] d)
    (hlast : LoopClear C fuel li l m d₁)
    (hrun : runAll (motion (cpuKernel C fuel) n) motions [] d = .ok (li, d₁))
    (hrounds : rounds (loopRound (cpuKernel C fuel) li l) 0 m d₁ = .ok (o, d₂)) :
    ∀ e ∈ d₂.kernel.rewinds, e.Genuine := by
  have hstart : Genuine d.kernel := by
    rw [hd]
    intro e he
    cases he
  have hgen : Genuine d₁.kernel := runAll_inv_of_allSteps (I := fun _ d => Genuine d.kernel)
    (fun op _ _ h hC => motion_genuine fuel n op h hC) hstart hclear hrun
  exact rounds_genuine fuel l m hgen hlast o d₂ hrounds

/-! ## Sessions of the one-byte program -/

/-- A session that steps onto its breakpoint: the state before the step, and the result. -/
def nopStepSession : DbgM (Proc Unit) (BreakpointList × Main (Proc Unit) × Option Int) := do
  let li ← runAll (motion (cpuKernel nopCpu 8) 8) [.place 0x1000] []
  let mid ← get
  let o ← rounds (loopRound (cpuKernel nopCpu 8) li .stepX) 0 1
  return (li, mid, o)

theorem nop_rewinds_genuine :
    ∃ li d₁ d₂ o, runAll (motion (cpuKernel nopCpu 8) 8) [.place 0x1000] []
        (Main.init (Proc.init nopStart)) = .ok (li, d₁) ∧
      rounds (loopRound (cpuKernel nopCpu 8) li .stepX) 0 1 d₁ = .ok (o, d₂) ∧
      d₂.kernel.rewinds = [⟨some 0x1000, 0x1001, 0x1000⟩] ∧
      ∀ e ∈ d₂.kernel.rewinds, e.Genuine := by
  have hobs : ((nopStepSession (Main.init (Proc.init nopStart))).toOption.map fun r =>
      (decide (r.1.2.1.kernel.machine.mem r.1.2.1.kernel.machine.rip = trapByte),
        r.1.2.1.kernel.inCall, r.2.kernel.rewinds)) =
      some (true, false, [⟨some 0x1000, 0x1001, 0x1000⟩]) := by decide +kernel
  obtain ⟨⟨li, d₁, o⟩, d₂, hrun, hv⟩ := exists_ok_of_observed hobs
  simp only [Prod.mk.injEq, decide_eq_true_eq] at hv
  obtain ⟨htrap, hcall, hrewinds⟩ := hv
  obtain ⟨li', d', hlist, hrest⟩ := run_bind_eq_ok.mp hrun
  rw [run_bind_ok (run_get d')] at hrest
  obtain ⟨o', d'', hstep, hpure⟩ := run_bind_eq_ok.mp hrest
  cases hpure
  have hresume : nopCpu.resume d₁.kernel =
      .trap (d₁.kernel.machine.setRip (d₁.kernel.machine.rip + 1)) := by
    rw [Cpu.resume, hcall, if_neg (by simp), nopCpu.step_of_trap htrap]
  have hlast : LoopClear nopCpu 8 li .stepX 1 d₁ := by
    refine ⟨⟨?_, fun _ _ _ _ _ _ => Nat.zero_le 1⟩, fun _ _ => trivial⟩
    intro _ out hout
    cases hout
    rw [hresume]
    trivial
  refine ⟨li, d₁, d₂, o, hlist, hstep, hrewinds, ?_⟩
  exact rewinds_genuine nopCpu 8 8 1 nopStart [.place 0x1000] .stepX li _ d₁ d₂ o rfl
    ⟨trivial, fun _ _ _ => trivial⟩ hlast hlist hstep

/-- The restore of the first breakpoint takes away the trap of the second, so the next step
executes the instruction there, and it is rewound and executed again. -/
theorem instruction_rewound :
    ∃ li d, runAll (motion (cpuKernel nopCpu 8) 8)
        [.place 0x1000, .place 0x1001, .stepX 1, .stepX 1] []
        (Main.init (Proc.init nopStart)) = .ok (li, d) ∧
      ¬ ∀ e ∈ d.kernel.rewinds, e.Genuine := by
  have hobs : ((runAll (motion (cpuKernel nopCpu 8) 8)
      [.place 0x1000, .place 0x1001, .stepX 1, .stepX 1] []
      (Main.init (Proc.init nopStart))).toOption.map fun r => r.2.kernel.rewinds) =
      some [⟨some 0x1000, 0x1001, 0x1000⟩, ⟨none, 0x1002, 0x1001⟩] := by decide +kernel
  obtain ⟨li, d, hrun, hrewinds⟩ := exists_ok_of_observed hobs
  refine ⟨li, d, hrun, ?_⟩
  intro h
  have hlast := h ⟨none, 0x1002, 0x1001⟩ (by rw [hrewinds]; simp)
  cases hlast.1

end Zkz.Debugger
