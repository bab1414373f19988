import Zkz.Debugger.Registers

/-!
# System call stops

With systrace on `ContinueExecution` takes every stop behind which no breakpoint is listed for a
system call stop, and every other stop for a breakpoint. It alone sets and clears the flag: `StepX`,
`StepAuto` and `StartProcess` leave it as it was.

* `restoreBreakpoint_insys`: a restore leaves a system call stop exactly when it gets to its single
  step.
* `continueExecution_traced`: a continue sets the flag right if its stops are what it takes them
  for.
* `mainTurn_traced`, `flag_of_sound_turns`: so does a turn, and so do any number of them.
-/

namespace Zkz.Debugger

open Zkz.Lib BreakpointList

variable {σ : Type}

/-! ## The stops of the debuggee -/

/-- `insys s p` is a stop of process `p` for a system call, and `stepping s p` says that `p` was
resumed by `PTRACE_SINGLESTEP`: its next stop is not for a system call. A process that has ended or
that was just started is in no system call stop. Requests that do not resume a process leave it in
its stop, and reading the registers changes nothing. -/
structure Kernel.SyscallStops (K : Kernel σ) (insys stepping : σ → Int → Prop) : Prop where
  peektext : ∀ p a s, insys (K.peektext p a s).2 p ↔ insys s p
  poketext : ∀ p a w s, insys (K.poketext p a w s).2 p ↔ insys s p
  getregs : ∀ p s, (K.getregs p s).2 = s
  setregs : ∀ p r s, insys (K.setregs p r s).2 p ↔ insys s p
  setregsByValue : ∀ p r s, insys (K.setregsByValue p r s).2 p ↔ insys s p
  singlestep : ∀ p s, (K.singlestep p s).1 = true → stepping (K.singlestep p s).2 p
  unstepped : ∀ p s, ¬ (K.singlestep p s).1 = true → (insys (K.singlestep p s).2 p ↔ insys s p)
  stepped : ∀ p s w s', stepping s p → K.waitpid p s = some (w, s') → ¬ insys s' p
  exited : ∀ p s w s', K.waitpid p s = some (w, s') → wifexited (w.getD 0) = true → ¬ insys s' p
  forked : ∀ p s pid w s', (K.fork s).1 = some pid → K.waitpid p (K.fork s).2 = some (w, s') →
    ¬ insys s' pid

/-- `GetSyscallState` is true if and only if the debuggee is in a system call stop. -/
def Flagged (insys : σ → Int → Prop) (d : Main σ) : Prop :=
  d.debug.isSysStopped = true ↔ insys d.kernel d.debug.pid

/-- The process, systrace and the flag are as they were. -/
structure SameFlag (d d' : Main σ) : Prop where
  pid : d'.debug.pid = d.debug.pid
  systrace : d'.debug.isSystrace = d.debug.isSystrace
  flag : d'.debug.isSysStopped = d.debug.isSysStopped

/-- A stop is what `ContinueExecution` takes it for: at no listed address it is for a system call,
and at an enabled breakpoint it is not, or the restore leaves it. -/
def StopSound (K : Kernel σ) (insys : σ → Int → Prop) (li : BreakpointList) (r : UserRegs)
    (pid : Int) (s : σ) : Prop :=
  match getElementByAddress li (r.rip - 1) with
  | none => insys s pid
  | some b => b.isEnabled = true → insys s pid → RestoreSteps K b (r.rip - 1) pid s

/-- The stop that a round with systrace on comes to, if it comes to one, is of this kind. -/
def RoundSound (K : Kernel σ) (insys : σ → Int → Prop) (li : BreakpointList) (d : Main σ) : Prop :=
  ∀ s₁ w s₂ r, K.syscall d.debug.pid d.kernel = (true, s₁) →
    K.waitpid d.debug.pid s₁ = some (w, s₂) → wifstopped (w.getD 0) = true →
    (K.getregs d.debug.pid s₂).1 = some r → StopSound K insys li r d.debug.pid s₂

/-- So are the stops of a continue with fuel `n`, whatever was printed before. -/
def ContinueSound (K : Kernel σ) (insys : σ → Int → Prop) (li : BreakpointList) (n : Nat)
    (d : Main σ) : Prop :=
  ∀ out, AllRounds (fun _ => continueRound K li) (fun _ => RoundSound K insys li) 0 n
    { d with out := out }

/-- Systrace is on, and the flag is right. -/
structure Traced (insys : σ → Int → Prop) (d : Main σ) : Prop where
  systrace : d.debug.isSystrace = true
  flagged : Flagged insys d

section Stops

variable {K : Kernel σ} {insys stepping : σ → Int → Prop} {li : BreakpointList} {n : Nat}
  {d d' : Main σ} {r : UserRegs}

theorem SameFlag.refl (d : Main σ) : SameFlag d d := ⟨rfl, rfl, rfl⟩

theorem SameFlag.trans {d₁ d₂ d₃ : Main σ} (h₁ : SameFlag d₁ d₂) (h₂ : SameFlag d₂ d₃) :
    SameFlag d₁ d₃ :=
  ⟨h₂.pid.trans h₁.pid, h₂.systrace.trans h₁.systrace, h₂.flag.trans h₁.flag⟩

theorem Spoke.sameFlag (h : Spoke d d') : SameFlag d d' :=
  ⟨congrArg Debug.pid h.debug, congrArg Debug.isSystrace h.debug,
    congrArg Debug.isSysStopped h.debug⟩

theorem Flagged.spoke (h : Flagged insys d) (hs : Spoke d d') : Flagged insys d' := by
  unfold Flagged
  rw [hs.debug, hs.kernel]
  exact h

/-- A restore leaves a system call stop exactly when it gets to its single step. -/
theorem RestoreAnswers.inCall (hK : K.SyscallStops insys stepping) {b : Breakpoint} {a : Addr}
    {pid : Int} {s s' : σ} {o : Option (Option Wstatus)} (h : RestoreAnswers K b a pid s o s') :
    insys s' pid ↔ insys s pid ∧ ¬ RestoreSteps K b a pid s := by
  have hpoked := hK.poketext pid a b.origdata s
  have hread := hK.getregs pid (K.poketext pid a b.origdata s).2
  -- a request before the single step fails
  have hfail : ∀ {s'}, (insys s' pid ↔ insys s pid) → ¬ RestoreSteps K b a pid s →
      (insys s' pid ↔ insys s pid ∧ ¬ RestoreSteps K b a pid s) :=
    fun hs hnot => hs.trans ⟨fun h => ⟨h, hnot⟩, And.left⟩
  cases h with
  | poke h => exact hfail hpoked fun hsteps => h hsteps.1
  | get _ h =>
    refine hfail (by rw [hread]; exact hpoked) ?_
    rintro ⟨-, r', s₂, hget, -⟩
    rw [hget] at h
    cases h
  | set r s₂ _ hget h =>
    rw [hget] at hread
    obtain rfl : s₂ = _ := hread
    refine hfail ((hK.setregs pid { r with rip := a } _).trans hpoked) ?_
    rintro ⟨-, r', s₃, hget', hset, -⟩
    cases hget.symm.trans hget'
    exact h hset
  | step r s₂ _ hget hset h =>
    rw [hget] at hread
    obtain rfl : s₂ = _ := hread
    refine hfail ((hK.unstepped pid _ h).trans
      ((hK.setregs pid { r with rip := a } _).trans hpoked)) ?_
    rintro ⟨-, r', s₃, hget', -, hstep⟩
    cases hget.symm.trans hget'
    exact h hstep
  | wait r s₂ w s' hpoke hget hset hstep h =>
    have hgone : ¬ insys s' pid := hK.stepped _ _ _ _ (hK.singlestep _ _ hstep) h
    exact iff_of_false hgone fun hin => hin.2 ⟨hpoke, r, s₂, hget, hset, hstep⟩

theorem afterRestore_sameFlag {o : Option (Option Wstatus)}
    (h : d'.debug = afterRestore o d.debug) : SameFlag d d' := by
  cases o with
  | none => exact ⟨congrArg Debug.pid h, congrArg Debug.isSystrace h, congrArg Debug.isSysStopped h⟩
  | some w => exact ⟨(congrArg Debug.pid h).trans (afterWait_pid _ _),
      (congrArg Debug.isSystrace h).trans (afterWait_isSystrace _ _),
      (congrArg Debug.isSysStopped h).trans (afterWait_isSysStopped _ _)⟩

theorem restoreBreakpoint_insys (hK : K.SyscallStops insys stepping) (b : Breakpoint) (a : Addr)
    (d : Main σ) : Post (restoreBreakpoint K b a) d fun _ d' => SameFlag d d' ∧
      (insys d'.kernel d'.debug.pid ↔
        insys d.kernel d.debug.pid ∧ ¬ RestoreSteps K b a d.debug.pid d.kernel) := by
  refine post_mono (restoreBreakpoint_post b a d) ?_
  rintro ret d' ⟨o, -, hdebug, hanswers⟩
  have hsame := afterRestore_sameFlag hdebug
  refine ⟨hsame, ?_⟩
  rw [hsame.pid]
  exact hanswers.inCall hK

theorem restoreThen_insys (hK : K.SyscallStops insys stepping) (b : Breakpoint) (a : Addr)
    (o : Option Int) (d : Main σ) : Post (do
      if (← restoreBreakpoint K b a) < -1 then
        return some (-1)
      return o : DbgM σ (Option Int)) d fun o' d' => (o' = some (-1) ∨ o' = o) ∧ SameFlag d d' ∧
        (insys d'.kernel d'.debug.pid ↔
          insys d.kernel d.debug.pid ∧ ¬ RestoreSteps K b a d.debug.pid d.kernel) := by
  refine post_bind (restoreBreakpoint_insys hK b a d) ?_
  intro ret d' h'
  exact post_ite (fun _ => post_pure ⟨Or.inl rfl, h'⟩) fun _ => post_pure ⟨Or.inr rfl, h'⟩

/-! ## Continuing -/

/-- What a round of a continue leaves: systrace is on, and if the round returns, it fails or the
flag is right. -/
def RoundFlagged (insys : σ → Int → Prop) (o : Option Int) (d : Main σ) : Prop :=
  d.debug.isSystrace = true ∧ ∀ ret, o = some ret → ret = -1 ∨ Flagged insys d

theorem roundFlagged_fails (hsys : d.debug.isSystrace = true) :
    RoundFlagged insys (some (-1)) d := by
  refine ⟨hsys, ?_⟩
  rintro ret ⟨⟩
  exact Or.inl rfl

theorem continueAtStop_flagged (hK : K.SyscallStops insys stepping)
    (hsys : d.debug.isSystrace = true) (hflag : d.debug.isSysStopped = false)
    (hget : (K.getregs d.debug.pid d.kernel).1 = some r)
    (hsound : StopSound K insys li r d.debug.pid d.kernel) :
    Post (continueAtStop K li r) d (RoundFlagged insys) := by
  have hread : K.getregs d.debug.pid d.kernel = (some r, d.kernel) :=
    Prod.ext hget (hK.getregs _ _)
  unfold StopSound at hsound
  cases hb : getElementByAddress li (r.rip - 1) with
  | none =>
    rw [hb] at hsound
    obtain ⟨out, hrun⟩ := continueAtStop_syscall hsys hb hread
    refine post_ok hrun ⟨hsys, ?_⟩
    rintro ret ⟨⟩
    exact Or.inr (iff_of_true rfl hsound)
  | some b =>
    rw [hb] at hsound
    cases he : b.isEnabled with
    | false =>
      obtain ⟨out, hrun⟩ := continueAtStop_disabled (K := K) (d := d) hb he
      intro o d' h'
      rw [hrun] at h'
      obtain ⟨ho, hsame, -⟩ := restoreThen_insys hK b _ none _ o d' h'
      refine ⟨hsame.systrace.trans hsys, ?_⟩
      rintro ret rfl
      rcases ho with ho | ho
      · exact Or.inl (Option.some.inj ho)
      · cases ho
    | true =>
      obtain ⟨out, hrun⟩ := continueAtStop_enabled hb he hread
      intro o d' h'
      rw [hrun] at h'
      obtain ⟨-, hsame, hinsys⟩ := restoreThen_insys hK b _ (some 0) _ o d' h'
      refine ⟨hsame.systrace.trans hsys, fun ret _ => Or.inr ?_⟩
      have hoff : d'.debug.isSysStopped = false := hsame.flag.trans hflag
      refine iff_of_false (by simp [hoff]) ?_
      intro h
      obtain ⟨hin, hnot⟩ := hinsys.mp h
      exact hnot (hsound he hin)

theorem continueRound_flagged (hK : K.SyscallStops insys stepping)
    (hsys : d.debug.isSystrace = true) (hsound : RoundSound K insys li d) :
    Post (continueRound K li) d (RoundFlagged insys) := by
  obtain ⟨out, hround⟩ := continueRound_request K li d
  rw [hsys] at hround
  refine post_of_eq hround (post_bind_ok (by rfl) (post_ite (fun _ => ?_) fun hreq => ?_))
  · refine post_bind (log_spoke .pError [] _) ?_
    intro _ d₁ hspoke
    exact post_pure (roundFlagged_fails (hspoke.sameFlag.systrace.trans hsys))
  · have hreq : K.syscall d.debug.pid d.kernel = (true, (K.syscall d.debug.pid d.kernel).2) :=
      Prod.ext (by simpa [resumeRequest, resumed] using hreq) rfl
    refine post_bind (waitForProcess_post _) ?_
    rintro ret d₁ ⟨w, s, hwait, rfl, -, hd₁⟩
    have hsys₁ : d₁.debug.isSystrace = true := by
      rw [hd₁]
      exact (afterWait_isSystrace _ _).trans hsys
    have hoff₁ : d₁.debug.isSysStopped = false := by
      rw [hd₁]
      exact (afterWait_isSysStopped _ _).trans rfl
    have hpid₁ : d₁.debug.pid = d.debug.pid := by
      rw [hd₁]
      exact (afterWait_pid _ _).trans rfl
    have hs₁ : d₁.kernel = s := by rw [hd₁]
    refine post_ite (fun hexit => ?_) fun _ => post_ite (fun hstop => ?_) fun _ => ?_
    · refine post_pure ⟨hsys₁, fun ret _ => Or.inr (iff_of_false (by simp [hoff₁]) ?_)⟩
      rw [hpid₁, hs₁]
      exact hK.exited _ _ _ _ hwait (waitResult_eq_exit.mp hexit)
    · have hread := hK.getregs d₁.debug.pid d₁.kernel
      refine post_bind_ok (by rfl) ?_
      split
      · rename_i r hget
        simp only [hread]
        refine continueAtStop_flagged hK hsys₁ hoff₁ hget ?_
        have hwait₁ : K.waitpid d.debug.pid (K.syscall d.debug.pid d.kernel).2 = some (w, s) := hwait
        rw [hpid₁, hs₁] at hget
        change StopSound K insys li r d₁.debug.pid d₁.kernel
        rw [hpid₁, hs₁]
        exact hsound _ _ _ r hreq hwait₁ (waitResult_eq_stopped.mp hstop) hget
      · refine post_bind (log_spoke .pError [] _) ?_
        intro _ d₂ hspoke
        exact post_pure (roundFlagged_fails (hspoke.sameFlag.systrace.trans hsys₁))
    · exact post_pure (roundFlagged_fails hsys₁)

/-- **A continue sets the flag right** if its stops are what it takes them for. -/
theorem continueExecution_traced (hK : K.SyscallStops insys stepping)
    (hsys : d.debug.isSystrace = true) (hsound : ContinueSound K insys li n d) :
    Post (continueExecution K li n) d fun ret d' => ret = -1 ∨ Traced insys d' := by
  refine post_rounds (fun _ => continueRound K li) (fun _ n => continueExecution K li n) passResult
    (I := fun _ _ d => d.debug.isSystrace = true) (fun _ n => continueExecution_succ K li n)
    (fun _ _ _ => post_throw _) ?_ ?_ n 0 d hsys (hsound d.out)
  · rintro ret d' (rfl | h')
    · exact Or.inl rfl
    · exact Or.inr h'
  · intro _ _ d₁ hsys₁ hsound₁
    refine post_mono (continueRound_flagged hK hsys₁ hsound₁) ?_
    rintro o d' ⟨hsys', hret⟩
    exact ⟨fun ret ho => (hret ret ho).imp id fun hf => ⟨hsys', hf⟩, fun _ => hsys'⟩

/-! ## Stepping -/

/-- The kernel as a step uses it: the debuggee is resumed by single steps only. -/
def Kernel.steppingOnly (K : Kernel σ) : Kernel σ :=
  { K with cont := fun _ s => (false, s), syscall := fun _ s => (false, s) }

theorem stepXLoop_steppingOnly (i n : Nat) :
    stepXLoop K.steppingOnly li i n = stepXLoop K li i n := by
  induction n generalizing i with
  | zero => rfl
  | succ n ih =>
    rw [stepXLoop_succ, stepXLoop_succ, ih]
    rfl

theorem stepAuto_steppingOnly (ret : Int) (n : Nat) :
    stepAuto K.steppingOnly li ret n = stepAuto K li ret n := by
  induction n with
  | zero => rfl
  | succ n ih =>
    unfold stepAuto
    rw [ih]
    rfl

/-- Single steps do not come to a system call stop. -/
theorem keepsOutside (hK : K.SyscallStops insys stepping) :
    KeepsRounds K.steppingOnly (fun d => ¬ insys d.kernel d.debug.pid)
      fun d => stepping d.kernel d.debug.pid where
  spoke d d' h hs := by
    rw [hs.kernel, hs.debug]
    exact h
  spokeRunning d d' h hs := by
    rw [hs.kernel, hs.debug]
    exact h
  getregs d h := by
    change ¬ insys (K.getregs d.debug.pid d.kernel).2 d.debug.pid
    rw [hK.getregs]
    exact h
  resume req hreq d h := by
    rcases hreq with rfl | rfl | rfl
    · refine ⟨fun hok => hK.singlestep _ _ hok, fun hfail => ?_⟩
      exact fun hin => h ((hK.unstepped _ _ (Bool.eq_false_iff.mp hfail)).mp hin)
    · exact ⟨fun hok => (by cases hok), fun _ => h⟩
    · exact ⟨fun hok => (by cases hok), fun _ => h⟩
  wait d h := by
    refine post_mono (waitForProcess_post d) ?_
    rintro ret d' ⟨w, s, hwait, -, -, hd'⟩
    rw [hd']
    simp only [afterWait_pid]
    exact hK.stepped _ _ _ _ h hwait
  syscallState _ _ h := h
  restore b a d h := by
    have hK' : K.steppingOnly.SyscallStops insys stepping := { hK with }
    refine post_mono (restoreBreakpoint_insys hK' b a d) ?_
    exact fun _ d' h' hin => h (h'.2.mp hin).1

/-- Requests, waits and messages leave the flag as it was. -/
theorem sameFlag_rounds (K : Kernel σ) :
    ComposesRounds K fun _ x => ∀ d, Post x d fun _ d' => SameFlag d d' where
  pure _ := fun d => post_pure (SameFlag.refl d)
  bind hx hf := fun d => post_bind (hx d) fun a d₁ h₁ =>
    post_mono (hf a d₁) fun _ _ h₂ => h₁.trans h₂
  get := fun d => post_ok rfl (SameFlag.refl d)
  log level _ args := fun d => post_mono (log_spoke level args d) fun _ _ hs => hs.sameFlag
  request _ := fun _ => post_ok rfl ⟨rfl, rfl, rfl⟩
  setRegs _ := fun _ => post_ok rfl ⟨rfl, rfl, rfl⟩
  wait := by
    intro d
    refine post_mono (waitForProcess_post d) ?_
    rintro ret d' ⟨w, s, -, -, -, hd'⟩
    rw [hd']
    exact ⟨afterWait_pid _ _, afterWait_isSystrace _ _, afterWait_isSysStopped _ _⟩
  noReturn := fun _ => post_throw _

/-- Outside of a system call stop, with the flag off. -/
theorem Traced.outside (h : Traced insys d) (hoff : d.debug.isSysStopped = false) :
    ¬ insys d.kernel d.debug.pid := by
  intro hin
  have hon := h.flagged.mpr hin
  rw [hoff] at hon
  cases hon

theorem traced_of_outside (h : Traced insys d) (hoff : d.debug.isSysStopped = false)
    (hsame : SameFlag d d') (hout : ¬ insys d'.kernel d'.debug.pid) : Traced insys d' := by
  have hoff' : d'.debug.isSysStopped = false := hsame.flag.trans hoff
  exact ⟨hsame.systrace.trans h.systrace, iff_of_false (by simp [hoff']) hout⟩

/-- Steps leave the flag right if it was off. -/
theorem stepX_traced (hK : K.SyscallStops insys stepping) {k : Int} (h : Traced insys d)
    (hoff : 0 < k → d.debug.isSysStopped = false) :
    Post (stepX K li k) d fun _ d' => Traced insys d' := by
  by_cases hk : 0 < k
  · have hout : Post (stepX K li k) d fun _ d' => ¬ insys d'.kernel d'.debug.pid := by
      have hkeeps : Post (stepX K.steppingOnly li k) d fun _ d' => ¬ insys d'.kernel d'.debug.pid :=
        (keepsOutside hK).stepX k (h.outside (hoff hk))
      unfold stepX at hkeeps ⊢
      rw [stepXLoop_steppingOnly] at hkeeps
      exact hkeeps
    refine post_mono (post_and ((sameFlag_rounds K).stepXLoop 0 k.toNat d) hout) ?_
    exact fun _ d' h' => traced_of_outside h (hoff hk) h'.1 h'.2
  · have hzero : k.toNat = 0 := Int.toNat_of_nonpos (by omega)
    unfold stepX
    rw [hzero]
    refine post_get_bind (post_bind (log_spoke .print _ d) ?_)
    intro _ d' hs
    exact post_pure ⟨hs.sameFlag.systrace.trans h.systrace, h.flagged.spoke hs⟩

theorem stepAuto_traced (hK : K.SyscallStops insys stepping) (ret : Int) (h : Traced insys d)
    (hoff : d.debug.isSysStopped = false) :
    Post (stepAuto K li ret n) d fun _ d' => Traced insys d' := by
  have hout : Post (stepAuto K.steppingOnly li ret n) d fun _ d' =>
      ¬ insys d'.kernel d'.debug.pid := (keepsOutside hK).stepAuto ret n (h.outside hoff)
  rw [stepAuto_steppingOnly] at hout
  refine post_mono (post_and ((sameFlag_rounds K).stepAuto ret n d) hout) ?_
  exact fun _ d' h' => traced_of_outside h hoff h'.1 h'.2

/-! ## Commands -/

theorem Traced.spoke (h : Traced insys d) (hs : Spoke d d') : Traced insys d' :=
  ⟨hs.sameFlag.systrace.trans h.systrace, h.flagged.spoke hs⟩

/-- A request that leaves the debuggee in its stop. -/
theorem Traced.requested (h : Traced insys d) {s : σ} (r : UserRegs)
    (hs : insys s d.debug.pid ↔ insys d.kernel d.debug.pid) :
    Traced insys { d with kernel := s, regs := r } :=
  ⟨h.systrace, h.flagged.trans hs.symm⟩

theorem traced_handles (insys : σ → Int → Prop) :
    Handles (fun _ x => ∀ d, Traced insys d → Post x d fun _ d' => Traced insys d')
      (fun x => ∀ d, Traced insys d → Post x d (Turn.Holds fun _ d' => Traced insys d'))
      fun _ => True :=
  handles_of_post
    (fun level _ args d h => post_mono (log_spoke level args d) fun _ _ hs => h.spoke hs)
    (fun _ _ h => h) fun _ _ => trivial

theorem Traced.getregs (hK : K.SyscallStops insys stepping) (h : Traced insys d) (r : UserRegs) :
    Traced insys { d with kernel := (K.getregs d.debug.pid d.kernel).2, regs := r } :=
  h.requested r (by rw [hK.getregs])

theorem infoRegistersAll_traced (hK : K.SyscallStops insys stepping) (h : Traced insys d) :
    Post (infoRegistersAll K) d fun _ d' => Traced insys d' := by
  refine post_bind_ok (by rfl) ?_
  split
  · rename_i r _
    refine post_bind_ok (by rfl) (post_bind (log_spoke .print _ _) ?_)
    exact fun _ _ hs => post_pure ((h.getregs hK r).spoke hs)
  · exact post_pure (h.getregs hK d.regs)

theorem infoRegister_traced (hK : K.SyscallStops insys stepping) (reg : String)
    (h : Traced insys d) : Post (infoRegister K reg) d fun _ d' => Traced insys d' := by
  refine post_bind_ok (by rfl) ?_
  split
  · exact post_bind_ok (by rfl) (post_bind (printEach_spoke _ _ _) fun _ _ _ => post_throw _)
  · exact (traced_handles insys).said _ _ _ _ _ (h.getregs hK d.regs)

theorem setRegister_traced (hK : K.SyscallStops insys stepping) (reg : String) (value : Word)
    (h : Traced insys d) : Post (setRegister K reg value) d fun _ d' => Traced insys d' := by
  refine post_get_bind (post_bind_ok (by rfl) (post_get_bind (post_bind_ok (by rfl) ?_)))
  have hset := h.requested ((registers.filter (·.regname = reg)).foldl (fun r x => x.set r value)
    d.regs) (hK.setregsByValue d.debug.pid ((registers.filter (·.regname = reg)).foldl
      (fun r x => x.set r value) d.regs) d.kernel)
  refine post_ite (fun _ => ?_) fun _ => post_pure hset
  exact (traced_handles insys).said _ _ _ _ _ hset

theorem traced_commands (hK : K.SyscallStops insys stepping) :
    HandlesCommands K (fun _ x => ∀ d, Traced insys d → Post x d fun _ d' => Traced insys d')
      (fun x => ∀ d, Traced insys d → Post x d (Turn.Holds fun _ d' => Traced insys d'))
      fun _ => True where
  toHandles := traced_handles insys
  anywhere _ := trivial
  throw e := fun _ _ => post_throw e
  peek a := fun d h => post_ok rfl (h.requested d.regs (hK.peektext _ a _))
  poke a w := fun d h => post_ok rfl (h.requested d.regs (hK.poketext _ a w _))
  infoRegistersAll := fun _ h => infoRegistersAll_traced hK h
  infoRegister reg := fun _ h => infoRegister_traced hK reg h
  killed := fun _ _ => post_bind_ok rfl (post_pure trivial)

/-- A process that is started is in no system call stop. -/
theorem startProcess_traced (hK : K.SyscallStops insys stepping) (h : Traced insys d)
    (hoff : d.debug.isSysStopped = false) :
    Post (startProcess K) d fun ret d' => ret < 0 ∨ Traced insys d' := by
  refine post_get_bind (post_ite (fun _ => ?_) fun _ => post_pure (Or.inl (by decide)))
  refine post_bind_ok (by rfl) ?_
  split
  · exact post_bind (log_spoke .pError _ _) fun _ _ _ => post_pure (Or.inl (by decide))
  · rename_i pid hfork
    refine post_bind (waitForProcess_post _) ?_
    rintro ret d₁ ⟨w, s, hwait, rfl, -, hd₁⟩
    have hsys₁ : d₁.debug.isSystrace = true := by
      rw [hd₁]
      exact (afterWait_isSystrace _ _).trans h.systrace
    have hoff₁ : d₁.debug.isSysStopped = false := by
      rw [hd₁]
      exact (afterWait_isSysStopped _ _).trans hoff
    refine post_ite (fun hexit => post_pure (Or.inr ⟨hsys₁, ?_⟩)) fun _ => post_ite (fun _ => ?_)
      fun _ => post_pure (Or.inl (by decide))
    · refine iff_of_false (by simp [hoff₁]) ?_
      rw [hd₁]
      simp only [afterWait_pid]
      exact hK.exited _ _ _ _ hwait (waitResult_eq_exit.mp hexit)
    · refine post_bind_ok rfl (post_bind_ok rfl (post_pure (Or.inr ⟨hsys₁, ?_⟩)))
      refine iff_of_false (by simp [hoff₁]) ?_
      rw [hd₁]
      exact hK.forked _ _ _ _ _ hfork hwait

end Stops

/-! ## Turns -/

/-- The number of steps that a `step` makes. -/
def stepsOf (commands : List Line) : Int :=
  match commands[1]? with
  | none => 1
  | some word => (stoi word).toOption.getD 0

/-- The next command does not leave the flag wrong: a continue comes to stops that are what it takes
them for, and the flag is off when steps are made or the program is started again. -/
structure TurnSound (K : Kernel σ) (insys : σ → Int → Prop) (n : Nat) (p : Prompt) (d : Main σ)
    (command : Line) : Prop where
  continues : isOneOf ["run", "r", "continue", "c"] command = true →
    (d.debug.isRunning = true ∨ d.debug.pathname = none) → ContinueSound K insys p.li n d
  starts : isOneOf ["run", "r", "continue", "c"] command = true → d.debug.isRunning = false →
    d.debug.pathname.isSome = true → d.debug.isSysStopped = false
  steps : isOneOf ["step", "s"] ((tokenize command).headD []) = true →
    0 < stepsOf (tokenize command) → d.debug.isSysStopped = false
  auto : isOneOf ["auto", "a"] ((tokenize command).headD []) = true → d.debug.isSysStopped = false

section Turns

variable {K : Kernel σ} {insys stepping : σ → Int → Prop} {env : Loaded σ} {n : Nat} {p : Prompt}
  {d d' : Main σ} {command : Line}

/-- What follows a command that leaves the flag right unless it fails. -/
theorem afterCommand_traced {ret : Int} {msg : String} (h : ret = -1 ∨ Traced insys d) : Post (do
      if ret = exitStatusRet then afterExit msg p
      else if ret = -1 then returned (-1)
      else atPrompt p : DbgM σ Turn) d (Turn.Holds fun _ d' => Traced insys d') := by
  rcases h with rfl | h
  · exact post_pure trivial
  · exact (traced_handles insys).afterCommand msg ret trivial d h

theorem handleRun_traced (hK : K.SyscallStops insys stepping) (h : Traced insys d)
    (hcont : (d.debug.isRunning = true ∨ d.debug.pathname = none) → ContinueSound K insys p.li n d)
    (hstart : d.debug.isRunning = false → d.debug.pathname.isSome = true →
      d.debug.isSysStopped = false) :
    Post (handleRun K n p) d (Turn.Holds fun _ d' => Traced insys d') := by
  have hcontinue : ∀ d₁, Spoke d d₁ → d₁.regs = d.regs →
      (d.debug.isRunning = true ∨ d.debug.pathname = none) →
      Post (handleContinue K n p) d₁ (Turn.Holds fun _ d' => Traced insys d') := by
    intro d₁ hs hregs hgo
    have hsound : ContinueSound K insys p.li n d₁ := by
      intro out
      rw [hs.debug, hregs, hs.kernel]
      exact hcont hgo out
    exact post_bind (continueExecution_traced hK (h.spoke hs).systrace hsound)
      fun _ _ h' => afterCommand_traced h'
  refine post_get_bind (post_ite (fun hrun => ?_) fun hrun => ?_)
  · refine post_bind (log_printed _ _ _ d) ?_
    intro _ d₁ hp
    have hs : Spoke d d₁ := ⟨hp.debug, hp.kernel, hp.out⟩
    have hoff : d.debug.isRunning = false := by simpa using hrun
    refine post_get_bind (post_ite (fun hpath => ?_) fun hpath => ?_)
    · rw [hs.debug] at hpath
      have hflag : d₁.debug.isSysStopped = false := hs.sameFlag.flag.trans (hstart hoff hpath)
      refine post_bind (startProcess_traced hK (h.spoke hs) hflag) ?_
      intro ret d₂ h₂
      exact post_ite (fun _ => post_pure trivial)
        fun hret => post_pure (h₂.resolve_left hret)
    · rw [hs.debug] at hpath
      exact hcontinue d₁ hs hp.regs (Or.inr (by simpa using hpath))
  · exact hcontinue d (Spoke.refl d) rfl (Or.inl (by simpa using hrun))

theorem handleStep_traced (hK : K.SyscallStops insys stepping) (commands : List Line)
    (h : Traced insys d) (hoff : 0 < stepsOf commands → d.debug.isSysStopped = false) :
    Post (handleStep K commands p) d (Turn.Holds fun _ d' => Traced insys d') := by
  have hstep : ∀ k d₁, Traced insys d₁ → (0 < k → d₁.debug.isSysStopped = false) →
      Post (stepBy K k p) d₁ (Turn.Holds fun _ d' => Traced insys d') :=
    fun k d₁ h₁ hoff₁ => post_bind (stepX_traced hK h₁ hoff₁)
      fun _ _ h' => afterCommand_traced (Or.inr h')
  unfold handleStep
  unfold stepsOf at hoff
  cases hword : commands[1]? with
  | none =>
    rw [hword] at hoff
    exact hstep 1 d h hoff
  | some word =>
    rw [hword] at hoff
    simp only
    cases hk : stoi word with
    | error e => exact (traced_handles insys).rejected _ e trivial d h
    | ok k =>
      simp only [hk, Except.toOption, Option.getD_some] at hoff
      refine post_bind (log_spoke .debug _ d) ?_
      intro _ d₁ hs
      exact hstep k d₁ (h.spoke hs) fun hpos => hs.sameFlag.flag.trans (hoff hpos)

/-- A command that is sound leaves the flag right. -/
theorem handle_traced (hK : K.SyscallStops insys stepping) (h : Traced insys d)
    (hsound : TurnSound K insys n p d command) :
    Post (handle K env n command p) d (Turn.Holds fun _ d' => Traced insys d') := by
  apply (traced_commands hK).handle
    (R := fun x => Post x d (Turn.Holds fun _ d' => Traced insys d'))
  · exact fun x hx => hx d h
  · exact fun hrun => handleRun_traced hK h (hsound.continues hrun) (hsound.starts hrun)
  · intro hset
    have hh := traced_handles insys
    exact hh.handleSet (hh.setTo fun reg v d h => setRegister_traced hK reg v h) hset trivial d h
  · intro hauto
    refine post_get_bind (post_bind (stepAuto_traced hK _ h (hsound.auto hauto)) ?_)
    exact fun _ _ h' => post_ite (fun _ => post_pure trivial) fun _ => post_pure h'
  · exact fun hstep => handleStep_traced hK _ h (hsound.steps hstep)

/-- A turn whose command is sound leaves the flag right. -/
theorem mainTurn_traced (hK : K.SyscallStops insys stepping) (h : Traced insys d)
    (hsound : ∀ command rest, p.input = command :: rest → TurnSound K insys n p d command) :
    Post (mainTurn K env n p) d (Turn.Holds fun _ d' => Traced insys d') := by
  refine post_bind_ok (by rfl) ?_
  cases hinput : p.input with
  | nil => exact post_bind_ok (by rfl) (post_pure trivial)
  | cons command rest =>
    have hprompted : Traced insys { d with out := d.out ++ [⟨.prompt, "[zkz] ", []⟩] } :=
      h.spoke ⟨rfl, rfl, List.prefix_append _ _⟩
    refine post_ite (fun _ => post_pure hprompted) fun _ => ?_
    have hs := hsound command rest hinput
    exact handle_traced hK hprompted ⟨fun hrun hgo out => hs.continues hrun hgo out, hs.starts,
      hs.steps, hs.auto⟩

end Turns

/-- **`GetSyscallState` tells whether the debuggee is in a system call stop** at every prompt of a
session with systrace on whose turns are sound. -/
theorem flag_of_sound_turns {K : Kernel σ} {insys stepping : σ → Int → Prop}
    (hK : K.SyscallStops insys stepping) (env : Loaded σ) (n : Nat) (input : List Line) (d₀ : Main σ)
    (hsystrace : d₀.debug.isSystrace = true) (hflag : d₀.debug.isSysStopped = false)
    (hstart : ¬ insys d₀.kernel d₀.debug.pid) (m : Nat)
    (hsound : ∀ k < m, ∀ q e command rest, AtPrompt K env n input d₀ k q e →
      q.input = command :: rest → TurnSound K insys n q e command)
    (p : Prompt) (d : Main σ) (hprompt : AtPrompt K env n input d₀ m p d) :
    d.debug.isSysStopped = true ↔ insys d.kernel d.debug.pid := by
  have htraced : ∀ k ≤ m, ∀ q e, AtPrompt K env n input d₀ k q e → Traced insys e := by
    intro k
    induction k with
    | zero =>
      rintro - q e ⟨⟩
      exact ⟨hsystrace, iff_of_false (by simp [hflag]) hstart⟩
    | succ k ih =>
      intro hk q e hq
      obtain ⟨q₁, e₁, hq₁, hturn⟩ := atPrompt_succ.mp hq
      exact mainTurn_traced hK (ih (by omega) q₁ e₁ hq₁)
        (fun command rest => hsound k (by omega) q₁ e₁ command rest hq₁) _ _ hturn
  exact (htraced m (Nat.le_refl m) p d hprompt).flagged

/-! ## A debuggee with given stops -/

/-- A debuggee, and the stops that it comes to when it is resumed by `PTRACE_SYSCALL`: where each
one is, and whether it is for a system call. After the last one it exits. -/
structure StopScript where
  rip : Addr := 0
  insys : Bool := false
  stepping : Bool := false
  stops : List (Addr × Bool)

/-- A single step moves the debuggee on by one byte. -/
def stopKernel : Kernel StopScript where
  peektext _ _ s := (none, s)
  poketext _ _ _ s := (false, s)
  getregs _ s := (some { rip := s.rip }, s)
  setregs _ _ s := (false, s)
  setregsByValue _ _ s := (false, s)
  singlestep _ s := (true, { s with stepping := true })
  cont _ s := (false, s)
  syscall _ s := (true, { s with stepping := false })
  attach _ s := (false, s)
  fork s := (none, s)
  waitpid _ s :=
    if s.stepping then
      some (some (stopStatus sigtrap), { s with rip := s.rip + 1, insys := false })
    else match s.stops with
      | [] => some (some (exitStatus 0), { s with insys := false })
      | (rip, insys) :: stops =>
        some (some (stopStatus sigtrap), { s with rip := rip, insys := insys, stops := stops })

theorem stopKernel_stops : stopKernel.SyscallStops (fun s _ => s.insys = true)
    fun s _ => s.stepping = true where
  peektext _ _ _ := Iff.rfl
  poketext _ _ _ _ := Iff.rfl
  getregs _ _ := rfl
  setregs _ _ _ := Iff.rfl
  setregsByValue _ _ _ := Iff.rfl
  singlestep _ _ _ := rfl
  unstepped _ _ h := absurd rfl h
  stepped _ s w s' hstepping hwait := by
    simp only [stopKernel, if_pos hstepping] at hwait
    cases hwait
    exact Bool.false_ne_true
  exited _ s w s' hwait hexit := by
    simp only [stopKernel] at hwait
    split at hwait
    · cases hwait
      exact Bool.false_ne_true
    · split at hwait
      · cases hwait
        exact Bool.false_ne_true
      · cases hwait
        simp [wifexited_stopStatus] at hexit
  forked _ _ _ _ _ h := by cases h

/-- The debugger of such a debuggee, with systrace on. -/
def stopMain (stops : List (Addr × Bool)) : Main StopScript :=
  { Main.init { stops := stops } with
    debug := { Debug.init with isRunning := true, isSystrace := true } }

/-- What is seen of such a session: is it at the prompt, the flag, and whether the debuggee is in a
system call stop. -/
def flagAndStop (input : List Line) (stops : List (Addr × Bool)) (m : Nat) :
    Option (Bool × Bool × Bool) :=
  (mainLoop stopKernel (nothingLoaded _) 1 m input (stopMain stops)).toOption.map fun r =>
    (match r.1 with
      | .prompt _ => true
      | .returned _ => false, r.2.debug.isSysStopped, r.2.kernel.insys)

theorem exists_prompt_of_seen {input : List Line} {stops : List (Addr × Bool)} {m : Nat}
    {flag insys : Bool} (h : flagAndStop input stops m = some (true, flag, insys)) :
    ∃ p d, AtPrompt stopKernel (nothingLoaded _) 1 input (stopMain stops) m p d ∧
      d.debug.isSysStopped = flag ∧ d.kernel.insys = insys := by
  obtain ⟨t, d, hrun, hv⟩ := exists_ok_of_observed h
  cases t with
  | returned code => cases hv
  | prompt p =>
    simp only [Prod.mk.injEq] at hv
    exact ⟨p, d, hrun, hv.2⟩

/-- A continue that comes to a system call. -/
theorem flag_at_syscall : ∃ p d,
    AtPrompt stopKernel (nothingLoaded _) 1 ["c".toList] (stopMain [(0x1000, true)]) 1 p d ∧
      (d.debug.isSysStopped = true ↔ d.kernel.insys = true) := by
  obtain ⟨p, d, hp, -⟩ := exists_prompt_of_seen
    (show flagAndStop ["c".toList] [(0x1000, true)] 1 = some (true, true, true) by decide +kernel)
  refine ⟨p, d, hp, flag_of_sound_turns stopKernel_stops (nothingLoaded _) 1 ["c".toList]
    (stopMain [(0x1000, true)]) rfl rfl Bool.false_ne_true 1 ?_ p d hp⟩
  intro k hk q e command rest hq hinput
  obtain rfl : k = 0 := by omega
  cases hq
  cases hinput
  refine ⟨fun _ _ out => ⟨?_, fun _ _ => trivial⟩, fun _ h _ => (by cases h), fun h => ?_,
    fun h => ?_⟩
  · rintro s₁ w s₂ r ⟨⟩ ⟨⟩ - -
    rfl
  · revert h
    decide
  · revert h
    decide

/-- After a signal the flag is on, and after a step from a system call it is on still. -/
theorem flag_wrong :
    (∃ p d, AtPrompt stopKernel (nothingLoaded _) 1 ["c".toList] (stopMain [(0x1000, false)])
        1 p d ∧ d.debug.isSysStopped = true ∧ d.kernel.insys = false) ∧
      ∃ p d, AtPrompt stopKernel (nothingLoaded _) 1 ["c".toList, "s".toList]
        (stopMain [(0x1000, true)]) 2 p d ∧ d.debug.isSysStopped = true ∧
          d.kernel.insys = false :=
  ⟨exists_prompt_of_seen (by decide +kernel), exists_prompt_of_seen (by decide +kernel)⟩

end Zkz.Debugger
