import Zkz.Lib.Runs
import Zkz.Debugger.Commands

/-!
# The commands, given the kernel's answers

What the functions of `Main` return and leave, given what the kernel answers at the states
they meet.

* `waitForProcess_run`: a wait that returns, by the status it leaves in `wstatus`.
* `placeBreakpoint_answered`: a placement, whose poke succeeds or fails.
* `restoreBreakpoint_eq`: a restore up to its single step and from there on;
  `restoreBreakpoint_run` is one whose four requests succeed.
-/

namespace Zkz.Debugger

open Zkz.Lib BreakpointList

variable {σ : Type}

/-! ## Waits -/

/-- What `WaitForProcess` makes of a status. -/
def waitResult (w : Wstatus) : Int :=
  if wifexited w then exitStatusRet
  else if wifstopped w then stoppedStatusRet
  else if wifsignaled w then signaledStatusRet
  else -1

/-- The debugger's fields after a wait with a status. -/
def afterWait (w : Wstatus) (debug : Debug) : Debug :=
  if wifexited w then { debug with isRunning := false } else debug

theorem waitResult_exited {w : Wstatus} (h : wifexited w = true) :
    waitResult w = exitStatusRet := if_pos h

theorem waitResult_eq_exit {w : Wstatus} : waitResult w = exitStatusRet ↔ wifexited w = true := by
  unfold waitResult exitStatusRet stoppedStatusRet signaledStatusRet
  split
  · simp [*]
  · split
    · simp [*]
    · split <;> simp [*]

theorem waitResult_ne_exit {w : Wstatus} (h : ¬ wifexited w = true) :
    waitResult w ≠ exitStatusRet := fun hw => h (waitResult_eq_exit.mp hw)

theorem and_7f_of_wifstopped {w : Wstatus} (h : wifstopped w = true) : w &&& 0x7f = 0x7f := by
  have hw : w &&& 0xff = 0x7f := by simpa [wifstopped] using h
  have h' := congrArg (fun v : Wstatus => v &&& 0x7f) hw
  simpa [BitVec.and_assoc] using h'

theorem wifexited_of_wifstopped {w : Wstatus} (h : wifstopped w = true) : wifexited w = false := by
  unfold wifexited
  rw [and_7f_of_wifstopped h]
  decide

theorem waitResult_ne_exit_of_wifstopped {w : Wstatus} (h : wifstopped w = true) :
    waitResult w ≠ exitStatusRet :=
  waitResult_ne_exit (by rw [wifexited_of_wifstopped h]; simp)

theorem waitResult_eq_stopped {w : Wstatus} :
    waitResult w = stoppedStatusRet ↔ wifstopped w = true := by
  constructor
  · intro h
    unfold waitResult exitStatusRet stoppedStatusRet signaledStatusRet at h
    split at h
    · cases h
    · split at h
      · assumption
      · split at h <;> cases h
  · intro h
    unfold waitResult
    rw [wifexited_of_wifstopped h, h]
    rfl

theorem waitResult_signaled {w : Wstatus} (hex : wifexited w = false)
    (hsig : wifsignaled w = true) : waitResult w = signaledStatusRet := by
  have hstop : wifstopped w = false := by
    by_contra h
    simp only [wifsignaled, Bool.and_eq_true, bne_iff_ne] at hsig
    exact hsig.2 (and_7f_of_wifstopped (by simpa using h))
  unfold waitResult
  rw [hex, hstop, hsig]
  rfl

theorem wifexited_of_wifsignaled {w : Wstatus} (h : wifsignaled w = true) : wifexited w = false := by
  simp only [wifsignaled, Bool.and_eq_true, bne_iff_ne] at h
  simpa [wifexited] using h.1

theorem waitResult_eq_signaled {w : Wstatus} :
    waitResult w = signaledStatusRet ↔ wifsignaled w = true := by
  constructor
  · intro h
    unfold waitResult exitStatusRet stoppedStatusRet signaledStatusRet at h
    split at h
    · cases h
    · split at h
      · cases h
      · split at h
        · assumption
        · cases h
  · exact fun h => waitResult_signaled (wifexited_of_wifsignaled h) h

@[simp] theorem afterWait_isSystrace (w : Wstatus) (debug : Debug) :
    (afterWait w debug).isSystrace = debug.isSystrace := by
  unfold afterWait
  split <;> rfl

@[simp] theorem afterWait_pid (w : Wstatus) (debug : Debug) :
    (afterWait w debug).pid = debug.pid := by
  unfold afterWait
  split <;> rfl

@[simp] theorem afterWait_isSysStopped (w : Wstatus) (debug : Debug) :
    (afterWait w debug).isSysStopped = debug.isSysStopped := by
  unfold afterWait
  split <;> rfl

theorem afterWait_stopped {w : Wstatus} (hw : wifstopped w = true) (debug : Debug) :
    afterWait w debug = debug := by
  unfold afterWait
  rw [wifexited_of_wifstopped hw]
  rfl

theorem waitForProcess_run {K : Kernel σ} {d : Main σ} {w : Option Wstatus} {s : σ}
    (h : K.waitpid d.debug.pid d.kernel = some (w, s)) :
    ∃ out, waitForProcess K d = .ok (waitResult (w.getD 0),
      { d with debug := afterWait (w.getD 0) d.debug, kernel := s, out := out }) := by
  have hw : waitpid K d = .ok (w, { d with kernel := s }) := by
    unfold waitpid
    rw [h]
  unfold waitForProcess waitResult afterWait
  rw [run_bind_ok hw]
  split
  · exact ⟨_, rfl⟩
  · split
    · exact ⟨_, rfl⟩
    · split
      · exact ⟨_, rfl⟩
      · exact ⟨_, rfl⟩

/-- A wait that returns, by what the kernel answered. -/
theorem waitForProcess_post {K : Kernel σ} (d : Main σ) :
    Post (waitForProcess K) d fun ret d' => ∃ w s, K.waitpid d.debug.pid d.kernel = some (w, s) ∧
      ret = waitResult (w.getD 0) ∧ d.out <+: d'.out ∧
      d' = ⟨afterWait (w.getD 0) d.debug, d.regs, s, d'.out⟩ := by
  cases hw : K.waitpid d.debug.pid d.kernel with
  | none =>
    have hnever : waitpid K d = .error .noReturn := by
      unfold waitpid
      rw [hw]
    intro ret d' hrun
    unfold waitForProcess at hrun
    rw [run_bind, hnever] at hrun
    cases hrun
  | some ws =>
    have hwait : waitpid K d = .ok (ws.1, { d with kernel := ws.2 }) := by
      unfold waitpid
      rw [hw]
    refine post_bind_ok hwait (post_ite (fun hex => ?_) fun hex => ?_)
    · refine post_bind_ok rfl (post_bind_ok rfl (post_pure ?_))
      refine ⟨ws.1, ws.2, rfl, (waitResult_exited hex).symm, List.prefix_append _ _, ?_⟩
      unfold afterWait
      rw [if_pos hex]
    · have hsame : afterWait (ws.1.getD 0) d.debug = d.debug := if_neg hex
      refine post_ite (fun hstop => post_pure ?_) fun hstop => post_ite (fun hsig => ?_) fun hsig => ?_
      · exact ⟨ws.1, ws.2, rfl, by rw [waitResult, if_neg hex, if_pos hstop], List.prefix_refl _,
          by rw [hsame]⟩
      · refine post_bind_ok rfl (post_pure ?_)
        exact ⟨ws.1, ws.2, rfl, by rw [waitResult, if_neg hex, if_neg hstop, if_pos hsig],
          List.prefix_append _ _, by rw [hsame]⟩
      · refine post_pure ?_
        exact ⟨ws.1, ws.2, rfl, by rw [waitResult, if_neg hex, if_neg hstop, if_neg hsig],
          List.prefix_refl _, by rw [hsame]⟩

/-- A wait that does not return. -/
theorem waitForProcess_never {K : Kernel σ} {d : Main σ}
    (h : K.waitpid d.debug.pid d.kernel = none) : waitForProcess K d = .error .noReturn := by
  have hw : waitpid K d = .error .noReturn := by
    unfold waitpid
    rw [h]
  unfold waitForProcess
  rw [run_bind, hw]

/-! ## Registers -/

theorem infoRegistersAll_run {K : Kernel σ} {d : Main σ} {s₁ : σ} {r : UserRegs}
    (hget : K.getregs d.debug.pid d.kernel = (some r, s₁)) :
    ∃ out, infoRegistersAll K d = .ok (0, ⟨d.debug, r, s₁, out⟩) := by
  unfold infoRegistersAll
  rw [run_bind_ok (by simp only [ptrace, hget]; rfl)]
  exact ⟨_, rfl⟩

theorem infoRegistersAll_fail {K : Kernel σ} {d : Main σ} {s₁ : σ}
    (hget : K.getregs d.debug.pid d.kernel = (none, s₁)) :
    infoRegistersAll K d = .ok (-1, { d with kernel := s₁ }) := by
  unfold infoRegistersAll
  rw [run_bind_ok (by simp only [ptrace, hget]; rfl)]
  rfl

/-- The dump that `isInforeg` asks for, before what comes next. -/
theorem inforeg_then {K : Kernel σ} {d : Main σ} {r : UserRegs} {α : Type}
    (hget : K.getregs d.debug.pid d.kernel = (some r, d.kernel)) (f : DbgM σ α) :
    ∃ regs out, (regs = d.regs ∨ regs = r) ∧
      (if d.debug.isInforeg = true then do let _ ← infoRegistersAll K; f else f) d =
        f ⟨d.debug, regs, d.kernel, out⟩ := by
  by_cases hinfo : d.debug.isInforeg = true
  · obtain ⟨out, hreg⟩ := infoRegistersAll_run hget
    refine ⟨r, out, Or.inr rfl, ?_⟩
    rw [if_pos hinfo]
    exact run_bind_ok hreg
  · refine ⟨d.regs, d.out, Or.inl rfl, ?_⟩
    rw [if_neg hinfo]

/-! ## Restores -/

/-- The requests of a restore succeed, its single step included. -/
def RestoreSteps (K : Kernel σ) (b : Breakpoint) (a : Addr) (pid : Int) (s : σ) : Prop :=
  (K.poketext pid a b.origdata s).1 = true ∧
    ∃ r s₂, K.getregs pid (K.poketext pid a b.origdata s).2 = (some r, s₂) ∧
      (K.setregs pid { r with rip := a } s₂).1 = true ∧
      (K.singlestep pid (K.setregs pid { r with rip := a } s₂).2).1 = true

/-- What the kernel answers to a restore: a request that fails, or the wait of the single step. The
last argument is the kernel state after it. -/
inductive RestoreAnswers (K : Kernel σ) (b : Breakpoint) (a : Addr) (pid : Int) (s : σ) :
    Option (Option Wstatus) → σ → Prop where
  | poke (h : ¬ (K.poketext pid a b.origdata s).1 = true) :
      RestoreAnswers K b a pid s none (K.poketext pid a b.origdata s).2
  | get (hpoke : (K.poketext pid a b.origdata s).1 = true)
      (h : (K.getregs pid (K.poketext pid a b.origdata s).2).1 = none) :
      RestoreAnswers K b a pid s none (K.getregs pid (K.poketext pid a b.origdata s).2).2
  | set (r : UserRegs) (s₂ : σ) (hpoke : (K.poketext pid a b.origdata s).1 = true)
      (hget : K.getregs pid (K.poketext pid a b.origdata s).2 = (some r, s₂))
      (h : ¬ (K.setregs pid { r with rip := a } s₂).1 = true) :
      RestoreAnswers K b a pid s none (K.setregs pid { r with rip := a } s₂).2
  | step (r : UserRegs) (s₂ : σ) (hpoke : (K.poketext pid a b.origdata s).1 = true)
      (hget : K.getregs pid (K.poketext pid a b.origdata s).2 = (some r, s₂))
      (hset : (K.setregs pid { r with rip := a } s₂).1 = true)
      (h : ¬ (K.singlestep pid (K.setregs pid { r with rip := a } s₂).2).1 = true) :
      RestoreAnswers K b a pid s none (K.singlestep pid (K.setregs pid { r with rip := a } s₂).2).2
  | wait (r : UserRegs) (s₂ : σ) (w : Option Wstatus) (s' : σ)
      (hpoke : (K.poketext pid a b.origdata s).1 = true)
      (hget : K.getregs pid (K.poketext pid a b.origdata s).2 = (some r, s₂))
      (hset : (K.setregs pid { r with rip := a } s₂).1 = true)
      (hstep : (K.singlestep pid (K.setregs pid { r with rip := a } s₂).2).1 = true)
      (h : K.waitpid pid (K.singlestep pid (K.setregs pid { r with rip := a } s₂).2).2 =
        some (w, s')) : RestoreAnswers K b a pid s (some w) s'

/-- What `RestoreBreakpoint` returns after its single step's wait. -/
def restoreResult (w : Wstatus) : Int := if wifexited w then exitStatusRet else 0

theorem restoreResult_nonneg (w : Wstatus) : ¬ restoreResult w < -1 := by
  unfold restoreResult exitStatusRet
  split <;> omega

/-- `RestoreBreakpoint` up to its single step: what it returns if a request fails. -/
def restoreToStep (K : Kernel σ) (b : Breakpoint) (address : Addr) : DbgM σ (Option Int) := do
  log .debug "restore address %x\n" [.hex address]
  if !(← ptrace fun pid => K.poketext pid address b.origdata) then
    log .pError "Ptrace error" []
    return some (-1)
  let some r ← ptrace K.getregs | do
    log .pError "Ptrace error" []
    return some (-1)
  setRegs { r with rip := address }
  if !(← ptrace fun pid => K.setregs pid { r with rip := address }) then
    log .pError "Ptrace error" []
    return some (-1)
  return none

/-- `RestoreBreakpoint` from its single step on. -/
def stepRestored (K : Kernel σ) : DbgM σ Int := do
  if !(← ptrace K.singlestep) then
    log .pError "Ptrace error" []
    return -1
  log .debug "does not make it here\n" []
  let ret ← waitForProcess K
  if ret = exitStatusRet then
    return exitStatusRet
  else
    log .debug "process stopped or signled\n" []
  return 0

/-- A restore, cut at its single step. -/
theorem restoreBreakpoint_eq (K : Kernel σ) (b : Breakpoint) (a : Addr) :
    restoreBreakpoint K b a = roundThen (restoreToStep K b a) (stepRestored K) := by
  unfold restoreBreakpoint restoreToStep roundThen
  simp only [bind_assoc]
  refine bind_congr fun _ => bind_congr fun poked => ?_
  cases poked with
  | false => simp
  | true =>
    simp only [Bool.not_true, Bool.false_eq_true, if_false, bind_assoc]
    refine bind_congr fun o => ?_
    cases o with
    | none => simp
    | some r =>
      simp only [bind_assoc]
      refine bind_congr fun _ => bind_congr fun set => ?_
      cases set with
      | false => simp
      | true => simp [stepRestored]

/-- A restore whose requests are answered comes to its single step. -/
theorem restoreToStep_answered {K : Kernel σ} {b : Breakpoint} {a : Addr} {d : Main σ}
    {s₁ s₂ s₃ : σ} {r : UserRegs}
    (hpoke : K.poketext d.debug.pid a b.origdata d.kernel = (true, s₁))
    (hget : K.getregs d.debug.pid s₁ = (some r, s₂))
    (hset : K.setregs d.debug.pid { r with rip := a } s₂ = (true, s₃)) :
    ∃ out, restoreToStep K b a d = .ok (none, ⟨d.debug, { r with rip := a }, s₃, out⟩) := by
  unfold restoreToStep
  rw [run_bind_ok (by rfl), run_bind_ok (by simp only [ptrace, hpoke]; rfl)]
  simp only [Bool.not_true, Bool.false_eq_true, if_false]
  rw [run_bind_ok (by simp only [ptrace, hget]; rfl)]
  simp only
  rw [run_bind_ok (by rfl), run_bind_ok (by simp only [ptrace, hset]; rfl)]
  exact ⟨_, rfl⟩

/-- From its single step on a restore does what follows that step. -/
theorem restoreBreakpoint_stepped {K : Kernel σ} {b : Breakpoint} {a : Addr} {d d' : Main σ}
    (h : restoreToStep K b a d = .ok (none, d')) :
    restoreBreakpoint K b a d = stepRestored K d' := by
  rw [restoreBreakpoint_eq, roundThen, run_bind_ok h]

/-- A single step that is reported, after a restore. -/
theorem stepRestored_run {K : Kernel σ} {d : Main σ} {s₄ s₅ : σ} {w : Option Wstatus}
    (hstep : K.singlestep d.debug.pid d.kernel = (true, s₄))
    (hwait : K.waitpid d.debug.pid s₄ = some (w, s₅)) :
    ∃ out, stepRestored K d = .ok (restoreResult (w.getD 0),
      { debug := afterWait (w.getD 0) d.debug, regs := d.regs, kernel := s₅, out := out }) := by
  unfold stepRestored
  rw [run_bind_ok (by simp only [ptrace, hstep]; rfl)]
  simp only [Bool.not_true, Bool.false_eq_true, if_false]
  rw [run_bind_ok (by rfl)]
  obtain ⟨out, hw⟩ := waitForProcess_run (K := K) (w := w) (s := s₅)
    (d := ⟨d.debug, d.regs, s₄, _⟩) hwait
  rw [run_bind_ok hw]
  unfold restoreResult
  by_cases hex : wifexited (w.getD 0) = true
  · simp only [waitResult_exited hex, hex, if_true]
    exact ⟨_, rfl⟩
  · have hne := waitResult_ne_exit hex
    simp only [hne, hex, if_false]
    exact ⟨_, rfl⟩

/-- A restore whose requests are answered and whose single step is reported. -/
theorem restoreBreakpoint_run {K : Kernel σ} {b : Breakpoint} {a : Addr} {d : Main σ}
    {s₁ s₂ s₃ s₄ s₅ : σ} {r : UserRegs} {w : Option Wstatus}
    (hpoke : K.poketext d.debug.pid a b.origdata d.kernel = (true, s₁))
    (hget : K.getregs d.debug.pid s₁ = (some r, s₂))
    (hset : K.setregs d.debug.pid { r with rip := a } s₂ = (true, s₃))
    (hstep : K.singlestep d.debug.pid s₃ = (true, s₄))
    (hwait : K.waitpid d.debug.pid s₄ = some (w, s₅)) :
    ∃ out, restoreBreakpoint K b a d = .ok (restoreResult (w.getD 0),
      { debug := afterWait (w.getD 0) d.debug, regs := { r with rip := a }, kernel := s₅,
        out := out }) := by
  obtain ⟨out, hset⟩ := restoreToStep_answered hpoke hget hset
  rw [restoreBreakpoint_stepped hset]
  exact stepRestored_run hstep hwait

/-- The debugger's fields after a restore. -/
def afterRestore (o : Option (Option Wstatus)) (debug : Debug) : Debug :=
  match o with
  | none => debug
  | some w => afterWait (w.getD 0) debug

/-- A restore that returns, by what the kernel answered. -/
theorem restoreBreakpoint_post {K : Kernel σ} (b : Breakpoint) (a : Addr) (d : Main σ) :
    Post (restoreBreakpoint K b a) d fun ret d' => ∃ o, ¬ ret < -1 ∧
      d'.debug = afterRestore o d.debug ∧ RestoreAnswers K b a d.debug.pid d.kernel o d'.kernel := by
  have hfail : ∀ regs s out, RestoreAnswers K b a d.debug.pid d.kernel none s → Post (do
        log .pError "Ptrace error" []
        return -1 : DbgM σ Int) ⟨d.debug, regs, s, out⟩ fun ret d' => ∃ o, ¬ ret < -1 ∧
          d'.debug = afterRestore o d.debug ∧
          RestoreAnswers K b a d.debug.pid d.kernel o d'.kernel :=
    fun regs s out h => post_bind_ok rfl (post_pure ⟨none, by decide, rfl, h⟩)
  refine post_bind_ok (by rfl) (post_bind_ok (by rfl) (post_ite (fun hpoke => ?_) fun hpoke => ?_))
  · exact hfail _ _ _ (.poke (by simpa using hpoke))
  · have hpoke : (K.poketext d.debug.pid a b.origdata d.kernel).1 = true := by simpa using hpoke
    refine post_bind_ok (by rfl) ?_
    split
    · rename_i r hr
      have hget : K.getregs d.debug.pid (K.poketext d.debug.pid a b.origdata d.kernel).2 =
          (some r, (K.getregs d.debug.pid (K.poketext d.debug.pid a b.origdata d.kernel).2).2) :=
        Prod.ext hr rfl
      refine post_bind_ok (by rfl) (post_bind_ok (by rfl) (post_ite (fun hset => ?_) fun hset => ?_))
      · exact hfail _ _ _ (.set r _ hpoke hget (by simpa using hset))
      · refine post_bind_ok (by rfl) (post_ite (fun hstep => ?_) fun hstep => ?_)
        · exact hfail _ _ _ (.step r _ hpoke hget (by simpa using hset) (by simpa using hstep))
        · refine post_bind_ok (by rfl) (post_bind (waitForProcess_post _) ?_)
          rintro ret d₁ ⟨w, s, hwait, rfl, -, hd₁⟩
          have hanswers : RestoreAnswers K b a d.debug.pid d.kernel (some w) d₁.kernel := by
            rw [hd₁]
            exact .wait r _ w s hpoke hget (by simpa using hset) (by simpa using hstep) hwait
          have hdebug : d₁.debug = afterRestore (some w) d.debug := by rw [hd₁]; rfl
          refine post_ite (fun _ => post_pure ⟨some w, by decide, hdebug, hanswers⟩) fun _ => ?_
          exact post_bind_ok rfl (post_pure ⟨some w, by decide, hdebug, hanswers⟩)
    · rename_i hnone
      exact hfail _ _ _ (.get hpoke (Option.eq_none_iff_forall_ne_some.mpr hnone))

/-! ## Placements -/

/-- A failed peek is taken as the word -1, whether the poke then succeeds or not. -/
theorem placeBreakpoint_answered {K : Kernel σ} (li : BreakpointList) {a : Addr} {d : Main σ}
    {s₁ s₂ : σ} {o : Option Word} {poked : Bool}
    (hpeek : K.peektext d.debug.pid a d.kernel = (o, s₁))
    (hpoke : K.poketext d.debug.pid a (setLow (o.getD (-1)) trapByte) s₁ = (poked, s₂)) :
    ∃ out, placeBreakpoint K li a d =
      .ok (if poked then (0, appendElement li a (o.getD (-1))) else (-1, li),
        ⟨d.debug, d.regs, s₂, out⟩) := by
  have hword : (o.getD (-1) &&& 0xffffffffffffff00) ||| 0xcc = setLow (o.getD (-1)) trapByte := rfl
  unfold placeBreakpoint
  rw [run_bind_ok (by simp only [ptrace, hpeek]; rfl)]
  rw [run_bind_ok (by simp only [ptrace]; rw [hword, hpoke])]
  cases poked with
  | true => exact ⟨_, rfl⟩
  | false => exact ⟨_, rfl⟩

theorem placeBreakpoint_poked {K : Kernel σ} (li : BreakpointList) {a : Addr} {d : Main σ}
    {s₁ s₂ : σ} {o : Option Word} (hpeek : K.peektext d.debug.pid a d.kernel = (o, s₁))
    (hpoke : K.poketext d.debug.pid a (setLow (o.getD (-1)) trapByte) s₁ = (true, s₂)) :
    ∃ out, placeBreakpoint K li a d =
      .ok ((0, appendElement li a (o.getD (-1))), ⟨d.debug, d.regs, s₂, out⟩) :=
  placeBreakpoint_answered li hpeek hpoke

theorem placeBreakpoint_ok {K : Kernel σ} (li : BreakpointList) {a : Addr} {d : Main σ}
    {s₁ s₂ : σ} {w : Word} (hpeek : K.peektext d.debug.pid a d.kernel = (some w, s₁))
    (hpoke : K.poketext d.debug.pid a (setLow w trapByte) s₁ = (true, s₂)) :
    ∃ out, placeBreakpoint K li a d =
      .ok ((0, appendElement li a w), ⟨d.debug, d.regs, s₂, out⟩) :=
  placeBreakpoint_poked li hpeek hpoke

theorem placeBreakpoint_fail {K : Kernel σ} (li : BreakpointList) {a : Addr} {d : Main σ}
    {s₁ s₂ : σ} {o : Option Word} (hpeek : K.peektext d.debug.pid a d.kernel = (o, s₁))
    (hpoke : (K.poketext d.debug.pid a (setLow (o.getD (-1)) trapByte) s₁) = (false, s₂)) :
    ∃ out, placeBreakpoint K li a d = .ok ((-1, li), ⟨d.debug, d.regs, s₂, out⟩) :=
  placeBreakpoint_answered li hpeek hpoke

/-- A breakpoint that is disabled was found at some position. -/
theorem disableBreakpoint_post (li : BreakpointList) (n : Int) (d : Main σ) :
    Post (disableBreakpoint li n) d fun r d' =>
      ∃ i, r.2 = disableAt li i ∧ d'.debug = d.debug ∧ d'.kernel = d.kernel := by
  unfold disableBreakpoint
  cases getElementByBreakpointNumber li n with
  | none =>
    intro r d' h
    simp only at h
    split at h
    · cases h
    · cases h
  | some i =>
    intro r d' h
    cases h
    exact ⟨i, rfl, rfl, rfl⟩

end Zkz.Debugger
