import Mathlib.Logic.Function.Basic
import Zkz.Debugger.Turns

/-!
# Processes and the running flag

What a kernel lets become of the processes it traces, and how the running flag follows it. The
flag is set when `StartProcess` succeeds and cleared when a wait reports an exit; nothing clears
it when a wait reports a death by a signal, and `AttachProcess` does not set it.

* `Kernel.Fates`: the assumptions on the kernel.
* `FlagKept`: what the flag says in a session, and that every turn keeps it.
* `flag_truthful_iff`: the flag is truthful at a prompt exactly when no signal has killed a
  process that was started, or a process that was attached has ended.
-/

namespace Zkz.Debugger

open Zkz.Lib BreakpointList

variable {σ : Type}

/-! ## Fates -/

/-- What has become of a process, as far as waits have reported it. -/
inductive Fate where
  /-- Not a process that the debugger traces. -/
  | unknown
  | live
  | exited
  | killed
deriving DecidableEq

/-- The fate of a process once a wait has reported a status. -/
def Fate.after (w : Wstatus) : Fate :=
  if wifexited w then .exited else if wifsignaled w then .killed else .live

/-- The process's fate does not change. -/
def Quiet {α : Type} (fate : σ → Int → Fate) (req : Int → σ → α × σ) : Prop :=
  ∀ p s, fate (req p s).2 = fate s

/-- A kernel that keeps account of its processes. A request never ends a process, and one that
resumes a process needs a live one. A wait reports the end or a stop of a live process, of the
one it names if it names one, and does not fail while there is one. -/
structure Kernel.Fates (K : Kernel σ) (fate : σ → Int → Fate) : Prop where
  peektext : ∀ a, Quiet fate fun p => K.peektext p a
  poketext : ∀ a w, Quiet fate fun p => K.poketext p a w
  getregs : Quiet fate K.getregs
  setregs : ∀ r, Quiet fate fun p => K.setregs p r
  setregsByValue : ∀ r, Quiet fate fun p => K.setregsByValue p r
  resume : ∀ req, Resumes K req → Quiet fate req ∧
    ∀ p s, (req p s).1 = true → fate s p = .live
  attach : ∀ p s s', K.attach p s = (true, s') →
    0 < p ∧ fate s' = Function.update (fate s) p .live
  forkFails : ∀ s s', K.fork s = (none, s') → fate s' = fate s
  fork : ∀ s c s', K.fork s = (some c, s') →
    0 < c ∧ fate s c ≠ .live ∧ fate s' = Function.update (fate s) c .live
  reports : ∀ p s w s', K.waitpid p s = some (some w, s') →
    (wifexited w = true ∨ wifsignaled w = true ∨ wifstopped w = true) ∧
      ∃ q, (0 < p → q = p) ∧ fate s q = .live ∧
        fate s' = Function.update (fate s) q (Fate.after w)
  fails : ∀ p s s', K.waitpid p s = some (none, s') →
    fate s' = fate s ∧ fate s p ≠ .live ∧ (p = 0 → ∀ q, fate s q ≠ .live)

theorem Fate.after_ne_unknown (w : Wstatus) : Fate.after w ≠ .unknown := by
  unfold Fate.after
  split
  · simp
  · split <;> simp

theorem Fate.after_exited {w : Wstatus} : Fate.after w = .exited ↔ wifexited w = true := by
  unfold Fate.after
  split
  · simpa
  · rename_i h
    split <;> simp [h]

/-! ## The flag -/

/-- The flag of a process that was started is set unless it has exited; that of one that was
attached is not set. -/
structure FlagKept (fate : σ → Int → Fate) (path : Option (List String)) (d : Main σ) :
    Prop where
  pathname : d.debug.pathname = path
  pid : 0 < d.debug.pid
  known : fate d.kernel d.debug.pid ≠ .unknown
  started : path.isSome = true → (d.debug.isRunning = true ↔ fate d.kernel d.debug.pid ≠ .exited)
  attached : path = none → d.debug.isRunning = false

section Flag

variable {K : Kernel σ} {fate : σ → Int → Fate} {path : Option (List String)} {d d' : Main σ}

theorem FlagKept.congr (h : FlagKept fate path d) (hpid : d'.debug.pid = d.debug.pid)
    (hpath : d'.debug.pathname = d.debug.pathname)
    (hrun : d'.debug.isRunning = d.debug.isRunning) (hfate : fate d'.kernel = fate d.kernel) :
    FlagKept fate path d' := by
  constructor
  · rw [hpath]
    exact h.pathname
  · rw [hpid]
    exact h.pid
  · rw [hfate, hpid]
    exact h.known
  · rw [hrun, hfate, hpid]
    exact h.started
  · rw [hrun]
    exact h.attached

/-- Messages after a request that changes no fate keep the flag. -/
theorem FlagKept.spoken {d₁ : Main σ} (h : FlagKept fate path d) (hs : Spoke d₁ d')
    (hdebug : d₁.debug = d.debug) (hfate : fate d₁.kernel = fate d.kernel) :
    FlagKept fate path d' := by
  have hd := hs.debug.trans hdebug
  refine h.congr (by rw [hd]) (by rw [hd]) (by rw [hd]) ?_
  rw [hs.kernel, hfate]

theorem FlagKept.spoke (h : FlagKept fate path d) (hs : Spoke d d') : FlagKept fate path d' :=
  h.spoken hs rfl rfl

/-- A live process's wait keeps the flag with its fate. -/
theorem waitForProcess_flag (hK : K.Fates fate) (h : FlagKept fate path d)
    (hlive : fate d.kernel d.debug.pid = .live) :
    Post (waitForProcess K) d fun _ d' => FlagKept fate path d' := by
  cases hwait : K.waitpid d.debug.pid d.kernel with
  | none =>
    intro ret d' hrun
    rw [waitForProcess_never hwait] at hrun
    cases hrun
  | some ws =>
    obtain ⟨w, s'⟩ := ws
    cases w with
    | none => exact absurd hlive (hK.fails _ _ _ hwait).2.1
    | some w =>
      obtain ⟨-, q, hq, -, hfate⟩ := hK.reports _ _ _ _ hwait
      rw [hq h.pid] at hfate
      obtain ⟨out, hrun⟩ := waitForProcess_run hwait
      have hafter : fate s' d.debug.pid = Fate.after w := by
        rw [hfate, Function.update_self]
      refine post_ok hrun ?_
      rw [Option.getD_some]
      by_cases hex : wifexited w = true
      · have hdebug : afterWait w d.debug = { d.debug with isRunning := false } := if_pos hex
        rw [hdebug]
        refine ⟨h.pathname, h.pid, ?_, ?_, fun _ => rfl⟩
        · exact hafter ▸ Fate.after_ne_unknown w
        · intro _
          have hexited : fate s' d.debug.pid = .exited := hafter.trans (Fate.after_exited.mpr hex)
          simp [hexited]
      · have hdebug : afterWait w d.debug = d.debug := if_neg hex
        rw [hdebug]
        refine ⟨h.pathname, h.pid, ?_, ?_, h.attached⟩
        · exact hafter ▸ Fate.after_ne_unknown w
        · intro hpath
          have hne : fate s' d.debug.pid ≠ .exited := by
            rw [hafter, Ne, Fate.after_exited]
            exact hex
          have hrunning := (h.started hpath).mpr (by rw [hlive]; simp)
          simp [hne, hrunning]

theorem flagKept_requests (hK : K.Fates fate) : KeepsRequests K (FlagKept fate path)
    (fun d => FlagKept fate path d ∧ fate d.kernel d.debug.pid = .live) where
  spoke d d' h hs := h.spoke hs
  spokeRunning d d' h hs := by
    refine ⟨h.1.spoke hs, ?_⟩
    rw [hs.kernel, hs.debug]
    exact h.2
  getregs d h := h.congr rfl rfl rfl (hK.getregs _ _)
  resume req hreq d h := by
    obtain ⟨hquiet, hlive⟩ := hK.resume req hreq
    have h' : FlagKept fate path (d.requested req) := h.congr rfl rfl rfl (hquiet _ _)
    refine ⟨fun hok => ⟨h', ?_⟩, fun _ => h'⟩
    exact (congrFun (hquiet _ _) _).trans (hlive _ _ hok)
  wait d h := waitForProcess_flag hK h.1 h.2

theorem flagKept_rounds (hK : K.Fates fate) : KeepsRounds K (FlagKept fate path)
    (fun d => FlagKept fate path d ∧ fate d.kernel d.debug.pid = .live) where
  toKeepsRequests := flagKept_requests hK
  syscallState state d h := h.congr rfl rfl rfl rfl
  restore b a d h := by
    refine (flagKept_requests hK).restoreBreakpoint (h.congr rfl rfl rfl rfl) ?_ ?_
    · intro d₁ h₁
      exact h₁.congr rfl rfl rfl (hK.poketext _ _ _ _)
    · intro r d₁ h₁
      exact h₁.congr rfl rfl rfl (hK.setregs _ _ _)

theorem flagKept_pokes (hK : K.Fates fate) : KeepsPokes K (FlagKept fate path) where
  spoke _ _ h hs := h.spoke hs
  peek a _ h := h.congr rfl rfl rfl (hK.peektext a _ _)
  poke a w _ h := h.congr rfl rfl rfl (hK.poketext a w _ _)

/-! ## Starting and attaching -/

/-- A start goes on with its wait. -/
theorem startProcess_forked {c : Int} {s₁ : σ} (hpath : d.debug.pathname.isSome = true)
    (hfork : K.fork d.kernel = (some c, s₁)) :
    startProcess K d = (do
      let ret ← waitForProcess K
      if ret = exitStatusRet then
        return 1
      else if ret = signaledStatusRet ∨ ret = stoppedStatusRet then
        setProgramState true
        setPid c
        return 0
      return -1 : DbgM σ Int) ⟨d.debug, d.regs, s₁, d.out⟩ := by
  unfold startProcess
  rw [run_bind_ok (run_get d), if_pos hpath, run_bind_ok (by simp only [ptrace, hfork]; rfl)]

/-- A start whose wait has reported a status, or failed. -/
theorem startProcess_run {c : Int} {s₁ s₂ : σ} {w : Option Wstatus}
    (hpath : d.debug.pathname.isSome = true) (hfork : K.fork d.kernel = (some c, s₁))
    (hwait : K.waitpid d.debug.pid s₁ = some (w, s₂)) :
    ∃ out, (wifexited (w.getD 0) = true → startProcess K d =
        .ok (1, ⟨{ d.debug with isRunning := false }, d.regs, s₂, out⟩)) ∧
      (wifexited (w.getD 0) = false → wifsignaled (w.getD 0) = true ∨ wifstopped (w.getD 0) = true →
        startProcess K d =
          .ok (0, ⟨{ d.debug with isRunning := true, pid := c }, d.regs, s₂, out⟩)) := by
  obtain ⟨out, hrun⟩ := waitForProcess_run (d := ⟨d.debug, d.regs, s₁, d.out⟩) hwait
  have hstart := startProcess_forked (K := K) hpath hfork
  refine ⟨out, ?_, ?_⟩
  · intro hex
    rw [hstart, run_bind_ok hrun, if_pos (waitResult_exited hex), afterWait, if_pos hex]
    rfl
  · intro hex hw
    have hne := waitResult_ne_exit (Bool.eq_false_iff.mp hex)
    have hres : waitResult (w.getD 0) = signaledStatusRet ∨
        waitResult (w.getD 0) = stoppedStatusRet := by
      rcases hw with hsig | hstop
      · exact Or.inl (waitResult_signaled hex hsig)
      · exact Or.inr (waitResult_eq_stopped.mpr hstop)
    rw [hstart, run_bind_ok hrun, if_neg hne, if_pos hres, afterWait,
      if_neg (Bool.eq_false_iff.mp hex)]
    rfl

/-- A start whose wait does not return. -/
theorem startProcess_never {c : Int} {s₁ : σ} (hpath : d.debug.pathname.isSome = true)
    (hfork : K.fork d.kernel = (some c, s₁)) (hwait : K.waitpid d.debug.pid s₁ = none) :
    startProcess K d = .error .noReturn := by
  rw [startProcess_forked hpath hfork, run_bind,
    waitForProcess_never (d := ⟨d.debug, d.regs, s₁, d.out⟩) hwait]

theorem startProcess_unforked {s₁ : σ} (hpath : d.debug.pathname.isSome = true)
    (hfork : K.fork d.kernel = (none, s₁)) :
    ∃ out, startProcess K d = .ok (-1, ⟨d.debug, d.regs, s₁, out⟩) := by
  unfold startProcess
  rw [run_bind_ok (run_get d), if_pos hpath, run_bind_ok (by simp only [ptrace, hfork]; rfl)]
  exact ⟨_, rfl⟩

/-- The flag of a process whose wait at its start has reported a status. -/
theorem flagKept_started {debug : Debug} {regs : UserRegs} {s : σ} {out : List LogLine}
    {c : Int} {w : Wstatus} (hc : 0 < c) (hpath : debug.pathname.isSome = true)
    (hfate : fate s c = Fate.after w) (hex : wifexited w = false) :
    FlagKept fate debug.pathname ⟨{ debug with isRunning := true, pid := c }, regs, s, out⟩ := by
  refine ⟨rfl, hc, ?_, ?_, ?_⟩
  · exact hfate ▸ Fate.after_ne_unknown w
  · intro _
    have hne : fate s c ≠ .exited := by
      rw [hfate, Ne, Fate.after_exited, hex]
      simp
    exact ⟨fun _ => hne, fun _ => rfl⟩
  · intro hnone
    simp [hnone] at hpath

theorem FlagKept.exited (h : FlagKept fate path d) (hrun : d.debug.isRunning = false)
    (hpath : d.debug.pathname.isSome = true) : fate d.kernel d.debug.pid = .exited := by
  rw [h.pathname] at hpath
  by_contra hne
  rw [(h.started hpath).mpr hne] at hrun
  cases hrun

/-- A new start keeps the flag: the process that was recorded has exited. -/
theorem startProcess_flag (hK : K.Fates fate) (h : FlagKept fate path d)
    (hrun : d.debug.isRunning = false) (hpath : d.debug.pathname.isSome = true) :
    Post (startProcess K) d fun _ d' => FlagKept fate path d' := by
  have hexited := h.exited hrun hpath
  cases hfork : K.fork d.kernel with
  | mk o s₁ =>
    cases o with
    | none =>
      obtain ⟨out, hstart⟩ := startProcess_unforked hpath hfork
      exact post_ok hstart (h.congr rfl rfl rfl (hK.forkFails _ _ hfork))
    | some c =>
      obtain ⟨hc, -, hforked⟩ := hK.fork _ _ _ hfork
      cases hwait : K.waitpid d.debug.pid s₁ with
      | none =>
        intro ret d' hstart
        rw [startProcess_never hpath hfork hwait] at hstart
        cases hstart
      | some ws =>
        obtain ⟨w, s₂⟩ := ws
        obtain ⟨out, hexit, hstop⟩ := startProcess_run hpath hfork hwait
        have hended : ∀ {s : σ}, fate s d.debug.pid = .exited →
            FlagKept fate path ⟨{ d.debug with isRunning := false }, d.regs, s, out⟩ := by
          intro s hs
          refine ⟨h.pathname, h.pid, ?_, ?_, fun _ => rfl⟩
          · rw [hs]
            simp
          · intro _
            simp [hs]
        cases w with
        | none =>
          obtain ⟨hsame, hdead, -⟩ := hK.fails _ _ _ hwait
          have hne : d.debug.pid ≠ c := by
            intro heq
            rw [hforked, heq, Function.update_self] at hdead
            exact hdead rfl
          refine post_ok (hexit wifexited_zero) (hended ?_)
          rw [hsame, hforked, Function.update_of_ne hne, hexited]
        | some w =>
          obtain ⟨hw, q, hq, hlive, hfate⟩ := hK.reports _ _ _ _ hwait
          rw [hq h.pid] at hlive hfate
          have heq : d.debug.pid = c := by
            by_contra hne
            rw [hforked, Function.update_of_ne hne, hexited] at hlive
            cases hlive
          have hafter : fate s₂ d.debug.pid = Fate.after w := by
            rw [hfate, Function.update_self]
          by_cases hex : wifexited w = true
          · exact post_ok (hexit hex) (hended (hafter.trans (Fate.after_exited.mpr hex)))
          · have hex' : wifexited w = false := by simpa using hex
            refine post_ok (hstop hex' (hw.resolve_left hex)) ?_
            rw [heq] at hafter
            rw [← h.pathname]
            exact flagKept_started hc hpath hafter hex'

/-- The first start sets the flag for its child. -/
theorem startProcess_first (hK : K.Fates fate) (hpath : d.debug.pathname.isSome = true)
    (hnone : ∀ p, fate d.kernel p ≠ .live) :
    Post (startProcess K) d fun ret d' =>
      ret = 0 → FlagKept fate d.debug.pathname d' := by
  cases hfork : K.fork d.kernel with
  | mk o s₁ =>
    cases o with
    | none =>
      obtain ⟨out, hstart⟩ := startProcess_unforked hpath hfork
      exact post_ok hstart fun h0 => by cases h0
    | some c =>
      obtain ⟨hc, -, hforked⟩ := hK.fork _ _ _ hfork
      cases hwait : K.waitpid d.debug.pid s₁ with
      | none =>
        intro ret d' hstart
        rw [startProcess_never hpath hfork hwait] at hstart
        cases hstart
      | some ws =>
        obtain ⟨w, s₂⟩ := ws
        obtain ⟨out, hexit, hstop⟩ := startProcess_run hpath hfork hwait
        cases w with
        | none => exact post_ok (hexit wifexited_zero) fun h0 => by cases h0
        | some w =>
          obtain ⟨hw, q, -, hlive, hfate⟩ := hK.reports _ _ _ _ hwait
          have heq : q = c := by
            by_contra hne
            rw [hforked, Function.update_of_ne hne] at hlive
            exact hnone q hlive
          have hafter : fate s₂ c = Fate.after w := by
            rw [hfate, heq, Function.update_self]
          by_cases hex : wifexited w = true
          · exact post_ok (hexit hex) fun h0 => by cases h0
          · have hex' : wifexited w = false := by simpa using hex
            exact post_ok (hstop hex' (hw.resolve_left hex))
              fun _ => flagKept_started hc hpath hafter hex'

/-- An attached process leaves the flag unset. -/
theorem attachProcess_flag (hK : K.Fates fate) (hpath : d.debug.pathname = none)
    (hrun : d.debug.isRunning = false) :
    Post (attachProcess K) d fun ret d' => ret = 0 → FlagKept fate none d' := by
  refine post_get_bind (post_ite (fun _ => ?_) fun _ => post_pure fun h0 => by cases h0)
  cases hattach : K.attach d.debug.pid d.kernel with
  | mk ok s₁ =>
    refine post_bind_ok (by simp only [ptrace, hattach]; rfl) ?_
    cases ok with
    | false => exact post_bind_ok rfl (post_pure fun h0 => by cases h0)
    | true =>
      obtain ⟨hpid, hfate⟩ := hK.attach _ _ _ hattach
      have hlive : fate s₁ d.debug.pid = .live := by rw [hfate, Function.update_self]
      have hkept : FlagKept fate none ⟨d.debug, d.regs, s₁, d.out⟩ := by
        refine ⟨hpath, hpid, ?_, (fun h => by cases h), fun _ => hrun⟩
        rw [hlive]
        exact Fate.noConfusion
      refine post_bind (waitForProcess_flag hK hkept hlive) ?_
      intro ret d' h'
      refine post_ite (fun _ => post_pure fun _ => h') fun _ => ?_
      exact post_ite (fun _ => post_pure fun _ => h') fun _ => post_pure fun _ => h'

/-! ## Sessions -/

theorem flagKept_keeps (hK : K.Fates fate) (path : Option (List String)) (atStart : Debug) :
    Keeps K atStart (fun _ => FlagKept fate path)
      (fun _ d => FlagKept fate path d ∧ fate d.kernel d.debug.pid = .live) where
  rounds _ := flagKept_rounds hK
  place _ a _ h := (flagKept_pokes hK).placeBreakpoint h a
  disable _ _ _ h := h
  setregsByValue _ r d h := h.congr rfl rfl rfl (hK.setregsByValue r _ _)
  startProcess _ d h hd hrun hpath := by
    rw [← hd] at hrun hpath
    exact startProcess_flag hK h hrun hpath

theorem mainTurn_flag (hK : K.Fates fate) (env : Loaded σ) (n : Nat) (p : Prompt)
    (h : FlagKept fate path d) :
    Post (mainTurn K env n p) d (Turn.Holds fun _ => FlagKept fate path) := by
  have hJ : KeepsRemovals K fun _ => FlagKept fate path :=
    ⟨(flagKept_keeps hK path d.debug).framed, fun _ k _ h =>
      (flagKept_pokes hK).removeElement h k⟩
  refine post_mono (mainTurn_keeps (flagKept_keeps hK path d.debug) hJ env rfl h h) ?_
  intro t d' ht
  cases t with
  | prompt p => exact ht.elim id id
  | returned code => trivial

/-- A process has been started or attached. Before it was started the debugger had no other, and
one that is attached has no pathname. -/
inductive Begun (K : Kernel σ) (fate : σ → Int → Fate) (d₀ d₁ : Main σ) : Prop where
  | started (hpath : d₀.debug.pathname.isSome = true) (hnone : ∀ p, fate d₀.kernel p ≠ .live)
    (hrun : startProcess K d₀ = .ok (0, d₁))
  | attached (hpath : d₀.debug.pathname = none) (hflag : d₀.debug.isRunning = false)
    (hrun : attachProcess K d₀ = .ok (0, d₁))

/-- The flag at every prompt of a session. -/
theorem session_flag (hK : K.Fates fate) (env : Loaded σ) (n m : Nat) (input : List Line)
    {d₀ d₁ : Main σ} (hbegun : Begun K fate d₀ d₁) :
    Post (debugFrom K env n m input 0) d₁
      (Turn.Holds fun _ => FlagKept fate d₀.debug.pathname) := by
  have h₁ : FlagKept fate d₀.debug.pathname d₁ := by
    cases hbegun with
    | started hpath hnone hrun => exact startProcess_first hK hpath hnone 0 d₁ hrun rfl
    | attached hpath hflag hrun =>
      rw [hpath]
      exact attachProcess_flag hK hpath hflag 0 d₁ hrun rfl
  have hreq : KeepsRequests K (FlagKept fate d₀.debug.pathname) _ := flagKept_requests hK
  refine post_ite (fun h0 => by cases h0) fun _ => post_ite (fun h0 => by cases h0) fun _ => ?_
  refine hreq.readRegs h₁ ?_ ?_
  · intro r d₂ h₂
    refine post_bind (hreq.setRegs h₂ r) ?_
    intro _ d₃ h₃
    have h₄ : FlagKept fate d₀.debug.pathname { d₃ with debug := { d₃.debug with
        dwarfState := d₃.debug.dwarfState && !env.dwarfFailed
        symState := d₃.debug.symState && env.syms.isSome && !env.symsFailed } } :=
      h₃.congr rfl rfl rfl rfl
    refine post_bind_ok (by rfl) (post_bind (hreq.logged h₄ .print _) ?_)
    intro _ d₅ h₅
    have hloop : ∀ d, FlagKept fate d₀.debug.pathname d → Post (debuggerLoop K env n m input) d
        (Turn.Holds fun _ => FlagKept fate d₀.debug.pathname) := fun d h =>
      debuggerLoop_post (post_mono (mainTurns_holds (I := fun _ => FlagKept fate d₀.debug.pathname)
        (fun p _ h => mainTurn_flag hK env n p h) m ⟨[], 0, input⟩ d h) fun _ _ => Turn.Holds.reduced)
    refine post_ite (fun _ => ?_) fun _ => hloop d₅ h₅
    exact post_bind (hreq.logged h₅ .error _) fun _ d₆ h₆ => hloop d₆ h₆
  · intro d₂ h₂
    exact post_bind (hreq.logged h₂ .pError _) fun _ _ _ => post_throw _

/-- The flag says whether the process is live. -/
def Truthful (fate : σ → Int → Fate) (d : Main σ) : Prop :=
  d.debug.isRunning = true ↔ fate d.kernel d.debug.pid = .live

/-- At a prompt the flag is truthful exactly when the process was started and no signal has
killed it, or it was attached and has ended. -/
theorem flag_truthful_iff (hK : K.Fates fate) (env : Loaded σ) (n m : Nat) (input : List Line)
    (p : Prompt) (d₀ d₁ d : Main σ) (hbegun : Begun K fate d₀ d₁)
    (hrun : debugFrom K env n m input 0 d₁ = .ok (.prompt p, d)) :
    Truthful fate d ↔
      d₀.debug.pathname.isSome = true ∧ fate d.kernel d.debug.pid ≠ .killed ∨
        d₀.debug.pathname = none ∧ fate d.kernel d.debug.pid ≠ .live := by
  have h : FlagKept fate d₀.debug.pathname d := session_flag hK env n m input hbegun _ _ hrun
  have hknown := h.known
  unfold Truthful
  cases hpath : d₀.debug.pathname with
  | none =>
    rw [h.attached hpath]
    simp
  | some path =>
    rw [h.started (by rw [hpath]; rfl)]
    cases hfate : fate d.kernel d.debug.pid with
    | unknown => exact absurd hfate hknown
    | live => simp
    | exited => simp
    | killed => simp

end Flag

/-! ## A kernel with a script -/

/-- The processes of `familyKernel`: their fates, the last child, and how many waits have reported
a status. -/
structure Family where
  fate : Int → Fate
  last : Int
  waits : Nat

def Family.init : Family where
  fate _ := .unknown
  last := 0
  waits := 0

/-- A wait that reports `w` of the process `q`. -/
def Family.report (s : Family) (q : Int) (w : Wstatus) : Option (Option Wstatus × Family) :=
  if wifexited w = true ∨ wifsignaled w = true ∨ wifstopped w = true then
    some (some w, ⟨Function.update s.fate q (Fate.after w), s.last, s.waits + 1⟩)
  else none

theorem Family.report_eq_some {s s' : Family} {q : Int} {w : Wstatus} {o : Option Wstatus}
    (h : s.report q w = some (o, s')) :
    o = some w ∧ (wifexited w = true ∨ wifsignaled w = true ∨ wifstopped w = true) ∧
      s'.fate = Function.update s.fate q (Fate.after w) := by
  unfold Family.report at h
  split at h
  · rename_i hw
    cases h
    exact ⟨rfl, hw, rfl⟩
  · cases h

/-- A kernel whose waits report the statuses of a script. Every stop is at the same registers, and
the memory is not kept. Pids are handed out in order. -/
def familyKernel (script : Nat → Wstatus) (regs : UserRegs) : Kernel Family where
  peektext _ _ s := (some 0, s)
  poketext _ _ _ s := (true, s)
  getregs p s := (if s.fate p = .live then some regs else none, s)
  setregs _ _ s := (true, s)
  setregsByValue _ _ s := (false, s)
  singlestep p s := (s.fate p = .live, s)
  cont p s := (s.fate p = .live, s)
  syscall p s := (s.fate p = .live, s)
  attach p s :=
    if 0 < p then (true, { s with fate := Function.update s.fate p .live }) else (false, s)
  fork s :=
    if 0 ≤ s.last ∧ s.fate (s.last + 1) ≠ .live then
      (some (s.last + 1), { s with fate := Function.update s.fate (s.last + 1) .live,
                                   last := s.last + 1 })
    else (none, s)
  waitpid p s :=
    if p = 0 then
      if s.fate s.last = .live then s.report s.last (script s.waits) else none
    else
      if s.fate p = .live then s.report p (script s.waits) else some (none, s)

theorem familyKernel_fates (script : Nat → Wstatus) (regs : UserRegs) :
    (familyKernel script regs).Fates Family.fate where
  peektext _ _ _ := rfl
  poketext _ _ _ _ := rfl
  getregs _ _ := rfl
  setregs _ _ _ := rfl
  setregsByValue _ _ _ := rfl
  resume req hreq := by
    rcases hreq with rfl | rfl | rfl
    all_goals exact ⟨fun _ _ => rfl, fun _ _ h => of_decide_eq_true h⟩
  attach p s s' h := by
    simp only [familyKernel] at h
    split at h
    · rename_i hp
      cases h
      exact ⟨hp, rfl⟩
    · cases h
  forkFails s s' h := by
    simp only [familyKernel] at h
    split at h
    · cases h
    · cases h
      rfl
  fork s c s' h := by
    simp only [familyKernel] at h
    split at h
    · rename_i hlast
      cases h
      exact ⟨by omega, hlast.2, rfl⟩
    · cases h
  reports p s w s' h := by
    simp only [familyKernel] at h
    split at h
    · rename_i hp
      split at h
      · rename_i hlive
        obtain ⟨hw, hkind, hfate⟩ := Family.report_eq_some h
        cases hw
        exact ⟨hkind, _, fun hpos => absurd hp hpos.ne', hlive, hfate⟩
      · cases h
    · split at h
      · rename_i hlive
        obtain ⟨hw, hkind, hfate⟩ := Family.report_eq_some h
        cases hw
        exact ⟨hkind, p, fun _ => rfl, hlive, hfate⟩
      · cases h
  fails p s s' h := by
    simp only [familyKernel] at h
    split at h
    · split at h
      · cases (Family.report_eq_some h).1
      · cases h
    · rename_i hp
      split at h
      · cases (Family.report_eq_some h).1
      · rename_i hdead
        cases h
        exact ⟨rfl, hdead, fun h0 => absurd h0 hp⟩

/-- Nothing is loaded. -/
def nothingLoaded (σ : Type) : Loaded σ where
  lines := []
  dwarfFailed := true
  syms := none
  symsFailed := true
  prevMin _ := 0
  autoRet _ := 0

/-- The debugger when it is called with a program. -/
def Main.forProgram {σ : Type} (s : σ) : Main σ where
  debug := { Debug.init with pathname := some ["a.out"] }
  regs := {}
  kernel := s
  out := []

/-- The status of a death by the signal 9. -/
def sigkillStatus : Wstatus := 9

def stopsThenExits : Nat → Wstatus
  | 0 => stopStatus sigtrap
  | _ => exitStatus 0

/-- A process that is started, continued and exits. -/
theorem flag_after_exit :
    ∃ d₁ p d, Begun (familyKernel stopsThenExits {}) Family.fate (Main.forProgram Family.init) d₁ ∧
      debugFrom (familyKernel stopsThenExits {}) (nothingLoaded Family) 4 1 ["c".toList] 0 d₁ =
        .ok (.prompt p, d) ∧
      d.debug.isRunning = false ∧ Truthful Family.fate d := by
  have hobs : (((do
      let ret ← startProcess (familyKernel stopsThenExits {})
      let t ← debugFrom (familyKernel stopsThenExits {}) (nothingLoaded Family) 4 1 ["c".toList] ret
      return (ret, t) : DbgM Family (Int × Turn)) (Main.forProgram Family.init)).toOption.map
        fun r => (r.1.1, r.1.2.elim false (fun _ => true),
          r.2.debug.isRunning, r.2.kernel.fate r.2.debug.pid)) =
      some (0, true, false, .exited) := by decide +kernel
  obtain ⟨⟨ret, t⟩, d, hrun, hv⟩ := exists_ok_of_observed hobs
  simp only [Prod.mk.injEq] at hv
  obtain ⟨rfl, ht, hflag, hfate⟩ := hv
  obtain ⟨ret', d₁, hstart, hrest⟩ := run_bind_eq_ok.mp hrun
  obtain ⟨t', d', hdebug, hpure⟩ := run_bind_eq_ok.mp hrest
  cases hpure
  cases t with
  | returned code => cases ht
  | prompt p =>
    have hbegun : Begun (familyKernel stopsThenExits {}) Family.fate (Main.forProgram Family.init)
        d₁ := Begun.started rfl (fun _ h => by cases h) hstart
    refine ⟨d₁, p, d, hbegun, hdebug, hflag, ?_⟩
    refine (flag_truthful_iff (familyKernel_fates _ _) _ 4 1 ["c".toList] p _ d₁ d hbegun hdebug).mpr
      (Or.inl ⟨rfl, ?_⟩)
    rw [hfate]
    simp

def stopsThenKilled : Nat → Wstatus
  | 0 => stopStatus sigtrap
  | 1 => stopStatus sigtrap
  | _ => sigkillStatus

/-- A process that is killed in the single step of the restore of its breakpoint: the flag stays
set. -/
theorem flag_set_after_death :
    ∃ d₁ p d, Begun (familyKernel stopsThenKilled { rip := 0x1001 }) Family.fate
        (Main.forProgram Family.init) d₁ ∧
      debugFrom (familyKernel stopsThenKilled { rip := 0x1001 }) (nothingLoaded Family) 4 2
        ["b 1000".toList, "c".toList] 0 d₁ = .ok (.prompt p, d) ∧
      ¬ Truthful Family.fate d := by
  have hobs : (((do
      let ret ← startProcess (familyKernel stopsThenKilled { rip := 0x1001 })
      let t ← debugFrom (familyKernel stopsThenKilled { rip := 0x1001 }) (nothingLoaded Family) 4 2
        ["b 1000".toList, "c".toList] ret
      return (ret, t) : DbgM Family (Int × Turn)) (Main.forProgram Family.init)).toOption.map
        fun r => (r.1.1, r.1.2.elim false (fun _ => true),
          r.2.debug.isRunning, r.2.kernel.fate r.2.debug.pid)) =
      some (0, true, true, .killed) := by decide +kernel
  obtain ⟨⟨ret, t⟩, d, hrun, hv⟩ := exists_ok_of_observed hobs
  simp only [Prod.mk.injEq] at hv
  obtain ⟨rfl, ht, hflag, hfate⟩ := hv
  obtain ⟨ret', d₁, hstart, hrest⟩ := run_bind_eq_ok.mp hrun
  obtain ⟨t', d', hdebug, hpure⟩ := run_bind_eq_ok.mp hrest
  cases hpure
  cases t with
  | returned code => cases ht
  | prompt p =>
    refine ⟨d₁, p, d, Begun.started rfl (fun _ h => by cases h) hstart, hdebug, ?_⟩
    intro htrue
    have hlive := htrue.mp hflag
    rw [hfate] at hlive
    cases hlive

end Zkz.Debugger
