import Zkz.Debugger.Processes

/-!
# Starting the program again

`StartProcess` waits on the pid that is recorded, which is that of the process before. When there
was none, the wait is on any child; when there was one, it has ended and been waited for, and the
wait fails, which is taken for an exit of the new child.

* `restart_iff`: a start succeeds exactly when it is the first one, or the child has the pid of the
  process before.
-/

namespace Zkz.Debugger

open Zkz.Lib

variable {σ : Type} {K : Kernel σ} {fate : σ → Int → Fate} {d : Main σ}

/-- A state before the first start of a program, or at a prompt after it. -/
inductive Reached (K : Kernel σ) (fate : σ → Int → Fate) (d : Main σ) : Prop where
  | first (hpath : d.debug.pathname.isSome = true) (hpid : d.debug.pid = 0)
    (hnone : ∀ p, fate d.kernel p ≠ .live)
  | prompt (env : Loaded σ) (n m : Nat) (input : List Line) (p : Prompt) (d₀ d₁ : Main σ)
    (hpath : d₀.debug.pathname.isSome = true) (hnone : ∀ p, fate d₀.kernel p ≠ .live)
    (hstart : startProcess K d₀ = .ok (0, d₁))
    (hrun : debugFrom K env n m input 0 d₁ = .ok (.prompt p, d))

/-- At a prompt with the flag unset the recorded process has exited. -/
theorem Reached.exited (hK : K.Fates fate) (h : Reached K fate d)
    (hflag : d.debug.isRunning = false) :
    d.debug.pid = 0 ∨ fate d.kernel d.debug.pid = .exited := by
  cases h with
  | first hpath hpid hnone => exact Or.inl hpid
  | prompt env n m input p d₀ d₁ hpath hnone hstart hrun =>
    have hkept : FlagKept fate d₀.debug.pathname d :=
      session_flag hK env n m input (Begun.started hpath hnone hstart) _ _ hrun
    exact Or.inr (hkept.exited hflag (by rw [hkept.pathname]; exact hpath))

/-- The child is started and recorded. -/
def Restarts (K : Kernel σ) (d : Main σ) (c : Int) : Prop :=
  ∃ d', startProcess K d = .ok (0, d') ∧ d'.debug.isRunning = true ∧ d'.debug.pid = c

/-- A start whose wait reports the child's stop succeeds. -/
theorem restarts_of_stop {c : Int} {s₁ s₂ : σ} {sig : BitVec 8}
    (hpath : d.debug.pathname.isSome = true) (hfork : K.fork d.kernel = (some c, s₁))
    (hwait : K.waitpid d.debug.pid s₁ = some (some (stopStatus sig), s₂)) : Restarts K d c := by
  obtain ⟨out, -, hstop⟩ := startProcess_run hpath hfork hwait
  exact ⟨_, hstop (wifexited_stopStatus sig) (Or.inr (wifstopped_stopStatus sig)), rfl, rfl⟩

/-- A start that waits on a process that has ended does not succeed. -/
theorem not_restarts_of_exited (hK : K.Fates fate) {c : Int} {s₁ : σ}
    (hpath : d.debug.pathname.isSome = true) (hfork : K.fork d.kernel = (some c, s₁))
    (hpid : 0 < d.debug.pid) (hne : d.debug.pid ≠ c)
    (hexited : fate d.kernel d.debug.pid = .exited) : ¬ Restarts K d c := by
  rintro ⟨d', hstart, -, -⟩
  obtain ⟨-, -, hforked⟩ := hK.fork _ _ _ hfork
  have hdead : fate s₁ d.debug.pid = .exited := by
    rw [hforked, Function.update_of_ne hne, hexited]
  cases hwait : K.waitpid d.debug.pid s₁ with
  | none =>
    rw [startProcess_never hpath hfork hwait] at hstart
    cases hstart
  | some ws =>
    obtain ⟨w, s₂⟩ := ws
    cases w with
    | none =>
      obtain ⟨out, hexit, -⟩ := startProcess_run hpath hfork hwait
      rw [hexit wifexited_zero] at hstart
      cases hstart
    | some w =>
      obtain ⟨-, q, hq, hlive, -⟩ := hK.reports _ _ _ _ hwait
      rw [hq hpid, hdead] at hlive
      cases hlive

/-- When the flag is unset and the program is started again, with a child that stops, the start
succeeds exactly when no process is recorded or the child has the pid of the recorded one. -/
theorem restart_iff (hK : K.Fates fate) (h : Reached K fate d)
    (hpath : d.debug.pathname.isSome = true) (hflag : d.debug.isRunning = false) {c : Int} {s₁ : σ}
    (hfork : K.fork d.kernel = (some c, s₁))
    (hstops : ∀ p, p = 0 ∨ p = c → ∃ sig s₂,
      K.waitpid p s₁ = some (some (stopStatus sig), s₂)) :
    Restarts K d c ↔ d.debug.pid = 0 ∨ d.debug.pid = c := by
  constructor
  · intro hrestarts
    by_contra hne
    rw [not_or] at hne
    obtain ⟨hzero, hchild⟩ := hne
    rcases h.exited hK hflag with hpid | hexited
    · exact hzero hpid
    · refine not_restarts_of_exited hK hpath hfork ?_ hchild hexited hrestarts
      cases h with
      | first hpath hpid hnone => exact absurd hpid hzero
      | prompt env n m input p d₀ d₁ hpath hnone hstart hrun =>
        exact (session_flag hK env n m input (Begun.started hpath hnone hstart) _ _ hrun).pid
  · intro hpid
    obtain ⟨sig, s₂, hwait⟩ := hstops d.debug.pid hpid
    exact restarts_of_stop hpath hfork hwait

/-- The first start. -/
theorem first_start :
    Restarts (familyKernel stopsThenExits {}) (Main.forProgram Family.init) 1 := by
  have hfork : (familyKernel stopsThenExits {}).fork (Main.forProgram Family.init).kernel =
      (some 1, ⟨Function.update (fun _ => .unknown) 1 .live, 1, 0⟩) := rfl
  refine (restart_iff (familyKernel_fates stopsThenExits {})
    (Reached.first rfl rfl fun _ h => by cases h) rfl rfl hfork ?_).mpr (Or.inl rfl)
  intro p hp
  refine ⟨sigtrap, ⟨Function.update (Function.update (fun _ => .unknown) 1 .live) 1 .live, 1, 1⟩, ?_⟩
  rcases hp with rfl | rfl
  · rfl
  · rfl

def exitsOnce : Nat → Wstatus
  | 1 => exitStatus 0
  | _ => stopStatus sigtrap

/-- A program that is started, exits and is started again: its second child stops, but the start
fails. -/
theorem second_start_fails :
    ∃ d s₁, Reached (familyKernel exitsOnce {}) Family.fate d ∧ d.debug.pathname.isSome = true ∧
      d.debug.isRunning = false ∧ (familyKernel exitsOnce {}).fork d.kernel = (some 2, s₁) ∧
      (∀ p, p = 0 ∨ p = 2 → ∃ sig s₂,
        (familyKernel exitsOnce {}).waitpid p s₁ = some (some (stopStatus sig), s₂)) ∧
      ¬ Restarts (familyKernel exitsOnce {}) d 2 := by
  have hobs : (((do
      let ret ← startProcess (familyKernel exitsOnce {})
      let t ← debugFrom (familyKernel exitsOnce {}) (nothingLoaded Family) 4 1 ["c".toList] ret
      let d ← get
      let again ← startProcess (familyKernel exitsOnce {})
      return (ret, t, d, again) : DbgM Family (Int × Turn × Main Family × Int))
        (Main.forProgram Family.init)).toOption.map
        fun r => (r.1.1, r.1.2.1.elim false (fun _ => true),
          decide (r.1.2.2.1.debug.pathname.isSome = true ∧ r.1.2.2.1.debug.isRunning = false ∧
            r.1.2.2.1.kernel.last = 1 ∧ r.1.2.2.1.kernel.waits = 2 ∧
            r.1.2.2.1.kernel.fate 2 = .unknown), r.1.2.2.2)) =
      some (0, true, true, 1) := by decide +kernel
  obtain ⟨⟨ret, t, d, again⟩, d', hrun, hv⟩ := exists_ok_of_observed hobs
  simp only [Prod.mk.injEq, decide_eq_true_eq] at hv
  obtain ⟨rfl, ht, ⟨hpath, hflag, hlast, hwaits, hfate⟩, rfl⟩ := hv
  obtain ⟨ret', d₁, hstart, hrest⟩ := run_bind_eq_ok.mp hrun
  obtain ⟨t', d₂, hdebug, hrest⟩ := run_bind_eq_ok.mp hrest
  rw [run_bind_ok (run_get d₂)] at hrest
  obtain ⟨again', d₃, hagain, hpure⟩ := run_bind_eq_ok.mp hrest
  cases hpure
  cases t with
  | returned code => cases ht
  | prompt p =>
    have hfork : (familyKernel exitsOnce {}).fork d.kernel =
        (some 2, ⟨Function.update d.kernel.fate 2 .live, 2, 2⟩) := by
      simp only [familyKernel, hlast, hwaits]
      exact if_pos ⟨by decide, by rw [show (1 : Int) + 1 = 2 from rfl, hfate]; simp⟩
    refine ⟨d, _, Reached.prompt _ 4 1 ["c".toList] p _ d₁ rfl (fun _ h => by cases h) hstart hdebug,
      hpath, hflag, hfork, ?_, ?_⟩
    · intro p hp
      refine ⟨sigtrap, ⟨Function.update (Function.update d.kernel.fate 2 .live) 2 .live, 2, 3⟩, ?_⟩
      rcases hp with rfl | rfl
      · simp only [familyKernel, if_true, Function.update_self]
        rfl
      · simp only [familyKernel, if_true, Function.update_self]
        rfl
    · rintro ⟨d₄, hok, -, -⟩
      rw [hagain] at hok
      cases hok

end Zkz.Debugger
