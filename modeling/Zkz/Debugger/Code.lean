import Zkz.Debugger.Cpu
import Zkz.Debugger.Turns

/-!
# The code of a process

What the kernel does to the bytes that the debuggee does not write: they are changed by pokes
only.

* `Kernel.Code`: the assumptions on the kernel.
* `Kernel.Code.keepsRequests`: what is kept while a trap stays is kept by messages, requests and
  waits.
* `cpuKernel_code`: the assumptions hold of a debuggee whose instructions leave the code.
-/

namespace Zkz.Debugger

open Zkz.Lib BreakpointList

variable {σ : Type}

/-! ## Assumptions -/

/-- A process that has a memory had it before, with the same code. -/
def CodeKept (mem : σ → Int → Option Mem) (code : Set Addr) (pid : Int) (s s' : σ) : Prop :=
  ∀ m', mem s' pid = some m' → ∃ m, mem s pid = some m ∧ ∀ x ∈ code, m' x = m x

/-- Peeks and pokes act on the memory of a process that has one, and where there is nothing to
read there is nothing to write. The process does not write its code when it runs. -/
structure Kernel.Code (K : Kernel σ) (mem : σ → Int → Option Mem) (code : Set Addr) : Prop where
  peektext : ∀ p a s, mem (K.peektext p a s).2 p = mem s p ∧
    ∀ w m, (K.peektext p a s).1 = some w → mem s p = some m → w = readWord m a
  unmapped : ∀ p a w s, (K.peektext p a s).1 = none →
    (K.poketext p a w (K.peektext p a s).2).1 = false
  poketext : ∀ p a w s, mem (K.poketext p a w s).2 p =
    if (K.poketext p a w s).1 = true then (mem s p).map (writeWord · a w) else mem s p
  getregs : ∀ p s, CodeKept mem code p s (K.getregs p s).2
  setregs : ∀ p r s, CodeKept mem code p s (K.setregs p r s).2
  setregsByValue : ∀ p r s, CodeKept mem code p s (K.setregsByValue p r s).2
  resume : ∀ req, Resumes K req → ∀ p s, CodeKept mem code p s (req p s).2
  waitpid : ∀ p s w s', K.waitpid p s = some (w, s') → CodeKept mem code p s s'

/-! ## Traps -/

/-- The trap byte is at `a` in the memory of the debuggee, if it has one. -/
def Trapped (mem : σ → Int → Option Mem) (a : Addr) (d : Main σ) : Prop :=
  ∀ m, mem d.kernel d.debug.pid = some m → m a = trapByte

/-- More may be said, and a trap at `a` stays. -/
structure Still (mem : σ → Int → Option Mem) (a : Addr) (d d' : Main σ) : Prop where
  out : d.out <+: d'.out
  trapped : Trapped mem a d → Trapped mem a d'

section Still

variable {K : Kernel σ} {mem : σ → Int → Option Mem} {code : Set Addr} {a : Addr} {d d' : Main σ}

theorem Still.trans {d₁ d₂ d₃ : Main σ} (h₁ : Still mem a d₁ d₂) (h₂ : Still mem a d₂ d₃) :
    Still mem a d₁ d₃ :=
  ⟨h₁.out.trans h₂.out, fun h => h₂.trapped (h₁.trapped h)⟩

theorem Spoke.still (hs : Spoke d d') : Still mem a d d' := by
  refine ⟨hs.out, ?_⟩
  unfold Trapped
  rw [hs.kernel, hs.debug]
  exact id

/-- The state after something that keeps the code. -/
theorem CodeKept.still (ha : a ∈ code) (hpid : d'.debug.pid = d.debug.pid)
    (hout : d.out <+: d'.out) (h : CodeKept mem code d.debug.pid d.kernel d'.kernel) :
    Still mem a d d' := by
  refine ⟨hout, ?_⟩
  intro htrap m' hm'
  rw [hpid] at hm'
  obtain ⟨m, hm, hsame⟩ := h m' hm'
  rw [hsame a ha]
  exact htrap m hm

/-- A poke that does not reach `a`. -/
theorem Kernel.Code.poke_still (hK : K.Code mem code) {x : Addr} (hx : ¬ InWord x a) (w : Word)
    (d : Main σ) : Still mem a d (d.requested fun pid => K.poketext pid x w) := by
  refine ⟨List.prefix_refl _, ?_⟩
  intro htrap m' hm'
  have hpoke := hK.poketext d.debug.pid x w d.kernel
  change mem (K.poketext d.debug.pid x w d.kernel).2 d.debug.pid = some m' at hm'
  rw [hm'] at hpoke
  split at hpoke
  · obtain ⟨m, hm, rfl⟩ := Option.map_eq_some_iff.mp hpoke.symm
    rw [writeWord_outside hx]
    exact htrap m hm
  · exact htrap m' hpoke.symm

theorem waitForProcess_still (hK : K.Code mem code) (ha : a ∈ code) (d : Main σ) :
    Post (waitForProcess K) d fun _ d' => Still mem a d d' := by
  have hwait : Post (waitpid K) d fun _ d' => Still mem a d d' := by
    intro w d' hrun
    unfold Debugger.waitpid at hrun
    split at hrun
    · cases hrun
    · rename_i hw
      cases hrun
      exact CodeKept.still ha rfl (List.prefix_refl _) (hK.waitpid _ _ _ _ hw)
  refine post_bind hwait ?_
  intro w d₁ h₁
  refine post_ite (fun _ => ?_) fun _ => post_ite (fun _ => post_pure h₁) fun _ => ?_
  · refine post_bind (log_spoke .info _ d₁) ?_
    intro _ d₂ hs
    exact post_bind_ok rfl (post_pure (h₁.trans (hs.still.trans ⟨List.prefix_refl _, id⟩)))
  · refine post_ite (fun _ => ?_) fun _ => post_pure h₁
    exact post_bind (log_spoke .info _ d₁) fun _ _ hs => post_pure (h₁.trans hs.still)

/-- What is kept while a trap at `a` stays is kept by messages, requests and waits. -/
theorem Kernel.Code.keepsRequests (hK : K.Code mem code) (ha : a ∈ code) {I : Main σ → Prop}
    (hI : ∀ d d', I d → Still mem a d d' → I d') : KeepsRequests K I I where
  spoke d d' h hs := hI d d' h hs.still
  spokeRunning d d' h hs := hI d d' h hs.still
  getregs d h := hI d _ h (CodeKept.still ha rfl (List.prefix_refl _) (hK.getregs _ _))
  resume req hreq d h := by
    have h' : I (d.requested req) :=
      hI d _ h (CodeKept.still ha rfl (List.prefix_refl _) (hK.resume req hreq _ _))
    exact ⟨fun _ => h', fun _ => h'⟩
  wait d h := post_mono (waitForProcess_still hK ha d) fun _ d' hs => hI d d' h hs

end Still

/-! ## A program that does not write its code -/

section Code

variable {ε : Type} {C : Cpu ε} {code : Set Addr}

/-- The code is the same after an outcome, unless the program has ended. -/
def Outcome.Keeps (m : Mem) (code : Set Addr) : Outcome ε → Prop
  | .next s => ∀ x ∈ code, s.mem x = m x
  | .trap s => ∀ x ∈ code, s.mem x = m x
  | .signal s _ => ∀ x ∈ code, s.mem x = m x
  | .gone _ _ => True

/-- No instruction and no system call writes the code. -/
structure Cpu.LeavesCode (C : Cpu ε) (code : Set Addr) : Prop where
  exec : ∀ s, (C.exec s).Keeps s.mem code
  enter : ∀ s s', C.enter s = some s' → ∀ x ∈ code, s'.mem x = s.mem x
  leave : ∀ s, (C.leave s).Keeps s.mem code

theorem Outcome.Keeps.trans {m m' : Mem} {o : Outcome ε} (h : o.Keeps m' code)
    (hm : ∀ x ∈ code, m' x = m x) : o.Keeps m code := by
  cases o with
  | next s => exact fun x hx => (h x hx).trans (hm x hx)
  | trap s => exact fun x hx => (h x hx).trans (hm x hx)
  | signal s sig => exact fun x hx => (h x hx).trans (hm x hx)
  | gone w hw => trivial

theorem Cpu.LeavesCode.step (h : C.LeavesCode code) (s : Machine ε) :
    (C.step s).Keeps s.mem code := by
  unfold Cpu.step
  split
  · exact fun _ _ => rfl
  · exact h.exec s

theorem Cpu.LeavesCode.run (h : C.LeavesCode code) {m : Mem} (fuel : Nat) {o o' : Outcome ε}
    (ho : o.Keeps m code) (hrun : C.run fuel o = some o') : o'.Keeps m code := by
  induction fuel generalizing o with
  | zero =>
    cases o with
    | next s => cases hrun
    | trap s => cases hrun; exact ho
    | signal s sig => cases hrun; exact ho
    | gone w hw => cases hrun; trivial
  | succ fuel ih =>
    cases o with
    | next s => exact ih ((h.step s).trans ho) hrun
    | trap s => cases hrun; exact ho
    | signal s sig => cases hrun; exact ho
    | gone w hw => cases hrun; trivial

theorem Cpu.LeavesCode.trace (h : C.LeavesCode code) {m : Mem} (fuel : Nat) {s : Machine ε}
    {o : Outcome ε × Bool} (hs : ∀ x ∈ code, s.mem x = m x) (ho : C.trace fuel s = some o) :
    o.1.Keeps m code := by
  induction fuel generalizing s with
  | zero => cases ho
  | succ fuel ih =>
    have hstep := (h.step s).trans hs
    unfold Cpu.trace at ho
    split at ho
    · cases ho
      exact hstep
    · split at ho
      · rename_i s' henter
        cases ho
        exact fun x hx => (h.enter s s' henter x hx).trans (hs x hx)
      · split at ho
        · rename_i s' hnext
          rw [hnext] at hstep
          exact ih hstep ho
        · cases ho
          exact hstep

theorem Cpu.LeavesCode.nextStop (h : C.LeavesCode code) (fuel : Nat) {phase : Phase}
    {s : Proc ε} {o : Outcome ε × Bool} (ho : C.nextStop fuel phase s = some o) :
    o.1.Keeps s.machine.mem code := by
  have hresume : (C.resume s).Keeps s.machine.mem code := by
    unfold Cpu.resume
    split
    · exact h.leave _
    · exact h.step _
  cases phase with
  | stepping =>
    cases ho
    exact hresume
  | continuing =>
    obtain ⟨o', hrun, rfl⟩ := Option.map_eq_some_iff.mp ho
    exact h.run fuel hresume hrun
  | tracing =>
    change (if s.inCall then some (C.leave s.machine, false) else _) = some o at ho
    split at ho
    · cases ho
      exact h.leave _
    · exact h.trace fuel (fun _ _ => rfl) ho
  | stopped => cases ho
  | reaped => cases ho

/-- The memory of a traced process. -/
def Proc.mem? (s : Proc ε) : Option Mem := if s.phase = .reaped then none else some s.machine.mem

theorem codeKept_of_eq {s s' : Proc ε} (pid : Int) (h : s'.mem? = s.mem?) :
    CodeKept (fun s _ => Proc.mem? s) code pid s s' :=
  fun m' hm' => ⟨m', h.symm.trans hm', fun _ _ => rfl⟩

theorem mem?_start (s : Proc ε) {phase : Phase} (hphase : phase ≠ .reaped) :
    (s.start phase).2.mem? = s.mem? := by
  unfold Proc.start
  split
  · rename_i hstop
    simp [Proc.mem?, Proc.inPhase, hstop, hphase]
  · rfl

theorem codeKept_report {s : Proc ε} {o : Outcome ε} (hlive : s.phase ≠ .reaped)
    (ho : o.Keeps s.machine.mem code) (inCall : Bool) (pid : Int) :
    CodeKept (fun s _ => Proc.mem? s) code pid s { s.report o with inCall := inCall } := by
  intro m' hm'
  refine ⟨s.machine.mem, if_neg hlive, ?_⟩
  cases o with
  | next q => cases hm'; exact ho
  | trap q => cases hm'; exact ho
  | signal q sig => cases hm'; exact ho
  | gone w hw => cases hm'

theorem cpuKernel_code (h : C.LeavesCode code) (fuel : Nat) :
    (cpuKernel C fuel).Code (fun s _ => Proc.mem? s) code where
  peektext p a s := by
    refine ⟨rfl, ?_⟩
    intro w m hw hm
    simp only [cpuKernel] at hw
    split at hw
    · rename_i hstop
      cases hw
      simp only [Proc.mem?, hstop] at hm
      cases hm
      rfl
    · cases hw
  unmapped p a w s hnone := by
    simp only [cpuKernel] at hnone ⊢
    split at hnone
    · cases hnone
    · rename_i hstop
      rw [if_neg hstop]
  poketext p a w s := by
    simp only [cpuKernel]
    split
    · rename_i hstop
      simp [Proc.mem?, Proc.setMem, hstop]
    · rfl
  getregs p s := codeKept_of_eq p rfl
  setregs p r s := by
    refine codeKept_of_eq p ?_
    simp only [cpuKernel]
    split <;> rfl
  setregsByValue p r s := codeKept_of_eq p rfl
  resume req hreq p s := by
    refine codeKept_of_eq p ?_
    rcases hreq with rfl | rfl | rfl
    · exact mem?_start s (by decide)
    · exact mem?_start s (by decide)
    · exact mem?_start s (by decide)
  waitpid p s w s' hw := by
    simp only [cpuKernel] at hw
    split at hw
    · cases hw
    · cases hw
      exact codeKept_of_eq p rfl
    · rename_i hreaped
      obtain ⟨o, ho, heq⟩ := Option.map_eq_some_iff.mp hw
      cases heq
      exact codeKept_report (fun hphase => hreaped hphase) (h.nextStop fuel ho) o.2 p

end Code

end Zkz.Debugger
