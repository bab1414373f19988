import Zkz.Debugger.Cpu

/-!
# Patched and native machines

A machine whose memory holds traps against the same machine without them. `Patched A p q`
says that `p` is `q` with traps at some of the addresses `A`.

* `step_patched`: a step of `p` traps at an address of `A`, or is the step of `q`, if the
  instruction of `q` is not affected by the traps.
* `restoring_step`: the single step inside a restore is the native instruction, if the saved
  word is the native one up to traps.
-/

namespace Zkz.Debugger

open Zkz.Lib BreakpointList

variable {ε : Type} {C : Cpu ε} {A B : List Addr} {p q : Machine ε}

/-- `p` is `q` with traps at some of the addresses `A`. -/
structure Patched (A : List Addr) (p q : Machine ε) : Prop where
  regs : p.regs = q.regs
  env : p.env = q.env
  mem : Overlaid trapByte A p.mem q.mem

/-- The same outcome, with machines that are related. -/
def Outcome.Rel (R : Machine ε → Machine ε → Prop) : Outcome ε → Outcome ε → Prop
  | .next p, .next q => R p q
  | .trap p, .trap q => R p q
  | .signal p sig, .signal q sig' => R p q ∧ sig = sig'
  | .gone w _, .gone w' _ => w = w'
  | _, _ => False

/-- Traps at the addresses `A` do not affect the instruction of `q`, unless it begins with
one. -/
def Cpu.Unaffected (C : Cpu ε) (A : List Addr) (q : Machine ε) : Prop :=
  ∀ p, Patched A p q → p.mem p.rip = q.mem q.rip → (C.exec p).Rel (Patched A) (C.exec q)

theorem Patched.refl (A : List Addr) (q : Machine ε) : Patched A q q :=
  ⟨rfl, rfl, Overlaid.refl⟩

theorem Patched.rip (h : Patched A p q) : p.rip = q.rip := by
  unfold Machine.rip
  rw [h.regs]

theorem Outcome.Rel.mono {R R' : Machine ε → Machine ε → Prop} {o o' : Outcome ε}
    (h : o.Rel R o') (hR : ∀ p q, R p q → R' p q) : o.Rel R' o' := by
  cases o <;> cases o' <;> first | exact hR _ _ h | exact ⟨hR _ _ h.1, h.2⟩ | exact h

theorem Outcome.Rel.next_right {R : Machine ε → Machine ε → Prop} {o : Outcome ε}
    (h : o.Rel R (.next q)) : ∃ p, o = .next p ∧ R p q := by
  cases o with
  | next p => exact ⟨p, rfl, h⟩
  | trap p => exact absurd h id
  | signal p sig => exact absurd h id
  | gone w hw => exact absurd h id

theorem Outcome.Rel.gone_right {R : Machine ε → Machine ε → Prop} {o : Outcome ε} {w : Wstatus}
    {hw : wifexited w = true ∨ wifsignaled w = true} (h : o.Rel R (.gone w hw)) :
    o = .gone w hw := by
  cases o with
  | next p => exact absurd h id
  | trap p => exact absurd h id
  | signal p sig => exact absurd h id
  | gone w' hw' =>
    cases (h : w' = w)
    rfl

/-- A patched machine traps at an address of `A` or steps as the native one does. -/
theorem step_patched (h : Patched A p q) (hun : C.Unaffected A q)
    (hq : q.mem q.rip ≠ trapByte) :
    (p.mem p.rip = trapByte ∧ p.rip ∈ A) ∨
      (p.mem p.rip = q.mem q.rip ∧ (C.step p).Rel (Patched A) (C.step q)) := by
  rcases h.mem p.rip with heq | htrap
  · rw [h.rip] at heq
    have hp : p.mem p.rip ≠ trapByte := by
      rw [h.rip, heq]
      exact hq
    refine Or.inr ⟨by rw [h.rip, heq], ?_⟩
    rw [C.step_of_ne hp, C.step_of_ne hq]
    exact hun p h (by rw [h.rip, heq])
  · exact Or.inl htrap

/-! ## Restores -/

theorem resume_restoring {s : Proc ε} {b : Breakpoint} {a : Addr} (h : s.inCall = false) :
    C.resume (s.restoring b a) = C.step (s.restoring b a).machine := by
  unfold Cpu.resume
  rw [if_neg]
  simp [Proc.restoring, Proc.setMem, Proc.setRegs, Proc.inPhase, h]

/-- The machine with the saved word of `b` written back in front of it. -/
def Machine.restored (p : Machine ε) (b : Breakpoint) : Machine ε :=
  { p with mem := writeWord p.mem p.rip b.origdata }

theorem restored_byte (p : Machine ε) (b : Breakpoint) :
    (p.restored b).mem (p.restored b).rip = byteAt b.origdata 0 := writeWord_self _ _ _

/-- A process that trapped, once its breakpoint is restored. -/
theorem restoring_machine {s : Proc ε} (b : Breakpoint) (hs : s.machine = p.setRip (p.rip + 1)) :
    (s.restoring b p.rip).machine = p.restored b := by
  simp only [Proc.restoring, Proc.setMem, Proc.setRegs, Proc.inPhase, Machine.restored, hs]
  rfl

/-- A restored machine is the native one again, with traps at other addresses. -/
theorem restored_patched {b : Breakpoint} (h : Patched A p q)
    (hb : OverlaidWord trapByte A q.mem p.rip b.origdata) : Patched A (p.restored b) q :=
  ⟨h.regs, h.env, h.mem.writeWord hb⟩

/-- The single step inside a restore is the native instruction. -/
theorem restoring_step {s : Proc ε} {b : Breakpoint} (h : Patched A p q)
    (hs : s.machine = p.setRip (p.rip + 1)) (hcall : s.inCall = false)
    (hb : OverlaidWord trapByte A q.mem p.rip b.origdata)
    (hb0 : byteAt b.origdata 0 = q.mem p.rip) (hun : C.Unaffected A q)
    (hq : q.mem q.rip ≠ trapByte) :
    (C.resume (s.restoring b p.rip)).Rel (Patched A) (C.step q) := by
  rw [resume_restoring hcall, restoring_machine b hs]
  rcases step_patched (restored_patched h hb) hun hq with htrap | hstep
  · have hbyte := htrap.1
    rw [restored_byte, hb0, h.rip] at hbyte
    exact absurd hbyte hq
  · exact hstep.2

end Zkz.Debugger
