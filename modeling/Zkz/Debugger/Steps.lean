import Zkz.Lib.Runs
import Zkz.Debugger.Simulation
import Zkz.Debugger.Transparency

/-!
# Steps against native instructions

`StepX(li, n)` against the instructions of the native program. A round is one native
instruction if it is `StepClean`: the traps do not change what the instruction does, a trap in
front of it is that of a breakpoint whose restore brings the instruction back, and no
instruction that is not a trap ends right behind a listed address.

* `stepXRound_native`: a clean round is one native instruction.
* `stepX_native`: if every round is clean, a result 0 means as many native instructions as
  were asked for, or as many as lead over the first enabled breakpoint.
-/

namespace Zkz.Debugger

open Zkz.Lib BreakpointList

variable {ε : Type} {C : Cpu ε} {li : BreakpointList} {q₀ p q : Machine ε} {i N : Nat}

/-- What the native program has done after a number of instructions. -/
def Cpu.native (C : Cpu ε) (q₀ : Machine ε) : Nat → Outcome ε
  | 0 => .next q₀
  | k + 1 => match C.native q₀ k with
    | .next q => C.step q
    | o => o

theorem native_succ {k : Nat} (h : C.native q₀ k = .next q) : C.native q₀ (k + 1) = C.step q := by
  rw [Cpu.native, h]

/-- The native program receives no signals, a trap of its own being one. -/
def Cpu.NoSignals (C : Cpu ε) (q₀ : Machine ε) : Prop :=
  ∀ k q, C.native q₀ k = .next q → q.mem q.rip ≠ trapByte ∧
    ((∃ s, C.exec q = .next s) ∨ ∃ w hw, C.exec q = .gone w hw)

/-- `k` is `N` if no enabled breakpoint is in front of the first `N` native instructions, and
otherwise the number of instructions up to and including the first one that has one. -/
def StepCount (C : Cpu ε) (li : BreakpointList) (q₀ : Machine ε) (N k : Nat) : Prop :=
  (k = N ∧ ∀ j, j < N → ∀ q, C.native q₀ j = .next q → ¬ EnabledAt li q.rip) ∨
    ∃ j, j < N ∧ k = j + 1 ∧ (∃ q, C.native q₀ j = .next q ∧ EnabledAt li q.rip) ∧
      ∀ m, m < j → ∀ q, C.native q₀ m = .next q → ¬ EnabledAt li q.rip

/-- A process in the native state after `k` instructions with traps at listed addresses, or
one that has ended as the native program has. -/
def AtNative (C : Cpu ε) (li : BreakpointList) (q₀ : Machine ε) (k : Nat) (s : Proc ε) : Prop :=
  (s.phase = .stopped ∧ s.inCall = false ∧
      ∃ q, C.native q₀ k = .next q ∧ Patched (addresses li) s.machine q) ∨
    s.phase = .reaped ∧ ∃ w hw, C.native q₀ k = .gone w hw

/-! ## Clean rounds -/

/-- No trap is in front of `p`, the traps elsewhere do not change what the instruction does,
and it does not end right behind a listed address. -/
structure PlainStep (C : Cpu ε) (li : BreakpointList) (p q : Machine ε) : Prop where
  noTrap : p.mem p.rip ≠ trapByte
  same : (C.exec p).Rel (Patched (addresses li)) (C.exec q)
  behind : ∀ p', C.exec p = .next p' → p'.rip - 1 ∉ addresses li

/-- A trap is in front of `p`, and the saved word of `b`, the first breakpoint listed there,
brings the native instruction back. -/
structure TrapStep (C : Cpu ε) (li : BreakpointList) (p q : Machine ε) (b : Breakpoint) :
    Prop where
  trap : p.mem p.rip = trapByte
  first : getElementByAddress li p.rip = some b
  byte : byteAt b.origdata 0 ≠ trapByte
  same : (C.exec (p.restored b)).Rel (Patched (addresses li)) (C.exec q)

/-- Round `i` of `N` steps the patched machine `p` over the instruction in front of `q`. A
disabled breakpoint in front of it is restored at the right address only if `i` is 1. -/
def StepClean (C : Cpu ε) (li : BreakpointList) (N i : Nat) (p q : Machine ε) : Prop :=
  (EnabledAt li p.rip → i + 1 = N ∨ p.mem p.rip = trapByte ∧ FirstEntryEnabled li p.rip) ∧
    (PlainStep C li p q ∨ ∃ b, TrapStep C li p q b ∧ (b.isEnabled = false → i = 1))

theorem restoring_trapStep {s : Proc ε} {b : Breakpoint} (h : TrapStep C li p q b)
    (hs : s.machine = p.setRip (p.rip + 1)) (hcall : s.inCall = false) :
    (C.resume (s.restoring b p.rip)).Rel (Patched (addresses li)) (C.exec q) := by
  rw [resume_restoring hcall, restoring_machine b hs, C.step_of_ne]
  · exact h.same
  · rw [restored_byte]
    exact h.byte

/-- A restore that steps the native instruction leaves the process where the native program
is. -/
theorem atNative_report {s : Proc ε} {o : Outcome ε} {k : Nat} (hq : C.native q₀ k = .next q)
    (hnat : q.mem q.rip ≠ trapByte)
    (hout : (∃ s, C.exec q = .next s) ∨ ∃ w hw, C.exec q = .gone w hw)
    (hrel : o.Rel (Patched (addresses li)) (C.exec q)) :
    AtNative C li q₀ (k + 1) (s.report o) := by
  have hsucc := native_succ hq
  rw [C.step_of_ne hnat] at hsucc
  rcases hout with ⟨q', hq'⟩ | ⟨w, hw, hq'⟩
  · rw [hq'] at hrel hsucc
    obtain ⟨p', rfl, hpatched⟩ := hrel.next_right
    exact Or.inl ⟨rfl, rfl, q', hsucc, hpatched⟩
  · rw [hq'] at hrel hsucc
    rw [hrel.gone_right]
    exact Or.inr ⟨rfl, w, hw, hsucc⟩

variable (fuel : Nat) {d : Main (Proc ε)}

theorem singlestep_wait (hstop : d.kernel.phase = .stopped) (hcall : d.kernel.inCall = false) :
    (cpuKernel C fuel).singlestep d.debug.pid d.kernel =
        (true, d.kernel.inPhase .stepping) ∧
      (cpuKernel C fuel).waitpid d.debug.pid (d.kernel.inPhase .stepping) =
        some (some (C.step d.kernel.machine).status,
          (d.kernel.inPhase .stepping).report (C.step d.kernel.machine)) := by
  refine ⟨start_stopped hstop .stepping, ?_⟩
  rw [← resume_inPhase hcall .stepping]
  exact waitpid_stepping fuel rfl _

/-- A clean round without a trap. -/
theorem stepXRound_plain (hno : C.NoSignals q₀) (hstop : d.kernel.phase = .stopped)
    (hcall : d.kernel.inCall = false) (hq : C.native q₀ i = .next q)
    (h : PlainStep C li d.kernel.machine q) :
    Post (stepXRound (cpuKernel C fuel) li i) d fun o d' =>
      o ≠ some 0 ∧ (o = none → AtNative C li q₀ (i + 1) d'.kernel) := by
  obtain ⟨hnat, hout⟩ := hno i q hq
  obtain ⟨hstep, hwait⟩ := singlestep_wait (C := C) fuel hstop hcall
  have hreport := atNative_report (s := d.kernel.inPhase .stepping) hq hnat hout h.same
  rw [C.step_of_ne h.noTrap] at hwait
  have hrel := h.same
  rcases hout with ⟨q', hq'⟩ | ⟨w, hw, hq'⟩
  · rw [hq'] at hrel
    obtain ⟨p', hp', -⟩ := hrel.next_right
    rw [hp'] at hwait hreport
    obtain ⟨regs, out, hround⟩ := stepXRound_stop (i := i) li hstep hwait
      (wifstopped_stopStatus _) (getregs_stopped fuel rfl _)
    have hb : getElementByAddress li (p'.regs.rip - 1) = none :=
      getElementByAddress_eq_none.mpr (h.behind p' hp')
    exact post_ok (hround.trans (stepXAtStop_unlisted hb)) ⟨by simp, fun _ => hreport⟩
  · rw [hq'] at hrel
    rw [hrel.gone_right] at hwait
    obtain ⟨ret, d', hret, -, hround⟩ := stepXRound_gone (i := i) li
      (w := some w) hstep hwait hw rfl
    refine post_ok hround ⟨?_, by simp⟩
    rcases hret with rfl | rfl <;> simp

/-- A clean round at a trap. -/
theorem stepXRound_trap (hno : C.NoSignals q₀) (hstop : d.kernel.phase = .stopped)
    (hcall : d.kernel.inCall = false) (hq : C.native q₀ i = .next q) {b : Breakpoint}
    (h : TrapStep C li d.kernel.machine q b) (hdis : b.isEnabled = false → i = 1) :
    Post (stepXRound (cpuKernel C fuel) li i) d fun o d' =>
      o = (if b.isEnabled then some 0 else none) ∧ AtNative C li q₀ (i + 1) d'.kernel := by
  obtain ⟨hnat, hout⟩ := hno i q hq
  obtain ⟨hstep, hwait⟩ := singlestep_wait (C := C) fuel hstop hcall
  rw [C.step_of_trap h.trap] at hwait
  obtain ⟨regs, out, hround⟩ := stepXRound_stop (i := i) li hstep hwait
    (wifstopped_stopStatus _) (getregs_stopped fuel rfl _)
  have hback : (d.kernel.machine.setRip (d.kernel.machine.rip + 1)).regs.rip - 1 =
      d.kernel.machine.rip := BitVec.add_sub_cancel _ _
  have hb := h.first
  rw [← hback] at hb
  by_cases he : b.isEnabled = true
  · obtain ⟨out', hat⟩ := stepXAtStop_enabled (K := cpuKernel C fuel) (i := i)
      (d := ⟨d.debug, regs, (d.kernel.inPhase .stepping).report
        (.trap (d.kernel.machine.setRip (d.kernel.machine.rip + 1))), out⟩) hb he
    rw [hback] at hat
    obtain ⟨out'', hrest⟩ := restoreBreakpoint_cpu C fuel b d.kernel.machine.rip
      (d := ⟨d.debug, (d.kernel.machine.setRip (d.kernel.machine.rip + 1)).regs,
        (d.kernel.inPhase .stepping).report
          (.trap (d.kernel.machine.setRip (d.kernel.machine.rip + 1))), out'⟩) rfl
    rw [run_bind_ok hrest, if_neg (restoreResult_nonneg _)] at hat
    refine post_ok (hround.trans hat) ⟨by rw [if_pos he], ?_⟩
    exact atNative_report hq hnat hout (restoring_trapStep h rfl rfl)
  · have hi := hdis (by simpa using he)
    have hat := stepXAtStop_disabled (K := cpuKernel C fuel) (i := i)
      (d := ⟨d.debug, regs, (d.kernel.inPhase .stepping).report
        (.trap (d.kernel.machine.setRip (d.kernel.machine.rip + 1))), out⟩) hb (by simpa using he)
    have hback' : (d.kernel.machine.setRip (d.kernel.machine.rip + 1)).regs.rip -
        BitVec.ofNat 64 i = d.kernel.machine.rip := by
      rw [hi]
      exact hback
    rw [hback'] at hat
    obtain ⟨out'', hrest⟩ := restoreBreakpoint_cpu C fuel b d.kernel.machine.rip
      (d := ⟨d.debug, (d.kernel.machine.setRip (d.kernel.machine.rip + 1)).regs,
        (d.kernel.inPhase .stepping).report
          (.trap (d.kernel.machine.setRip (d.kernel.machine.rip + 1))), out⟩) rfl
    rw [run_bind_ok hrest, if_neg (restoreResult_nonneg _)] at hat
    refine post_ok (hround.trans hat) ⟨by rw [if_neg he], ?_⟩
    exact atNative_report hq hnat hout (restoring_trapStep h rfl rfl)

/-- A clean round is one native instruction. -/
theorem stepXRound_native (hno : C.NoSignals q₀) (hstop : d.kernel.phase = .stopped)
    (hcall : d.kernel.inCall = false) (hq : C.native q₀ i = .next q)
    (hclean : StepClean C li N i d.kernel.machine q) :
    Post (stepXRound (cpuKernel C fuel) li i) d fun o d' =>
      (o = some 0 → FirstEntryEnabled li d.kernel.machine.rip ∧
        AtNative C li q₀ (i + 1) d'.kernel) ∧
      (o = none → (EnabledAt li d.kernel.machine.rip → i + 1 = N) ∧
        AtNative C li q₀ (i + 1) d'.kernel) := by
  obtain ⟨hen, hplain | ⟨b, htrap, hdis⟩⟩ := hclean
  · refine post_mono (stepXRound_plain fuel hno hstop hcall hq hplain) ?_
    intro o d' ho
    refine ⟨fun h0 => absurd h0 ho.1, fun hnone => ⟨?_, ho.2 hnone⟩⟩
    intro he
    rcases hen he with hN | htrap
    · exact hN
    · exact absurd htrap.1 hplain.noTrap
  · refine post_mono (stepXRound_trap fuel hno hstop hcall hq htrap hdis) ?_
    intro o d' ho
    obtain ⟨rfl, hnat⟩ := ho
    by_cases he : b.isEnabled = true
    · rw [if_pos he]
      exact ⟨fun _ => ⟨⟨b, htrap.first, he⟩, hnat⟩, fun hnone => by cases hnone⟩
    · rw [if_neg he]
      refine ⟨fun h0 => by (cases h0), fun _ => ⟨?_, hnat⟩⟩
      intro hat
      rcases hen hat with hN | ⟨-, c, hc, hce⟩
      · exact hN
      · rw [htrap.first] at hc
        cases hc
        exact absurd hce he

/-! ## Whole loops -/

/-- Before round `i` of `N`: the process is where the native program is after `i`
instructions, and it has gone over no enabled breakpoint but with the last of the `N`. -/
def BeforeRound (C : Cpu ε) (li : BreakpointList) (q₀ : Machine ε) (N i n : Nat)
    (d : Main (Proc ε)) : Prop :=
  i + n = N ∧ AtNative C li q₀ i d.kernel ∧
    ∀ j, j < i → ∀ q, C.native q₀ j = .next q → EnabledAt li q.rip → j + 1 = N

/-- The result 0 stands for the number of instructions that the steps were to execute. -/
def SteppedNative (C : Cpu ε) (li : BreakpointList) (q₀ : Machine ε) (N : Nat) (ret : Int)
    (d : Main (Proc ε)) : Prop :=
  ret = 0 → ∃ k, StepCount C li q₀ N k ∧ AtNative C li q₀ k d.kernel

theorem stepCount_all (h : ∀ j, j < N → ∀ q, C.native q₀ j = .next q → EnabledAt li q.rip →
    j + 1 = N) : StepCount C li q₀ N N := by
  by_cases hlast : ∃ j, j + 1 = N ∧ ∃ q, C.native q₀ j = .next q ∧ EnabledAt li q.rip
  · obtain ⟨j, hj, hen⟩ := hlast
    refine Or.inr ⟨j, by omega, hj.symm, hen, ?_⟩
    intro m hm q hq he
    have := h m (by omega) q hq he
    omega
  · refine Or.inl ⟨rfl, ?_⟩
    intro j hj q hq he
    exact hlast ⟨j, h j hj q hq he, q, hq, he⟩

theorem native_stop {q' : Machine ε} (h : AtNative C li q₀ i d.kernel)
    (hq : C.native q₀ i = .next q') : d.kernel.phase = .stopped ∧ d.kernel.inCall = false ∧
      Patched (addresses li) d.kernel.machine q' := by
  rcases h with ⟨hstop, hcall, q, hq2, hpq⟩ | ⟨-, w, hw, hgone⟩
  · rw [hq] at hq2
    cases hq2
    exact ⟨hstop, hcall, hpq⟩
  · rw [hq] at hgone
    cases hgone

/-- A round that steps over the instruction keeps the loop's invariant. -/
theorem stepXRound_before (hno : C.NoSignals q₀) {n : Nat}
    (hd : BeforeRound C li q₀ N i (n + 1) d)
    (hclean : ∀ q, C.native q₀ i = .next q → StepClean C li N i d.kernel.machine q) :
    Post (stepXRound (cpuKernel C fuel) li i) d fun o d' =>
      (∀ ret, o = some ret → SteppedNative C li q₀ N ret d') ∧
      (o = none → BeforeRound C li q₀ N (i + 1) n d') := by
  obtain ⟨hi, hat, hbefore⟩ := hd
  rcases hat with ⟨hstop, hcall, q, hq, hpq⟩ | ⟨hreaped, -⟩
  · refine post_mono (stepXRound_native fuel hno hstop hcall hq (hclean q hq)) ?_
    intro o d' ho
    refine ⟨?_, ?_⟩
    · intro ret hret h0
      obtain ⟨hfirst, hnat⟩ := ho.1 (by rw [hret, h0])
      have hen : EnabledAt li q.rip := by
        rw [← hpq.rip]
        exact hfirst.enabledAt
      refine ⟨i + 1, Or.inr ⟨i, by omega, rfl, ⟨q, hq, hen⟩, ?_⟩, hnat⟩
      intro m hm q' hq' he
      have := hbefore m hm q' hq' he
      omega
    · intro hnone
      obtain ⟨hlast, hnat⟩ := ho.2 hnone
      refine ⟨by omega, hnat, ?_⟩
      intro j hj q' hq' he
      rcases Nat.lt_succ_iff_lt_or_eq.mp hj with hlt | rfl
      · exact hbefore j hlt q' hq' he
      · rw [hq] at hq'
        cases hq'
        refine hlast ?_
        rw [hpq.rip]
        exact he
  · obtain ⟨out, hround⟩ := stepXRound_fail (K := cpuKernel C fuel) (i := i) li
      (start_reaped hreaped .stepping)
    refine post_ok hround ⟨?_, by simp⟩
    intro ret hret h0
    cases hret
    cases h0

/-- If every round of `StepX(li, n)` is clean and it returns 0, then the registers and the
memory are those of the native program after as many instructions as the steps stand for. -/
theorem stepX_native (C : Cpu ε) (li : BreakpointList) (q₀ : Machine ε) (hno : C.NoSignals q₀)
    (fuel : Nat) (n : Int) (d d' : Main (Proc ε)) (hstart : AtNative C li q₀ 0 d.kernel)
    (hclean : AllRounds (stepXRound (cpuKernel C fuel) li)
      (fun i d => ∀ q, C.native q₀ i = .next q → StepClean C li n.toNat i d.kernel.machine q)
      0 n.toNat d)
    (hrun : stepX (cpuKernel C fuel) li n d = .ok (0, d')) :
    ∃ k, StepCount C li q₀ n.toNat k ∧ AtNative C li q₀ k d'.kernel := by
  have hloop : Post (stepXLoop (cpuKernel C fuel) li 0 n.toNat) d
      (SteppedNative C li q₀ n.toNat) := by
    refine post_rounds (stepXRound (cpuKernel C fuel) li) (stepXLoop (cpuKernel C fuel) li) id
      (I := BeforeRound C li q₀ n.toNat) (stepXLoop_succ _ li) ?_ (fun _ _ h => h) ?_ n.toNat 0 d
      ⟨Nat.zero_add _, hstart, fun j hj => absurd hj (Nat.not_lt_zero j)⟩ hclean
    · intro i d hd
      obtain ⟨hi, hat, hbefore⟩ := hd
      refine post_ok rfl ?_
      intro _
      rw [Nat.add_zero] at hi
      rw [hi] at hat hbefore
      exact ⟨_, stepCount_all hbefore, hat⟩
    · intro i n d hd hC
      exact stepXRound_before fuel hno hd hC
  exact hloop 0 d' hrun rfl

/-! ## Steps of the one-byte program -/

theorem nop_noSignals : nopCpu.NoSignals nopStart := by
  intro k q hq
  have hreach : nopCpu.Reaches nopStart q := by
    induction k generalizing q with
    | zero =>
      cases hq
      exact Relation.ReflTransGen.refl
    | succ k ih =>
      cases hk : nopCpu.native nopStart k with
      | next q' =>
        rw [native_succ hk] at hq
        exact (ih q' hk).tail hq
      | trap s => rw [Cpu.native, hk] at hq; cases hq
      | signal s sig => rw [Cpu.native, hk] at hq; cases hq
      | gone w hw => rw [Cpu.native, hk] at hq; cases hq
  rw [nop_mem hreach]
  exact ⟨nop_ne_trap, Or.inl ⟨_, rfl⟩⟩

def nopBreakpoint : Breakpoint := ⟨true, 0x1000, 0x9090909090909090, 1⟩

/-- The program in front of its first instruction, with a trap there. -/
def nopTrapped : Machine Unit :=
  { nopStart with mem := Function.update nopStart.mem 0x1000 trapByte }

theorem nopTrapped_patched : Patched (addresses [nopBreakpoint]) nopTrapped nopStart :=
  ⟨rfl, rfl, Overlaid.refl.update (by simp [addresses, nopBreakpoint])⟩

theorem nopTrapped_trapStep :
    TrapStep nopCpu [nopBreakpoint] nopTrapped nopStart nopBreakpoint := by
  have hbytes : ∀ i, i < 8 → byteAt nopBreakpoint.origdata i = 0x90 := by decide
  refine ⟨by decide, rfl, by decide, ?_⟩
  have hpatched := restored_patched (b := nopBreakpoint) nopTrapped_patched
    (fun i hi => Or.inl (hbytes i hi))
  exact ⟨rfl, rfl, hpatched.mem⟩

theorem stepX_over_trap :
    ∃ d' k, stepX (cpuKernel nopCpu 8) [nopBreakpoint] 1 (Main.init (Proc.init nopTrapped)) =
        .ok (0, d') ∧ StepCount nopCpu [nopBreakpoint] nopStart 1 k ∧
      AtNative nopCpu [nopBreakpoint] nopStart k d'.kernel := by
  have hobs : ((stepX (cpuKernel nopCpu 8) [nopBreakpoint] 1
      (Main.init (Proc.init nopTrapped))).toOption.map fun r => r.1) = some 0 := by
    decide +kernel
  obtain ⟨ret, d', hrun, hret⟩ := exists_ok_of_observed hobs
  cases hret
  have hclean : ∀ q, nopCpu.native nopStart 0 = .next q →
      StepClean nopCpu [nopBreakpoint] 1 0 nopTrapped q := by
    intro q hq
    cases hq
    exact ⟨fun _ => Or.inl rfl, Or.inr ⟨nopBreakpoint, nopTrapped_trapStep, fun h => by cases h⟩⟩
  obtain ⟨k, hk, hat⟩ := stepX_native nopCpu [nopBreakpoint] nopStart nop_noSignals 8 1
    (Main.init (Proc.init nopTrapped)) d'
    (Or.inl ⟨rfl, rfl, nopStart, rfl, nopTrapped_patched⟩) ⟨hclean, fun _ _ => trivial⟩ hrun
  exact ⟨d', k, hrun, hk, hat⟩

/-- A breakpoint that is placed in front of the next instruction and disabled: the first step
restores behind it and executes the instruction there as well. -/
theorem stepX_overruns_disabled :
    ∃ li d₁ d₂, runAll (action (cpuKernel nopCpu 8) 8) [.place 0x1000, .disable 1] []
        (Main.init (Proc.init nopStart)) = .ok (li, d₁) ∧
      stepX (cpuKernel nopCpu 8) li 1 d₁ = .ok (0, d₂) ∧
      ¬ ∃ k, StepCount nopCpu li nopStart 1 k ∧ AtNative nopCpu li nopStart k d₂.kernel := by
  have hobs : (((do
      let li ← runAll (action (cpuKernel nopCpu 8) 8) [.place 0x1000, .disable 1] []
      let ret ← stepX (cpuKernel nopCpu 8) li 1
      return (li, ret) : DbgM (Proc Unit) _) (Main.init (Proc.init nopStart))).toOption.map
        fun r => (r.1.2, decide (r.2.kernel.phase = .stopped), r.2.kernel.machine.rip)) =
      some (0, true, 0x1002) := by decide +kernel
  obtain ⟨⟨li, ret⟩, d₂, hrun, hv⟩ := exists_ok_of_observed hobs
  simp only [Prod.mk.injEq, decide_eq_true_eq] at hv
  obtain ⟨rfl, hstop, hrip⟩ := hv
  obtain ⟨li', d₁, hlist, hrest⟩ := run_bind_eq_ok.mp hrun
  obtain ⟨ret, d', hstep, hpure⟩ := run_bind_eq_ok.mp hrest
  cases hpure
  refine ⟨li, d₁, d₂, hlist, hstep, ?_⟩
  intro h
  obtain ⟨k, hk, hat⟩ := h
  have hk1 : k = 1 := by
    rcases hk with ⟨rfl, -⟩ | ⟨j, hj, rfl, -⟩
    · rfl
    · omega
  have hnative : nopCpu.native nopStart k = .next (nopStart.setRip 0x1001) := by
    rw [hk1]
    rfl
  obtain ⟨-, -, hpatched⟩ := native_stop hat hnative
  have hrip' := hpatched.rip
  rw [hrip] at hrip'
  exact absurd hrip' (by decide)

end Zkz.Debugger
