import Zkz.Lib.Runs
import Zkz.Debugger.Simulation

/-!
# Breakpoints are transparent under continue

A program without signals and traps of its own, whose code is apart from its data, under
placements, disablings and continues. The invariant `Follows` is that a process that has not
ended is a state of the native run with traps at listed addresses. It is kept because every
saved word is native up to traps at listed addresses, and the first breakpoint at an address
has saved the native byte there (`Saves`).

* `unaffected_of_apart`: traps at placed addresses do not affect native instructions.
* `run_patched`: a patched run stops at a trap behind a native state.
* `continueExecution_follows`: every continue keeps `Follows`.
* `continue_transparent`: after a continue that returns 0, the process is in a native state.
-/

namespace Zkz.Debugger

open Zkz.Lib BreakpointList

variable {ε : Type} {C : Cpu ε} {code : Set Addr} {s₀ p q : Machine ε} {A : List Addr}

/-! ## Native runs -/

/-- The native states from `s₀` on. -/
def Cpu.Reaches (C : Cpu ε) : Machine ε → Machine ε → Prop :=
  Relation.ReflTransGen fun q q' => C.step q = .next q'

/-- The instruction of `q` depends on no code byte but its own, and writes no code byte. -/
def Cpu.CodeApart (C : Cpu ε) (code : Set Addr) (q : Machine ε) : Prop :=
  ∀ m : Mem, (∀ x, x ∉ code → m x = q.mem x) →
    (∀ x, (x - q.rip).toNat < C.len q → m x = q.mem x) →
    (C.exec { q with mem := m }).Rel
      (fun p' q' => p'.regs = q'.regs ∧ p'.env = q'.env ∧ (∀ x, x ∉ code → p'.mem x = q'.mem x) ∧
        ∀ x ∈ code, p'.mem x = m x ∧ q'.mem x = q.mem x) (C.exec q)

/-- The native run from `s₀` executes no trap of its own and receives no signals, and its
code is apart from its data. -/
structure Cpu.Plain (C : Cpu ε) (code : Set Addr) (s₀ : Machine ε) : Prop where
  noTrap : ∀ q, C.Reaches s₀ q → q.mem q.rip ≠ trapByte
  noSignal : ∀ q, C.Reaches s₀ q → ∀ s sig, C.exec q ≠ .signal s sig
  apart : ∀ q, C.Reaches s₀ q → C.CodeApart code q

/-- The word at `a` consists of code bytes, and no native instruction covers `a` but as its
first byte. -/
structure Cpu.Placeable (C : Cpu ε) (code : Set Addr) (s₀ : Machine ε) (a : Addr) : Prop where
  word : ∀ x, InWord a x → x ∈ code
  first : ∀ q, C.Reaches s₀ q → (a - q.rip).toNat < C.len q → a = q.rip

theorem Cpu.Plain.outcome (h : C.Plain code s₀) (hq : C.Reaches s₀ q) :
    (∃ s, C.step q = .next s) ∨ ∃ w hw, C.step q = .gone w hw := by
  rw [C.step_of_ne (h.noTrap q hq)]
  cases hexec : C.exec q with
  | next s => exact Or.inl ⟨s, rfl⟩
  | trap s => exact absurd hexec (C.exec_ne_trap q s)
  | signal s sig => exact absurd hexec (h.noSignal q hq s sig)
  | gone w hw => exact Or.inr ⟨w, hw, rfl⟩

/-- No native state changes the code. -/
theorem Cpu.Plain.code_eq (h : C.Plain code s₀) (hq : C.Reaches s₀ q) :
    ∀ x ∈ code, q.mem x = s₀.mem x := by
  induction hq with
  | refl => exact fun x _ => rfl
  | tail hb hstep ih =>
    rename_i b c
    intro x hx
    rw [C.step_of_ne (h.noTrap b hb)] at hstep
    have hrel := h.apart b hb b.mem (fun _ _ => rfl) (fun _ _ => rfl)
    rw [show ({ b with mem := b.mem } : Machine ε) = b from rfl, hstep] at hrel
    exact (hrel.2.2.2 x hx).2.trans (ih x hx)

/-- Traps at placeable addresses do not affect native instructions. -/
theorem unaffected_of_apart (h : C.Plain code s₀) (hA : ∀ a ∈ A, C.Placeable code s₀ a)
    (hq : C.Reaches s₀ q) : C.Unaffected A q := by
  intro p hp hrip
  have hdata : ∀ x, x ∉ code → p.mem x = q.mem x := by
    intro x hx
    refine hp.mem.eq_of_not_mem fun hxA => hx ?_
    exact (hA x hxA).word x (inWord_self x)
  have hown : ∀ x, (x - q.rip).toNat < C.len q → p.mem x = q.mem x := by
    intro x hx
    by_cases hxA : x ∈ A
    · have hxrip := (hA x hxA).first q hq hx
      rw [hxrip, ← hp.rip, hrip, hp.rip]
    · exact hp.mem.eq_of_not_mem hxA
  have hrel := h.apart q hq p.mem hdata hown
  have hpq : ({ q with mem := p.mem } : Machine ε) = p := by
    rw [← hp.regs, ← hp.env]
  rw [hpq] at hrel
  refine hrel.mono ?_
  intro p' q' hpq'
  obtain ⟨hregs, henv, hout, hin⟩ := hpq'
  refine ⟨hregs, henv, ?_⟩
  intro x
  by_cases hx : x ∈ code
  · rw [(hin x hx).1, (hin x hx).2]
    exact hp.mem x
  · exact Or.inl (hout x hx)

/-! ## Patched runs -/

/-- A patched step traps, goes on as the native step does, or ends. -/
theorem step_follows (h : C.Plain code s₀) (hA : ∀ a ∈ A, C.Placeable code s₀ a)
    (hpq : Patched A p q) (hq : C.Reaches s₀ q) :
    (p.mem p.rip = trapByte ∧ p.rip ∈ A) ∨
      (∃ p' q', C.step p = .next p' ∧ Patched A p' q' ∧ C.Reaches s₀ q') ∨
      ∃ w hw, C.step p = .gone w hw := by
  rcases step_patched hpq (unaffected_of_apart h hA hq) (h.noTrap q hq) with htrap | ⟨-, hrel⟩
  · exact Or.inl htrap
  · rcases h.outcome hq with ⟨s, hs⟩ | ⟨w, hw, hs⟩
    · rw [hs] at hrel
      obtain ⟨p', hp', hpatched⟩ := hrel.next_right
      exact Or.inr (Or.inl ⟨p', s, hp', hpatched, hq.tail hs⟩)
    · rw [hs] at hrel
      exact Or.inr (Or.inr ⟨w, hw, hrel.gone_right⟩)

/-- A patched run stops at a trap in front of a native instruction, or ends. -/
theorem run_patched (h : C.Plain code s₀) (hA : ∀ a ∈ A, C.Placeable code s₀ a) (fuel : Nat)
    (hpq : Patched A p q) (hq : C.Reaches s₀ q) {o : Outcome ε}
    (ho : C.run fuel (C.step p) = some o) :
    (∃ p' q', C.Reaches s₀ q' ∧ Patched A p' q' ∧ p'.rip ∈ A ∧
      o = .trap (p'.setRip (p'.rip + 1))) ∨ ∃ w hw, o = .gone w hw := by
  induction fuel generalizing p q with
  | zero =>
    rcases step_follows h hA hpq hq with ⟨htrap, hrip⟩ | ⟨p', q', hp', -⟩ | ⟨w, hw, hgone⟩
    · rw [C.step_of_trap htrap, run_trap] at ho
      cases ho
      exact Or.inl ⟨p, q, hq, hpq, hrip, rfl⟩
    · rw [hp'] at ho
      cases ho
    · rw [hgone, run_gone] at ho
      cases ho
      exact Or.inr ⟨w, hw, rfl⟩
  | succ fuel ih =>
    rcases step_follows h hA hpq hq with
      ⟨htrap, hrip⟩ | ⟨p', q', hp', hpatched, hq'⟩ | ⟨w, hw, hgone⟩
    · rw [C.step_of_trap htrap, run_trap] at ho
      cases ho
      exact Or.inl ⟨p, q, hq, hpq, hrip, rfl⟩
    · rw [hp'] at ho
      exact ih hpatched hq' ho
    · rw [hgone, run_gone] at ho
      cases ho
      exact Or.inr ⟨w, hw, rfl⟩

/-! ## The invariant -/

/-- Every listed breakpoint is placeable and has saved a word that is native up to traps at
listed addresses, and the first one at an address has saved its native byte. -/
structure Saves (C : Cpu ε) (code : Set Addr) (s₀ : Machine ε) (li : BreakpointList) : Prop where
  placeable : ∀ a ∈ addresses li, C.Placeable code s₀ a
  words : ∀ b ∈ li, OverlaidWord trapByte (addresses li) s₀.mem b.address b.origdata
  first : ∀ a b, getElementByAddress li a = some b → byteAt b.origdata 0 = s₀.mem a

/-- A process that has not ended is stopped in a native state with traps at listed
addresses. -/
def Follows (C : Cpu ε) (s₀ : Machine ε) (li : BreakpointList) (s : Proc ε) : Prop :=
  s.phase = .reaped ∨
    s.phase = .stopped ∧ s.inCall = false ∧
      ∃ q, C.Reaches s₀ q ∧ Patched (addresses li) s.machine q

variable {li : BreakpointList} (fuel : Nat) {d : Main (Proc ε)}

theorem saves_nil : Saves C code s₀ [] where
  placeable a ha := by cases ha
  words b hb := by cases hb
  first a b hb := by cases hb

/-- A saved word of the list is native in every native state, up to traps. -/
theorem Saves.word_at (hS : Saves C code s₀ li) (h : C.Plain code s₀) (hq : C.Reaches s₀ q)
    {b : Breakpoint} (hb : b ∈ li) :
    OverlaidWord trapByte (addresses li) q.mem b.address b.origdata := by
  intro i hi
  have ha : b.address ∈ addresses li := List.mem_map_of_mem hb
  have hcode : b.address + BitVec.ofNat 64 i ∈ code :=
    (hS.placeable b.address ha).word _ (inWord_add hi b.address)
  rw [h.code_eq hq _ hcode]
  exact hS.words b hb i hi

theorem Saves.first_at (hS : Saves C code s₀ li) (h : C.Plain code s₀) (hq : C.Reaches s₀ q)
    {a : Addr} {b : Breakpoint} (hb : getElementByAddress li a = some b) :
    byteAt b.origdata 0 = q.mem a := by
  have ha : a ∈ addresses li := by
    obtain ⟨hmem, rfl⟩ := getElementByAddress_mem hb
    exact List.mem_map_of_mem hmem
  rw [h.code_eq hq a ((hS.placeable a ha).word a (inWord_self a))]
  exact hS.first a b hb

/-! ## One round -/

/-- A restore after a trap follows the native run. -/
theorem restore_follows (h : C.Plain code s₀) (hS : Saves C code s₀ li) {b : Breakpoint}
    (hpq : Patched (addresses li) p q) (hq : C.Reaches s₀ q)
    (hb : getElementByAddress li p.rip = some b) (hstop : d.kernel.phase = .stopped)
    (hcall : d.kernel.inCall = false) (hm : d.kernel.machine = p.setRip (p.rip + 1)) :
    ∃ ret d', restoreBreakpoint (cpuKernel C fuel) b p.rip d = .ok (ret, d') ∧ ¬ ret < -1 ∧
      Follows C s₀ li d'.kernel ∧ d'.debug.isSystrace = d.debug.isSystrace := by
  obtain ⟨hmem, haddr⟩ := getElementByAddress_mem hb
  obtain ⟨out, hrun⟩ := restoreBreakpoint_cpu C fuel b p.rip hstop
  have hword := hS.word_at h hq hmem
  rw [haddr] at hword
  have hrel := restoring_step hpq hm hcall hword (hS.first_at h hq hb)
    (unaffected_of_apart h hS.placeable hq) (h.noTrap q hq)
  refine ⟨_, _, hrun, restoreResult_nonneg _, ?_, afterWait_isSystrace _ _⟩
  rcases h.outcome hq with ⟨s, hs⟩ | ⟨w, hw, hs⟩
  · rw [hs] at hrel
    obtain ⟨p', hp', hpatched⟩ := hrel.next_right
    simp only [hp']
    exact Or.inr ⟨rfl, rfl, s, hq.tail hs, hpatched⟩
  · rw [hs] at hrel
    simp only [hrel.gone_right]
    exact Or.inl rfl

/-- A stop behind a trap follows the native run. -/
theorem atTrap_follows (h : C.Plain code s₀) (hS : Saves C code s₀ li)
    (hpq : Patched (addresses li) p q) (hq : C.Reaches s₀ q) (hrip : p.rip ∈ addresses li)
    (hstop : d.kernel.phase = .stopped) (hcall : d.kernel.inCall = false)
    (hm : d.kernel.machine = p.setRip (p.rip + 1)) (hsys : d.debug.isSystrace = false) :
    Post (continueAtStop (cpuKernel C fuel) li (p.setRip (p.rip + 1)).regs) d fun _ d' =>
      Follows C s₀ li d'.kernel ∧ d'.debug.isSystrace = false := by
  have hback : (p.setRip (p.rip + 1)).regs.rip - 1 = p.rip := BitVec.add_sub_cancel _ _
  obtain ⟨b, hb⟩ := getElementByAddress_of_mem hrip
  rw [← hback] at hb
  by_cases he : b.isEnabled = true
  · obtain ⟨out, hat⟩ := continueAtStop_enabled (K := cpuKernel C fuel) (d := d) hb he
      (by rw [getregs_stopped fuel hstop, hm])
    rw [hback] at hb hat
    obtain ⟨ret, d', hrest, hret, hfollows, hsys'⟩ := restore_follows fuel
      (d := ⟨d.debug, (p.setRip (p.rip + 1)).regs, d.kernel, out⟩) h hS hpq hq hb hstop hcall hm
    rw [run_bind_ok hrest, if_neg hret] at hat
    exact post_ok hat ⟨hfollows, hsys'.trans hsys⟩
  · obtain ⟨out, hat⟩ := continueAtStop_disabled (K := cpuKernel C fuel) (d := d) hb
      (by simpa using he)
    rw [hback] at hb hat
    obtain ⟨ret, d', hrest, hret, hfollows, hsys'⟩ := restore_follows fuel
      (d := ⟨d.debug, (p.setRip (p.rip + 1)).regs, d.kernel, out⟩) h hS hpq hq hb hstop hcall hm
    rw [run_bind_ok hrest, if_neg hret] at hat
    exact post_ok hat ⟨hfollows, hsys'.trans hsys⟩

/-- A round of a continue follows the native run. -/
theorem continueRound_follows (h : C.Plain code s₀) (hS : Saves C code s₀ li)
    (hsys : d.debug.isSystrace = false) (hd : Follows C s₀ li d.kernel) :
    Post (continueRound (cpuKernel C fuel) li) d fun _ d' =>
      Follows C s₀ li d'.kernel ∧ d'.debug.isSystrace = false := by
  rcases hd with hreaped | ⟨hstop, hcall, q, hq, hpq⟩
  · have hcont : resumeRequest (cpuKernel C fuel) d.debug.isSystrace d.debug.pid d.kernel =
        (false, d.kernel) := by
      rw [hsys]
      exact start_reaped hreaped .continuing
    obtain ⟨out, hround⟩ := continueRound_fail li hcont
    exact post_ok hround ⟨Or.inl hreaped, hsys⟩
  · have hcont : resumeRequest (cpuKernel C fuel) d.debug.isSystrace d.debug.pid d.kernel =
        (true, d.kernel.inPhase .continuing) := by
      rw [hsys]
      exact start_stopped hstop .continuing
    obtain ⟨out, hround⟩ := continueRound_resume li hcont
    have hwait := waitpid_continuing (C := C) fuel
      (p := d.kernel.inPhase .continuing) rfl d.debug.pid
    rw [resume_inPhase hcall] at hwait
    intro o d' hrun
    rw [hround] at hrun
    cases ho : C.run fuel (C.step d.kernel.machine) with
    | none =>
      rw [ho] at hwait
      have hnever := continueFromWait_never li
        (d := ⟨resumed d.debug, d.regs, d.kernel.inPhase .continuing, out⟩) hwait
      rw [hnever] at hrun
      cases hrun
    | some o' =>
      rw [ho] at hwait
      rcases run_patched h hS.placeable fuel hpq hq ho with
        ⟨p', q', hq', hpq', hrip, rfl⟩ | ⟨w, hw, rfl⟩
      · obtain ⟨out', hstopped⟩ := continueFromWait_stop (K := cpuKernel C fuel) li
          (w := some (stopStatus sigtrap))
          (d := ⟨resumed d.debug, d.regs, d.kernel.inPhase .continuing, out⟩)
          hwait (wifstopped_stopStatus _) (getregs_stopped fuel rfl _)
        rw [hstopped] at hrun
        have hfollows := atTrap_follows fuel h hS hpq' hq' hrip (d := ⟨resumed d.debug,
          d.regs, (d.kernel.inPhase .continuing).report (.trap (p'.setRip (p'.rip + 1))),
          out'⟩) rfl rfl rfl hsys
        exact hfollows o d' hrun
      · obtain ⟨ret, d₁, -, hker, hdebug, hend⟩ := continueFromWait_ended (w := some w) li
          (d := ⟨resumed d.debug, d.regs, d.kernel.inPhase .continuing, out⟩) hwait
          (wifstopped_gone hw)
        rw [hend] at hrun
        cases hrun
        rw [hker, hdebug, afterWait_isSystrace]
        exact ⟨Or.inl rfl, hsys⟩

/-! ## Commands -/

/-- Every continue follows the native run. -/
theorem continueExecution_follows (h : C.Plain code s₀) (hS : Saves C code s₀ li) (n : Nat)
    (hsys : d.debug.isSystrace = false) (hd : Follows C s₀ li d.kernel) :
    Post (continueExecution (cpuKernel C fuel) li n) d fun _ d' =>
      Follows C s₀ li d'.kernel ∧ d'.debug.isSystrace = false := by
  exact post_loop (fun _ => continueRound (cpuKernel C fuel) li)
    (fun _ n => continueExecution (cpuKernel C fuel) li n) passResult (C := fun _ _ => True)
    (I := fun d => Follows C s₀ li d.kernel ∧ d.debug.isSystrace = false)
    (fun _ n => continueExecution_succ _ li n) (fun _ _ _ => post_throw _)
    (fun _ _ hI _ => continueRound_follows fuel h hS hI.2 hI.1) n 0 d ⟨hd, hsys⟩
    (allRounds_of_forall (fun _ _ => trivial) 0 n d)

theorem saves_appendElement (hS : Saves C code s₀ li) {a : Addr} {w : Word}
    (ha : C.Placeable code s₀ a) (hw : OverlaidWord trapByte (addresses li) s₀.mem a w)
    (hw0 : a ∉ addresses li → byteAt w 0 = s₀.mem a) : Saves C code s₀ (appendElement li a w) := by
  have hsub : ∀ x ∈ addresses li, x ∈ addresses (appendElement li a w) := by
    intro x hx
    rw [addresses_appendElement]
    exact List.mem_append_left _ hx
  refine ⟨?_, ?_, ?_⟩
  · intro x hx
    rw [addresses_appendElement, List.mem_append, List.mem_singleton] at hx
    rcases hx with hx | rfl
    · exact hS.placeable x hx
    · exact ha
  · intro b hb
    unfold appendElement at hb
    rw [List.mem_append, List.mem_singleton] at hb
    rcases hb with hb | rfl
    · exact (hS.words b hb).mono hsub
    · exact hw.mono hsub
  · intro x b hb
    rw [getElementByAddress_appendElement] at hb
    cases hx : getElementByAddress li x with
    | some c =>
      rw [hx] at hb
      cases hb
      exact hS.first x b hx
    | none =>
      rw [hx, Option.none_or] at hb
      split at hb
      · rename_i hax
        cases hb
        rw [← hax] at hx ⊢
        exact hw0 (getElementByAddress_eq_none.mp hx)
      · cases hb

theorem saves_disableAt (hS : Saves C code s₀ li) (i : Nat) :
    Saves C code s₀ (disableAt li i) := by
  refine ⟨?_, ?_, ?_⟩
  · rw [addresses_disableAt]
    exact hS.placeable
  · intro b hb
    obtain ⟨b', hb', haddr, hdata⟩ := mem_disableAt hb
    rw [addresses_disableAt, haddr, hdata]
    exact hS.words b' hb'
  · intro a b hb
    obtain ⟨b', hb', hdata⟩ := getElementByAddress_disableAt hb
    rw [hdata]
    exact hS.first a b' hb'

/-- A placement keeps the invariant. -/
theorem placeBreakpoint_follows (h : C.Plain code s₀) (hS : Saves C code s₀ li) {a : Addr}
    (ha : C.Placeable code s₀ a) (hsys : d.debug.isSystrace = false)
    (hd : Follows C s₀ li d.kernel) :
    Post (placeBreakpoint (cpuKernel C fuel) li a) d fun r d' =>
      Saves C code s₀ r.2 ∧ Follows C s₀ r.2 d'.kernel ∧ d'.debug.isSystrace = false := by
  rcases hd with hreaped | ⟨hstop, hcall, q, hq, hpq⟩
  · have hne : ¬ d.kernel.phase = .stopped := by simp [hreaped]
    have hpeek : (cpuKernel C fuel).peektext d.debug.pid a d.kernel = (none, d.kernel) := by
      simp only [cpuKernel, if_neg hne]
    have hpoke : ∀ w, (cpuKernel C fuel).poketext d.debug.pid a w d.kernel = (false, d.kernel) :=
      fun w => if_neg hne
    obtain ⟨out, hrun⟩ := placeBreakpoint_fail li hpeek (hpoke _)
    exact post_ok hrun ⟨hS, Or.inl hreaped, hsys⟩
  · obtain ⟨out, hrun⟩ := placeBreakpoint_ok (d := d) li
      (peektext_stopped fuel (C := C) hstop d.debug.pid a)
      (poketext_stopped fuel hstop d.debug.pid a _)
    have hcode : ∀ i, i < 8 → a + BitVec.ofNat 64 i ∈ code :=
      fun i hi => ha.word _ (inWord_add hi a)
    have hw : OverlaidWord trapByte (addresses li) s₀.mem a (readWord d.kernel.machine.mem a) := by
      intro i hi
      rw [← h.code_eq hq _ (hcode i hi)]
      exact hpq.mem.readWord a i hi
    refine post_ok hrun ⟨saves_appendElement hS ha hw ?_, Or.inr ⟨hstop, hcall, q, hq, ?_⟩, hsys⟩
    · intro hnew
      have hbyte := byteAt_readWord (show 0 < 8 by omega) d.kernel.machine.mem a
      rw [BitVec.add_zero] at hbyte
      rw [hbyte, hpq.mem.eq_of_not_mem hnew, h.code_eq hq a (ha.word a (inWord_self a))]
    · rw [addresses_appendElement]
      refine ⟨hpq.regs, hpq.env, ?_⟩
      simp only [Proc.setMem]
      rw [writeWord_setLow]
      exact (hpq.mem.mono fun x hx => List.mem_append_left _ hx).update
        (List.mem_append_right _ (List.mem_singleton_self a))

/-- The commands of a session. -/
inductive Action where
  | place (address : Addr)
  | disable (bNumber : Int)
  | continue

/-- An action and the list it leaves; `n` bounds the recursion of a continue. -/
def action {σ : Type} (K : Kernel σ) (n : Nat) : Action → BreakpointList → DbgM σ BreakpointList
  | .place address, li => do return (← placeBreakpoint K li address).2
  | .disable bNumber, li => do return (← disableBreakpoint li bNumber).2
  | .continue, li => do
    let _ ← continueExecution K li n
    return li

/-- What every action keeps. -/
def Session (C : Cpu ε) (code : Set Addr) (s₀ : Machine ε) (li : BreakpointList)
    (d : Main (Proc ε)) : Prop :=
  Saves C code s₀ li ∧ Follows C s₀ li d.kernel ∧ d.debug.isSystrace = false

theorem action_session (h : C.Plain code s₀) (n : Nat) (op : Action) (li : BreakpointList)
    (d : Main (Proc ε)) (hd : Session C code s₀ li d)
    (hop : ∀ a, op = .place a → C.Placeable code s₀ a) :
    Post (action (cpuKernel C fuel) n op li) d (Session C code s₀) := by
  obtain ⟨hS, hfollows, hsys⟩ := hd
  cases op with
  | place a =>
    refine post_bind (placeBreakpoint_follows fuel h hS (hop a rfl) hsys hfollows) ?_
    intro r d' hr
    exact post_pure hr
  | disable n =>
    refine post_bind (disableBreakpoint_post li n d) ?_
    intro r d' hr
    obtain ⟨i, hli, hdebug, hker⟩ := hr
    rw [hli]
    refine post_pure ⟨saves_disableAt hS i, ?_, ?_⟩
    · rw [hker]
      unfold Follows
      rw [addresses_disableAt]
      exact hfollows
    · rw [hdebug]
      exact hsys
  | «continue» =>
    refine post_bind (continueExecution_follows fuel h hS n hsys hfollows) ?_
    intro r d' hr
    exact post_pure ⟨hS, hr⟩

/-- Whenever a continue returns 0 with the debuggee alive, its registers and data are those of
a native state, and every code byte is native or a trap at a listed address. -/
theorem continue_transparent (C : Cpu ε) (code : Set Addr) (s₀ : Machine ε)
    (h : C.Plain code s₀) (fuel n : Nat) (actions : List Action)
    (hplace : ∀ a, .place a ∈ actions → C.Placeable code s₀ a) (d d₁ d₂ : Main (Proc ε))
    (hd : d.kernel = Proc.init s₀) (hsys : d.debug.isSystrace = false) (li : BreakpointList)
    (hrun : runAll (action (cpuKernel C fuel) n) actions [] d = .ok (li, d₁))
    (hcont : continueExecution (cpuKernel C fuel) li n d₁ = .ok (0, d₂))
    (halive : d₂.kernel.phase ≠ .reaped) :
    ∃ q, C.Reaches s₀ q ∧ d₂.kernel.machine.regs = q.regs ∧
      (∀ x, x ∉ code → d₂.kernel.machine.mem x = q.mem x) ∧
      ∀ x ∈ code, d₂.kernel.machine.mem x = s₀.mem x ∨
        d₂.kernel.machine.mem x = trapByte ∧ x ∈ addresses li := by
  have hstart : Session C code s₀ [] d := by
    refine ⟨saves_nil, Or.inr ?_, hsys⟩
    rw [hd]
    exact ⟨rfl, rfl, s₀, Relation.ReflTransGen.refl, Patched.refl _ _⟩
  have hall : ∀ op ∈ actions, ∀ a, op = .place a → C.Placeable code s₀ a := by
    intro op hop a ha
    rw [ha] at hop
    exact hplace a hop
  obtain ⟨hS, hfollows, hsys₁⟩ := runAll_inv_of_allSteps (I := Session C code s₀)
    (C := fun op _ _ => ∀ a, op = .place a → C.Placeable code s₀ a)
    (fun op li d hI hC => action_session fuel h n op li d hI hC) hstart
    (allSteps_of_forall_mem (fun op hop _ _ => hall op hop) [] d) hrun
  have hend := continueExecution_follows fuel h hS n hsys₁ hfollows 0 d₂ hcont
  rcases hend.1 with hreaped | ⟨-, -, q, hq, hpq⟩
  · exact absurd hreaped halive
  · refine ⟨q, hq, hpq.regs, ?_, ?_⟩
    · intro x hx
      refine hpq.mem.eq_of_not_mem fun hxA => hx ?_
      exact (hS.placeable x hxA).word x (inWord_self x)
    · intro x hx
      rw [← h.code_eq hq x hx]
      exact hpq.mem x

/-! ## A program of one-byte instructions -/

/-- Every byte but 0xcc is an instruction that does nothing. -/
def nopCpu : Cpu Unit where
  len _ := 1
  exec s := .next (s.setRip (s.rip + 1))
  enter _ := none
  leave s := .next s
  exec_ne_trap s s' h := by cases h
  leave_ne_trap s s' h := by cases h

def nopStart : Machine Unit := ⟨{ rip := 0x1000 }, fun _ => 0x90, ()⟩

theorem nop_ne_trap : (0x90 : Byte) ≠ trapByte := by decide

theorem nop_mem {q : Machine Unit} (hq : nopCpu.Reaches nopStart q) : q.mem = fun _ => 0x90 := by
  induction hq with
  | refl => rfl
  | tail _ hstep ih =>
    rename_i b c _
    have hb : b.mem b.rip ≠ trapByte := by
      rw [ih]
      exact nop_ne_trap
    rw [nopCpu.step_of_ne hb] at hstep
    cases hstep
    exact ih

theorem nop_plain : nopCpu.Plain Set.univ nopStart := by
  refine ⟨?_, ?_, ?_⟩
  · intro q hq
    rw [nop_mem hq]
    exact nop_ne_trap
  · intro q _ s sig hs
    cases hs
  · intro q _ m _ _
    exact ⟨rfl, rfl, fun x hx => absurd (Set.mem_univ x) hx, fun x _ => ⟨rfl, rfl⟩⟩

theorem nop_placeable (a : Addr) : nopCpu.Placeable Set.univ nopStart a := by
  refine ⟨fun x _ => Set.mem_univ x, ?_⟩
  intro q _ hlt
  have hzero : (a - q.rip).toNat = 0 := Nat.lt_one_iff.mp hlt
  have hsub : a - q.rip = 0 := BitVec.eq_of_toNat_eq (by simpa using hzero)
  rw [← BitVec.sub_add_cancel a q.rip, hsub]
  exact BitVec.zero_add _

/-- A session that places one breakpoint and continues to it. -/
def nopSession : DbgM (Proc Unit) (BreakpointList × Int) := do
  let li ← runAll (action (cpuKernel nopCpu 8) 8) [.place 0x1002] []
  let ret ← continueExecution (cpuKernel nopCpu 8) li 8
  return (li, ret)

theorem nop_transparent :
    ∃ li d₁ d₂ q, runAll (action (cpuKernel nopCpu 8) 8) [.place 0x1002] []
        (Main.init (Proc.init nopStart)) = .ok (li, d₁) ∧
      continueExecution (cpuKernel nopCpu 8) li 8 d₁ = .ok (0, d₂) ∧
      nopCpu.Reaches nopStart q ∧ d₂.kernel.machine.regs = q.regs ∧ q.rip = 0x1003 := by
  have hobs : ((nopSession (Main.init (Proc.init nopStart))).toOption.map fun r =>
      (r.1.2, decide (r.2.kernel.phase = .reaped), r.2.kernel.machine.rip)) =
        some (0, false, 0x1003) := by decide +kernel
  obtain ⟨⟨li, ret⟩, d₂, hrun, hv⟩ := exists_ok_of_observed hobs
  simp only [Prod.mk.injEq, decide_eq_false_iff_not] at hv
  obtain ⟨rfl, halive, hrip⟩ := hv
  obtain ⟨li', d₁, hplace, hrest⟩ := run_bind_eq_ok.mp hrun
  obtain ⟨ret, d', hcont, hpure⟩ := run_bind_eq_ok.mp hrest
  cases hpure
  obtain ⟨q, hq, hregs, -⟩ := continue_transparent nopCpu Set.univ nopStart nop_plain 8 8
    [.place 0x1002] (fun a _ => nop_placeable a) (Main.init (Proc.init nopStart)) d₁ d₂ rfl rfl li
    hplace hcont halive
  refine ⟨li, d₁, d₂, q, hplace, hcont, hq, hregs, ?_⟩
  unfold Machine.rip
  rw [← hregs]
  exact hrip

end Zkz.Debugger
