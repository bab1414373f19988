import Zkz.Debugger.IdealDeeds

/-!
# Sessions

What the main loop does with its input, from its first prompt on.

* `mainLoop_dialogue`: it does the deeds that are typed, all of them and in order, until it returns.
* `mainLoop_returns`: it does return, and what it returns says why.
* `mainLoop_ideal`: its deeds are those of the ideal debugger, as long as that permits them.
* `continueExecution_ideal`, `stepX_ideal`: so are the two commands on their own.
* `auto_continue`: `auto` and `continue` end alike.
-/

namespace Zkz.Debugger

open Zkz.Lib BreakpointList

/-! ## Deeds that are typed -/

section Dialogues

variable {σ : Type}

/-- When the input is used up the main loop has returned. It returns at the last prompt that it has
come to: 0 for a kill that was typed, 1 if a process that was attached has ended, and -1 if the last
deed failed, or the answer to the last question was missing or empty. -/
theorem mainLoop_returns (K : Kernel σ) (env : Loaded σ) (n m : Nat) (input : List Line)
    (d : Main σ) (hm : input.length < m) :
    Post (mainLoop K env n m input) d fun t d' => ∃ code j q e done li, t = .returned code ∧
      mainTurns K env n j ⟨[], 0, input⟩ d = .ok (.prompt q, e) ∧
        mainTurn K env n q e = .ok (.returned code, d') ∧ Did K env n (q.li, e) done (li, d') ∧
          done.map Prod.fst <+: turnPlan e.debug q ∧
            Leaves q.input.tail (turnQuestions e.debug q) d' done.getLast? code := by
  refine post_mono (mainTurns_dialogue K env n m ⟨[], 0, input⟩ d) ?_
  rintro t d' ⟨done, hdialogue⟩
  cases t with
  | prompt p' =>
    have hshort := hdialogue.shortens.2
    simp only at hshort
    omega
  | returned code =>
    obtain ⟨j, q, e, last, li, -, hleaves⟩ := hdialogue.leaves
    exact ⟨code, j, q, e, last, li, rfl, hleaves⟩

/-- A session that is left by a kill. -/
theorem mainLoop_returns_killed :
    ∃ t d', mainLoop stoppedKernel (nothingLoaded Mem) 0 3 ["exit".toList, "yes".toList]
        (Main.init fun _ => 0) = .ok (t, d') ∧ ∃ code j q e done li, t = .returned code ∧
      mainTurns stoppedKernel (nothingLoaded Mem) 0 j ⟨[], 0, ["exit".toList, "yes".toList]⟩
          (Main.init fun _ => 0) = .ok (.prompt q, e) ∧
        mainTurn stoppedKernel (nothingLoaded Mem) 0 q e = .ok (.returned code, d') ∧
          Did stoppedKernel (nothingLoaded Mem) 0 (q.li, e) done (li, d') ∧
            done.map Prod.fst <+: turnPlan e.debug q ∧
              Leaves q.input.tail (turnQuestions e.debug q) d' done.getLast? code := by
  have hobs : ((mainLoop stoppedKernel (nothingLoaded Mem) 0 3 ["exit".toList, "yes".toList]
      (Main.init fun _ => 0)).toOption.map fun _ => ()) = some () := by decide +kernel
  obtain ⟨t, d', hrun, -⟩ := exists_ok_of_observed hobs
  exact ⟨t, d', hrun, mainLoop_returns stoppedKernel (nothingLoaded Mem) 0 3
    ["exit".toList, "yes".toList] (Main.init fun _ => 0) (by decide) t d' hrun⟩

end Dialogues

/-! ## A program of two-byte instructions -/

/-- The instruction at 0x1006 exits, and the others do nothing. -/
def pairExec (s : Machine Unit) : Outcome Unit :=
  if s.rip = 0x1006 then .gone (exitStatus 0) (Or.inl rfl) else .next (s.setRip (s.rip + 2))

theorem pairExec_ne_trap (s s' : Machine Unit) : pairExec s ≠ .trap s' := by
  intro h
  by_cases hrip : s.rip = 0x1006
  · cases (if_pos hrip).symm.trans h
  · cases (if_neg hrip).symm.trans h

theorem next_ne_trap {ε : Type} (s s' : Machine ε) : Outcome.next s ≠ .trap s' := by
  intro h
  cases h

/-- Every instruction is two bytes long. -/
def pairCpu : Cpu Unit where
  len _ := 2
  exec := pairExec
  enter _ := none
  leave s := .next s
  exec_ne_trap := pairExec_ne_trap
  leave_ne_trap := next_ne_trap

theorem pair_exec {q q' : Machine Unit} (h : pairCpu.deaf.step q = .next q')
    (hq : q.mem q.rip ≠ trapByte) : q.rip ≠ 0x1006 ∧ q' = q.setRip (q.rip + 2) := by
  rw [pairCpu.deaf.step_of_ne hq] at h
  have hdeaf : (pairExec q).deaf = .next q' := h
  by_cases hrip : q.rip = 0x1006
  · rw [pairExec, if_pos hrip] at hdeaf
    cases hdeaf
  · rw [pairExec, if_neg hrip] at hdeaf
    cases hdeaf
    exact ⟨hrip, rfl⟩

theorem pair_reach {q : Machine Unit} (hq : pairCpu.deaf.Reaches nopStart q) :
    (q.mem = fun _ => 0x90) ∧ (q.rip = 0x1000 ∨ q.rip = 0x1002 ∨ q.rip = 0x1004 ∨ q.rip = 0x1006) := by
  induction hq with
  | refl => exact ⟨rfl, Or.inl rfl⟩
  | tail _ hstep ih =>
    obtain ⟨hmem, hrip⟩ := ih
    obtain ⟨hne, rfl⟩ := pair_exec hstep (by rw [hmem]; exact nop_ne_trap)
    refine ⟨hmem, ?_⟩
    unfold Machine.setRip Machine.rip at *
    rcases hrip with hrip | hrip | hrip | hrip
    · exact Or.inr (Or.inl (by rw [hrip]; rfl))
    · exact Or.inr (Or.inr (Or.inl (by rw [hrip]; rfl)))
    · exact Or.inr (Or.inr (Or.inr (by rw [hrip]; rfl)))
    · exact absurd hrip hne

theorem pair_tame : pairCpu.Tame Set.univ nopStart where
  noTrap q hq := by
    rw [(pair_reach hq).1]
    exact nop_ne_trap
  apart q _ m _ _ := by
    by_cases hrip : q.rip = 0x1006
    · rw [show pairCpu.exec q = _ from if_pos hrip,
        show pairCpu.exec { q with mem := m } = _ from if_pos hrip]
      rfl
    · rw [show pairCpu.exec q = _ from if_neg hrip,
        show pairCpu.exec { q with mem := m } = _ from if_neg hrip]
      exact ⟨rfl, rfl, fun x hx => absurd (Set.mem_univ x) hx, fun x _ => ⟨rfl, rfl⟩⟩

theorem pair_placeable : pairCpu.deaf.Placeable Set.univ nopStart 0x1004 := by
  refine ⟨fun x _ => Set.mem_univ x, fun q hq hlt => ?_⟩
  have hlen : (0x1004 - q.rip).toNat < 2 := hlt
  rcases (pair_reach hq).2 with hrip | hrip | hrip | hrip
  · rw [hrip] at hlen
    exact absurd hlen (by decide)
  · rw [hrip] at hlen
    exact absurd hlen (by decide)
  · exact hrip.symm
  · rw [hrip] at hlen
    exact absurd hlen (by decide)

theorem pair_quiet (a : Addr) : pairCpu.Quiet nopStart a := by
  intro q q' sig _ ho
  by_cases hrip : q.rip = 0x1006
  · cases (if_pos hrip).symm.trans ho
  · cases (if_neg hrip).symm.trans ho

theorem pair_solid : pairCpu.Solid nopStart 0x1004 := by
  intro q q' hq hstep
  have hreach := pair_reach (hq.tail hstep)
  rcases hreach.2 with hrip | hrip | hrip | hrip
  · rw [hrip]
    decide
  · rw [hrip]
    decide
  · rw [hrip]
    decide
  · rw [hrip]
    decide

/-- The ideal debugger before the first instruction. -/
def Ideal.start {ε : Type} (s₀ : Machine ε) : Ideal ε := ⟨s₀, false, Traps.empty⟩

section Refinement

variable {ε : Type}

theorem patched_nil (q : Machine ε) : q.patched [] = q := by
  rw [Machine.patched, overlay_nil]

theorem staged_start (C : Cpu ε) (code : Set Addr) {s₀ : Machine ε} {d : Main (Proc ε)}
    (hker : d.kernel = Proc.init s₀) (hsys : d.debug.isSystrace = false) :
    Staged C code s₀ ([], d) (Ideal.start s₀) := by
  refine ⟨⟨⟨rfl, fun e he => absurd he List.not_mem_nil, Relation.ReflTransGen.refl⟩,
    fun (h : false = true) => (by cases h), fun _ => ?_⟩, hsys⟩
  rw [hker]
  exact ⟨rfl, rfl, (patched_nil s₀).symm⟩

/-- The process of `pairCpu` with a trap at its third instruction. -/
theorem pair_placed :
    ∃ li, ∃ d : Main (Proc Unit), Shows pairCpu Set.univ nopStart
      ((Ideal.start nopStart).place 0x1004).2 li d.kernel ∧ d.debug.isSystrace = false := by
  have hstart := staged_start pairCpu Set.univ (d := Main.init (Proc.init nopStart)) rfl rfl
  obtain ⟨li, d, -, hdebug, hshows⟩ := place_shows 0 pair_tame hstart.1 pair_placeable
  exact ⟨li, d, hshows, hdebug ▸ hstart.2⟩

theorem pair_marks {e : Mark}
    (he : e ∈ ((Ideal.start nopStart).place 0x1004).2.traps.marks) :
    e.address = 0x1004 ∧ e.isEnabled = true := by
  have hmark : e = ⟨true, 0x1004, [], 1⟩ := List.mem_singleton.mp he
  rw [hmark]
  exact ⟨rfl, rfl⟩

/-- The ideal debugger passes the trap in its third instruction. -/
theorem pair_run :
    ∃ t, ((Ideal.start nopStart).place 0x1004).2.run pairCpu 3 = some (0, t) ∧
      t.machine.rip = 0x1006 := by
  have hobs : (((Ideal.start nopStart).place 0x1004).2.run pairCpu 3).map
      (fun r => (r.1, r.2.machine.rip)) = some (0, 0x1006) := by decide +kernel
  obtain ⟨⟨ret, t⟩, hrun, hv⟩ := Option.map_eq_some_iff.mp hobs
  obtain ⟨rfl, hrip⟩ := Prod.mk.inj hv
  exact ⟨t, hrun, hrip⟩

/-- A continue returns what the ideal run returns and leaves a process that shows what it leaves, and
it returns exactly if that run ends: in any number of instructions within which it does. -/
theorem continueExecution_ideal (C : Cpu ε) (code : Set Addr) (s₀ : Machine ε)
    (h : C.Tame code s₀) (s : Ideal ε) (li : BreakpointList) (d : Main (Proc ε))
    (hs : Shows C code s₀ s li d.kernel) (hquiet : ∀ e ∈ s.traps.marks, C.Quiet s₀ e.address)
    (hsys : d.debug.isSystrace = false) :
    (∀ fuel n ret d', continueExecution (cpuKernel C fuel) li n d = .ok (ret, d') →
      ∃ k t, s.run C k = some (ret, t) ∧ Shows C code s₀ t li d'.kernel) ∧
    ∀ k ret t, s.run C k = some (ret, t) → ∀ fuel n, k ≤ fuel + 1 → k ≤ n →
      ∃ d', continueExecution (cpuKernel C fuel) li n d = .ok (ret, d') ∧
        Shows C code s₀ t li d'.kernel :=
  ⟨fun fuel n ret d' hrun => continueExecution_sound fuel h hs hquiet hsys n ret d' hrun,
    fun _ _ _ hrun fuel _ hfuel hn => continueExecution_total fuel h hs hquiet hsys hrun hfuel hn⟩

theorem continueExecution_ideal_pair :
    ∃ li d d' t, continueExecution (cpuKernel pairCpu 2) li 3 d = .ok (0, d') ∧
      Shows pairCpu Set.univ nopStart t li d'.kernel ∧ t.machine.rip = 0x1006 := by
  obtain ⟨li, d, hshows, hsys⟩ := pair_placed
  obtain ⟨t, hrun, hrip⟩ := pair_run
  obtain ⟨d', hcont, ht⟩ := (continueExecution_ideal pairCpu Set.univ nopStart pair_tame _ li d hshows
    (fun e _ => pair_quiet e.address) hsys).2 3 0 t hrun 2 3 (by decide) (by decide)
  exact ⟨li, d, d', t, hcont, ht, hrip⟩

/-- A `step` returns, and it is as many instructions of the ideal debugger as it is told to execute,
or those up to an enabled breakpoint or the end of the program. -/
theorem stepX_ideal (C : Cpu ε) (code : Set Addr) (s₀ : Machine ε) (h : C.Tame code s₀)
    (s : Ideal ε) (li : BreakpointList) (d : Main (Proc ε)) (hs : Shows C code s₀ s li d.kernel)
    (hsolid : ∀ e ∈ s.traps.marks, C.Solid s₀ e.address)
    (hen : ∀ e ∈ s.traps.marks, e.isEnabled = true) (fuel : Nat) (n : Int) :
    ∃ d', stepX (cpuKernel C fuel) li n d = .ok ((s.stepX C n.toNat).1, d') ∧
      Shows C code s₀ (s.stepX C n.toNat).2 li d'.kernel :=
  stepX_mimics fuel h hs hsolid hen n

theorem stepX_ideal_pair :
    ∃ li d d', stepX (cpuKernel pairCpu 0) li 2 d =
        .ok ((((Ideal.start nopStart).place 0x1004).2.stepX pairCpu 2).1, d') ∧
      Shows pairCpu Set.univ nopStart (((Ideal.start nopStart).place 0x1004).2.stepX pairCpu 2).2 li
        d'.kernel := by
  obtain ⟨li, d, hshows, -⟩ := pair_placed
  obtain ⟨d', hstep, ht⟩ := stepX_ideal pairCpu Set.univ nopStart pair_tame _ li d hshows
    (fun e he => by rw [(pair_marks he).1]; exact pair_solid) (fun e he => (pair_marks he).2) 0 2
  exact ⟨li, d, d', hstep, ht⟩

/-- The debugger's two processes are alike: both have ended, or both are stopped in one state. -/
def Alike (k k' : Proc ε) : Prop :=
  k.phase = .reaped ∧ k'.phase = .reaped ∨
    k.phase = .stopped ∧ k'.phase = .stopped ∧ k.machine = k'.machine

theorem Shows.alike {C : Cpu ε} {code : Set Addr} {s₀ : Machine ε} {s : Ideal ε}
    {li li' : BreakpointList} {k k' : Proc ε} (h : Shows C code s₀ s li k)
    (h' : Shows C code s₀ s li' k') : Alike k k' := by
  cases hover : s.isOver with
  | true => exact Or.inl ⟨h.gone hover, h'.gone hover⟩
  | false =>
    obtain ⟨hstop, -, hk⟩ := h.alive hover
    obtain ⟨hstop', -, hk'⟩ := h'.alive hover
    exact Or.inr ⟨hstop, hstop', hk.trans hk'.symm⟩

/-- `auto` and `continue` return together and with the same result, and leave the same process. -/
theorem auto_continue (C : Cpu ε) (code : Set Addr) (s₀ : Machine ε) (h : C.Tame code s₀)
    (s : Ideal ε) (li : BreakpointList) (d : Main (Proc ε)) (hs : Shows C code s₀ s li d.kernel)
    (hsolid : ∀ e ∈ s.traps.marks, C.Solid s₀ e.address) (hsys : d.debug.isSystrace = false)
    (v : Int) (hv : v ≠ exitStatusRet) :
    ((∃ fuel n r, stepAuto (cpuKernel C fuel) li v n d = .ok r) ↔
      ∃ fuel n r, continueExecution (cpuKernel C fuel) li n d = .ok r) ∧
    ∀ fuel n ret d₁, stepAuto (cpuKernel C fuel) li v n d = .ok (ret, d₁) →
      ∀ fuel' n' ret' d₂, continueExecution (cpuKernel C fuel') li n' d = .ok (ret', d₂) →
        ret = ret' ∧ Alike d₁.kernel d₂.kernel := by
  have hquiet : ∀ e ∈ s.traps.marks, C.Quiet s₀ e.address := fun e he => (hsolid e he).quiet h
  refine ⟨⟨?_, ?_⟩, ?_⟩
  · rintro ⟨fuel, n, ⟨ret, d₁⟩, hauto⟩
    obtain ⟨t, hrun, -⟩ := (stepAuto_mimics fuel h hs hsolid hv n).of_ok hauto
    obtain ⟨d₂, hcont, -⟩ := continueExecution_total n h hs hquiet hsys hrun (Nat.le_succ n) le_rfl
    exact ⟨n, n, _, hcont⟩
  · rintro ⟨fuel, n, ⟨ret, d₂⟩, hcont⟩
    obtain ⟨k, t, hrun, -⟩ := continueExecution_sound fuel h hs hquiet hsys n ret d₂ hcont
    have hmimics := stepAuto_mimics fuel h hs hsolid hv k
    rw [hrun] at hmimics
    obtain ⟨d₁, hauto, -⟩ := hmimics
    exact ⟨fuel, k, _, hauto⟩
  · intro fuel n ret d₁ hauto fuel' n' ret' d₂ hcont
    obtain ⟨t, hrun, hshows⟩ := (stepAuto_mimics fuel h hs hsolid hv n).of_ok hauto
    obtain ⟨k, t', hrun', hshows'⟩ := continueExecution_sound fuel' h hs hquiet hsys n' ret' d₂ hcont
    cases Ideal.run_unique hrun hrun'
    exact ⟨rfl, hshows.alike hshows'⟩

theorem auto_continue_pair :
    ∃ li d d₁ d₂, stepAuto (cpuKernel pairCpu 0) li 0 3 d = .ok (0, d₁) ∧
      continueExecution (cpuKernel pairCpu 2) li 3 d = .ok (0, d₂) ∧ Alike d₁.kernel d₂.kernel := by
  obtain ⟨li, d, hshows, hsys⟩ := pair_placed
  obtain ⟨t, hrun, -⟩ := pair_run
  have hsolid : ∀ e ∈ ((Ideal.start nopStart).place 0x1004).2.traps.marks,
      pairCpu.Solid nopStart e.address := fun e he => by rw [(pair_marks he).1]; exact pair_solid
  have hmimics := stepAuto_mimics 0 pair_tame hshows hsolid
    (show (0 : Int) ≠ exitStatusRet by decide) 3
  rw [hrun] at hmimics
  obtain ⟨d₁, hauto, -⟩ := hmimics
  obtain ⟨d₂, hcont, -⟩ := continueExecution_total 2 pair_tame hshows
    (fun e _ => pair_quiet e.address) hsys hrun (by decide) (le_refl 3)
  refine ⟨li, d, d₁, d₂, hauto, hcont, ?_⟩
  exact ((auto_continue pairCpu Set.univ nopStart pair_tame _ li d hshows hsolid hsys 0
    (by decide)).2 0 3 0 d₁ hauto 2 3 0 d₂ hcont).2

end Refinement

end Zkz.Debugger
