import Zkz.Lib.Scans
import Zkz.Debugger.Composition
import Zkz.Debugger.OneShot

/-!
# The selected compilation unit

`select` takes the number of a unit as its argument or as the answer to a question. An argument is
compared with the number of units once the variable of `MainLoop` is set, an answer is not compared
at all.

* `mainTurn_selects`: a turn that selects a number sets the unit to it, in range or not.
* `mainTurn_unit`: every other turn leaves the unit as it was.
* `unit_in_range_iff`: in a session the unit is in range, and left alone by the selects that report
  an error, exactly when every number selected is in range.
-/

namespace Zkz.Debugger

open Zkz.Lib BreakpointList

variable {σ : Type}

/-! ## Turns that leave the unit alone -/

def Turn.HasUnit (unit : Int) : Turn → Prop
  | .prompt p => p.defaultCompilationUnit = unit
  | .returned _ => True

/-- A handler that leaves the unit as it was, from any state. -/
def KeepsUnit (unit : Int) (x : DbgM σ Turn) : Prop := ∀ d, Post x d fun t _ => t.HasUnit unit

section Handlers

variable {K : Kernel σ} {env : Loaded σ} {n : Nat} {unit : Int} {p : Prompt}

theorem keepsUnit_bind {α : Type} {x : DbgM σ α} {f : α → DbgM σ Turn}
    (hf : ∀ a, KeepsUnit unit (f a)) : KeepsUnit unit (x >>= f) := by
  intro d
  exact post_bind (Q := fun _ _ => True) (fun _ _ _ => trivial) fun a s' _ => hf a s'

theorem keepsUnit_atPrompt (h : p.defaultCompilationUnit = unit) :
    KeepsUnit unit (atPrompt p : DbgM σ Turn) := fun _ => post_pure h

/-- What the functions do does not matter. -/
theorem keepsUnit_handles (unit : Int) : Handles (fun _ _ => True)
    (KeepsUnit unit : DbgM σ Turn → Prop) (·.defaultCompilationUnit = unit) where
  pure _ := trivial
  bind _ _ := trivial
  get := trivial
  log _ _ _ := trivial
  next _ hf := keepsUnit_bind hf
  atPrompt h := keepsUnit_atPrompt h
  returned _ := fun _ => post_pure trivial
  moved hp hq := hq.trans hp

end Handlers

/-! ## Selects -/

/-- The command is a `select`. -/
def IsSelect (command : Line) : Prop := (tokenize command).headD [] = "select".toList

/-- The text that a `select` converts: its argument, or the answer to its question. -/
def selectWord (commands : List Line) (input : List Line) : Line :=
  commands[1]?.getD (input.headD [])

/-- The next command is a `select` of the number `unit`, while the program runs and its debug
information is available. -/
def Selects (p : Prompt) (d : Main σ) (unit : Int) : Prop :=
  ∃ command rest, p.input = command :: rest ∧ IsSelect command ∧ d.debug.isRunning = true ∧
    d.debug.dwarfState = true ∧ stoi (selectWord (tokenize command) rest) = .ok unit

/-- The next command is a `select`, and it reports an error. -/
def SelectFails (p : Prompt) (d d' : Main σ) : Prop :=
  (∃ command rest, p.input = command :: rest ∧ IsSelect command) ∧
    ∃ l ∈ d'.out.drop d.out.length, l.level = .error

/-- The number is that of a compilation unit, or 0. -/
def UnitInRange (env : Loaded σ) (unit : Int) : Prop :=
  0 ≤ unit ∧ unit ≤ getNoOfCompilationUnits env.lines

section Selects

variable {K : Kernel σ} {env : Loaded σ} {n : Nat} {p p' : Prompt} {d d' : Main σ}
  {command : Line} {unit : Int}

/-- The commands that are compared as a whole are no `select`. -/
theorem IsSelect.not_isOneOf (h : IsSelect command) :
    isOneOf ["run", "r", "continue", "c"] command = false := by
  apply isOneOf_eq_false h
  unfold IsSelect
  decide

theorem handle_select (h : IsSelect command) :
    handle K env n command p = handleSelect env (tokenize command) p := by
  unfold handle
  rw [h.not_isOneOf]
  unfold IsSelect at h
  simp only [h]
  rfl

theorem IsSelect.ne_nil (h : IsSelect command) : command ≠ [] := by
  rintro rfl
  revert h
  unfold IsSelect
  decide

theorem handle_unit (h : ¬ IsSelect command) :
    KeepsUnit p.defaultCompilationUnit (handle K env n command p) := by
  have hu := keepsUnit_handles (σ := σ) p.defaultCompilationUnit
  have hp : p.defaultCompilationUnit = p.defaultCompilationUnit := rfl
  apply hu.ite (hu.handleRun trivial trivial hp)
  apply hu.ite (hu.handleList _ hp)
  apply hu.ite (hu.handleListsym (fun _ => trivial) _ hp)
  rw [if_neg]
  · apply hu.ite (hu.handleBreakl (fun _ _ => trivial) _ hp)
    apply hu.ite (hu.handleBreak (fun _ _ => trivial) _ hp)
    apply hu.ite (hu.handleInfoRegisters trivial hp)
    apply hu.ite (hu.handlePrintb hp)
    apply hu.ite (hu.handleDelete (fun _ _ => trivial) trivial hp)
    split
    · rename_i hset
      exact hu.handleSet (hu.setTo fun _ _ => trivial)
        (List.mem_singleton.mp (mem_of_isOneOf hset)) hp
    · apply hu.ite (hu.handleDisable (fun _ _ => trivial) (fun _ => post_throw _) _ hp)
      apply hu.ite (hu.handleInfo (fun _ => trivial) trivial hp)
      apply hu.ite (hu.handleAuto (fun _ => trivial) hp)
      apply hu.ite (hu.handleStep (fun _ => trivial) _ hp)
      apply hu.ite (hu.handleExit (keepsUnit_bind fun _ _ => post_pure trivial) hp)
      exact hu.ite (hu.handleHelp hp) (keepsUnit_atPrompt hp)
  · intro hone
    simp only [isOneOf, List.any_cons, List.any_nil, Bool.or_false, decide_eq_true_eq] at hone
    exact h hone.symm

variable (K env n) in
/-- A turn that selects a number sets the unit to it; a number in range is no error. -/
theorem mainTurn_selects (h : Selects p d unit) :
    ∃ q lines, mainTurn K env n p d = .ok (.prompt q, { d with out := d.out ++ lines }) ∧
      q.defaultCompilationUnit = unit ∧
      (UnitInRange env unit → ∀ l ∈ lines, l.level ≠ .error) := by
  obtain ⟨command, rest, hinput, hselect, hrunning, hdwarf, hunit⟩ := h
  have hstart : mainTurn K env n p d =
      handleSelect env (tokenize command) { p with input := rest }
        { d with out := d.out ++ [⟨.prompt, "[zkz] ", []⟩] } := by
    unfold mainTurn
    rw [run_bind_ok (by rfl), hinput]
    simp only
    rw [if_neg hselect.ne_nil, handle_select hselect]
  unfold handleSelect whenRunning at hstart
  rw [run_bind_ok (by rfl), if_pos (by exact hrunning), run_bind_ok (by rfl),
    if_pos (by exact hdwarf)] at hstart
  unfold selectWord at hunit
  cases hword : (tokenize command)[1]? with
  | none =>
    rw [hword] at hstart hunit
    cases rest with
    | nil => cases hunit
    | cons word rest =>
      have hne : word ≠ [] := by
        rintro rfl
        cases hunit
      change stoi word = .ok unit at hunit
      refine ⟨⟨p.li, unit, rest⟩,
        [⟨.prompt, "[zkz] ", []⟩, ⟨.prompt, "Please select a comilation unit\n", []⟩], ?_, rfl, ?_⟩
      · simp only [ask] at hstart
        rw [hstart, run_bind_ok (by rfl), if_neg hne, hunit]
        simp only [List.append_assoc]
        rfl
      · intro _
        decide
  | some word =>
    rw [hword] at hstart hunit
    change stoi word = .ok unit at hunit
    simp only [hunit] at hstart
    by_cases hrange : UnitInRange env unit
    · have hin : ¬ (unit < 0 ∨ unit > getNoOfCompilationUnits env.lines) := by
        have h := hrange
        unfold UnitInRange at h
        omega
      refine ⟨⟨p.li, unit, rest⟩,
        [⟨.prompt, "[zkz] ", []⟩, ⟨.print, "Compilation unit : %d selected\n", [.int unit]⟩],
        ?_, rfl, ?_⟩
      · rw [hstart, if_neg hin, run_bind_ok (by rfl)]
        simp only [List.append_assoc]
        rfl
      · simp
    · have hout : unit < 0 ∨ unit > getNoOfCompilationUnits env.lines := by
        unfold UnitInRange at hrange
        omega
      refine ⟨⟨p.li, unit, rest⟩, [⟨.prompt, "[zkz] ", []⟩,
        ⟨.error, "Compilation unit number is not in range\n", []⟩], ?_, rfl,
        fun h => absurd h hrange⟩
      rw [hstart, if_pos hout]
      unfold complain
      rw [run_bind_ok (by rfl)]
      simp only [List.append_assoc]
      rfl

/-- A `select` that converts no number leaves the unit as it was. -/
theorem handleSelect_unit {rest : List Line} (hinput : p.input = command :: rest)
    (hselect : IsSelect command) (h : ∀ unit, ¬ Selects p d unit) {d₁ : Main σ}
    (hdebug : d₁.debug = d.debug) :
    Post (handleSelect env (tokenize command) { p with input := rest }) d₁ fun t _ =>
      t.HasUnit p.defaultCompilationUnit := by
  refine post_get_bind (post_ite (fun hrunning => ?_) fun _ => ?_)
  · refine post_get_bind (post_ite (fun hdwarf => ?_) fun _ => ?_)
    · rw [hdebug] at hrunning hdwarf
      have hnone : ∀ unit, stoi (selectWord (tokenize command) rest) ≠ .ok unit :=
        fun unit hunit => h unit ⟨command, rest, hinput, hselect, hrunning, hdwarf, hunit⟩
      unfold selectWord at hnone
      cases hword : (tokenize command)[1]? with
      | none =>
        rw [hword] at hnone
        refine post_bind_ok rfl ?_
        cases rest with
        | nil => exact post_bind_ok rfl (post_pure trivial)
        | cons word rest =>
          refine post_ite (fun _ => (keepsUnit_handles _).complain _ rfl _) fun _ => ?_
          simp only
          split
          · exact (keepsUnit_bind fun _ => keepsUnit_atPrompt rfl) _
          · rename_i unit hunit
            exact absurd hunit (hnone unit)
      | some word =>
        rw [hword] at hnone
        simp only
        split
        · exact (keepsUnit_bind fun _ => keepsUnit_atPrompt rfl) _
        · rename_i unit hunit
          exact absurd hunit (hnone unit)
    · exact (keepsUnit_bind fun _ => keepsUnit_atPrompt rfl) _
  · exact (keepsUnit_bind fun _ => keepsUnit_atPrompt rfl) _

/-- A turn that selects no number leaves the unit as it was. -/
theorem mainTurn_unit (h : ∀ unit, ¬ Selects p d unit) :
    Post (mainTurn K env n p) d fun t _ => t.HasUnit p.defaultCompilationUnit := by
  refine post_bind_ok rfl ?_
  cases hinput : p.input with
  | nil => exact post_bind_ok rfl (post_pure trivial)
  | cons command rest =>
    refine post_ite (fun _ => post_pure rfl) fun _ => ?_
    by_cases hselect : IsSelect command
    · rw [handle_select hselect]
      exact handleSelect_unit hinput hselect h rfl
    · exact handle_unit hselect _

/-! ## Sessions -/

theorem SelectFails.of_lines {lines : List LogLine}
    (h : SelectFails p d { d with out := d.out ++ lines }) : ∃ l ∈ lines, l.level = .error := by
  obtain ⟨-, l, hl, herror⟩ := h
  rw [List.drop_left] at hl
  exact ⟨l, hl, herror⟩

theorem getNoOfCompilationUnits_nonneg (lines : List Lineinfo) :
    0 ≤ getNoOfCompilationUnits lines := start_le_scanMax Lineinfo.unitNumber 0 lines

/-- A turn whose selects are in range keeps the unit in range. -/
theorem mainTurn_inRange (hsel : ∀ unit, Selects p d unit → UnitInRange env unit)
    (h : UnitInRange env p.defaultCompilationUnit)
    (hrun : mainTurn K env n p d = .ok (.prompt p', d')) :
    UnitInRange env p'.defaultCompilationUnit := by
  by_cases hs : ∃ unit, Selects p d unit
  · obtain ⟨unit, hs⟩ := hs
    obtain ⟨q, lines, hrun', hunit, -⟩ := mainTurn_selects K env n hs
    rw [hrun] at hrun'
    cases hrun'
    rw [hunit]
    exact hsel unit hs
  · have hsame : p'.defaultCompilationUnit = p.defaultCompilationUnit :=
      mainTurn_unit (fun unit hu => hs ⟨unit, hu⟩) _ _ hrun
    rw [hsame]
    exact h

/-- A `select` in range that reports an error selects nothing. -/
theorem mainTurn_fails (hsel : ∀ unit, Selects p d unit → UnitInRange env unit)
    (hrun : mainTurn K env n p d = .ok (.prompt p', d')) (hfails : SelectFails p d d') :
    p'.defaultCompilationUnit = p.defaultCompilationUnit := by
  refine mainTurn_unit (fun unit hs => ?_) _ _ hrun
  obtain ⟨q, lines, hrun', -, hlines⟩ := mainTurn_selects K env n hs
  rw [hrun] at hrun'
  cases hrun'
  obtain ⟨l, hl, herror⟩ := hfails.of_lines
  exact hlines (hsel unit hs) l hl herror

/-- **The unit that `breakl` uses is in range** at every prompt of a session, and as it was after
every `select` that reports an error, exactly when every number that is selected is in range. -/
theorem unit_in_range_iff (K : Kernel σ) (env : Loaded σ) (n : Nat) (input : List Line)
    (d₀ : Main σ) :
    ((∀ k p d, AtPrompt K env n input d₀ k p d → UnitInRange env p.defaultCompilationUnit) ∧
      ∀ k p d p' d', AtPrompt K env n input d₀ k p d → AtPrompt K env n input d₀ (k + 1) p' d' →
        SelectFails p d d' → p'.defaultCompilationUnit = p.defaultCompilationUnit) ↔
    ∀ k p d, AtPrompt K env n input d₀ k p d → ∀ unit, Selects p d unit →
      UnitInRange env unit := by
  constructor
  · rintro ⟨hrange, -⟩ k p d hp unit hs
    obtain ⟨q, lines, hrun, hunit, -⟩ := mainTurn_selects K env n hs
    rw [← hunit]
    exact hrange (k + 1) q _ (atPrompt_succ.mpr ⟨p, d, hp, hrun⟩)
  · intro hsel
    refine ⟨?_, ?_⟩
    · intro k
      induction k with
      | zero =>
        rintro p d ⟨⟩
        exact ⟨Int.le_refl 0, getNoOfCompilationUnits_nonneg env.lines⟩
      | succ k ih =>
        intro p d hp
        obtain ⟨q, e, hq, hrun⟩ := atPrompt_succ.mp hp
        exact mainTurn_inRange (hsel k q e hq) (ih q e hq) hrun
    · intro k p d p' d' hp hp' hfails
      obtain ⟨q, e, hq, hrun⟩ := atPrompt_succ.mp hp'
      obtain ⟨rfl, rfl⟩ := hp.unique hq
      exact mainTurn_fails (hsel k _ _ hp) hrun hfails

end Selects

/-! ## Units out of range -/

/-- The debugger of a stopped debuggee that it takes to be running. -/
def stoppedMain : Main Mem :=
  { Main.init (fun _ => 0) with debug := { Debug.init with isRunning := true } }

/-- The argument is out of range: the error is reported, and the unit is set all the same. -/
theorem unit_out_of_range :
    ∃ p d p' d', AtPrompt stoppedKernel (nothingLoaded _) 0 ["select 5".toList] stoppedMain 0 p d ∧
      AtPrompt stoppedKernel (nothingLoaded _) 0 ["select 5".toList] stoppedMain 1 p' d' ∧
      SelectFails p d d' ∧ p.defaultCompilationUnit = 0 ∧ p'.defaultCompilationUnit = 5 ∧
      ¬ UnitInRange (nothingLoaded Mem) p'.defaultCompilationUnit := by
  refine ⟨_, _, _, _, rfl, rfl, ⟨⟨"select 5".toList, [], rfl, ?_⟩, ?_⟩, rfl, rfl, ?_⟩
  · unfold IsSelect
    decide
  · exact ⟨⟨.error, "Compilation unit number is not in range\n", []⟩, by decide, rfl⟩
  · unfold UnitInRange
    decide

end Zkz.Debugger
