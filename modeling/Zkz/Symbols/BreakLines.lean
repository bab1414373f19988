import Zkz.Debugger.Placements
import Zkz.Debugger.Processes
import Zkz.Debugger.Stopped
import Zkz.Symbols.LineLookup

/-!
# The lines of a breakl command

`breakl` is to place a breakpoint at the first entry of the line table for each of the lines it is
given, on its own line or at its prompt, and to skip a line that the table does not have. The lookup
tells that with the address -1, which is unsigned: the test `address < 0` is never true, and
`PlaceBreakpoint` is called with 2^64 - 1.

* `handleBreakl_run`: the calls of a command are those of its words, one after the other.
* `breakLines_iff`: a command calls what it is to call exactly if all its lines are in the table.
-/

namespace Zkz.Symbols

open Zkz.Lib Zkz.Debugger

variable {σ : Type}

/-- The addresses `PlaceBreakpoint` is to be called with for a word. -/
def wantedPlacements (lines : List Lineinfo) (unit : Int) (word : Line) : List Addr :=
  match stoi word with
  | .error _ => []
  | .ok lineNumber =>
    match lines.find? fun x => x.unitNumber = unit ∧ x.lineNumber = lineNumber with
    | some x => [x.address]
    | none => []

/-- The addresses it is called with. -/
def linePlacements (lines : List Lineinfo) (unit : Int) (word : Line) : List Addr :=
  match stoi word with
  | .error _ => []
  | .ok lineNumber => [lookedUp lines unit lineNumber]

/-- A word that is no number, or a line that the table has for the unit. -/
def NamesLine (lines : List Lineinfo) (unit : Int) (word : Line) : Prop :=
  ∀ lineNumber, stoi word = .ok lineNumber →
    ∃ x ∈ lines, x.unitNumber = unit ∧ x.lineNumber = lineNumber

/-- The words that `breakl` is given: those of its line, or the answer at its prompt. -/
def givenWords (command : Line) (rest : List Line) : List Line :=
  if (tokenize command).length < 2 then rest.take 1 else (tokenize command).tail

section Words

variable {lines : List Lineinfo} {unit : Int}

theorem linePlacements_error {word : Line} {e : StoError}
    (h : stoi word = .error e) : linePlacements lines unit word = [] := by
  unfold linePlacements
  rw [h]

theorem linePlacements_ok {lineNumber : Int} {word : Line}
    (h : stoi word = .ok lineNumber) :
    linePlacements lines unit word = [lookedUp lines unit lineNumber] := by
  unfold linePlacements
  rw [h]

/-- A word is called for as it is to be, if the table has its line. -/
theorem wanted_eq_iff (word : Line) :
    wantedPlacements lines unit word = linePlacements lines unit word ↔
      NamesLine lines unit word := by
  unfold wantedPlacements linePlacements NamesLine lookedUp
  cases hread : stoi word with
  | error e => simp
  | ok lineNumber =>
    simp only [Except.ok.injEq, forall_eq']
    cases hfind : lines.find? fun x => x.unitNumber = unit ∧ x.lineNumber = lineNumber with
    | some x =>
      have hfound := List.find?_some hfind
      simp only [decide_eq_true_eq] at hfound
      exact iff_of_true rfl ⟨x, List.mem_of_find?_eq_some hfind, hfound⟩
    | none =>
      refine iff_of_false (List.cons_ne_nil _ _).symm ?_
      rintro ⟨x, hx, hline⟩
      exact absurd (List.find?_eq_none.mp hfind x hx) (by simpa using hline)

theorem wanted_length_le (word : Line) :
    (wantedPlacements lines unit word).length ≤ (linePlacements lines unit word).length := by
  unfold wantedPlacements linePlacements
  cases stoi word with
  | error e => exact Nat.le_refl _
  | ok lineNumber =>
    simp only
    split
    · exact Nat.le_refl _
    · exact Nat.zero_le _

/-- The calls for some words are those that are wanted exactly if all the lines are in the table. -/
theorem flatMap_placements_iff (words : List Line) :
    words.flatMap (wantedPlacements lines unit) = words.flatMap (linePlacements lines unit) ↔
      ∀ word ∈ words, NamesLine lines unit word := by
  rw [flatMap_eq_iff fun word _ => wanted_length_le word]
  exact forall₂_congr fun word _ => wanted_eq_iff word

end Words

/-! ## A command -/

section Command

variable {K : Kernel σ} {env : Loaded (σ × List Addr)}

/-- The address of a line is looked up and a breakpoint is placed there. -/
theorem placeLine_run (K : Kernel σ) (env : Loaded (σ × List Addr)) (unit lineNumber : Int)
    (li : BreakpointList) (d : Main (σ × List Addr)) :
    ∃ a d₁ r d₂, addressOfLine env unit lineNumber d = .ok (a, d₁) ∧
      placeBreakpoint K.peeked li a d₁ = .ok (r, d₂) ∧
      d₂.kernel.2 = d.kernel.2 ++ [lookedUp env.lines unit lineNumber] := by
  obtain ⟨out, hlookup⟩ := getAddressByLine_run (env.prevMin d) env.lines unit lineNumber d
  obtain ⟨r, d₂, hplace, hnoted⟩ := placeBreakpoint_peeked K li
    (lookedUp env.lines unit lineNumber) { d with out := out }
  refine ⟨_, _, r, d₂, ?_, hplace, hnoted⟩
  unfold addressOfLine
  rw [run_bind_ok (by rfl)]
  exact hlookup

/-- The loop over the words notes the calls of each. -/
theorem placeLines_run (K : Kernel σ) (env : Loaded (σ × List Addr)) (unit : Int)
    (words : List Line) (li : BreakpointList) (d : Main (σ × List Addr)) :
    ∃ li' d', placeLines K.peeked env unit words li d = .ok (li', d') ∧
      d'.kernel.2 = d.kernel.2 ++ words.flatMap (linePlacements env.lines unit) := by
  refine words_noted (fun _ _ => rfl) (fun word words li d => ?_) words li d
  rw [placeLines]
  cases hread : stoi word with
  | error e =>
    rw [linePlacements_error hread]
    cases e with
    | outOfRange => exact ⟨li, _, rfl, (List.append_nil _).symm⟩
    | invalidArgument => exact ⟨li, _, rfl, (List.append_nil _).symm⟩
  | ok lineNumber =>
    obtain ⟨a, d₁, r, d₂, hlookup, hplace, hnoted⟩ := placeLine_run K env unit lineNumber li d
    rw [linePlacements_ok hread]
    exact ⟨r.2, d₂, (run_bind_ok hlookup).trans (run_bind_ok hplace), hnoted⟩

theorem handle_breakl {n : Nat} {p : Prompt} {command : Line} {K : Kernel (σ × List Addr)}
    (h : isOneOf ["breakl", "bl"] (firstWord command) = true) :
    handle K env n command p = handleBreakl K env (tokenize command) p := by
  obtain ⟨hrun, -, -⟩ := none_whole (P := fun _ => True) trivial h (by decide)
  have hmem := mem_of_isOneOf h
  simp only [List.map_cons, List.map_nil, List.mem_cons, List.not_mem_nil, or_false] at hmem
  unfold handle
  rw [hrun]
  rcases hmem with hfirst | hfirst
  · simp only [hfirst]
    rfl
  · simp only [hfirst]
    rfl

/-- The command notes the calls of its words, and an answer at its prompt is one of them. -/
theorem handleBreakl_run (K : Kernel σ) (env : Loaded (σ × List Addr)) (p : Prompt)
    (command : Line) (rest : List Line) {d : Main (σ × List Addr)}
    (hrunning : d.debug.isRunning = true) (hdwarf : d.debug.dwarfState = true) :
    ∃ t d', handleBreakl K.peeked env (tokenize command) { p with input := rest } d = .ok (t, d') ∧
      d'.kernel.2 = d.kernel.2 ++
        (givenWords command rest).flatMap (linePlacements env.lines p.defaultCompilationUnit) := by
  unfold handleBreakl whenRunning givenWords
  rw [run_bind_ok (by rfl), if_pos (by exact hrunning), run_bind_ok (by rfl),
    if_pos (by exact hdwarf), run_bind_ok (by rfl)]
  by_cases hlen : (tokenize command).length < 2
  · rw [if_pos hlen, if_pos hlen]
    unfold ask
    rw [run_bind_ok (by rfl)]
    cases rest with
    | nil => exact ⟨_, _, rfl, (List.append_nil _).symm⟩
    | cons word rest =>
      simp only [List.take_succ_cons, List.take_zero, List.flatMap_cons, List.flatMap_nil,
        List.append_nil]
      by_cases hempty : word = []
      · have hread : stoi word = .error .invalidArgument := by
          rw [hempty]
          rfl
        rw [if_pos hempty, linePlacements_error hread]
        exact ⟨_, _, rfl, (List.append_nil _).symm⟩
      · rw [if_neg hempty]
        cases hread : stoi word with
        | error e =>
          rw [linePlacements_error hread]
          cases e with
          | outOfRange => exact ⟨_, _, rfl, (List.append_nil _).symm⟩
          | invalidArgument => exact ⟨_, _, rfl, (List.append_nil _).symm⟩
        | ok lineNumber =>
          obtain ⟨a, d₁, r, d₂, hlookup, hplace, hnoted⟩ := placeLine_run K env
            p.defaultCompilationUnit lineNumber p.li
              ⟨d.debug, d.regs, d.kernel, d.out ++ [⟨.debug, "Breakpoint at line number\n", []⟩] ++
                [⟨.prompt, "Enter line to place a breakpoint >", []⟩]⟩
          refine ⟨.prompt { p with li := r.2, input := rest }, d₂, ?_, ?_⟩
          · simp only
            rw [run_bind_ok hlookup]
            unfold placeAt
            rw [run_bind_ok hplace]
            rfl
          · rw [hnoted, linePlacements_ok hread]
  · rw [if_neg hlen, if_neg hlen]
    obtain ⟨li', d', hwords, hnoted⟩ := placeLines_run K env p.defaultCompilationUnit
      (tokenize command).tail p.li
        { d with out := d.out ++ [⟨.debug, "Breakpoint at line number\n", []⟩] }
    refine ⟨.prompt { p with li := li', input := rest }, d', ?_, hnoted⟩
    rw [run_bind_ok hwords]
    rfl

/-- The calls that a breakl command is to make. -/
def BreaksLinesRight (K : Kernel σ) (env : Loaded (σ × List Addr)) (n : Nat) (p : Prompt)
    (d : Main (σ × List Addr)) (command : Line) (rest : List Line) : Prop :=
  ∃ t d', mainTurn K.peeked env n { p with input := command :: rest } d = .ok (t, d') ∧
    d'.kernel.2 = d.kernel.2 ++
      (givenWords command rest).flatMap (wantedPlacements env.lines p.defaultCompilationUnit)

/-- **`breakl` calls `PlaceBreakpoint` once for each line that the table has**, in order and at its
first entry, and for no other line, exactly if every number it is given is a line of the table. -/
theorem breakLines_iff (K : Kernel σ) (env : Loaded (σ × List Addr)) (n : Nat) (p : Prompt)
    (d : Main (σ × List Addr)) (rest : List Line) {command : Line}
    (hrunning : d.debug.isRunning = true) (hdwarf : d.debug.dwarfState = true)
    (hfirst : isOneOf ["breakl", "bl"] ((tokenize command).headD []) = true) :
    BreaksLinesRight K env n p d command rest ↔
      ∀ word ∈ givenWords command rest, NamesLine env.lines p.defaultCompilationUnit word := by
  have hne : command ≠ [] := by
    rintro rfl
    exact absurd hfirst (by decide)
  obtain ⟨t, d', hrun, hnoted⟩ := handleBreakl_run K env p command rest
    (d := { d with out := d.out ++ [⟨.prompt, "[zkz] ", []⟩] }) hrunning hdwarf
  rw [← handle_breakl hfirst, ← mainTurn_command K.peeked env n p d hne] at hrun
  rw [← flatMap_placements_iff]
  unfold BreaksLinesRight
  rw [hrun]
  constructor
  · rintro ⟨t₁, d₁, hok, hwanted⟩
    cases hok
    rw [hnoted] at hwanted
    exact (List.append_cancel_left hwanted).symm
  · intro hcalls
    exact ⟨t, d', rfl, by rw [hnoted, hcalls]⟩

end Command

/-! ## A table of two lines -/

def twoLines : Loaded (Mem × List Addr) :=
  { nothingLoaded _ with lines := [⟨3, 0x401000, 0⟩, ⟨5, 0x401010, 0⟩] }

/-- Both lines, with a word between them that is no number. -/
theorem both_lines_broken : BreaksLinesRight stoppedKernel twoLines 0 ⟨[], 0, []⟩ unpeekedMain
    "breakl 3 x 5".toList [] :=
  (breakLines_iff stoppedKernel twoLines 0 ⟨[], 0, []⟩ unpeekedMain [] rfl rfl
    (by decide)).mpr (by
      have hwords : givenWords "breakl 3 x 5".toList [] =
          ["3".toList, "x".toList, "5".toList] := by decide
      rw [hwords]
      simp only [List.forall_mem_cons, List.not_mem_nil, false_imp_iff, implies_true, and_true]
      refine ⟨?_, ?_, ?_⟩
      · rintro lineNumber hread
        cases hread
        exact ⟨_, List.mem_cons_self .., rfl, rfl⟩
      · rintro lineNumber hread
        cases hread
      · rintro lineNumber hread
        cases hread
        exact ⟨_, List.mem_cons_of_mem _ (List.mem_cons_self ..), rfl, rfl⟩)

/-- What `breakl` has peeked when it ends, with some lines of input. -/
def peekedByLines (input : List Line) : Option (List Addr) :=
  (mainTurn stoppedKernel.peeked twoLines 0 ⟨[], 0, input⟩ unpeekedMain).toOption.map
    fun r => r.2.kernel.2

/-- For a line between the two a breakpoint is placed at 2^64 - 1, on both ways. -/
theorem missing_line_broken :
    peekedByLines ["breakl 4".toList] = some [0xffffffffffffffff] ∧
      peekedByLines ["breakl".toList, "4".toList] = some [0xffffffffffffffff] ∧
      ¬ BreaksLinesRight stoppedKernel twoLines 0 ⟨[], 0, []⟩ unpeekedMain "breakl 4".toList [] := by
  have hpeeked : peekedByLines ["breakl 4".toList] = some [0xffffffffffffffff] := by
    decide +kernel
  refine ⟨hpeeked, by decide +kernel, ?_⟩
  rintro ⟨t, d', hrun, hwanted⟩
  have hcalls : (givenWords "breakl 4".toList []).flatMap (wantedPlacements twoLines.lines 0) =
      [] := by decide +kernel
  unfold peekedByLines at hpeeked
  rw [hrun] at hpeeked
  rw [hcalls] at hwanted
  have hboth := (Option.some.inj hpeeked).symm.trans hwanted
  exact absurd hboth (by decide)

end Zkz.Symbols
