import Zkz.Symbols.BaseAddress
import Zkz.Symbols.LineBounds

/-!
# Lines by number

`GetAddressByLine` looks up the address of a source line. Before it searches the table it compares
the unit and the line with bounds that are computed by a scan each. Wherever a scan starts, it ends
on the safe side of everything it has seen, so that a wrong bound rejects no line of the table.

* `outOfLineRange_of_mem`: the comparisons let the lines of the table through.
* `getAddressByLine_run`: what the lookup finds in any table.
* `getAddressByLine_first`: the first line of the table with the unit and the number is found.
-/

namespace Zkz.Symbols

open Zkz.Lib Zkz.Debugger

/-! ## Calls of `AppendElement` -/

/-- The arguments of a call of `AppendElement`. -/
structure AppendCall where
  lineNumber : BitVec 32
  address : Addr
  unitNumber : Int

/-- Is this the call for a line of a compilation unit. -/
def AppendCall.Is (c : AppendCall) (compilationUnit lineNumber : Int) : Prop :=
  c.unitNumber = compilationUnit ∧ c.lineNumber.toInt = lineNumber

instance (c : AppendCall) (compilationUnit lineNumber : Int) :
    Decidable (c.Is compilationUnit lineNumber) := inferInstanceAs (Decidable (_ ∧ _))

/-- A new `DebugLineInfo` after some calls of `AppendElement`. -/
def appended (baseAddr : Addr) (calls : List AppendCall) : DebugLineInfo :=
  calls.foldl (fun info c => info.appendElement c.lineNumber c.address c.unitNumber) ⟨baseAddr, []⟩

/-- The address of the first appended line, and -1 as a `uint64_t` if there is none. -/
def firstAddress (calls : List AppendCall) (compilationUnit lineNumber : Int) : Addr :=
  match calls.find? fun c => c.Is compilationUnit lineNumber with
  | some c => c.address
  | none => BitVec.ofNat 64 (2 ^ 64 - 1)

/-- What a call of `AppendElement` puts in the table. -/
def AppendCall.line (c : AppendCall) : Lineinfo := ⟨c.lineNumber.toInt, c.address, c.unitNumber⟩

theorem appended_lines (baseAddr : Addr) (calls : List AppendCall) :
    (appended baseAddr calls).lines = calls.map AppendCall.line := by
  have happend : ∀ (info : DebugLineInfo), (calls.foldl (fun info c =>
      info.appendElement c.lineNumber c.address c.unitNumber) info).lines =
        info.lines ++ calls.map AppendCall.line := by
    induction calls with
    | nil =>
      intro info
      rw [List.map_nil, List.append_nil]
      rfl
    | cons c calls ih =>
      intro info
      rw [List.foldl_cons, ih, List.map_cons]
      show info.lines ++ [c.line] ++ calls.map AppendCall.line = _
      rw [List.append_assoc, List.singleton_append]
  exact happend ⟨baseAddr, []⟩

/-! ## The lookup -/

section Lookup

variable {σ : Type} {lines : List Lineinfo} {x : Lineinfo}

/-- The guards do not reject a line of the table. -/
theorem outOfLineRange_of_mem (prevMin : Int) (h : x ∈ lines) (d : Main σ) :
    outOfLineRange prevMin lines x.unitNumber x.lineNumber d = .ok (false, d) := by
  have hentry : ∃ y ∈ lines, y.unitNumber = x.unitNumber := ⟨x, h, rfl⟩
  have hx : x ∈ lines.filter (·.unitNumber = x.unitNumber) := mem_unitLines.mpr ⟨h, rfl⟩
  unfold outOfLineRange
  rw [if_neg (not_gt_noOfCompilationUnits hentry), run_bind_ok (getMaxLineNumber_run hentry d),
    if_neg (not_lt.mpr (le_scanMax hx)), run_bind_ok (getMinLineNumber_run prevMin hentry d),
    decide_eq_false (not_lt.mpr (scanMin_le hx))]
  rfl

/-- The three tests only write to the log. -/
theorem outOfLineRange_run (prevMin : Int) (lines : List Lineinfo) (unit lineNumber : Int)
    (d : Main σ) :
    ∃ rejected out, outOfLineRange prevMin lines unit lineNumber d =
      .ok (rejected, { d with out := out }) := by
  unfold outOfLineRange getMaxLineNumber getMinLineNumber
  by_cases hunit : unit > getNoOfCompilationUnits lines
  · exact ⟨true, d.out, by rw [if_pos hunit]; rfl⟩
  · simp only [if_neg hunit]
    by_cases hmax : lineNumber > (lines.filter (·.unitNumber = unit)).foldl
        (fun prevMax x => if x.lineNumber > prevMax then x.lineNumber else prevMax) 0
    · exact ⟨true, d.out, by rw [pure_bind, if_pos hmax]; rfl⟩
    · exact ⟨_, d.out, by rw [pure_bind, if_neg hmax]; rfl⟩

/-- The address of the first line of a table with the unit and the number, and -1 if there is
none. -/
def lookedUp (lines : List Lineinfo) (unit lineNumber : Int) : Addr :=
  match lines.find? fun x => x.unitNumber = unit ∧ x.lineNumber = lineNumber with
  | some x => x.address
  | none => -1

/-- The lookup returns and only writes to the log. -/
theorem getAddressByLine_run (prevMin : Int) (lines : List Lineinfo) (unit lineNumber : Int)
    (d : Main σ) : ∃ out, getAddressByLine prevMin lines unit lineNumber d =
      .ok (lookedUp lines unit lineNumber, { d with out := out }) := by
  unfold getAddressByLine lookedUp
  cases hfind : lines.find? fun x => x.unitNumber = unit ∧ x.lineNumber = lineNumber with
  | some x =>
    have hx := List.mem_of_find?_eq_some hfind
    have hfound := List.find?_some hfind
    simp only [decide_eq_true_eq] at hfound
    obtain ⟨rfl, rfl⟩ := hfound
    refine ⟨d.out, ?_⟩
    rw [run_bind_ok (outOfLineRange_of_mem prevMin hx d)]
    rfl
  | none =>
    obtain ⟨rejected, out, hrun⟩ := outOfLineRange_run prevMin lines unit lineNumber d
    rw [run_bind_ok hrun]
    cases rejected with
    | true => exact ⟨_, rfl⟩
    | false => exact ⟨out, rfl⟩

end Lookup

/-- **`GetAddressByLine` finds the first line** that was appended with the unit and the number, for
every start of the scan for the least line; and the guards reject no line that is in the table. -/
theorem getAddressByLine_first {σ : Type} (baseAddr : Addr) (calls : List AppendCall)
    (compilationUnit lineNumber prevMin : Int) (d : Main σ) :
    (∃ out, getAddressByLine prevMin (appended baseAddr calls).lines compilationUnit lineNumber d =
      .ok (firstAddress calls compilationUnit lineNumber, { d with out := out })) ∧
    ((∃ c ∈ calls, c.Is compilationUnit lineNumber) →
      outOfLineRange prevMin (appended baseAddr calls).lines compilationUnit lineNumber d =
        .ok (false, d)) := by
  have hfind : (appended baseAddr calls).lines.find?
      (fun x => x.unitNumber = compilationUnit ∧ x.lineNumber = lineNumber) =
        (calls.find? fun c => c.Is compilationUnit lineNumber).map AppendCall.line := by
    rw [appended_lines, List.find?_map]
    rfl
  have hguards : (∃ c ∈ calls, c.Is compilationUnit lineNumber) →
      outOfLineRange prevMin (appended baseAddr calls).lines compilationUnit lineNumber d =
        .ok (false, d) := by
    rintro ⟨c, hc, rfl, rfl⟩
    refine outOfLineRange_of_mem (x := c.line) prevMin ?_ d
    rw [appended_lines]
    exact List.mem_map_of_mem hc
  have hfirst : lookedUp (appended baseAddr calls).lines compilationUnit lineNumber =
      firstAddress calls compilationUnit lineNumber := by
    unfold lookedUp firstAddress
    rw [hfind]
    cases calls.find? fun c => c.Is compilationUnit lineNumber with
    | some c => rfl
    | none => rfl
  obtain ⟨out, hrun⟩ := getAddressByLine_run prevMin (appended baseAddr calls).lines
    compilationUnit lineNumber d
  rw [hfirst] at hrun
  exact ⟨⟨out, hrun⟩, hguards⟩

end Zkz.Symbols
