import Zkz.Lib.Scans
import Zkz.Debugger.Tables

/-!
# The least and the greatest line

`GetMaxLineNumber` and `GetMinLineNumber` scan the table for the lines of one compilation unit. The
first begins with 0, the second with a local that was never assigned.

* `getMaxLineNumber_run`, `getMinLineNumber_run`: what they return for a unit of the table.
* `lineBounds_iff`: both are exact if and only if the unassigned local is not below every line of
  the unit.
* `lineBounds_not_always`: so for no unit are they exact whatever the local holds.
-/

namespace Zkz.Symbols

open Zkz.Lib Zkz.Debugger

/-- The line numbers among the entries of a unit. -/
def unitLineNumbers (lines : List Lineinfo) (unit : Int) : Set Int :=
  {n | ∃ x ∈ lines, x.unitNumber = unit ∧ x.lineNumber = n}

/-- The functions return the least and the greatest line number of the unit. -/
def LineBoundsExact {σ : Type} (prevMin : Int) (lines : List Lineinfo) (unit : Int) (d : Main σ) :
    Prop :=
  ∃ least greatest d₁ d₂,
    getMinLineNumber prevMin lines unit d = .ok (least, d₁) ∧
    getMaxLineNumber lines unit d = .ok (greatest, d₂) ∧
    IsLeast (unitLineNumbers lines unit) least ∧ IsGreatest (unitLineNumbers lines unit) greatest

section Bounds

variable {σ : Type} {lines : List Lineinfo} {unit : Int} {x : Lineinfo}

/-! ## The runs -/

theorem unit_le_noOfCompilationUnits (h : x ∈ lines) :
    x.unitNumber ≤ getNoOfCompilationUnits lines := le_scanMax h

/-- The test of the unit rejects none that has a line. -/
theorem not_gt_noOfCompilationUnits (h : ∃ x ∈ lines, x.unitNumber = unit) :
    ¬ unit > getNoOfCompilationUnits lines := by
  obtain ⟨x, hx, rfl⟩ := h
  exact not_lt.mpr (unit_le_noOfCompilationUnits hx)

theorem getMaxLineNumber_run (h : ∃ x ∈ lines, x.unitNumber = unit) (d : Main σ) :
    getMaxLineNumber lines unit d =
      .ok (scanMax Lineinfo.lineNumber 0 (lines.filter (·.unitNumber = unit)), d) := by
  unfold getMaxLineNumber
  rw [if_neg (not_gt_noOfCompilationUnits h)]
  rfl

theorem getMinLineNumber_run (prevMin : Int) (h : ∃ x ∈ lines, x.unitNumber = unit) (d : Main σ) :
    getMinLineNumber prevMin lines unit d =
      .ok (scanMin Lineinfo.lineNumber prevMin (lines.filter (·.unitNumber = unit)), d) := by
  unfold getMinLineNumber
  rw [if_neg (not_gt_noOfCompilationUnits h)]
  rfl

/-! ## Exact bounds -/

theorem mem_unitLines :
    x ∈ lines.filter (·.unitNumber = unit) ↔ x ∈ lines ∧ x.unitNumber = unit := by
  rw [List.mem_filter, decide_eq_true_eq]

theorem unitLineNumbers_eq_image (lines : List Lineinfo) (unit : Int) :
    unitLineNumbers lines unit =
      Lineinfo.lineNumber '' {x | x ∈ lines.filter (·.unitNumber = unit)} := by
  ext n
  simp only [unitLineNumbers, Set.mem_image, Set.mem_ofPred_eq, mem_unitLines, and_assoc]

theorem isLeast_unitLineNumbers_iff {prevMin : Int} :
    IsLeast (unitLineNumbers lines unit)
        (scanMin Lineinfo.lineNumber prevMin (lines.filter (·.unitNumber = unit))) ↔
      ∃ x ∈ lines, x.unitNumber = unit ∧ x.lineNumber ≤ prevMin := by
  rw [unitLineNumbers_eq_image, isLeast_scanMin_iff]
  simp only [mem_unitLines, and_assoc]

/-- No line is below 0, where the scan for the greatest begins. -/
theorem isGreatest_unitLineNumbers (hentry : ∃ x ∈ lines, x.unitNumber = unit)
    (hnonneg : ∀ x ∈ lines, x.unitNumber = unit → 0 ≤ x.lineNumber) :
    IsGreatest (unitLineNumbers lines unit)
      (scanMax Lineinfo.lineNumber 0 (lines.filter (·.unitNumber = unit))) := by
  rw [unitLineNumbers_eq_image, isGreatest_scanMax_iff]
  obtain ⟨x, hx, hunit⟩ := hentry
  exact ⟨x, mem_unitLines.mpr ⟨hx, hunit⟩, hnonneg x hx hunit⟩

theorem lineBoundsExact_iff_isLeast {prevMin : Int} (hentry : ∃ x ∈ lines, x.unitNumber = unit)
    (hnonneg : ∀ x ∈ lines, x.unitNumber = unit → 0 ≤ x.lineNumber) {d : Main σ} :
    LineBoundsExact prevMin lines unit d ↔ IsLeast (unitLineNumbers lines unit)
      (scanMin Lineinfo.lineNumber prevMin (lines.filter (·.unitNumber = unit))) := by
  have hmin := getMinLineNumber_run prevMin hentry d
  constructor
  · rintro ⟨least, greatest, d₁, d₂, hrun, -, hleast, -⟩
    rw [hmin] at hrun
    cases hrun
    exact hleast
  · exact fun h => ⟨_, _, d, d, hmin, getMaxLineNumber_run hentry d, h,
      isGreatest_unitLineNumbers hentry hnonneg⟩

/-- **The bounds of a unit are exact** if and only if the local that the scan for the least line
begins with holds no less than some line of the unit. -/
theorem lineBounds_iff (prevMin : Int) (hentry : ∃ x ∈ lines, x.unitNumber = unit)
    (hnonneg : ∀ x ∈ lines, x.unitNumber = unit → 0 ≤ x.lineNumber) (d : Main σ) :
    LineBoundsExact prevMin lines unit d ↔
      ∃ x ∈ lines, x.unitNumber = unit ∧ x.lineNumber ≤ prevMin :=
  (lineBoundsExact_iff_isLeast hentry hnonneg).trans isLeast_unitLineNumbers_iff

/-- In every table a negative local is below all the lines of the unit. -/
theorem lineBounds_not_always (hentry : ∃ x ∈ lines, x.unitNumber = unit)
    (hnonneg : ∀ x ∈ lines, x.unitNumber = unit → 0 ≤ x.lineNumber) (d : Main σ) :
    ¬ ∀ prevMin, LineBoundsExact prevMin lines unit d := by
  intro h
  have hleast := (lineBoundsExact_iff_isLeast hentry hnonneg).mp (h (-1))
  obtain ⟨x, hx, hunit, hle⟩ := isLeast_unitLineNumbers_iff.mp hleast
  have hpos := hnonneg x hx hunit
  omega

end Bounds

/-! ## A table of two units -/

def twoUnits : List Lineinfo :=
  [⟨7, 0x401000, 0⟩, ⟨2, 0x402000, 1⟩, ⟨4, 0x401008, 0⟩, ⟨9, 0x401010, 0⟩]

/-- A local that holds 0 is returned as the least line of unit 0, which is 4. -/
theorem least_line_zero :
    getMinLineNumber 0 twoUnits 0 (Main.init ()) = .ok (0, Main.init ()) ∧
      ¬ LineBoundsExact 0 twoUnits 0 (Main.init ()) := by
  have hzero : getMinLineNumber 0 twoUnits 0 (Main.init ()) = .ok (0, Main.init ()) := rfl
  refine ⟨hzero, ?_⟩
  rintro ⟨least, greatest, d₁, d₂, hrun, -, hleast, -⟩
  rw [hzero] at hrun
  cases hrun
  obtain ⟨x, hx, -, hline⟩ := hleast.1
  have hpos : ∀ x ∈ twoUnits, 0 < x.lineNumber := by decide
  exact absurd hline (hpos x hx).ne'

/-- A local that holds 5 is not below line 4. -/
theorem least_line_four : LineBoundsExact 5 twoUnits 0 (Main.init ()) :=
  have hline : ⟨4, 0x401008, 0⟩ ∈ twoUnits := by simp [twoUnits]
  (lineBounds_iff 5 ⟨_, hline, rfl⟩ (by decide) _).mpr ⟨_, hline, rfl, by decide⟩

end Zkz.Symbols
