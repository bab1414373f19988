import Zkz.Debugger.Numbering

/-!
# Removing all breakpoints

`RemoveAllBreakpoints` removes the breakpoint number `i + 1` for each index `i` below the size of the
list. The size shrinks with each removal while the index grows, so that they meet half way; and a
number that is missing counts as removed.

* `removeAllLoop_run`: from the second index on the loop leaves a breakpoint if there is one.
* `removeAllBreakpoints_empties_iff`: the list is empty afterwards exactly if it was, or had one
  breakpoint with number 1.
-/

namespace Zkz.Debugger

open Zkz.Lib BreakpointList

variable {σ : Type}

/-- The loop of `RemoveAllBreakpoints` at index `i`. The fuel bounds its rounds. -/
def removeAllLoop (K : Kernel σ) : Nat → Nat → BreakpointList → DbgM σ (Int × BreakpointList)
  | 0, _, _ => throw .noReturn
  | fuel + 1, i, li => do
    if (i : Int) < getNoOfBreakpoints li then
      let r ← removeElement K li (i + 1)
      if r.1 < 0 then return (-1, r.2)
      removeAllLoop K fuel (i + 1) r.2
    else return (0, li)

/-- There are no more rounds than breakpoints, and one test more. -/
def removeAllBreakpoints (K : Kernel σ) (li : BreakpointList) : DbgM σ (Int × BreakpointList) :=
  removeAllLoop K (li.length + 1) 0 li

/-- A removal takes at most one breakpoint out. -/
theorem dropNumber_length (li : BreakpointList) (n : Int) :
    (dropNumber li n).length ≤ li.length ∧ li.length ≤ (dropNumber li n).length + 1 := by
  unfold dropNumber
  cases h : removalIndex li n with
  | none => simp
  | some i =>
    have hi := removalIndex_lt h
    simp only [List.length_eraseIdx, hi, if_true]
    omega

section Clearing

variable {K : Kernel σ}

/-- A round that is not the last. -/
theorem removeAllLoop_succ (hK : K.PeekPoke) (fuel : Nat) {i : Nat} {li : BreakpointList}
    (h : i < li.length) (d : Main σ) :
    ∃ d', removeAllLoop K (fuel + 1) i li d =
      removeAllLoop K fuel (i + 1) (dropNumber li (i + 1)) d' := by
  obtain ⟨d', hrun⟩ := removeElement_run hK li (i + 1) d
  refine ⟨d', ?_⟩
  have hlt : (i : Int) < getNoOfBreakpoints li := by
    unfold getNoOfBreakpoints
    omega
  rw [removeAllLoop, if_pos hlt, run_bind_ok hrun]
  rfl

/-- The round in which the index has met the size. -/
theorem removeAllLoop_last {fuel i : Nat} {li : BreakpointList} (h : li.length ≤ i) (d : Main σ) :
    removeAllLoop K (fuel + 1) i li d = .ok ((0, li), d) := by
  have hge : ¬ (i : Int) < getNoOfBreakpoints li := by
    unfold getNoOfBreakpoints
    omega
  rw [removeAllLoop, if_neg hge]
  rfl

/-- With as many rounds as there are breakpoints the loop ends. It does not empty the list from the
second index on: a round removes a breakpoint only if there are two. -/
theorem removeAllLoop_run (hK : K.PeekPoke) (fuel i : Nat) (li : BreakpointList)
    (h : li.length < i + fuel + 1) (d : Main σ) :
    ∃ li' d', removeAllLoop K (fuel + 1) i li d = .ok ((0, li'), d') ∧
      (0 < i → li ≠ [] → li' ≠ []) := by
  induction fuel generalizing i li d with
  | zero => exact ⟨li, d, removeAllLoop_last (by omega) d, fun _ hne => hne⟩
  | succ fuel ih =>
    by_cases hi : i < li.length
    · obtain ⟨d₁, hround⟩ := removeAllLoop_succ hK (fuel + 1) hi d
      obtain ⟨hle, hge⟩ := dropNumber_length li (i + 1)
      obtain ⟨li', d', hrest, hne⟩ := ih (i + 1) (dropNumber li (i + 1)) (by omega) d₁
      refine ⟨li', d', hround.trans hrest, ?_⟩
      intro hpos _
      apply hne (Nat.succ_pos i)
      rw [← List.length_pos_iff_ne_nil]
      omega
    · exact ⟨li, d, removeAllLoop_last (by omega) d, fun _ hne => hne⟩

/-- What the first removal has to leave: nothing, and there is no second. -/
theorem dropNumber_one_eq_nil {li : BreakpointList} (h : li ≠ []) :
    dropNumber li 1 = [] ↔ ∃ b, li = [b] ∧ b.breakpointNumber = 1 := by
  constructor
  · intro hnil
    obtain ⟨-, hge⟩ := dropNumber_length li 1
    rw [hnil, List.length_nil] at hge
    obtain ⟨b, rfl⟩ : ∃ b, li = [b] := List.length_eq_one_iff.mp
      (Nat.le_antisymm hge (List.length_pos_iff_ne_nil.mpr h))
    refine ⟨b, rfl, ?_⟩
    unfold dropNumber at hnil
    cases hindex : removalIndex [b] 1 with
    | none =>
      rw [hindex] at hnil
      cases hnil
    | some p =>
      obtain ⟨-, -, c, hc, hnumber⟩ := removalIndex_spec hindex
      obtain rfl := List.mem_singleton.mp (List.mem_of_getElem? hc)
      exact hnumber
  · rintro ⟨b, rfl, hnumber⟩
    have hindex : removalIndex [b] 1 = some 0 := by
      unfold removalIndex getNoOfBreakpoints
      simp [hnumber]
    unfold dropNumber
    rw [hindex]
    rfl

/-- Which lists are emptied. -/
theorem removeAllBreakpoints_run (hK : K.PeekPoke) (li : BreakpointList) (d : Main σ) :
    ∃ li' d', removeAllBreakpoints K li d = .ok ((0, li'), d') ∧
      (li' = [] ↔ li = [] ∨ ∃ b, li = [b] ∧ b.breakpointNumber = 1) := by
  unfold removeAllBreakpoints
  by_cases hli : li = []
  · subst hli
    exact ⟨[], d, rfl, iff_of_true rfl (Or.inl rfl)⟩
  · have hpos := List.length_pos_iff_ne_nil.mpr hli
    obtain ⟨fuel, hfuel⟩ : ∃ fuel, li.length = fuel + 1 := ⟨li.length - 1, by omega⟩
    obtain ⟨d₁, hround⟩ := removeAllLoop_succ hK (fuel + 1) hpos d
    obtain ⟨hle, -⟩ := dropNumber_length li 1
    obtain ⟨li', d', hrest, hne⟩ := removeAllLoop_run hK fuel 1 (dropNumber li 1) (by omega) d₁
    rw [hfuel]
    refine ⟨li', d', hround.trans hrest, ?_⟩
    rw [or_iff_right hli, ← dropNumber_one_eq_nil hli]
    constructor
    · intro hnil
      by_contra hleft
      exact hne Nat.one_pos hleft hnil
    · intro hnil
      rw [hnil, removeAllLoop_last (Nat.zero_le 1)] at hrest
      cases hrest
      rfl

end Clearing

/-- **All breakpoints are removed**, after every run of appends and removals, exactly if there is
none, or one with number 1. -/
theorem removeAllBreakpoints_empties_iff {K : Kernel σ} (hK : K.PeekPoke) (ops : List Edit)
    (d : Main σ) : ∃ li d₁, runAll (edit K) ops [] d = .ok (li, d₁) ∧
      ((∃ d₂, removeAllBreakpoints K li d₁ = .ok ((0, []), d₂)) ↔
        li = [] ∨ ∃ b, li = [b] ∧ b.breakpointNumber = 1) := by
  obtain ⟨li, d₁, hrun⟩ := edits_run hK ops [] d
  refine ⟨li, d₁, hrun, ?_⟩
  obtain ⟨li', d₂, hall, hiff⟩ := removeAllBreakpoints_run hK li d₁
  rw [← hiff, hall]
  constructor
  · rintro ⟨d₃, hok⟩
    cases hok
    rfl
  · rintro rfl
    exact ⟨d₂, rfl⟩

/-- One breakpoint is removed. -/
theorem one_removed : ∃ li d₁, runAll (edit stoppedKernel) [.append 0x1000 0] []
      (Main.init fun _ => 0) = .ok (li, d₁) ∧
    ∃ d₂, removeAllBreakpoints stoppedKernel li d₁ = .ok ((0, []), d₂) := by
  obtain ⟨li, d₁, hrun, hiff⟩ := removeAllBreakpoints_empties_iff stoppedKernel_stopped.peekPoke
    [.append 0x1000 0] (Main.init fun _ => 0)
  refine ⟨li, d₁, hrun, hiff.mpr ?_⟩
  cases hrun
  exact Or.inr ⟨_, rfl, rfl⟩

/-- Of two breakpoints the second stays. -/
theorem second_stays : ∃ li d₁ b d₂,
    runAll (edit stoppedKernel) [.append 0x1000 0, .append 0x2000 0] [] (Main.init fun _ => 0) =
      .ok (li, d₁) ∧
    removeAllBreakpoints stoppedKernel li d₁ = .ok ((0, [b]), d₂) ∧ b.address = 0x2000 ∧
    ¬ ∃ d₃, removeAllBreakpoints stoppedKernel li d₁ = .ok ((0, []), d₃) := by
  refine ⟨_, _, ⟨true, 0x2000, 0, 2⟩, _, rfl, rfl, rfl, ?_⟩
  rintro ⟨d₃, hrun⟩
  cases hrun

end Zkz.Debugger
