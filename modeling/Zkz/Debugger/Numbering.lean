import Zkz.Lib.Runs
import Zkz.Debugger.Stopped
import Mathlib.Data.List.Nodup

/-!
# Breakpoint numbers

`AppendElement` numbers a breakpoint by the size of the list, and both lookups by number
compare the number with the size first. In a list built by `AppendElement` and
`RemoveElement` the breakpoint at position `i` has a number of at least `i + 1` (`Above`).
The numbers agree with the lookups (`NumbersAgree`) exactly when they are `1, …, n` in order
(`Consecutive`), and a list that has lost this order never regains it: the last number is
then larger than the size, so `RemoveElement` rejects it.

* `numbersAgree_iff`: agreement is consecutive numbering.
* `numbers_agree_iff_removes_last`: after a run, the numbers agree exactly when every removal
  was of the last breakpoint or of none.
-/

namespace Zkz.Debugger

open Zkz.Lib BreakpointList

variable {σ : Type}

/-! ## Operations on the list -/

inductive Edit where
  | append (address : Addr) (origdata : Word)
  | remove (breakpointNumber : Int)

def edit (K : Kernel σ) : Edit → BreakpointList → DbgM σ BreakpointList
  | .append a w, li => pure (appendElement li a w)
  | .remove n, li => do return (← removeElement K li n).2

theorem edit_run {K : Kernel σ} (hK : K.PeekPoke) (op : Edit) (li : BreakpointList)
    (d : Main σ) : ∃ d', edit K op li d = .ok
      (match op with
        | .append a w => appendElement li a w
        | .remove n => dropNumber li n, d') := by
  cases op with
  | append a w => exact ⟨d, rfl⟩
  | remove n =>
    obtain ⟨d', h⟩ := removeElement_run hK li n d
    refine ⟨d', ?_⟩
    simp only [edit]
    rw [run_bind_ok h]
    rfl

theorem edits_run {K : Kernel σ} (hK : K.PeekPoke) (ops : List Edit) (li : BreakpointList)
    (d : Main σ) : ∃ li' d', runAll (edit K) ops li d = .ok (li', d') := by
  induction ops generalizing li d with
  | nil => exact ⟨li, d, rfl⟩
  | cons op ops ih =>
    obtain ⟨d₁, h₁⟩ := edit_run hK op li d
    obtain ⟨li', d', h⟩ := ih _ d₁
    exact ⟨li', d', runAll_cons_eq_ok.mpr ⟨_, d₁, h₁, h⟩⟩

/-! ## Numbers by position -/

/-- The breakpoint at position `i` has a number of at least `i + 1`. -/
def Above (li : BreakpointList) : Prop :=
  ∀ (i : Nat) (b : Breakpoint), li[i]? = some b → (i : Int) + 1 ≤ b.breakpointNumber

/-- The numbers are `1, …, n` in order. -/
def Consecutive (li : BreakpointList) : Prop :=
  ∀ (i : Nat) (b : Breakpoint), li[i]? = some b → b.breakpointNumber = i + 1

theorem above_nil : Above [] := by
  intro i b h
  simp at h

theorem consecutive_nil : Consecutive [] := by
  intro i b h
  simp at h

theorem getElem?_appendElement {li : BreakpointList} {a : Addr} {w : Word} {i : Nat}
    {b : Breakpoint} (h : (appendElement li a w)[i]? = some b) :
    li[i]? = some b ∨ (i = li.length ∧ b.breakpointNumber = li.length + 1) := by
  unfold appendElement at h
  rcases Nat.lt_trichotomy i li.length with hi | hi | hi
  · rw [List.getElem?_append_left hi] at h
    exact Or.inl h
  · subst hi
    simp at h
    subst h
    exact Or.inr ⟨rfl, rfl⟩
  · rw [List.getElem?_eq_none (by simp; omega)] at h
    cases h

theorem above_appendElement {li : BreakpointList} (h : Above li) (a : Addr) (w : Word) :
    Above (appendElement li a w) := by
  intro i b hb
  rcases getElem?_appendElement hb with hb | ⟨rfl, hn⟩
  · exact h i b hb
  · omega

theorem consecutive_appendElement {li : BreakpointList} (a : Addr) (w : Word) :
    Consecutive (appendElement li a w) ↔ Consecutive li := by
  constructor
  · intro h i b hb
    apply h i b
    unfold appendElement
    rw [List.getElem?_append_left (List.getElem?_eq_some_iff.mp hb).1]
    exact hb
  · intro h i b hb
    rcases getElem?_appendElement hb with hb | ⟨rfl, hn⟩
    · exact h i b hb
    · exact hn

theorem above_eraseIdx {li : BreakpointList} (h : Above li) (p : Nat) :
    Above (li.eraseIdx p) := by
  intro i b hb
  rw [List.getElem?_eraseIdx] at hb
  split at hb
  · exact h i b hb
  · have := h (i + 1) b hb
    omega

theorem above_dropNumber {li : BreakpointList} (h : Above li) (n : Int) :
    Above (dropNumber li n) := by
  unfold dropNumber
  split
  · exact h
  · exact above_eraseIdx h _

/-- What the loop of `RemoveElement` finds. -/
theorem removalIndex_spec {li : BreakpointList} {n : Int} {p : Nat}
    (h : removalIndex li n = some p) :
    n ≤ li.length ∧ 0 < n ∧ ∃ b, li[p]? = some b ∧ b.breakpointNumber = n := by
  unfold removalIndex at h
  split at h
  · cases h
  · rename_i hguard
    obtain ⟨hp, hn, -⟩ := List.findIdx?_eq_some_iff_getElem.mp h
    simp only [getNoOfBreakpoints, not_or, not_lt, not_le] at hguard
    exact ⟨hguard.1, hguard.2, li[p], List.getElem?_eq_getElem hp, by simpa using hn⟩

/-- In a consecutive list a number in range is found at its position. -/
theorem findIdx?_consecutive {li : BreakpointList} (h : Consecutive li) {i : Nat}
    (hi : i < li.length) :
    li.findIdx? (fun b => b.breakpointNumber == (i : Int) + 1) = some i := by
  rw [List.findIdx?_eq_some_iff_getElem]
  refine ⟨hi, ?_, ?_⟩
  · simpa using h i li[i] (List.getElem?_eq_getElem hi)
  · intro j hj
    have := h j li[j] (List.getElem?_eq_getElem (by omega))
    simp only [beq_iff_eq]
    omega

theorem removalIndex_consecutive {li : BreakpointList} (h : Consecutive li) {i : Nat}
    (hi : i < li.length) : removalIndex li (i + 1) = some i := by
  unfold removalIndex getNoOfBreakpoints
  rw [if_neg (by omega)]
  exact findIdx?_consecutive h hi

/-- A removal keeps the numbering consecutive exactly when it removes the last breakpoint
or none. From a list that is not consecutive no removal leads back to one: the breakpoint
removed would be the last, with a number larger than the size. -/
theorem consecutive_dropNumber {li : BreakpointList} (h : Above li) (n : Int) :
    Consecutive (dropNumber li n) ↔ Consecutive li ∧ (n ≤ 0 ∨ li.length ≤ n) := by
  unfold dropNumber
  cases hp : removalIndex li n with
  | none =>
    refine ⟨fun hc => ⟨hc, ?_⟩, And.left⟩
    by_contra hrange
    have hlt : (n - 1).toNat < li.length := by omega
    have hfound := removalIndex_consecutive hc hlt
    rw [show (((n - 1).toNat : Nat) : Int) + 1 = n by omega, hp] at hfound
    cases hfound
  | some p =>
    obtain ⟨hle, hpos, b, hb, hbn⟩ := removalIndex_spec hp
    have hlt : p < li.length := removalIndex_lt hp
    constructor
    · intro hc
      have hlast : p + 1 = li.length := by
        by_contra hne
        -- the breakpoint after the removed one moves to position `p`
        obtain ⟨b', hb'⟩ : ∃ b', li[p + 1]? = some b' := ⟨_, List.getElem?_eq_getElem (by omega)⟩
        have hup := h (p + 1) b' hb'
        have heq := hc p b' (by rw [List.getElem?_eraseIdx_of_ge (le_refl p)]; exact hb')
        omega
      have hnp := h p b hb
      refine ⟨?_, by omega⟩
      intro i c hci
      rcases Nat.lt_or_ge i p with hip | hip
      · exact hc i c (by rw [List.getElem?_eraseIdx_of_lt hip]; exact hci)
      · have hi : i < li.length := (List.getElem?_eq_some_iff.mp hci).1
        obtain rfl : i = p := by omega
        rw [hb] at hci
        cases hci
        omega
    · rintro ⟨hc, hn⟩ i c hci
      have hnp := hc p b hb
      rw [List.getElem?_eraseIdx] at hci
      split at hci
      · exact hc i c hci
      · have hi : i + 1 < li.length := (List.getElem?_eq_some_iff.mp hci).1
        omega

/-! ## Numbers and lookups -/

/-- The numbers are distinct, and the lookup by number and the removal by number of each
listed breakpoint find that breakpoint. -/
def NumbersAgree (K : Kernel σ) (li : BreakpointList) (d : Main σ) : Prop :=
  (numbers li).Nodup ∧ ∀ (i : Nat) (b : Breakpoint), li[i]? = some b →
    getElementByBreakpointNumber li b.breakpointNumber = some i ∧
      ∃ d', removeElement K li b.breakpointNumber d = .ok ((0, li.eraseIdx i), d')

/-- Distinct numbers no larger than the size are consecutive: counting down from the last
position, the larger numbers are taken. -/
theorem consecutive_of_lookups {li : BreakpointList} (h : Above li)
    (hnodup : (numbers li).Nodup)
    (hle : ∀ (i : Nat) (b : Breakpoint), li[i]? = some b → b.breakpointNumber ≤ li.length) :
    Consecutive li := by
  suffices hdown : ∀ (k i : Nat) (b : Breakpoint), li.length = i + 1 + k → li[i]? = some b →
      b.breakpointNumber = i + 1 by
    intro i b hb
    have hi : i < li.length := (List.getElem?_eq_some_iff.mp hb).1
    exact hdown (li.length - i - 1) i b (by omega) hb
  intro k
  induction k using Nat.strong_induction_on with
  | _ k ih =>
    intro i b hk hb
    have hup := h i b hb
    have htop := hle i b hb
    by_contra hne
    -- the position whose number is `b.breakpointNumber`
    obtain ⟨j, hj⟩ : ∃ j : Nat, b.breakpointNumber = j + 1 :=
      ⟨(b.breakpointNumber - 1).toNat, by omega⟩
    obtain ⟨c, hc⟩ : ∃ c, li[j]? = some c := ⟨_, List.getElem?_eq_getElem (by omega)⟩
    have hcn := ih (li.length - j - 1) (by omega) j c (by omega) hc
    have hij : i = j := by
      have hlen : i < (numbers li).length := by
        rw [numbers, List.length_map]
        omega
      apply (List.getElem?_inj hlen hnodup).mp
      simp only [numbers, List.getElem?_map, hb, hc, Option.map_some, hcn, hj]
    omega

theorem nodup_of_consecutive {li : BreakpointList} (h : Consecutive li) :
    (numbers li).Nodup := by
  rw [List.nodup_iff_injective_getElem]
  rintro ⟨i, hi⟩ ⟨j, hj⟩ hij
  rw [numbers, List.length_map] at hi hj
  simp only [numbers, List.getElem_map] at hij
  have hni := h i li[i] (List.getElem?_eq_getElem hi)
  have hnj := h j li[j] (List.getElem?_eq_getElem hj)
  apply Fin.ext
  change i = j
  omega

theorem numbersAgree_iff {K : Kernel σ} (hK : K.PeekPoke) {li : BreakpointList} (h : Above li)
    (d : Main σ) : NumbersAgree K li d ↔ Consecutive li := by
  constructor
  · rintro ⟨hnodup, hfind⟩
    apply consecutive_of_lookups h hnodup
    intro i b hb
    have hlookup := (hfind i b hb).1
    unfold getElementByBreakpointNumber at hlookup
    split at hlookup
    · cases hlookup
    · rename_i hle
      exact not_lt.mp hle
  · intro hc
    refine ⟨nodup_of_consecutive hc, ?_⟩
    intro i b hb
    have hi : i < li.length := (List.getElem?_eq_some_iff.mp hb).1
    rw [hc i b hb]
    constructor
    · unfold getElementByBreakpointNumber getNoOfBreakpoints
      rw [if_neg (by omega)]
      exact findIdx?_consecutive hc hi
    · obtain ⟨d', hrun⟩ := removeElement_run hK li ((i : Int) + 1) d
      refine ⟨d', ?_⟩
      rw [hrun, dropNumber, removalIndex_consecutive hc hi]

/-! ## Runs -/

/-- A removal names no breakpoint or, by the size of the list, the last one. -/
def RemovesLast : Edit → BreakpointList → Main σ → Prop
  | .append _ _, _, _ => True
  | .remove n, li, _ => n ≤ 0 ∨ li.length ≤ n

theorem edit_above {K : Kernel σ} (hK : K.PeekPoke) (op : Edit) (li : BreakpointList)
    (d : Main σ) (h : Above li) : Post (edit K op li) d fun li' _ => Above li' := by
  obtain ⟨d', hrun⟩ := edit_run hK op li d
  refine post_ok hrun ?_
  cases op with
  | append a w => exact above_appendElement h a w
  | remove n => exact above_dropNumber h n

theorem edit_consecutive {K : Kernel σ} (hK : K.PeekPoke) (op : Edit) (li : BreakpointList)
    (d : Main σ) (h : Above li) : Post (edit K op li) d fun li' _ =>
      Consecutive li' ↔ Consecutive li ∧ RemovesLast op li d := by
  obtain ⟨d', hrun⟩ := edit_run hK op li d
  refine post_ok hrun ?_
  cases op with
  | append a w => simp only [consecutive_appendElement, RemovesLast, and_true]
  | remove n => exact consecutive_dropNumber h n

/-- **Numbers agree with lookups** after a run from the empty list exactly when every
removal of the run was of the last breakpoint or of none. -/
theorem numbers_agree_iff_removes_last {K : Kernel σ} (hK : K.PeekPoke) (ops : List Edit)
    (d : Main σ) : ∃ li d', runAll (edit K) ops [] d = .ok (li, d') ∧
      (NumbersAgree K li d' ↔ AllSteps (edit K) RemovesLast ops [] d) := by
  obtain ⟨li, d', hrun⟩ := edits_run hK ops [] d
  refine ⟨li, d', hrun, ?_⟩
  have habove : Above li := runAll_inv (I := fun li _ => Above li)
    (fun op li d h => edit_above hK op li d h) above_nil hrun
  rw [numbersAgree_iff hK habove, runAll_iff (I := fun li _ => Above li)
    (J := fun li _ => Consecutive li) (fun op li d h => edit_above hK op li d h)
    (fun op li d h => edit_consecutive hK op li d h) above_nil hrun]
  simp only [consecutive_nil, true_and]

/-- Two placements and the removal of the second. -/
theorem numbers_agree_of_two :
    ∃ li d', runAll (edit stoppedKernel) [.append 0x1000 0, .append 0x2000 0, .remove 2] []
        (Main.init fun _ => 0) = .ok (li, d') ∧ NumbersAgree stoppedKernel li d' := by
  obtain ⟨li, d', hrun, hiff⟩ := numbers_agree_iff_removes_last stoppedKernel_stopped.peekPoke
    [.append 0x1000 0, .append 0x2000 0, .remove 2] (Main.init fun _ => 0)
  refine ⟨li, d', hrun, hiff.mpr ⟨trivial, ?_⟩⟩
  rintro _ _ ⟨⟩
  refine ⟨trivial, ?_⟩
  rintro _ _ ⟨⟩
  refine ⟨Or.inr (by decide), ?_⟩
  intro _ _ _
  trivial

/-- After three placements, the removal of the first and one more placement the numbers are
2, 3 and 3. -/
theorem numbers_disagree_after_gap :
    ∃ li d', runAll (edit stoppedKernel)
        [.append 0x1000 0, .append 0x2000 0, .append 0x3000 0, .remove 1, .append 0x4000 0] []
        (Main.init fun _ => 0) = .ok (li, d') ∧
      numbers li = [2, 3, 3] ∧ ¬ NumbersAgree stoppedKernel li d' := by
  refine ⟨_, _, rfl, by decide, ?_⟩
  rintro ⟨hnodup, -⟩
  revert hnodup
  decide

end Zkz.Debugger
