import Mathlib.Data.List.MinMax
import Mathlib.Order.Bounds.Basic

/-!
# Running extrema

A loop over a list that keeps the greatest of the values it meets, beginning with a value of its
own.

* `scanMax_spec`: it ends with the greatest of its start and the values.
* `isGreatest_scanMax_iff`: its start does no harm exactly when some value reaches it.

The loop that keeps the least value is the same loop in the dual order.
-/

namespace Zkz.Lib

variable {α β : Type} [LinearOrder β] {f : α → β} {start : β} {l : List α} {x : α}

def scanMax (f : α → β) (start : β) (l : List α) : β :=
  l.foldl (fun m x => if f x > m then f x else m) start

def scanMin (f : α → β) (start : β) (l : List α) : β :=
  l.foldl (fun m x => if f x < m then f x else m) start

/-! ## The greatest value -/

theorem scanMax_step (f : α → β) (m : β) (x : α) : (if f x > m then f x else m) = max m (f x) := by
  rcases lt_or_ge m (f x) with h | h
  · rw [if_pos h, max_eq_right h.le]
  · rw [if_neg (not_lt.mpr h), max_eq_left h]

theorem scanMax_eq_foldl (f : α → β) (start : β) (l : List α) :
    scanMax f start l = (l.map f).foldl max start := by
  unfold scanMax
  simp only [scanMax_step]
  rw [List.foldl_map]

theorem scanMax_spec (f : α → β) (start : β) (l : List α) :
    scanMax f start l ∈ start :: l.map f ∧ ∀ b ∈ start :: l.map f, b ≤ scanMax f start l := by
  apply List.max?_eq_some_iff.mp
  rw [List.max?_cons', scanMax_eq_foldl]

theorem start_le_scanMax (f : α → β) (start : β) (l : List α) : start ≤ scanMax f start l :=
  (scanMax_spec f start l).2 start List.mem_cons_self

theorem le_scanMax (h : x ∈ l) : f x ≤ scanMax f start l :=
  (scanMax_spec f start l).2 _ (List.mem_cons_of_mem _ (List.mem_map_of_mem h))

theorem scanMax_eq_or_mem (f : α → β) (start : β) (l : List α) :
    scanMax f start l = start ∨ ∃ x ∈ l, f x = scanMax f start l :=
  (List.mem_cons.mp (scanMax_spec f start l).1).imp id List.mem_map.mp

/-- The loop ends with the greatest of the values if and only if it begins below one of them. -/
theorem isGreatest_scanMax_iff :
    IsGreatest (f '' {x | x ∈ l}) (scanMax f start l) ↔ ∃ x ∈ l, start ≤ f x := by
  constructor
  · rintro ⟨⟨x, hx, hgreatest⟩, -⟩
    exact ⟨x, hx, hgreatest ▸ start_le_scanMax f start l⟩
  · rintro ⟨x, hx, hstart⟩
    refine ⟨?_, ?_⟩
    · rcases scanMax_eq_or_mem f start l with h | ⟨y, hy, h⟩
      · exact ⟨x, hx, le_antisymm (le_scanMax hx) (h.trans_le hstart)⟩
      · exact ⟨y, hy, h⟩
    · rintro b ⟨y, hy, rfl⟩
      exact le_scanMax hy

/-! ## The least value -/

theorem scanMin_le (h : x ∈ l) : scanMin f start l ≤ f x :=
  le_scanMax (β := βᵒᵈ) h

theorem isLeast_scanMin_iff :
    IsLeast (f '' {x | x ∈ l}) (scanMin f start l) ↔ ∃ x ∈ l, f x ≤ start :=
  isGreatest_scanMax_iff (β := βᵒᵈ)

end Zkz.Lib
