/-!
# Explorations that may fail

`explore read n a` reads the node `a` and then explores, in order, each node that it names. It is
bounded by the depth `n`. A read that fails ends the whole exploration, and so does one that has no
end: what comes after it is never read.

* `Ends`: the nodes from which the exploration comes to its end.
* `ComesTo`: the nodes that the exploration of a node comes to read.
* `explore_succeeds_iff`: no read fails, at any depth, exactly when every node that the exploration
  comes to can be read.
-/

namespace Zkz.Lib

variable {α ε : Type}

/-- A list of nodes in order, each by `f`. -/
def inOrder (f : α → Except (Option ε) Unit) : List α → Except (Option ε) Unit
  | [] => .ok ()
  | b :: bs => do
    f b
    inOrder f bs

/-- The error `none` is that of an exploration that goes deeper than it may. -/
def explore (read : α → Except ε (List α)) : Nat → α → Except (Option ε) Unit
  | 0, _ => .error none
  | n + 1, a => match read a with
    | .error e => .error (some e)
    | .ok bs => inOrder (explore read n) bs

/-- All nodes below can be read, and there are finitely many. -/
inductive Ends (read : α → Except ε (List α)) : α → Prop
  | node {a : α} {bs : List α} (h : read a = .ok bs) (hbs : ∀ b ∈ bs, Ends read b) : Ends read a

/-- The exploration of the first node comes to read the second: the nodes in front of it come to
their end. -/
inductive ComesTo (read : α → Except ε (List α)) : α → α → Prop
  | here (a : α) : ComesTo read a a
  | next {a b c : α} {l r : List α} (h : read a = .ok (l ++ b :: r)) (hl : ∀ x ∈ l, Ends read x)
      (hbc : ComesTo read b c) : ComesTo read a c

/-! ## Nodes in order -/

section InOrder

variable {f g : α → Except (Option ε) Unit} {bs l r : List α} {b : α}

theorem inOrder_ok : inOrder f bs = .ok () ↔ ∀ b ∈ bs, f b = .ok () := by
  induction bs with
  | nil => simp [inOrder]
  | cons b bs ih =>
    unfold inOrder
    cases hb : f b with
    | error e => simp [hb, bind, Except.bind]
    | ok u => simp [hb, bind, Except.bind, ih]

/-- The first node that fails. -/
theorem inOrder_error {e : Option ε} : inOrder f bs = .error e ↔
    ∃ l b r, bs = l ++ b :: r ∧ (∀ x ∈ l, f x = .ok ()) ∧ f b = .error e := by
  induction bs with
  | nil => simp [inOrder]
  | cons b bs ih =>
    unfold inOrder
    cases hb : f b with
    | error e' =>
      constructor
      · intro h
        cases h
        exact ⟨[], b, bs, rfl, by simp, hb⟩
      · rintro ⟨l, c, r, hsplit, hl, hc⟩
        cases l with
        | nil =>
          cases hsplit
          exact hb.symm.trans hc
        | cons x l =>
          cases hsplit
          rw [hl b (List.mem_cons_self ..)] at hb
          cases hb
    | ok u =>
      change inOrder f bs = .error e ↔ _
      rw [ih]
      constructor
      · rintro ⟨l, c, r, rfl, hl, hc⟩
        refine ⟨b :: l, c, r, rfl, ?_, hc⟩
        intro x hx
        rcases List.mem_cons.mp hx with rfl | hx
        · exact hb
        · exact hl x hx
      · rintro ⟨l, c, r, hsplit, hl, hc⟩
        cases l with
        | nil =>
          cases hsplit
          rw [hb] at hc
          cases hc
        | cons x l =>
          cases hsplit
          exact ⟨l, c, r, rfl, fun y hy => hl y (List.mem_cons_of_mem _ hy), hc⟩

/-- What is not for lack of depth stays. -/
theorem inOrder_mono (hfg : ∀ b, f b ≠ .error none → g b = f b) (h : inOrder f bs ≠ .error none) :
    inOrder g bs = inOrder f bs := by
  induction bs with
  | nil => rfl
  | cons b bs ih =>
    unfold inOrder at h ⊢
    have hb : f b ≠ .error none := by
      intro hb
      rw [hb] at h
      exact h rfl
    rw [hfg b hb]
    cases hfb : f b with
    | error e => rfl
    | ok u =>
      rw [hfb] at h
      exact ih h

end InOrder

/-! ## Explorations -/

section Explore

variable {read : α → Except ε (List α)} {n k : Nat} {a : α}

theorem explore_step (h : explore read n a ≠ .error none) :
    explore read (n + 1) a = explore read n a := by
  induction n generalizing a with
  | zero => exact absurd rfl h
  | succ n ih =>
    unfold explore at h ⊢
    cases hread : read a with
    | error e => rfl
    | ok bs =>
      rw [hread] at h
      exact inOrder_mono (fun b hb => ih hb) h

theorem explore_mono (hle : n ≤ k) (h : explore read n a ≠ .error none) :
    explore read k a = explore read n a := by
  obtain ⟨j, rfl⟩ := Nat.exists_eq_add_of_le hle
  clear hle
  induction j with
  | zero => rfl
  | succ j ih =>
    have hdeep : explore read (n + j) a ≠ .error none := by
      rw [ih]
      exact h
    rw [← Nat.add_assoc, explore_step hdeep, ih]

theorem ends_of_explore (h : explore read n a = .ok ()) : Ends read a := by
  induction n generalizing a with
  | zero => cases h
  | succ n ih =>
    unfold explore at h
    cases hread : read a with
    | error e =>
      rw [hread] at h
      cases h
    | ok bs =>
      rw [hread] at h
      exact .node hread fun b hb => ih (inOrder_ok.mp h b hb)

/-- One depth for all nodes of a list. -/
theorem exists_depth (bs : List α) (h : ∀ b ∈ bs, ∃ n, explore read n b = .ok ()) :
    ∃ n, ∀ k, n ≤ k → ∀ b ∈ bs, explore read k b = .ok () := by
  induction bs with
  | nil => exact ⟨0, by simp⟩
  | cons b bs ih =>
    obtain ⟨n, hn⟩ := ih fun x hx => h x (List.mem_cons_of_mem _ hx)
    obtain ⟨n', hn'⟩ := h b (List.mem_cons_self ..)
    refine ⟨max n n', ?_⟩
    intro k hk x hx
    rcases List.mem_cons.mp hx with rfl | hx
    · rw [explore_mono (n := n') (by omega) (by rw [hn']; simp), hn']
    · exact hn k (by omega) x hx

theorem Ends.explore (h : Ends read a) : ∃ n, explore read n a = .ok () := by
  induction h with
  | @node a bs hread _ ih =>
    obtain ⟨n, hn⟩ := exists_depth bs ih
    refine ⟨n + 1, ?_⟩
    unfold Lib.explore
    rw [hread]
    exact inOrder_ok.mpr (hn n (Nat.le_refl n))

/-- **No read fails**, at any depth, exactly when every node that the exploration comes to can be
read. -/
theorem explore_succeeds_iff : (∀ n e, explore read n a ≠ .error (some e)) ↔
    ∀ c, ComesTo read a c → ∃ bs, read c = .ok bs := by
  constructor
  · intro h c hc
    induction hc with
    | here a =>
      cases hread : read a with
      | ok bs => exact ⟨bs, rfl⟩
      | error e =>
        refine absurd ?_ (h 1 e)
        unfold explore
        rw [hread]
    | @next a b c l r hread hl _ ih =>
      refine ih fun n e hb => ?_
      -- deep enough for the nodes in front as well
      obtain ⟨n', hn'⟩ := exists_depth l fun x hx => (hl x hx).explore
      refine h (max n n' + 1) e ?_
      unfold explore
      rw [hread]
      refine inOrder_error.mpr ⟨l, b, r, rfl, hn' _ (by omega), ?_⟩
      rw [explore_mono (n := n) (by omega) (by rw [hb]; simp), hb]
  · intro h n e
    induction n generalizing a with
    | zero => simp [explore]
    | succ n ih =>
      obtain ⟨bs, hread⟩ := h a (.here a)
      intro hrun
      unfold explore at hrun
      rw [hread] at hrun
      obtain ⟨l, b, r, rfl, hl, hb⟩ := inOrder_error.mp hrun
      have hends : ∀ x ∈ l, Ends read x := fun x hx => ends_of_explore (hl x hx)
      exact ih (fun c hc => h c (.next hread hends hc)) hb

end Explore

end Zkz.Lib
