import Mathlib.Data.Nat.Digits.Lemmas

/-!
# Numbers by their digits

The value of a list of digits in a base, the most significant digit first, as a reader builds it
up: it starts from a number, and each digit multiplies that by the base and is added.

* `ofDigitsFrom_append`: a reader that stops may go on.
* `le_ofDigitsFrom`, `ofDigitsFrom_lt`: what the number of digits says about the value.
* `ofDigitsFrom_eq_self_iff`: the digits that change nothing.
* `exists_ofDigitsFrom`: every number below a power of the base has so many digits.
-/

namespace Zkz.Lib

/-- The value of the digits `ds` behind a number `v`. -/
def ofDigitsFrom (b v : Nat) (ds : List Nat) : Nat := ds.foldl (fun v d => v * b + d) v

variable {b v : Nat} {ds : List Nat}

@[simp] theorem ofDigitsFrom_nil (b v : Nat) : ofDigitsFrom b v [] = v := rfl

@[simp] theorem ofDigitsFrom_cons (b v d : Nat) (ds : List Nat) :
    ofDigitsFrom b v (d :: ds) = ofDigitsFrom b (v * b + d) ds := rfl

theorem ofDigitsFrom_append (b v : Nat) (ds es : List Nat) :
    ofDigitsFrom b v (ds ++ es) = ofDigitsFrom b (ofDigitsFrom b v ds) es := List.foldl_append

theorem le_ofDigitsFrom (b v : Nat) (ds : List Nat) :
    v * b ^ ds.length ≤ ofDigitsFrom b v ds := by
  induction ds generalizing v with
  | nil => simp
  | cons d ds ih =>
    calc v * b ^ (ds.length + 1) = v * b * b ^ ds.length := by rw [Nat.pow_succ']; ring
      _ ≤ (v * b + d) * b ^ ds.length := Nat.mul_le_mul_right _ (Nat.le_add_right _ _)
      _ ≤ ofDigitsFrom b (v * b + d) ds := ih _

theorem ofDigitsFrom_lt (h : ∀ d ∈ ds, d < b) (v : Nat) :
    ofDigitsFrom b v ds < (v + 1) * b ^ ds.length := by
  induction ds generalizing v with
  | nil => simp
  | cons d ds ih =>
    have hd : d < b := h d (List.mem_cons_self ..)
    have hstep : v * b + d + 1 ≤ (v + 1) * b := by
      rw [Nat.add_mul]
      omega
    calc ofDigitsFrom b (v * b + d) ds < (v * b + d + 1) * b ^ ds.length :=
          ih (fun e he => h e (List.mem_cons_of_mem _ he)) _
      _ ≤ (v + 1) * b * b ^ ds.length := Nat.mul_le_mul_right _ hstep
      _ = (v + 1) * b ^ (ds.length + 1) := by rw [Nat.pow_succ']; ring

theorem ofDigitsFrom_zeros (h : ∀ d ∈ ds, d = 0) : ofDigitsFrom b 0 ds = 0 := by
  induction ds with
  | nil => rfl
  | cons d ds ih =>
    rw [ofDigitsFrom_cons, h d (List.mem_cons_self ..), Nat.zero_mul]
    exact ih fun e he => h e (List.mem_cons_of_mem _ he)

/-- Digits change every number but 0, and that one unless they are all 0. -/
theorem ofDigitsFrom_eq_self_iff (hb : 1 < b) (hds : ds ≠ []) :
    ofDigitsFrom b v ds = v ↔ v = 0 ∧ ∀ d ∈ ds, d = 0 := by
  constructor
  · intro h
    have hv : v = 0 := by
      by_contra hv
      have hlen : 0 < ds.length := List.length_pos_of_ne_nil hds
      have hpow : 1 < b ^ ds.length := Nat.one_lt_pow (Nat.pos_iff_ne_zero.mp hlen) hb
      have hle := le_ofDigitsFrom b v ds
      have hlt : v * 1 < v * b ^ ds.length := Nat.mul_lt_mul_of_pos_left hpow (Nat.pos_of_ne_zero hv)
      omega
    subst hv
    refine ⟨rfl, ?_⟩
    clear hds
    induction ds with
    | nil => exact fun _ hd => absurd hd List.not_mem_nil
    | cons d ds ih =>
      rw [ofDigitsFrom_cons, Nat.zero_mul, Nat.zero_add] at h
      have hd : d = 0 := by
        have hle := le_ofDigitsFrom b d ds
        rw [h] at hle
        have hpos : 0 < b ^ ds.length := Nat.pow_pos (by omega)
        rcases Nat.mul_eq_zero.mp (Nat.le_zero.mp hle) with hd | hpow
        · exact hd
        · omega
      rw [hd] at h
      intro e he
      rcases List.mem_cons.mp he with rfl | he
      · exact hd
      · exact ih h e he
  · rintro ⟨rfl, hzero⟩
    exact ofDigitsFrom_zeros hzero

theorem ofDigitsFrom_reverse (b : Nat) (ds : List Nat) :
    ofDigitsFrom b 0 ds.reverse = Nat.ofDigits b ds := by
  unfold ofDigitsFrom
  rw [List.foldl_reverse, Nat.ofDigits_eq_foldr]
  congr 1
  funext d v
  simp only [Nat.cast_id]
  ring

/-- Every number below a power of the base has no more digits than the exponent says, and at least
one. -/
theorem exists_ofDigitsFrom (hb : 1 < b) {k : Nat} (hk : 0 < k) (hv : v < b ^ k) :
    ∃ ds : List Nat, ds ≠ [] ∧ ds.length ≤ k ∧ (∀ d ∈ ds, d < b) ∧ ofDigitsFrom b 0 ds = v := by
  by_cases h0 : v = 0
  · refine ⟨[0], List.cons_ne_nil _ _, hk, ?_, ?_⟩
    · intro d hd
      rw [List.mem_singleton.mp hd]
      omega
    · rw [h0]
      exact ofDigitsFrom_zeros (by simp)
  · refine ⟨(Nat.digits b v).reverse, ?_, ?_, ?_, ?_⟩
    · simpa using Nat.digits_ne_nil_iff_ne_zero.mpr h0
    · rw [List.length_reverse]
      exact (Nat.digits_length_le_iff hb v).mpr hv
    · intro d hd
      exact Nat.digits_lt_base hb (List.mem_reverse.mp hd)
    · rw [ofDigitsFrom_reverse, Nat.ofDigits_digits]

end Zkz.Lib
