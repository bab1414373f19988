import Zkz.Debugger.RegisterDump

/-!
# Numbers that are printed and read again

`std::stoi` and `std::stoll` read the numbers that `%d` and `%x` print as their values, as far as
they fit their types.

* `ofDigitsFrom_toDigits`: the digits of a number, as any characters that stand for them.
* `hexNumeral_upperHex`, `stoi_decimal`: what is read.
-/

namespace Zkz.Debugger

open Zkz.Lib

variable {b n : Nat} {text : Line}

/-- A text of digits only is read to its end. -/
theorem leadingDigits_all (h : ∀ c ∈ text, (digit b c).isSome) :
    leadingDigits b text = text.filterMap (digit b) := by
  induction text with
  | nil => rfl
  | cons c text ih =>
    obtain ⟨hc, hrest⟩ := List.forall_mem_cons.mp h
    obtain ⟨d, hd⟩ := Option.isSome_iff_exists.mp hc
    rw [leadingDigits, List.filterMap_cons, hd, ih hrest]

/-- The characters that stand for the digits of a base, in a case. -/
def Stands (b : Nat) (f : Char → Char) : Prop := ∀ d < b, digit b (f d.digitChar) = some d

variable {f : Char → Char}

theorem filterMap_toDigits (hb : 1 < b) (hf : Stands b f) (n : Nat) :
    (∀ c ∈ (Nat.toDigits b n).map f, (digit b c).isSome) ∧
      ofDigitsFrom b 0 (((Nat.toDigits b n).map f).filterMap (digit b)) = n := by
  induction n using Nat.strong_induction_on with
  | _ n ih =>
    by_cases hsmall : n < b
    · have hdigit := hf n hsmall
      rw [Nat.toDigits_of_lt_base hsmall]
      refine ⟨?_, ?_⟩
      · simp [hdigit]
      · simp [hdigit]
    · have hdigit := hf (n % b) (Nat.mod_lt n (by omega))
      obtain ⟨hdigits, hvalue⟩ := ih (n / b) (Nat.div_lt_self (by omega) hb)
      rw [Nat.toDigits_of_base_le hb (by omega), List.map_append, List.filterMap_append,
        ofDigitsFrom_append, hvalue]
      refine ⟨?_, ?_⟩
      · intro c hc
        rcases List.mem_append.mp hc with hc | hc
        · exact hdigits c hc
        · rw [List.map_singleton, List.mem_singleton] at hc
          rw [hc, hdigit]
          rfl
      · simp [hdigit, Nat.div_add_mod']

/-- The digits of a number are read as the number. -/
theorem ofDigitsFrom_toDigits (hb : 1 < b) (hf : Stands b f) (n : Nat) :
    ofDigitsFrom b 0 (leadingDigits b ((Nat.toDigits b n).map f)) = n := by
  obtain ⟨hdigits, hvalue⟩ := filterMap_toDigits hb hf n
  rw [leadingDigits_all hdigits, hvalue]

theorem stands_upper : Stands 16 Char.toUpper := by
  unfold Stands
  decide

theorem stands_decimal : Stands 10 id := by
  unfold Stands
  decide

/-- The text of `%x` is a numeral. -/
theorem hexNumeral_upperHex (v : Word) : hexNumeral ('0' :: 'x' :: upperHex v) = some v.toNat := by
  have hbody : hexBody ('0' :: 'x' :: upperHex v) = upperHex v := by
    rw [hexBody_zero, if_pos (Or.inl rfl)]
  have hne : upperHex v ≠ [] := by simp [upperHex]
  unfold hexNumeral
  rw [hbody, if_pos]
  · exact congrArg some (ofDigitsFrom_toDigits (by decide) stands_upper v.toNat)
  · simp only [Bool.and_eq_true, Bool.not_eq_true', List.isEmpty_eq_false_iff, List.all_eq_true]
    exact ⟨hne, fun c hc => digit_of_mem_upperHex hc⟩

theorem stoll_upperHex {v : Word} (hv : v.toNat < 2 ^ 63) :
    stoll ('0' :: 'x' :: upperHex v) = .ok (v.toNat : Int) :=
  (stoll_hexNumeral (hexNumeral_upperHex v)).trans (if_pos hv)

theorem isDigit_range {c : Char} (h : c.isDigit = true) : 48 ≤ c.toNat ∧ c.toNat ≤ 57 := by
  simp only [Char.isDigit, Bool.and_eq_true, decide_eq_true_eq] at h
  exact h

/-- In base 10 the digits end a number that white space or a sign may begin. -/
theorem strto_digits {word : Line} (negative : Bool) (n : Nat)
    (h : splitSign (word.dropWhile isspace) = (negative, Nat.toDigits 10 n)) :
    strto 10 word = some (if negative then -(n : Int) else n) := by
  have hvalue := ofDigitsFrom_toDigits (by decide) stands_decimal n
  rw [List.map_id] at hvalue
  have hne : leadingDigits 10 (Nat.toDigits 10 n) ≠ [] := by
    obtain ⟨hdigits, -⟩ := filterMap_toDigits (by decide) stands_decimal n
    rw [List.map_id] at hdigits
    obtain ⟨c, cs, hcs⟩ := List.exists_cons_of_ne_nil (Nat.toDigits_ne_nil (n := n) (b := 10))
    rw [hcs] at hdigits ⊢
    obtain ⟨d, hd⟩ := Option.isSome_iff_exists.mp (hdigits c (List.mem_cons_self ..))
    simp [leadingDigits, hd]
  unfold ofDigitsFrom at hvalue
  unfold strto
  simp only [h, Nat.reduceEqDiff, if_false, if_neg hne, hvalue]

theorem strto_decimal (d : Int) : strto 10 (decimal d) = some d := by
  unfold decimal
  split
  · rename_i hneg
    rw [strto_digits true d.natAbs rfl]
    simp only [if_true]
    congr 1
    omega
  · rename_i hneg
    rw [strto_digits false d.natAbs ?_]
    · simp only [Bool.false_eq_true, if_false]
      congr 1
      omega
    · obtain ⟨c, cs, hcs⟩ := List.exists_cons_of_ne_nil (Nat.toDigits_ne_nil (n := d.natAbs) (b := 10))
      have hc := isDigit_range (Nat.isDigit_of_mem_toDigits (by decide) (by decide)
        (hcs ▸ List.mem_cons_self ..))
      rw [hcs, List.dropWhile_cons_of_neg]
      · unfold splitSign
        split
        · rename_i heq
          rw [(List.cons.inj heq).1] at hc
          exact absurd hc (by decide)
        · rename_i heq
          rw [(List.cons.inj heq).1] at hc
          exact absurd hc (by decide)
        · rfl
      · unfold isspace
        simp only [Bool.or_eq_true, decide_eq_true_eq, Bool.and_eq_true]
        omega

theorem stoi_decimal {d : Int} (hlow : -2 ^ 31 ≤ d) (hhigh : d < 2 ^ 31) : stoi (decimal d) = .ok d := by
  unfold stoi
  rw [strto_decimal]
  exact if_pos ⟨hlow, hhigh⟩

/-! ## Words -/

/-- A text without white space. -/
def Solid (text : Line) : Prop := ∀ c ∈ text, isspace c = false

theorem Solid.not_mem (h : Solid text) {c : Char} (hc : isspace c = true) : c ∉ text := by
  intro hmem
  rw [h c hmem] at hc
  cases hc

theorem solid_of_all (h : text.all (fun c => !isspace c) = true) : Solid text := by
  intro c hc
  simpa using List.all_eq_true.mp h c hc

theorem solid_upperHex (v : Word) : Solid ('0' :: 'x' :: upperHex v) := by
  unfold Solid
  simp only [List.forall_mem_cons]
  exact ⟨by decide, by decide, fun c hc => isspace_digit (digit_of_mem_upperHex hc)⟩

theorem solid_decimal (d : Int) : Solid (decimal d) := by
  have hdigits : Solid (Nat.toDigits 10 d.natAbs) := by
    intro c hc
    have hrange := isDigit_range (Nat.isDigit_of_mem_toDigits (by decide) (by decide) hc)
    unfold isspace
    simp only [Bool.or_eq_false_iff, decide_eq_false_iff_not, Bool.and_eq_false_iff]
    omega
  unfold decimal
  split
  · unfold Solid
    simp only [List.forall_mem_cons]
    exact ⟨by decide, hdigits⟩
  · exact hdigits

end Zkz.Debugger
