import Zkz.Debugger.Text
import Zkz.Lib.Digits

/-!
# Hexadecimal numerals

The texts that are a number in base 16 from their first character to their last. `std::stoll` reads
them as their value, up to 2^63; but it reads other texts as well.

* `stoll_hexNumeral`: what `stoll` makes of a numeral.
* `bare_hexNumeral`: a numeral has no punctuation.
-/

namespace Zkz.Debugger

open Zkz.Lib

/-- The text behind 0x, if it begins so. -/
def hexBody : Line → Line
  | '0' :: x :: cs => if x = 'x' ∨ x = 'X' then cs else '0' :: x :: cs
  | cs => cs

/-- The value of a numeral in base 16, with 0x or without; `none` for any other text. -/
def hexNumeral (text : Line) : Option Nat :=
  if !(hexBody text).isEmpty && (hexBody text).all fun c => (digit 16 c).isSome then
    some (ofDigitsFrom 16 0 (leadingDigits 16 (hexBody text)))
  else none

/-- A word without its punctuation. -/
def bare (word : Line) : Line := word.filter fun c => !ispunct c

example : hexNumeral "0x4Fa0".toList = some 0x4fa0 := by decide

/-! ## Digits -/

variable {c : Char} {text : Line} {v : Nat}

/-- The characters of the digits of base 16. -/
theorem digit_isSome (h : (digit 16 c).isSome) :
    48 ≤ c.toNat ∧ c.toNat ≤ 57 ∨ 97 ≤ c.toNat ∧ c.toNat ≤ 102 ∨ 65 ≤ c.toNat ∧ c.toNat ≤ 70 := by
  unfold digit at h
  by_cases hten : 48 ≤ c.toNat ∧ c.toNat ≤ 57
  · exact Or.inl hten
  · by_cases hlow : 97 ≤ c.toNat ∧ c.toNat ≤ 122
    · simp only [if_neg hten, if_pos hlow, Option.isSome_filter, Option.any_some,
        decide_eq_true_eq] at h
      omega
    · by_cases hupp : 65 ≤ c.toNat ∧ c.toNat ≤ 90
      · simp only [if_neg hten, if_neg hlow, if_pos hupp, Option.isSome_filter, Option.any_some,
          decide_eq_true_eq] at h
        omega
      · simp [hten, hlow, hupp] at h

theorem isspace_digit (h : (digit 16 c).isSome) : isspace c = false := by
  have hrange := digit_isSome h
  unfold isspace
  simp only [Bool.or_eq_false_iff, decide_eq_false_iff_not, Bool.and_eq_false_iff]
  omega

theorem ispunct_digit (h : (digit 16 c).isSome) : ispunct c = false := by
  have hrange := digit_isSome h
  unfold ispunct
  simp only [Bool.or_eq_false_iff, decide_eq_false_iff_not, Bool.and_eq_false_iff]
  omega

/-! ## Numerals -/

theorem hexBody_zero (x : Char) (cs : Line) :
    hexBody ('0' :: x :: cs) = if x = 'x' ∨ x = 'X' then cs else '0' :: x :: cs := rfl

/-- A text is its body, but for 0x. -/
theorem hexBody_cases (text : Line) : hexBody text = text ∨
    ∃ x, (x = 'x' ∨ x = 'X') ∧ text = '0' :: x :: hexBody text := by
  unfold hexBody
  split
  · rename_i x cs
    split
    · rename_i hx
      exact Or.inr ⟨x, hx, rfl⟩
    · exact Or.inl rfl
  · exact Or.inl rfl

theorem hexNumeral_eq_some (h : hexNumeral text = some v) :
    hexBody text ≠ [] ∧ (∀ c ∈ hexBody text, (digit 16 c).isSome) ∧
      v = ofDigitsFrom 16 0 (leadingDigits 16 (hexBody text)) := by
  unfold hexNumeral at h
  split at h
  · rename_i hnumeral
    rw [Bool.and_eq_true, Bool.not_eq_true', List.isEmpty_eq_false_iff, List.all_eq_true] at hnumeral
    exact ⟨hnumeral.1, hnumeral.2, (Option.some.inj h).symm⟩
  · cases h

/-- A numeral begins with a digit: the 0 of 0x is one. -/
theorem hexNumeral_head (h : hexNumeral text = some v) :
    ∃ c cs, text = c :: cs ∧ (digit 16 c).isSome := by
  obtain ⟨hne, hdigits, -⟩ := hexNumeral_eq_some h
  rcases hexBody_cases text with hbody | ⟨x, -, htext⟩
  · rw [hbody] at hne hdigits
    obtain ⟨c, cs, rfl⟩ := List.exists_cons_of_ne_nil hne
    exact ⟨c, cs, rfl, hdigits c (List.mem_cons_self ..)⟩
  · exact ⟨'0', _, htext, by decide⟩

theorem dropHexPrefix_numeral (h : hexNumeral text = some v) :
    dropHexPrefix text = hexBody text := by
  obtain ⟨hne, hdigits, -⟩ := hexNumeral_eq_some h
  rcases hexBody_cases text with hbody | ⟨x, hx, htext⟩
  · rw [hbody]
    unfold dropHexPrefix
    split
    · rename_i x c cs
      split
      · rename_i hx
        rw [hexBody_zero, if_pos hx.1] at hbody
        exact absurd (congrArg List.length hbody) (by simp)
      · rfl
    · rfl
  · obtain ⟨c, cs, hcs⟩ := List.exists_cons_of_ne_nil hne
    rw [hcs] at htext hdigits ⊢
    rw [htext]
    exact if_pos ⟨hx, hdigits c (List.mem_cons_self ..)⟩

/-- `strtol` reads a numeral as its value. -/
theorem strto_hexNumeral (h : hexNumeral text = some v) : strto 16 text = some (v : Int) := by
  obtain ⟨c, cs, htext, hc⟩ := hexNumeral_head h
  obtain ⟨hne, hdigits, hv⟩ := hexNumeral_eq_some h
  have hspace : text.dropWhile isspace = text := by
    rw [htext, List.dropWhile_cons_of_neg (by simp [isspace_digit hc])]
  have hsign : splitSign text = (false, text) := by
    rw [htext]
    unfold splitSign
    split
    · rename_i heq
      rw [(List.cons.inj heq).1] at hc
      exact absurd hc (by decide)
    · rename_i heq
      rw [(List.cons.inj heq).1] at hc
      exact absurd hc (by decide)
    · rfl
  have hds : leadingDigits 16 (hexBody text) ≠ [] := by
    obtain ⟨b, bs, hb⟩ := List.exists_cons_of_ne_nil hne
    rw [hb] at hdigits ⊢
    obtain ⟨n, hn⟩ := Option.isSome_iff_exists.mp (hdigits b (List.mem_cons_self ..))
    simp [leadingDigits, hn]
  unfold strto
  simp only [hspace, hsign, if_true, dropHexPrefix_numeral h, if_neg hds, Bool.false_eq_true,
    if_false]
  rw [hv]
  rfl

theorem stoll_hexNumeral (h : hexNumeral text = some v) :
    stoll text = if v < 2 ^ 63 then .ok (v : Int) else .error .outOfRange := by
  unfold stoll
  rw [strto_hexNumeral h]
  simp only
  by_cases hfits : v < 2 ^ 63
  · rw [if_pos (by omega), if_pos hfits]
  · rw [if_neg (by omega), if_neg hfits]

theorem bare_hexNumeral (h : hexNumeral text = some v) : bare text = text := by
  obtain ⟨-, hdigits, -⟩ := hexNumeral_eq_some h
  have hpunct : ∀ c ∈ hexBody text, ispunct c = false := fun c hc => ispunct_digit (hdigits c hc)
  unfold bare
  rw [List.filter_eq_self]
  intro c hc
  rcases hexBody_cases text with hbody | ⟨x, hx, htext⟩
  · rw [hbody] at hpunct
    simp [hpunct c hc]
  · rw [htext] at hc
    rcases List.mem_cons.mp hc with rfl | hc
    · decide
    · rcases List.mem_cons.mp hc with rfl | hc
      · rcases hx with rfl | rfl
        · decide
        · decide
      · simp [hpunct c hc]

end Zkz.Debugger
