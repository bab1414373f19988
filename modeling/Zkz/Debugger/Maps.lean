import Zkz.Lib.Digits
import Zkz.Debugger.Commands
import Zkz.Debugger.Text

/-!
# The maps file of a process

A line of `/proc/<pid>/maps` begins with two addresses, `S-E`, in 1 to 16 lower-case hexadecimal
digits. `GetBaseAddress` reads the first one. It takes 16 characters whatever the width of `S`, and
gives up at the first that is not alphanumeric; with all 16 taken, the buffer holds no end of the
string.

* `HexField`: an address as the file has it, and `exists_hexField`: each address is had.
* `strto_text`: the conversion undoes the rendering, where it stops behind it.
* `getBaseAddress_iff`: when `GetBaseAddress` returns the address.
-/

namespace Zkz.Debugger

open Zkz.Lib

variable {σ : Type}

/-! ## Hexadecimal fields -/

/-- The lower-case digit. -/
def hexChar (d : Fin 16) : Char := Char.ofNat (if d.val < 10 then 48 + d.val else 87 + d.val)

/-- Digits given by their values. -/
def hexDigits (ds : List Nat) : List (Fin 16) := ds.map (Fin.ofNat 16)

/-- An address of 64 bits as the kernel prints it. -/
structure HexField where
  digits : List (Fin 16)
  nonempty : digits ≠ []
  short : digits.length ≤ 16

def HexField.text (S : HexField) : Line := S.digits.map hexChar

def HexField.toNat (S : HexField) : Nat := ofDigitsFrom 16 0 (S.digits.map Fin.val)

def HexField.value (S : HexField) : Word := BitVec.ofNat 64 S.toNat

theorem digit_hexChar : ∀ d : Fin 16, digit 16 (hexChar d) = some d.val := by decide

theorem isspace_hexChar : ∀ d : Fin 16, isspace (hexChar d) = false := by decide

theorem hexChar_ne : ∀ d : Fin 16, hexChar d ≠ '-' ∧ hexChar d ≠ '+' ∧ hexChar d ≠ 'x' ∧
    hexChar d ≠ 'X' ∧ hexChar d ≠ ' ' := by decide

theorem HexField.toNat_lt (S : HexField) : S.toNat < 2 ^ 64 := by
  have hdigits : ∀ d ∈ S.digits.map Fin.val, d < 16 := by
    intro d hd
    obtain ⟨e, -, rfl⟩ := List.mem_map.mp hd
    exact e.isLt
  calc S.toNat < (0 + 1) * 16 ^ (S.digits.map Fin.val).length := ofDigitsFrom_lt hdigits 0
    _ ≤ 16 ^ 16 := by
        rw [Nat.zero_add, Nat.one_mul, List.length_map]
        exact Nat.pow_le_pow_right (by omega) S.short
    _ = 2 ^ 64 := by norm_num

theorem HexField.toNat_value (S : HexField) : S.value.toNat = S.toNat := by
  unfold HexField.value
  rw [BitVec.toNat_ofNat, Nat.mod_eq_of_lt S.toNat_lt]

/-- Every address has a field. -/
theorem exists_hexField (a : Word) : ∃ S : HexField, S.value = a := by
  have ha : a.toNat < 16 ^ 16 := lt_of_lt_of_eq a.isLt (by norm_num)
  obtain ⟨ds, hne, hlen, hlt, hval⟩ := exists_ofDigitsFrom (by omega : 1 < 16) (by omega) ha
  have hfin : (hexDigits ds).map Fin.val = ds := by
    unfold hexDigits
    rw [List.map_map]
    refine (List.map_congr_left fun d hd => ?_).trans (List.map_id ds)
    exact Nat.mod_eq_of_lt (hlt d hd)
  refine ⟨⟨hexDigits ds, by simpa [hexDigits] using hne, by simpa [hexDigits] using hlen⟩, ?_⟩
  unfold HexField.value HexField.toNat
  rw [hfin, hval]
  rw [BitVec.ofNat_toNat, BitVec.setWidth_eq]

/-! ## Reading -/

/-- The digits of a field, and those that happen to follow. -/
theorem leadingDigits_text (S : HexField) (behind : Line) :
    leadingDigits 16 (S.text ++ behind) = S.digits.map Fin.val ++ leadingDigits 16 behind := by
  have hmap : ∀ ds : List (Fin 16), leadingDigits 16 (ds.map hexChar ++ behind) =
      ds.map Fin.val ++ leadingDigits 16 behind := by
    intro ds
    induction ds with
    | nil => rfl
    | cons d ds ih =>
      rw [List.map_cons, List.cons_append, leadingDigits, digit_hexChar]
      simp only [ih, List.map_cons, List.cons_append]
  exact hmap S.digits

/-- A field of more than one digit has neither white space nor a sign or prefix. -/
theorem strto_text (S : HexField) (behind : Line) (h : 1 < S.digits.length) :
    strto 16 (S.text ++ behind) =
      some ((ofDigitsFrom 16 S.toNat (leadingDigits 16 behind) : Nat) : Int) := by
  obtain ⟨d, e, ds, hS⟩ : ∃ d e ds, S.digits = d :: e :: ds := by
    match hds : S.digits with
    | [] => rw [hds] at h; simp at h
    | [d] => rw [hds] at h; simp at h
    | d :: e :: ds => exact ⟨d, e, ds, rfl⟩
  have htext : S.text ++ behind = hexChar d :: hexChar e :: (ds.map hexChar ++ behind) := by
    unfold HexField.text
    rw [hS]
    rfl
  have hspace : (S.text ++ behind).dropWhile isspace = S.text ++ behind := by
    rw [htext, List.dropWhile_cons_of_neg (by simp [isspace_hexChar])]
  have hsign : splitSign (S.text ++ behind) = (false, S.text ++ behind) := by
    rw [htext]
    unfold splitSign
    split
    · rename_i heq
      exact absurd (List.cons.inj heq).1 (hexChar_ne d).1
    · rename_i heq
      exact absurd (List.cons.inj heq).1 (hexChar_ne d).2.1
    · rfl
  have hprefix : dropHexPrefix (S.text ++ behind) = S.text ++ behind := by
    rw [htext]
    unfold dropHexPrefix
    split
    · rename_i x c cs heq
      have hx : hexChar e = x := (List.cons.inj (List.cons.inj heq).2).1
      rw [if_neg (by simp [← hx, hexChar_ne e]), heq]
    · rfl
  have hne : S.digits.map Fin.val ++ leadingDigits 16 behind ≠ [] := by simp [hS]
  unfold strto
  simp only [hspace, hsign, hprefix, if_true, leadingDigits_text, if_neg hne, Bool.false_eq_true,
    if_false]
  congr 2
  exact ofDigitsFrom_append 16 0 _ _

/-! ## `GetBaseAddress` -/

/-- `isalnum` in the C locale. -/
def isalnum (c : Char) : Bool :=
  48 ≤ c.toNat && c.toNat ≤ 57 || 65 ≤ c.toNat && c.toNat ≤ 90 || 97 ≤ c.toNat && c.toNat ≤ 122

/-- `sscanf` with the format `%lx`: a number that does not fit becomes the greatest that does. -/
def scanLx (text : Line) : Option Word :=
  (strto 16 text).map fun v => if v.natAbs < 2 ^ 64 then BitVec.ofInt 64 v else -1

/-- The loop over `addr_buf`, of `n` characters: `none` if one of them is not alphanumeric. The end
of the file is not. -/
def fillBuffer : Nat → Line → Option Line
  | 0, _ => some []
  | _ + 1, [] => none
  | n + 1, c :: cs => if isalnum c then (fillBuffer n cs).map (c :: ·) else none

/-- `maps` is the text of the process's file if it can be opened, and `behind` what the stack holds
behind `addr_buf`, up to the first NUL. -/
def getBaseAddress (maps : Option Line) (behind : Line) : DbgM σ Word := do
  let some text := maps | do
    log .pError "fopen failed" []
    return 0
  match fillBuffer 16 text with
  | none => return 0
  | some addrBuf => return (scanLx (addrBuf ++ behind)).getD 0

/-- What lies behind the buffer does not change the number that is read. -/
def HarmlessBehind (S : HexField) (behind : Line) : Prop :=
  leadingDigits 16 behind = [] ∨ S.value = -1 ∨
    S.value = 0 ∧ ∀ d ∈ leadingDigits 16 behind, d = 0

theorem isalnum_hexChar : ∀ d : Fin 16, isalnum (hexChar d) = true := by decide

theorem fillBuffer_append {n : Nat} {xs : Line} (hxs : ∀ c ∈ xs, isalnum c = true)
    (hn : xs.length ≤ n) (ys : Line) :
    fillBuffer n (xs ++ ys) = (fillBuffer (n - xs.length) ys).map (xs ++ ·) := by
  induction xs generalizing n with
  | nil => simp
  | cons c xs ih =>
    obtain ⟨m, rfl⟩ : ∃ m, n = m + 1 := ⟨n - 1, by simp at hn; omega⟩
    have hc := hxs c (List.mem_cons_self ..)
    have hlen : xs.length ≤ m := by simpa using hn
    rw [List.cons_append, fillBuffer, if_pos hc,
      ih (fun c' hc' => hxs c' (List.mem_cons_of_mem _ hc')) hlen]
    simp [Function.comp_def]

/-- The field fills the buffer, or the character behind it ends the loop. -/
theorem fillBuffer_text (S : HexField) (rest : Line) :
    fillBuffer 16 (S.text ++ '-' :: rest) =
      if S.digits.length = 16 then some S.text else none := by
  have htext : ∀ c ∈ S.text, isalnum c = true := by
    intro c hc
    obtain ⟨d, -, rfl⟩ := List.mem_map.mp hc
    exact isalnum_hexChar d
  have hlen : S.text.length = S.digits.length := List.length_map _
  rw [fillBuffer_append htext (hlen ▸ S.short), hlen]
  have hshort := S.short
  split
  · rename_i h
    rw [h]
    simp [fillBuffer]
  · obtain ⟨m, hm⟩ : ∃ m, 16 - S.digits.length = m + 1 := ⟨15 - S.digits.length, by omega⟩
    rw [hm, fillBuffer, if_neg (by decide)]
    rfl

/-- What `sscanf` makes of a field and the digits behind it. -/
theorem scanLx_text (S : HexField) (behind : Line) (h : 1 < S.digits.length) :
    scanLx (S.text ++ behind) =
      some (if ofDigitsFrom 16 S.toNat (leadingDigits 16 behind) < 2 ^ 64 then
        BitVec.ofNat 64 (ofDigitsFrom 16 S.toNat (leadingDigits 16 behind)) else -1) := by
  unfold scanLx
  rw [strto_text S behind h, Option.map_some, Int.natAbs_natCast, BitVec.ofInt_natCast]

/-- The number read is the field's if what lies behind is harmless. -/
theorem scanLx_text_iff (S : HexField) (behind : Line) (h : 1 < S.digits.length) :
    scanLx (S.text ++ behind) = some S.value ↔ HarmlessBehind S behind := by
  have hS := S.toNat_lt
  have hzero : S.value = 0 ↔ S.toNat = 0 := by
    rw [← BitVec.toNat_inj, S.toNat_value]
    rfl
  have hmax : S.value = -1 ↔ S.toNat = 2 ^ 64 - 1 := by
    rw [← BitVec.toNat_inj, S.toNat_value]
    rfl
  rw [scanLx_text S behind h, Option.some_inj]
  unfold HarmlessBehind
  by_cases hnil : leadingDigits 16 behind = []
  · rw [hnil, ofDigitsFrom_nil, if_pos hS]
    exact iff_of_true rfl (Or.inl rfl)
  · have hself := ofDigitsFrom_eq_self_iff (v := S.toNat) (by omega : 1 < 16) hnil
    have hlen : 0 < (leadingDigits 16 behind).length := List.length_pos_of_ne_nil hnil
    split
    · rename_i hfits
      have hread : BitVec.ofNat 64 (ofDigitsFrom 16 S.toNat (leadingDigits 16 behind)) = S.value ↔
          ofDigitsFrom 16 S.toNat (leadingDigits 16 behind) = S.toNat := by
        rw [← BitVec.toNat_inj, S.toNat_value, BitVec.toNat_ofNat, Nat.mod_eq_of_lt hfits]
      rw [hread, hself, hzero, hmax]
      constructor
      · exact fun hz => Or.inr (Or.inr hz)
      · rintro (h' | h' | h')
        · exact absurd h' hnil
        · have hle := le_ofDigitsFrom 16 S.toNat (leadingDigits 16 behind)
          have hpow : 16 ^ 1 ≤ 16 ^ (leadingDigits 16 behind).length :=
            Nat.pow_le_pow_right (by omega) hlen
          have hmul := Nat.mul_le_mul_left S.toNat hpow
          omega
        · exact h'
    · rename_i hbig
      rw [eq_comm, hmax, hzero]
      constructor
      · exact fun hz => Or.inr (Or.inl hz)
      · rintro (h' | h' | h')
        · exact absurd h' hnil
        · exact h'
        · rw [hself.mpr h'] at hbig
          exact absurd hS hbig

/-- **The base address is read back** from a maps file that begins with `S-`, whatever follows in
the file, exactly if `S` is 0 in fewer than 16 digits, or has 16 digits and what the stack holds
behind the buffer does not go on with digits that change it. -/
theorem getBaseAddress_iff (S : HexField) (rest behind : Line) (d : Main σ) :
    getBaseAddress (some (S.text ++ '-' :: rest)) behind d = .ok (S.value, d) ↔
      S.digits.length < 16 ∧ S.value = 0 ∨ S.digits.length = 16 ∧ HarmlessBehind S behind := by
  have hshort := S.short
  have hrun : getBaseAddress (some (S.text ++ '-' :: rest)) behind d =
      .ok (if S.digits.length = 16 then (scanLx (S.text ++ behind)).getD 0 else 0, d) := by
    unfold getBaseAddress
    simp only [fillBuffer_text]
    split
    · rfl
    · rfl
  rw [hrun]
  simp only [Except.ok.injEq, Prod.mk.injEq, and_true]
  by_cases hfull : S.digits.length = 16
  · have hread := scanLx_text_iff S behind (by omega)
    rw [scanLx_text S behind (by omega), Option.some_inj] at hread
    rw [if_pos hfull, scanLx_text S behind (by omega), Option.getD_some, hread]
    exact ⟨fun h => Or.inr ⟨hfull, h⟩, fun h => (h.resolve_left fun hlt => by omega).2⟩
  · rw [if_neg hfull, eq_comm]
    exact ⟨fun h => Or.inl ⟨by omega, h⟩, fun h => (h.resolve_right fun hlt => hfull hlt.1).2⟩

/-- The field of 0x555555554000, where programs are often loaded. -/
def loadField : HexField := ⟨[5, 5, 5, 5, 5, 5, 5, 5, 4, 0, 0, 0], by decide, by decide⟩

/-- Twelve digits are read as 0. -/
theorem load_address_lost :
    getBaseAddress (some (loadField.text ++ "-555555555000 r--p".toList)) [] (Main.init ()) =
        .ok (0, Main.init ()) ∧
      loadField.value = 0x555555554000 ∧
      ¬ getBaseAddress (some (loadField.text ++ "-555555555000 r--p".toList)) []
        (Main.init ()) = .ok (loadField.value, Main.init ()) := by
  have hlost : getBaseAddress (some (loadField.text ++ "-555555555000 r--p".toList)) []
      (Main.init ()) = .ok (0, Main.init ()) := by rfl
  have hvalue : loadField.value = 0x555555554000 := by decide
  refine ⟨hlost, hvalue, ?_⟩
  rw [hlost, hvalue]
  intro h
  cases h

end Zkz.Debugger
