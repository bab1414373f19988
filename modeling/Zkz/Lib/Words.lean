import Mathlib.Data.BitVec
import Mathlib.Tactic.IntervalCases

/-!
# Words in byte memories

A byte memory with 64-bit addresses, and the little-endian word of the eight bytes that
start at an address. Addresses wrap around: the word at `a` covers `a + i` for `i < 8`,
and `x` lies in it exactly when `(x - a).toNat < 8`.

* `byteAt_readWord`: the bytes of a word are those it was read from.
* `writeWord_add`, `writeWord_outside`: the bytes that a write sets, and those it leaves.
* `writeWord_same_iff`: where a write changes nothing.
* `writeWord_setLow`: writing back a word whose low byte was replaced updates one byte.
* `signExtend_setWidth_eq_self_iff`: the integers that a narrower signed type holds.
-/

namespace Zkz.Lib

abbrev Byte := BitVec 8
abbrev Addr := BitVec 64
abbrev Word := BitVec 64
abbrev Mem := Addr → Byte

/-- Byte `i` of a little-endian word. -/
def byteAt (w : Word) (i : Nat) : Byte := w.extractLsb' (8 * i) 8

def readWord (m : Mem) (a : Addr) : Word :=
  m (a + 7) ++ m (a + 6) ++ m (a + 5) ++ m (a + 4) ++ m (a + 3) ++ m (a + 2) ++ m (a + 1) ++ m a

/-- `x` is one of the eight bytes of the word at `a`. -/
def InWord (a x : Addr) : Prop := (x - a).toNat < 8

instance (a x : Addr) : Decidable (InWord a x) := inferInstanceAs (Decidable (_ < _))

def writeWord (m : Mem) (a : Addr) (w : Word) : Mem := fun x =>
  if InWord a x then byteAt w (x - a).toNat else m x

/-- The word with its low byte replaced by `t`. -/
def setLow (w : Word) (t : Byte) : Word := (w &&& 0xffffffffffffff00) ||| t.setWidth 64

/-! ## Addresses of a word -/

theorem sub_add_toNat {i : Nat} (hi : i < 8) (a : Addr) :
    (a + BitVec.ofNat 64 i - a).toNat = i := by
  rw [BitVec.add_comm, BitVec.add_sub_cancel, BitVec.toNat_ofNat]
  omega

theorem inWord_add {i : Nat} (hi : i < 8) (a : Addr) : InWord a (a + BitVec.ofNat 64 i) := by
  unfold InWord
  rw [sub_add_toNat hi]
  exact hi

theorem inWord_self (a : Addr) : InWord a a := by simp [InWord]

theorem InWord.exists_offset {a x : Addr} (h : InWord a x) :
    ∃ i, i < 8 ∧ x = a + BitVec.ofNat 64 i := by
  refine ⟨(x - a).toNat, h, ?_⟩
  rw [BitVec.ofNat_toNat, BitVec.setWidth_eq, BitVec.add_comm, BitVec.sub_add_cancel]

/-! ## A word is its eight bytes -/

theorem byteAt_readWord {i : Nat} (hi : i < 8) (m : Mem) (a : Addr) :
    byteAt (readWord m a) i = m (a + BitVec.ofNat 64 i) := by
  unfold byteAt readWord
  interval_cases i <;> ext j hj <;> simp <;> grind

/-- A word is that of another memory with the same bytes there. -/
theorem readWord_congr {m m' : Mem} {a : Addr} (h : ∀ x, InWord a x → m x = m' x) :
    readWord m a = readWord m' a := by
  have hbyte : ∀ i, i < 8 → m (a + BitVec.ofNat 64 i) = m' (a + BitVec.ofNat 64 i) :=
    fun i hi => h _ (inWord_add hi a)
  have h0 : m a = m' a := h a (inWord_self a)
  unfold readWord
  rw [h0, show m (a + 1) = _ from hbyte 1 (by omega), show m (a + 2) = _ from hbyte 2 (by omega),
    show m (a + 3) = _ from hbyte 3 (by omega), show m (a + 4) = _ from hbyte 4 (by omega),
    show m (a + 5) = _ from hbyte 5 (by omega), show m (a + 6) = _ from hbyte 6 (by omega),
    show m (a + 7) = _ from hbyte 7 (by omega)]
  rfl

theorem highMask_getLsbD {j : Nat} (hj : j < 64) :
    BitVec.getLsbD (0xffffffffffffff00 : Word) j = decide (8 ≤ j) := by
  have h : ∀ j : Fin 64, BitVec.getLsbD (0xffffffffffffff00 : Word) j.val = decide (8 ≤ j.val) := by
    decide
  exact h ⟨j, hj⟩

theorem byteAt_setLow_zero (w : Word) (t : Byte) : byteAt (setLow w t) 0 = t := by
  apply BitVec.eq_of_getLsbD_eq
  intro j hj
  have hmask := highMask_getLsbD (show j < 64 by omega)
  simp only [byteAt, setLow, BitVec.getLsbD_extractLsb', BitVec.getLsbD_or, BitVec.getLsbD_and,
    BitVec.getLsbD_setWidth, Nat.mul_zero, Nat.zero_add, hj, decide_true, Bool.true_and]
  simp only [hmask, show ¬ 8 ≤ j by omega, show j < 64 by omega, decide_false, decide_true,
    Bool.and_false, Bool.false_or, Bool.true_and]

theorem byteAt_setLow {i : Nat} (h0 : 0 < i) (hi : i < 8) (w : Word) (t : Byte) :
    byteAt (setLow w t) i = byteAt w i := by
  apply BitVec.eq_of_getLsbD_eq
  intro j hj
  have hmask := highMask_getLsbD (show 8 * i + j < 64 by omega)
  simp only [byteAt, setLow, BitVec.getLsbD_extractLsb', BitVec.getLsbD_or, BitVec.getLsbD_and,
    BitVec.getLsbD_setWidth]
  simp only [hmask, show 8 ≤ 8 * i + j by omega, decide_true, Bool.and_true,
    BitVec.getLsbD_of_ge t (8 * i + j) (by omega), Bool.and_false, Bool.or_false]

/-! ## Writing words -/

theorem writeWord_add {i : Nat} (hi : i < 8) (m : Mem) (a : Addr) (w : Word) :
    writeWord m a w (a + BitVec.ofNat 64 i) = byteAt w i := by
  unfold writeWord
  rw [if_pos (inWord_add hi a), sub_add_toNat hi]

theorem writeWord_self (m : Mem) (a : Addr) (w : Word) : writeWord m a w a = byteAt w 0 := by
  have h := writeWord_add (i := 0) (by omega) m a w
  simpa using h

theorem writeWord_outside {a x : Addr} (h : ¬ InWord a x) (m : Mem) (w : Word) :
    writeWord m a w x = m x := if_neg h

/-- The addresses at which a write leaves the memory as it was. -/
theorem writeWord_same_iff (m : Mem) (a : Addr) (w : Word) (P : Addr → Prop) :
    (∀ x, P x → writeWord m a w x = m x) ↔ ∀ i < 8, P (a + BitVec.ofNat 64 i) →
      byteAt w i = m (a + BitVec.ofNat 64 i) := by
  constructor
  · intro h i hi hP
    rw [← h _ hP, writeWord_add hi]
  · intro h x hP
    by_cases hx : InWord a x
    · obtain ⟨i, hi, rfl⟩ := hx.exists_offset
      rw [writeWord_add hi]
      exact h i hi hP
    · exact writeWord_outside hx m w

theorem add_ofNat_ne_self {i : Nat} (h0 : 0 < i) (hi : i < 8) (a : Addr) :
    a + BitVec.ofNat 64 i ≠ a := by
  intro heq
  have hsub := sub_add_toNat hi a
  rw [heq] at hsub
  simp at hsub
  omega

/-- Writing a word back with its low byte replaced changes only the byte at `a`. -/
theorem writeWord_setLow (m : Mem) (a : Addr) (t : Byte) :
    writeWord m a (setLow (readWord m a) t) = Function.update m a t := by
  funext x
  by_cases h : InWord a x
  · obtain ⟨i, hi, rfl⟩ := h.exists_offset
    rw [writeWord_add hi]
    rcases Nat.eq_zero_or_pos i with rfl | h0
    · rw [byteAt_setLow_zero]
      simp
    · rw [byteAt_setLow h0 hi, byteAt_readWord hi, Function.update_of_ne (add_ofNat_ne_self h0 hi a)]
  · have hne : x ≠ a := by
      rintro rfl
      exact h (inWord_self x)
    rw [writeWord_outside h, Function.update_of_ne hne]

/-! ## Narrower integers -/

/-- An integer is the same after a conversion to a narrower signed type and back, exactly if it is
in the range of that type. -/
theorem signExtend_setWidth_eq_self_iff {n w : Nat} (hw : 0 < w) (h : w ≤ n) (x : BitVec n) :
    (x.setWidth w).signExtend n = x ↔ -2 ^ (w - 1) ≤ x.toInt ∧ x.toInt < 2 ^ (w - 1) := by
  have htoInt : ((x.setWidth w).signExtend n).toInt = (x.setWidth w).toInt :=
    BitVec.toInt_signExtend_of_le h
  constructor
  · intro heq
    rw [heq] at htoInt
    rw [htoInt]
    exact ⟨BitVec.le_toInt _, BitVec.toInt_lt⟩
  · rintro ⟨hle, hlt⟩
    have hpow : (2 : Int) ^ w = 2 * 2 ^ (w - 1) := by
      rw [← Int.pow_succ', Nat.sub_add_cancel hw]
    have hdvd : 2 ^ w ∣ 2 ^ n := Nat.pow_dvd_pow 2 h
    apply BitVec.eq_of_toInt_eq
    rw [htoInt, BitVec.toInt_setWidth]
    calc Int.bmod x.toNat (2 ^ w) = Int.bmod x.toInt (2 ^ w) := by
          rw [BitVec.toInt_eq_toNat_bmod, Int.bmod_bmod_of_dvd hdvd]
      _ = x.toInt := by
          apply Int.bmod_eq_of_le <;> push_cast <;> omega

end Zkz.Lib
