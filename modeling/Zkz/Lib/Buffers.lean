import Zkz.Lib.Words

/-!
# Words in byte buffers

A buffer is a list of bytes. `storeWord` writes the eight bytes of a word at an offset, if they are
inside, and `Holds` says that the bytes of a buffer are those of a memory from an address on.

* `storeWord_length`, `storeWord_getElem?`: what a store changes.
* `holds_writeWord_iff`: when a memory holds a buffer after a word was written at its start.
* `writeWord_writeWord`: the last of several writes at an address counts.
-/

namespace Zkz.Lib

/-- The bytes of a little-endian word. -/
def wordBytes (w : Word) : List Byte := (List.range 8).map (byteAt w)

/-- The buffer with a word stored at `offset`; `none` if the word is not inside. -/
def storeWord (buf : List Byte) (offset : Nat) (w : Word) : Option (List Byte) :=
  if offset + 8 ≤ buf.length then
    some (buf.take offset ++ (wordBytes w ++ buf.drop (offset + 8)))
  else none

/-- The memory holds the bytes of the buffer from `a` on. -/
def Holds (m : Mem) (a : Addr) (buf : List Byte) : Prop :=
  ∀ i b, buf[i]? = some b → m (a + BitVec.ofNat 64 i) = b

variable {buf buf' : List Byte} {offset : Nat} {w : Word}

@[simp] theorem wordBytes_length (w : Word) : (wordBytes w).length = 8 := by
  simp [wordBytes]

theorem wordBytes_getElem? {i : Nat} (hi : i < 8) (w : Word) :
    (wordBytes w)[i]? = some (byteAt w i) := by
  unfold wordBytes
  rw [List.getElem?_map, List.getElem?_range hi, Option.map_some]

theorem storeWord_eq_none (h : buf.length < offset + 8) : storeWord buf offset w = none :=
  if_neg (by omega)

theorem storeWord_eq_some (h : offset + 8 ≤ buf.length) :
    storeWord buf offset w =
      some (buf.take offset ++ (wordBytes w ++ buf.drop (offset + 8))) := if_pos h

theorem storeWord_length (h : storeWord buf offset w = some buf') : buf'.length = buf.length := by
  unfold storeWord at h
  split at h
  · rename_i hin
    cases h
    simp only [List.length_append, List.length_take, List.length_drop, wordBytes_length]
    omega
  · cases h

theorem storeWord_getElem? (h : storeWord buf offset w = some buf') (i : Nat) :
    buf'[i]? = if offset ≤ i ∧ i < offset + 8 then some (byteAt w (i - offset)) else buf[i]? := by
  unfold storeWord at h
  split at h
  · rename_i hin
    cases h
    have htake : (buf.take offset).length = offset := by
      rw [List.length_take]
      omega
    by_cases hlow : i < offset
    · rw [List.getElem?_append_left (by omega), List.getElem?_take_of_lt hlow, if_neg (by omega)]
    · rw [List.getElem?_append_right (by omega), htake]
      by_cases hword : i < offset + 8
      · rw [List.getElem?_append_left (by rw [wordBytes_length]; omega),
          wordBytes_getElem? (by omega), if_pos ⟨by omega, hword⟩]
      · rw [List.getElem?_append_right (by rw [wordBytes_length]; omega), wordBytes_length,
          List.getElem?_drop, if_neg (by omega)]
        congr 1
        omega
  · cases h

/-! ## Memories -/

theorem not_inWord_add {i : Nat} (hi : 8 ≤ i) (hlt : i < 2 ^ 64) (a : Addr) :
    ¬ InWord a (a + BitVec.ofNat 64 i) := by
  unfold InWord
  rw [BitVec.add_comm, BitVec.add_sub_cancel, BitVec.toNat_ofNat, Nat.mod_eq_of_lt hlt]
  omega

/-- A buffer is held from the start of a word on if the word has its first bytes, and the memory the
others. -/
theorem holds_writeWord_iff {m : Mem} {a : Addr} (h : buf.length ≤ 2 ^ 64) :
    Holds (writeWord m a w) a buf ↔ ∀ i b, buf[i]? = some b →
      (if i < 8 then byteAt w i else m (a + BitVec.ofNat 64 i)) = b := by
  refine forall_congr' fun i => forall_congr' fun b => imp_congr_right fun hb => ?_
  obtain ⟨hi, -⟩ := List.getElem?_eq_some_iff.mp hb
  split
  · rename_i hword
    rw [writeWord_add hword]
  · rename_i hword
    rw [writeWord_outside (not_inWord_add (by omega) (by omega) a)]

@[simp] theorem writeWord_writeWord (m : Mem) (a : Addr) (v w : Word) :
    writeWord (writeWord m a v) a w = writeWord m a w := by
  funext x
  unfold writeWord
  split
  · rfl
  · rfl

end Zkz.Lib
