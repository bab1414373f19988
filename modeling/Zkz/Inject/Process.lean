import Zkz.Lib.Buffers
import Zkz.Lib.Post
import Zkz.Debugger.Kernel

/-!
# Reading and writing the debuggee's memory

`Process::pread` and `Process::pwrite` move memory in words. Both advance a `uint64_t` pointer by
`sizeof(uint64_t)` words, 64 bytes, for each word, and leave the bytes behind the last whole word
alone. `pread` compares an unsigned result with 0, so that it misses a peek that fails. `pwrite`
pokes the address of the word instead of the word, and always at the start.

* `pread_iff`: `pread` does what it is to exactly for less than 16 bytes, if the peek of a whole word
  succeeds and the tail holds the memory's bytes before.
* `pwrite_mem`: what `pwrite` leaves in the memory.
* `pwrite_iff`: it is what it is to leave exactly if the address of the last word poked and the old
  memory happen to be the bytes of the source.
-/

namespace Zkz.Inject

open Zkz.Lib Zkz.Debugger

/-! ## The debuggee -/

/-- The debuggee's memory, the addresses at which a peek and a poke of a word succeed, and the calls
of `log` so far. -/
structure Traced where
  mem : Mem
  peeks : Addr → Bool
  pokes : Addr → Bool
  out : List LogLine

inductive ProcFault where
  /-- A buffer or a string is read or written outside its bounds. -/
  | outOfBounds
  /-- A signed integer overflows. -/
  | overflow
deriving DecidableEq

abbrev ProcM := StateT Traced (Except ProcFault)

def peektext (a : Addr) : ProcM (Option Word) := fun t =>
  .ok (if t.peeks a then some (readWord t.mem a) else none, t)

def poketext (a : Addr) (w : Word) : ProcM Bool := fun t =>
  if t.pokes a then .ok (true, { t with mem := writeWord t.mem a w }) else .ok (false, t)

def logProcess (level : Level) (msg : String) (args : List LogArg) : ProcM Unit := fun t =>
  .ok ((), { t with out := t.out ++ [⟨level, msg, args⟩] })

/-- `i++` of an `int`. -/
def increment (i : Nat) : ProcM Nat :=
  if i + 1 < 2 ^ 31 then return i + 1 else throw .overflow

/-! ## `pread` -/

/-- The loop of `pread`, with `n` words to go. The destination is a buffer and the offset in it that
`_dst` points to. -/
def preadLoop : Nat → Nat → List Byte → Nat → Addr → ProcM (Int × List Byte)
  | 0, _, dst, _, _ => return (0, dst)
  | n + 1, i, dst, offset, startAddr => do
    -- the word is unsigned, and the comparison with 0 never true: a failed peek is the word -1
    let ret := (← peektext startAddr).getD (-1)
    match storeWord dst offset ret with
    | none => throw .outOfBounds
    | some dst => preadLoop n (← increment i) dst (offset + 8 * 8) (startAddr + 8)

def pread (dst : List Byte) (startAddr : Addr) (len : Nat) : ProcM (Int × List Byte) :=
  preadLoop (len / 8) 0 dst 0 startAddr

/-- `pread` fills the destination if all peeks succeed, and returns -1 if one fails. -/
structure PreadRight (t : Traced) (dst : List Byte) (startAddr : Addr) : Prop where
  success : (∀ i < dst.length / 8, t.peeks (startAddr + BitVec.ofNat 64 (8 * i)) = true) →
    ∃ dst' t', pread dst startAddr dst.length t = .ok ((0, dst'), t') ∧
      dst'.length = dst.length ∧ Holds t.mem startAddr dst' ∧ t'.mem = t.mem
  failure : (∃ i < dst.length / 8, t.peeks (startAddr + BitVec.ofNat 64 (8 * i)) = false) →
    ∃ dst' t', pread dst startAddr dst.length t = .ok ((-1, dst'), t')

section Pread

variable {t : Traced} {dst : List Byte} {startAddr : Addr}

/-- What a peek is taken for. -/
def peeked (t : Traced) (a : Addr) : Word := if t.peeks a then readWord t.mem a else -1

theorem getD_peek (t : Traced) (a : Addr) :
    (if t.peeks a = true then some (readWord t.mem a) else none).getD (-1) = peeked t a := by
  unfold peeked
  split
  · rfl
  · rfl

theorem preadLoop_none {n i offset : Nat} (h : storeWord dst offset (peeked t startAddr) = none) :
    preadLoop (n + 1) i dst offset startAddr t = .error .outOfBounds := by
  rw [preadLoop, run_bind_ok (by rfl)]
  simp only [getD_peek, h]
  rfl

theorem preadLoop_some {n i offset : Nat} {dst' : List Byte}
    (h : storeWord dst offset (peeked t startAddr) = some dst') :
    preadLoop (n + 1) i dst offset startAddr t =
      (do preadLoop n (← increment i) dst' (offset + 8 * 8) (startAddr + 8) :
        ProcM (Int × List Byte)) t := by
  rw [preadLoop, run_bind_ok (by rfl)]
  simp only [getD_peek, h]

/-- The store of a later word is outside the buffer, if that of the last one is. -/
theorem preadLoop_faults (n i : Nat) {offset : Nat} (h : dst.length < offset + 64 * n + 8)
    (startAddr : Addr) (t : Traced) :
    ∀ r, preadLoop (n + 1) i dst offset startAddr t ≠ .ok r := by
  induction n generalizing i dst offset startAddr t with
  | zero =>
    intro r hrun
    rw [preadLoop_none (storeWord_eq_none (by omega))] at hrun
    cases hrun
  | succ n ih =>
    intro r hrun
    cases hstore : storeWord dst offset (peeked t startAddr) with
    | none =>
      rw [preadLoop_none hstore] at hrun
      cases hrun
    | some dst' =>
      rw [preadLoop_some hstore] at hrun
      obtain ⟨i', t', -, hrest⟩ := run_bind_eq_ok.mp hrun
      have hlen := storeWord_length hstore
      exact ih i' (by omega) _ t' r hrest

/-- Two words are too many. -/
theorem pread_faults (h : 16 ≤ dst.length) (startAddr : Addr) (t : Traced) :
    ∀ r, pread dst startAddr dst.length t ≠ .ok r := by
  obtain ⟨n, hn⟩ : ∃ n, dst.length / 8 = n + 1 := ⟨dst.length / 8 - 1, by omega⟩
  unfold pread
  rw [hn]
  exact preadLoop_faults n 0 (by omega) startAddr t

/-- One word is stored, read or not. -/
theorem pread_one (h : dst.length / 8 = 1) (t : Traced) (startAddr : Addr) :
    ∃ dst', storeWord dst 0 (peeked t startAddr) = some dst' ∧
      pread dst startAddr dst.length t = .ok ((0, dst'), t) := by
  have hstore := storeWord_eq_some (w := peeked t startAddr) (by omega : 0 + 8 ≤ dst.length)
  refine ⟨_, hstore, ?_⟩
  unfold pread
  rw [h, preadLoop_some hstore]
  rfl

/-- A buffer whose first word is read holds the memory's bytes if its tail does. -/
theorem holds_storeWord_iff {dst' : List Byte}
    (hstore : storeWord dst 0 (readWord t.mem startAddr) = some dst') :
    Holds t.mem startAddr dst' ↔ ∀ i b, 8 ≤ i → dst[i]? = some b →
      t.mem (startAddr + BitVec.ofNat 64 i) = b := by
  unfold Holds
  simp only [storeWord_getElem? hstore]
  constructor
  · intro hold i b hi hb
    apply hold i b
    rw [if_neg (by omega)]
    exact hb
  · intro htail i b hb
    split at hb
    · rename_i hword
      cases hb
      rw [Nat.sub_zero, byteAt_readWord (by omega)]
    · exact htail i b (by omega) hb

/-- Without a whole word nothing is read. -/
theorem preadRight_iff_of_no_word (h : dst.length < 8) :
    PreadRight t dst startAddr ↔ Holds t.mem startAddr dst := by
  have hdiv : dst.length / 8 = 0 := Nat.div_eq_of_lt h
  have hrun : pread dst startAddr dst.length t = .ok ((0, dst), t) := by
    unfold pread
    rw [hdiv]
    rfl
  constructor
  · intro hright
    obtain ⟨dst', t', hread, -, hheld, -⟩ := hright.success (by omega)
    rw [hrun] at hread
    cases hread
    exact hheld
  · intro hheld
    exact ⟨fun _ => ⟨dst, t, hrun, rfl, hheld, rfl⟩, fun ⟨i, hi, _⟩ => absurd hi (by omega)⟩

/-- One word is read, and the bytes behind it are left. -/
theorem preadRight_iff_of_word (h8 : 8 ≤ dst.length) (h16 : dst.length < 16) :
    PreadRight t dst startAddr ↔ t.peeks startAddr = true ∧ ∀ i b, 8 ≤ i → dst[i]? = some b →
      t.mem (startAddr + BitVec.ofNat 64 i) = b := by
  have hone : dst.length / 8 = 1 := by omega
  obtain ⟨dst', hstore, hrun⟩ := pread_one hone t startAddr
  have hfirst : ∀ i < dst.length / 8, startAddr + BitVec.ofNat 64 (8 * i) = startAddr := by
    intro i hi
    obtain rfl : i = 0 := by omega
    simp
  cases hpeek : t.peeks startAddr with
  | false =>
    refine iff_of_false ?_ fun h => by simpa using h.1
    intro hright
    obtain ⟨dst₁, t₁, hread⟩ := hright.failure ⟨0, by omega, by rw [hfirst 0 (by omega), hpeek]⟩
    rw [hrun] at hread
    cases hread
  | true =>
    have hheld : Holds t.mem startAddr dst' ↔ _ :=
      holds_storeWord_iff (by unfold peeked at hstore; rwa [if_pos hpeek] at hstore)
    constructor
    · intro hright
      obtain ⟨dst₁, t₁, hread, -, hholds, -⟩ :=
        hright.success fun i hi => by rw [hfirst i hi, hpeek]
      rw [hrun] at hread
      cases hread
      exact ⟨rfl, hheld.mp hholds⟩
    · rintro ⟨-, htail⟩
      refine ⟨fun _ => ⟨dst', t, hrun, storeWord_length hstore, hheld.mpr htail, rfl⟩, ?_⟩
      rintro ⟨i, hi, hfail⟩
      rw [hfirst i hi, hpeek] at hfail
      cases hfail

/-- With two words `pread` neither returns 0 nor -1. -/
theorem not_preadRight (h : 16 ≤ dst.length) : ¬ PreadRight t dst startAddr := by
  intro hright
  by_cases hall : ∀ i < dst.length / 8, t.peeks (startAddr + BitVec.ofNat 64 (8 * i)) = true
  · obtain ⟨dst', t', hread, -⟩ := hright.success hall
    exact pread_faults h startAddr t _ hread
  · simp only [not_forall, Bool.not_eq_true] at hall
    obtain ⟨i, hi, hfail⟩ := hall
    obtain ⟨dst', t', hread⟩ := hright.failure ⟨i, hi, hfail⟩
    exact pread_faults h startAddr t _ hread

end Pread

/-- **`pread` reads the memory**, whatever it is and wherever peeks fail, exactly if there are less
than 16 bytes to read, the peek of a whole word succeeds, and the bytes behind that word are in the
destination already. -/
theorem pread_iff (t : Traced) (dst : List Byte) (startAddr : Addr) :
    PreadRight t dst startAddr ↔
      dst.length < 16 ∧ (8 ≤ dst.length → t.peeks startAddr = true) ∧
        ∀ i b, 8 * (dst.length / 8) ≤ i → dst[i]? = some b →
          t.mem (startAddr + BitVec.ofNat 64 i) = b := by
  rcases (by omega : dst.length < 8 ∨ dst.length / 8 = 1 ∧ 8 ≤ dst.length ∧ dst.length < 16 ∨
    16 ≤ dst.length) with hnone | ⟨hone, hword, hshort⟩ | hlong
  · rw [preadRight_iff_of_no_word hnone, Nat.div_eq_of_lt hnone]
    constructor
    · intro hheld
      exact ⟨by omega, fun h8 => absurd h8 (by omega), fun i b _ hb => hheld i b hb⟩
    · rintro ⟨-, -, htail⟩ i b hb
      exact htail i b (Nat.zero_le i) hb
  · rw [preadRight_iff_of_word hword hshort, hone]
    constructor
    · rintro ⟨hpeek, htail⟩
      exact ⟨hshort, fun _ => hpeek, htail⟩
    · rintro ⟨-, hpeek, htail⟩
      exact ⟨hpeek hword, htail⟩
  · exact iff_of_false (not_preadRight hlong) fun h => absurd h.1 (by omega)

/-- A debuggee full of `nop` whose memory can be read and written. -/
def nops : Traced := ⟨fun _ => 0x90, fun _ => true, fun _ => true, []⟩

/-- The second of two words is stored 64 bytes behind the first. A peek that fails goes unnoticed,
and gives eight bytes 0xff. -/
theorem second_word_outside :
    (pread (List.replicate 16 0) 0x1000 16 nops = .error .outOfBounds ∧
      ¬ PreadRight nops (List.replicate 16 0) 0x1000) ∧
      pread (List.replicate 8 0) 0x1000 8 { nops with peeks := fun _ => false } =
        .ok ((0, List.replicate 8 0xff), { nops with peeks := fun _ => false }) := by
  have hrun : pread (List.replicate 16 0) 0x1000 16 nops = .error .outOfBounds := by rfl
  refine ⟨⟨hrun, ?_⟩, by rfl⟩
  intro h
  obtain ⟨dst', t', hread, -⟩ := h.success fun _ _ => rfl
  exact pread_faults (by decide) 0x1000 nops _ hread

/-! ## `pwrite` -/

/-- The loop of `pwrite`, with `n` words to go and `poke i` for the poke of index `i`. It pokes the
value of the pointer `src`, always at `addr`; `startAddr` moves on and is not used. -/
def pwriteLoop (poke : Nat → Addr → Word → ProcM Bool) (addr : Addr) :
    Nat → Nat → Word → Addr → ProcM Int
  | 0, _, _, _ => return 0
  | n + 1, i, src, startAddr => do
    if !(← poke i addr src) then
      logProcess .pError "Ptrace error" []
      return -1
    pwriteLoop poke addr n (← increment i) (src + 8 * 8) (startAddr + 8)

/-- `src` is the address of the source, whose bytes are not read. -/
def pwrite (src : Word) (startAddr : Addr) (len : Nat) : ProcM Int :=
  pwriteLoop (fun _ => poketext) startAddr (len / 8) 0 src startAddr

def pokeWhen (ok : Bool) (a : Addr) (w : Word) : ProcM Bool := fun t =>
  if ok then .ok (true, { t with mem := writeWord t.mem a w }) else .ok (false, t)

/-- `pwrite` with pokes that fail at any time: `pattern i` says whether the poke of index `i`
succeeds. -/
def pwriteWhen (pattern : Nat → Bool) (src : Word) (startAddr : Addr) (len : Nat) : ProcM Int :=
  pwriteLoop (fun i => pokeWhen (pattern i)) startAddr (len / 8) 0 src startAddr

/-- The memory holds the source from `startAddr` on, and is the old one elsewhere. -/
structure Written (old new : Mem) (startAddr : Addr) (bytes : List Byte) : Prop where
  holds : Holds new startAddr bytes
  frame : ∀ x, (∀ i < bytes.length, x ≠ startAddr + BitVec.ofNat 64 i) → new x = old x

/-- The address of the last of `n` words that are poked. -/
def lastSource (src : Word) (n : Nat) : Word := src + BitVec.ofNat 64 (64 * (n - 1))

/-- The memory when `n` words have been poked. -/
def pokedMem (m : Mem) (startAddr : Addr) (src : Word) (n : Nat) : Mem :=
  if n = 0 then m else writeWord m startAddr (lastSource src n)

theorem pokedMem_succ (m : Mem) (addr : Addr) (src : Word) (n : Nat) :
    pokedMem (writeWord m addr src) addr (src + 8 * 8) n = pokedMem m addr src (n + 1) := by
  unfold pokedMem lastSource
  cases n with
  | zero => simp
  | succ n =>
    have hsrc : src + 8 * 8 + BitVec.ofNat 64 (64 * (n + 1 - 1)) =
        src + BitVec.ofNat 64 (64 * (n + 1 + 1 - 1)) := by
      rw [BitVec.add_assoc]
      congr 1
      apply BitVec.eq_of_toNat_eq
      simp
      omega
    simp only [Nat.add_eq_zero_iff, one_ne_zero, and_false, if_false, writeWord_writeWord, hsrc]

/-- The memory holds some bytes where `n` words have been poked if the last address poked has the
first ones, and the memory the others before. -/
theorem holds_pokedMem_iff {bytes : List Byte} (h : bytes.length ≤ 2 ^ 64) (m : Mem) (addr : Addr)
    (src : Word) (n : Nat) :
    Holds (pokedMem m addr src n) addr bytes ↔ ∀ i b, bytes[i]? = some b →
      (if i < 8 ∧ 0 < n then byteAt (lastSource src n) i else m (addr + BitVec.ofNat 64 i)) = b := by
  unfold pokedMem
  by_cases hn : n = 0
  · rw [if_pos hn, hn]
    simp only [Nat.lt_irrefl, and_false, if_false]
    rfl
  · rw [if_neg hn, holds_writeWord_iff h]
    simp only [Nat.pos_of_ne_zero hn, and_true]

/-- How many of `n` pokes from index `i` on are made before one fails. -/
def pokesMade (pattern : Nat → Bool) (i n : Nat) : Nat :=
  ((List.range' i n).takeWhile pattern).length

theorem pokesMade_succ (pattern : Nat → Bool) (i n : Nat) :
    pokesMade pattern i (n + 1) = if pattern i then pokesMade pattern (i + 1) n + 1 else 0 := by
  unfold pokesMade
  rw [List.range'_succ, List.takeWhile_cons]
  split
  · rfl
  · rfl

theorem pokesMade_true (i n : Nat) : pokesMade (fun _ => true) i n = n := by
  induction n generalizing i with
  | zero => rfl
  | succ n ih => rw [pokesMade_succ, if_pos rfl, ih]

section Pwrite

variable {t : Traced} {addr : Addr} {pattern : Nat → Bool} {i : Nat}

theorem pwriteLoop_succ (h : pattern i = true) (n : Nat) (src : Word) (startAddr : Addr) :
    pwriteLoop (fun i => pokeWhen (pattern i)) addr (n + 1) i src startAddr t =
      (do
        let i' ← increment i
        pwriteLoop (fun i => pokeWhen (pattern i)) addr n i' (src + 8 * 8) (startAddr + 8) :
          ProcM Int) { t with mem := writeWord t.mem addr src } := by
  rw [pwriteLoop, h, run_bind_ok (by rfl)]
  rfl

/-- Each poke covers the one before it, and the first that fails ends the loop. -/
theorem pwriteLoop_mem (pattern : Nat → Bool) (addr : Addr) (n : Nat) {i : Nat}
    (hi : i + pokesMade pattern i n < 2 ^ 31) (src : Word) (startAddr : Addr) (t : Traced) :
    pwriteLoop (fun i => pokeWhen (pattern i)) addr n i src startAddr t =
      .ok (if pokesMade pattern i n = n then 0 else -1, { t with
        mem := pokedMem t.mem addr src (pokesMade pattern i n)
        out := if pokesMade pattern i n = n then t.out
          else t.out ++ [⟨.pError, "Ptrace error", []⟩] }) := by
  induction n generalizing i src startAddr t with
  | zero => rfl
  | succ n ih =>
    rw [pokesMade_succ] at hi ⊢
    cases hpoke : pattern i with
    | false =>
      rw [pwriteLoop, hpoke, run_bind_ok (by rfl)]
      rfl
    | true =>
      rw [if_pos hpoke] at hi
      have hincr : increment i = (pure (i + 1) : ProcM Nat) := if_pos (by omega)
      rw [pwriteLoop_succ hpoke, hincr, pure_bind, if_pos rfl, ← pokedMem_succ, ih (by omega)]
      simp only [Nat.succ_inj]

/-- The counter overflows if too many pokes are made. -/
theorem pwriteLoop_overflows (pattern : Nat → Bool) (n : Nat) {i : Nat} (hlt : i < 2 ^ 31)
    (hi : 2 ^ 31 ≤ i + pokesMade pattern i n) (src : Word) (startAddr : Addr) (t : Traced) :
    pwriteLoop (fun i => pokeWhen (pattern i)) addr n i src startAddr t = .error .overflow := by
  induction n generalizing i src startAddr t with
  | zero =>
    simp only [pokesMade, List.range'_zero, List.takeWhile_nil, List.length_nil] at hi
    omega
  | succ n ih =>
    rw [pokesMade_succ] at hi
    cases hpoke : pattern i with
    | false =>
      simp only [hpoke, Bool.false_eq_true, if_false] at hi
      omega
    | true =>
      rw [if_pos hpoke] at hi
      rw [pwriteLoop_succ hpoke]
      unfold increment
      split
      · rename_i hnext
        rw [pure_bind]
        exact ih hnext (by omega) _ _ _
      · rfl

/-- Pokes at one address all succeed, or none does. -/
theorem pwriteLoop_const (t : Traced) (addr : Addr) (n i : Nat) (src : Word) (startAddr : Addr) :
    pwriteLoop (fun _ => poketext) addr n i src startAddr t =
      pwriteLoop (fun _ => pokeWhen (t.pokes addr)) addr n i src startAddr t := by
  induction n generalizing i src startAddr t with
  | zero => rfl
  | succ n ih =>
    unfold pwriteLoop
    cases hpoke : t.pokes addr with
    | false =>
      rw [run_bind_ok (by unfold poketext; rw [hpoke]; rfl), run_bind_ok (by rfl)]
      rfl
    | true =>
      rw [run_bind_ok (by unfold poketext; rw [hpoke]; rfl), run_bind_ok (by rfl)]
      simp only [Bool.not_true, Bool.false_eq_true, if_false]
      unfold increment
      split
      · rw [pure_bind, pure_bind]
        have hrest := ih { t with mem := writeWord t.mem addr src } (i + 1) (src + 8 * 8)
          (startAddr + 8)
        simp only [hpoke] at hrest
        exact hrest
      · rfl

end Pwrite

/-- What `pwrite` leaves in the memory, for any source. -/
theorem pwrite_mem {t : Traced} {startAddr : Addr} (hpoke : t.pokes startAddr = true) (src : Word)
    (len : Nat) :
    pwrite src startAddr len t = if len / 8 < 2 ^ 31 then
      .ok (0, { t with mem := pokedMem t.mem startAddr src (len / 8) })
    else .error .overflow := by
  have hmade := pokesMade_true 0 (len / 8)
  unfold pwrite
  rw [pwriteLoop_const, hpoke]
  split
  · rw [pwriteLoop_mem (fun _ => true) startAddr _ (by omega), hmade, if_pos rfl, if_pos rfl]
  · exact pwriteLoop_overflows (fun _ => true) _ (by omega) (by omega) src startAddr t

/-- A poke inside the source's range leaves the rest as it was. -/
theorem pokedMem_frame {bytes : List Byte} (m : Mem) (startAddr : Addr) (src : Word) (x : Addr)
    (hx : ∀ i < bytes.length, x ≠ startAddr + BitVec.ofNat 64 i) :
    pokedMem m startAddr src (bytes.length / 8) x = m x := by
  unfold pokedMem
  split
  · rfl
  · apply writeWord_outside
    intro hin
    obtain ⟨i, hi, rfl⟩ := hin.exists_offset
    exact hx i (by omega) rfl

/-- **`pwrite` writes the source** where its pokes succeed, whatever the memory and the source are,
exactly if the counter can hold the number of words, the address of the last word poked happens to
be the first eight bytes of the source, and the memory holds the others before. -/
theorem pwrite_iff (t : Traced) (src : Word) (bytes : List Byte) (startAddr : Addr)
    (hpoke : t.pokes startAddr = true) :
    (∃ t', pwrite src startAddr bytes.length t = .ok (0, t') ∧
      Written t.mem t'.mem startAddr bytes) ↔
      bytes.length / 8 < 2 ^ 31 ∧ ∀ i b, bytes[i]? = some b →
        (if i < 8 ∧ 8 ≤ bytes.length then byteAt (lastSource src (bytes.length / 8)) i
          else t.mem (startAddr + BitVec.ofNat 64 i)) = b := by
  rw [pwrite_mem hpoke]
  split
  · rename_i hcount
    have hlong : bytes.length ≤ 2 ^ 64 := by omega
    have hheld := holds_pokedMem_iff hlong t.mem startAddr src (bytes.length / 8)
    simp only [(by omega : 0 < bytes.length / 8 ↔ 8 ≤ bytes.length)] at hheld
    rw [← hheld]
    constructor
    · rintro ⟨t', hrun, hwritten⟩
      cases hrun
      exact ⟨hcount, hwritten.holds⟩
    · rintro ⟨-, hholds⟩
      exact ⟨_, rfl, hholds, pokedMem_frame t.mem startAddr src⟩
  · rename_i hcount
    refine iff_of_false ?_ fun h => hcount h.1
    rintro ⟨t', hrun, -⟩
    cases hrun

/-- A word at an address whose bytes are those of the word. -/
theorem own_address_written :
    ∃ t', pwrite 0x7ffd00001000 0x1000 8 nops = .ok (0, t') ∧
      Written nops.mem t'.mem 0x1000 [0x00, 0x10, 0x00, 0x00, 0xfd, 0x7f, 0x00, 0x00] :=
  (pwrite_iff nops 0x7ffd00001000 [0x00, 0x10, 0x00, 0x00, 0xfd, 0x7f, 0x00, 0x00] 0x1000 rfl).mpr
    ⟨by decide, by
      intro i b hb
      obtain ⟨hi, rfl⟩ := List.getElem?_eq_some_iff.mp hb
      have hall : ∀ j : Fin 8, byteAt (lastSource 0x7ffd00001000 1) j.val =
          [0x00, 0x10, 0x00, 0x00, 0xfd, 0x7f, 0x00, 0x00][j] := by decide
      rw [if_pos ⟨hi, by decide⟩]
      exact hall ⟨i, hi⟩⟩

/-- Eight bytes 0xcc at another address are not what is written. -/
theorem address_written :
    (∃ t', pwrite 0x7ffd00001000 0x1000 8 nops = .ok (0, t') ∧ t'.mem 0x1001 = 0x10) ∧
      ¬ ∃ t', pwrite 0x7ffd00001000 0x1000 8 nops = .ok (0, t') ∧
        Written nops.mem t'.mem 0x1000 (List.replicate 8 0xcc) := by
  have hbyte : (writeWord nops.mem 0x1000 0x7ffd00001000) 0x1001 = 0x10 := by decide
  refine ⟨⟨_, rfl, hbyte⟩, ?_⟩
  rintro ⟨t', hrun, hwritten⟩
  cases hrun
  have hcc := hwritten.holds 1 0xcc rfl
  exact absurd (hbyte.symm.trans hcc) (by decide)

end Zkz.Inject
