import Zkz.Inject.Process

/-!
# Room for a shellcode

`Process::find_free_space` looks for a run of zero bytes in a segment. It sets the address of a run
when the count is 0, but counts the byte first: the address stays 0, and is what it returns.

* `infix_append_cons_iff`: a run does not go over another byte.
* `scanFree_eq`: the loop ends with the address 0 if there is a run, and without one otherwise.
* `findFreeSpace_iff`: the first run is found exactly if there is none.
* `findFreeSpace_faults`: a segment of more than one word is not even read.
-/

namespace Zkz.Inject

open Zkz.Lib Zkz.Debugger

/-! ## Runs in a list -/

section Runs

variable {α : Type} {l xs ys : List α} {b : α}

/-- What does not contain `b` lies on one side of it. -/
theorem infix_append_cons_iff (hb : b ∉ l) : l <:+: xs ++ b :: ys ↔ l <:+: xs ∨ l <:+: ys := by
  have hempty : ∀ {l' : List α}, b ∉ l' → l' <+: b :: ys → l' = [] := by
    intro l' hl' h
    cases l' with
    | nil => rfl
    | cons c l' =>
      rw [List.cons_prefix_cons] at h
      exact absurd (h.1 ▸ List.mem_cons_self ..) hl'
  rw [List.infix_append_iff]
  constructor
  · rintro (h | h | ⟨l₁, l₂, rfl, h₁, h₂⟩)
    · exact Or.inl h
    · rcases List.infix_cons_iff.mp h with h | h
      · rw [hempty hb h]
        exact Or.inl (List.nil_infix)
      · exact Or.inr h
    · rw [hempty (fun hmem => hb (List.mem_append_right _ hmem)) h₂, List.append_nil]
      exact Or.inl h₁.isInfix
  · rintro (h | h)
    · exact Or.inl h
    · exact Or.inr (Or.inl (h.trans (List.suffix_cons b ys).isInfix))

theorem not_infix_replicate {a : α} {m n : Nat} (h : m < n) :
    ¬ List.replicate n a <:+: List.replicate m a := by
  intro hinfix
  have hle := hinfix.length_le
  simp only [List.length_replicate] at hle
  omega

end Runs

/-- `n` zero bytes from index `i` on. -/
def RunAt (content : List Byte) (n i : Nat) : Prop := ∀ k < n, content[i + k]? = some 0

/-- The earliest of these. -/
def FirstRun (content : List Byte) (n i : Nat) : Prop :=
  RunAt content n i ∧ ∀ j < i, ¬ RunAt content n j

theorem runAt_iff_drop {content : List Byte} {n i : Nat} :
    RunAt content n i ↔ List.replicate n 0 <+: content.drop i := by
  rw [List.prefix_iff_getElem?]
  simp only [List.length_replicate, List.getElem_replicate, List.getElem?_drop]
  rfl

theorem exists_runAt_iff {content : List Byte} {n : Nat} :
    (∃ i, RunAt content n i) ↔ List.replicate n 0 <:+: content := by
  simp only [runAt_iff_drop]
  constructor
  · rintro ⟨i, h⟩
    exact h.isInfix.trans (List.drop_suffix i content).isInfix
  · intro h
    obtain ⟨t, hempty, hsuffix⟩ := List.infix_iff_prefix_suffix.mp h
    rw [List.suffix_iff_eq_drop.mp hsuffix] at hempty
    exact ⟨_, hempty⟩

/-! ## `find_free_space` -/

/-- The variables of the loop. -/
structure FreeScan where
  pAddr : Addr := 0
  cAddr : Addr := 0
  pCount : Word := 0
  cCount : Word := 0

/-- The loop over the bytes of the buffer from index `i` on; `none` if it comes to its end. -/
def scanFree (startAddr : Addr) (shellcodeSz : Word) :
    List Byte → Nat → FreeScan → Option Addr
  | [], _, _ => none
  | b :: rest, i, s =>
    if b = 0 then
      let cCount := s.cCount + 1
      let cAddr := if cCount = 0 then startAddr + BitVec.ofNat 64 i else s.cAddr
      if cCount = shellcodeSz then some cAddr
      else scanFree startAddr shellcodeSz rest (i + 1)
        { s with cCount := cCount, cAddr := cAddr }
    else
      let s := if s.cCount > s.pCount then { s with pCount := s.cCount, pAddr := s.cAddr } else s
      scanFree startAddr shellcodeSz rest (i + 1) { s with cCount := 0, cAddr := 0 }

/-- `find_free_space` with what reads the segment into the zeroed buffer; `room` says whether
`calloc` succeeds. -/
def findFreeSpaceWith (read : List Byte → ProcM (Int × List Byte)) (room : Bool)
    (startAddr : Addr) (len : Nat) (shellcodeSz : Word) : ProcM Addr := do
  if !room then
    logProcess .pError "Memory allocation failed" []
    return 1
  let (ret, buffer) ← read (List.replicate len 0)
  if ret < 0 then return 1
  match scanFree startAddr shellcodeSz buffer 0 {} with
  | some a => return a
  | none =>
    logProcess .print "Free space of size %d not found in the process"
      [.int (shellcodeSz.setWidth 32).toInt]
    return 1

def findFreeSpace (room : Bool) (startAddr : Addr) (len : Nat) (shellcodeSz : Word) :
    ProcM Addr :=
  findFreeSpaceWith (fun buffer => pread buffer startAddr len) room startAddr len shellcodeSz

/-- The address is that of the first run in the segment, and 1 exactly if there is none. -/
structure FindsSpace (content : List Byte) (startAddr : Addr) (n : Nat) (result : Addr) :
    Prop where
  first : ∀ i, FirstRun content n i → result = startAddr + BitVec.ofNat 64 i
  none : result = 1 ↔ ¬ ∃ i, RunAt content n i

/-- The loop behind a run of `c` zero bytes. -/
theorem scanFree_eq {n : Nat} (hn : n < 2 ^ 64) (startAddr : Addr) (content : List Byte)
    {c : Nat} (hc : c < n) (i : Nat) {s : FreeScan} (hcount : s.cCount = BitVec.ofNat 64 c)
    (haddr : s.cAddr = 0) :
    scanFree startAddr (BitVec.ofNat 64 n) content i s =
      if List.replicate n 0 <:+: List.replicate c 0 ++ content then some 0 else none := by
  induction content generalizing c i s with
  | nil =>
    rw [List.append_nil, if_neg (not_infix_replicate hc)]
    rfl
  | cons b content ih =>
    unfold scanFree
    by_cases hb : b = 0
    · subst hb
      have hnext : s.cCount + 1 = BitVec.ofNat 64 (c + 1) := by
        rw [hcount, BitVec.ofNat_add]
        rfl
      have hzero : BitVec.ofNat 64 (c + 1) ≠ 0 := by
        intro h
        have := congrArg BitVec.toNat h
        simp at this
        omega
      have hrun : List.replicate c (0 : Byte) ++ 0 :: content =
          List.replicate (c + 1) 0 ++ content := by
        rw [List.replicate_succ', List.append_assoc, List.singleton_append]
      have heq : BitVec.ofNat 64 (c + 1) = BitVec.ofNat 64 n ↔ c + 1 = n := by
        rw [← BitVec.toNat_inj, BitVec.toNat_ofNat, BitVec.toNat_ofNat, Nat.mod_eq_of_lt hn,
          Nat.mod_eq_of_lt (by omega)]
      simp only [if_true, hnext, if_neg hzero, haddr, heq, hrun]
      by_cases hlast : c + 1 = n
      · rw [if_pos hlast, if_pos (hlast ▸ (List.prefix_append _ _).isInfix)]
      · rw [if_neg hlast]
        exact ih (by omega) (i + 1) rfl rfl
    · have hnot : b ∉ List.replicate n (0 : Byte) := fun h => hb (List.eq_of_mem_replicate h)
      have hside : List.replicate n 0 <:+: List.replicate c 0 ++ b :: content ↔
          List.replicate n 0 <:+: List.replicate 0 0 ++ content := by
        rw [infix_append_cons_iff hnot, or_iff_right (not_infix_replicate hc)]
        rfl
      simp only [if_neg hb, hside]
      split
      · exact ih (by omega) (i + 1) rfl rfl
      · exact ih (by omega) (i + 1) rfl rfl

section FreeSpace

variable {read : List Byte → ProcM (Int × List Byte)} {content : List Byte} {t t₁ : Traced}

/-- What is returned is 0 if there is a run and 1 if there is none. -/
theorem findFreeSpace_eq (hread : read (List.replicate content.length 0) t = .ok ((0, content), t₁))
    {n : Nat} (hpos : 0 < n) (hn : n < 2 ^ 64) (startAddr : Addr) :
    ∃ t', findFreeSpaceWith read true startAddr content.length (BitVec.ofNat 64 n) t =
      .ok (if List.replicate n 0 <:+: content then 0 else 1, t') := by
  have hscan := scanFree_eq hn startAddr content hpos 0 (s := {}) rfl rfl
  rw [List.replicate_zero, List.nil_append] at hscan
  unfold findFreeSpaceWith
  simp only [Bool.not_true, Bool.false_eq_true, if_false]
  rw [run_bind_ok hread]
  simp only [hscan, Int.lt_irrefl, if_false]
  split
  · exact ⟨t₁, rfl⟩
  · exact ⟨_, rfl⟩

end FreeSpace

/-- With `pread` itself no segment of more than one word gets as far. -/
theorem findFreeSpace_faults {len : Nat} (h : 16 ≤ len) (startAddr : Addr) (shellcodeSz : Word)
    (t : Traced) : ∀ r, findFreeSpace true startAddr len shellcodeSz t ≠ .ok r := by
  intro r hrun
  obtain ⟨q, t₁, hread, -⟩ := run_bind_eq_ok.mp hrun
  have hlen : (List.replicate len (0 : Byte)).length = len := List.length_replicate
  have hfault := pread_faults (hlen.symm ▸ h) startAddr t (q, t₁)
  rw [hlen] at hfault
  exact hfault hread

/-- An earliest run exists if there is one. -/
theorem exists_firstRun {content : List Byte} {n : Nat} (h : ∃ i, RunAt content n i) :
    ∃ i, FirstRun content n i := by
  classical
  exact ⟨Nat.find h, Nat.find_spec h, fun _ hj => Nat.find_min h hj⟩

/-- No run of a segment that does not wrap is at 0. -/
theorem RunAt.address_ne_zero {content : List Byte} {n i : Nat} (h : RunAt content n i)
    (hpos : 0 < n) {startAddr : Addr} (h0 : startAddr ≠ 0)
    (hwrap : startAddr.toNat + content.length ≤ 2 ^ 64) :
    startAddr + BitVec.ofNat 64 i ≠ 0 := by
  obtain ⟨hi, -⟩ := List.getElem?_eq_some_iff.mp (h 0 hpos)
  intro hzero
  have htoNat := congrArg BitVec.toNat hzero
  rw [BitVec.toNat_add, BitVec.toNat_ofNat, Nat.mod_eq_of_lt (by omega : i < 2 ^ 64),
    Nat.mod_eq_of_lt (by omega)] at htoNat
  apply h0
  apply BitVec.eq_of_toNat_eq
  simp only [BitVec.ofNat_eq_ofNat, BitVec.toNat_ofNat, Nat.zero_mod] at htoNat ⊢
  omega

/-- **The first run is found**, for every segment that is read into the buffer and every size up to
its length, exactly if there is none: the address 0 that is returned otherwise is none of the
segment. -/
theorem findFreeSpace_iff (read : List Byte → ProcM (Int × List Byte)) (content : List Byte)
    (t t₁ : Traced) (hread : read (List.replicate content.length 0) t = .ok ((0, content), t₁))
    (startAddr : Addr) (h0 : startAddr ≠ 0)
    (hwrap : startAddr.toNat + content.length ≤ 2 ^ 64) (n : Nat) (hpos : 1 ≤ n)
    (hlen : n ≤ content.length) :
    (∃ result t', findFreeSpaceWith read true startAddr content.length (BitVec.ofNat 64 n) t =
      .ok (result, t') ∧ FindsSpace content startAddr n result) ↔
      ¬ ∃ i, RunAt content n i := by
  have hstart : startAddr.toNat ≠ 0 := fun h => h0 (BitVec.eq_of_toNat_eq (by simpa using h))
  obtain ⟨t', hrun⟩ := findFreeSpace_eq hread hpos (by omega : n < 2 ^ 64) startAddr
  rw [hrun]
  by_cases hsome : ∃ i, RunAt content n i
  · refine iff_of_false ?_ (not_not.mpr hsome)
    rintro ⟨result, t'', heq, hfinds⟩
    rw [if_pos (exists_runAt_iff.mp hsome)] at heq
    cases heq
    obtain ⟨i, hi⟩ := exists_firstRun hsome
    exact hi.1.address_ne_zero hpos h0 hwrap (hfinds.first i hi).symm
  · refine iff_of_true ?_ hsome
    rw [if_neg (fun h => hsome (exists_runAt_iff.mpr h))]
    exact ⟨1, t', rfl, fun i hi => absurd ⟨i, hi.1⟩ hsome, iff_of_true rfl hsome⟩

/-- Runs of one and of two zero bytes. -/
def scattered : List Byte := [0x90, 0, 0, 0x90, 0, 0xcc, 0, 0]

/-- They leave no room for three bytes, as they should. -/
theorem scattered_segment :
    ∃ result t', findFreeSpaceWith (fun _ => return (0, scattered)) true 0x1000 8 3 nops =
      .ok (result, t') ∧ FindsSpace scattered 0x1000 3 result :=
  (findFreeSpace_iff (fun _ => return (0, scattered)) scattered nops nops rfl 0x1000 (by decide)
    (by decide) 3 (by decide) (by decide)).mpr (mt exists_runAt_iff.mp (by decide))

/-- Two zero bytes at 0x1001 are reported at 0. -/
theorem room_at_zero :
    (∃ t', findFreeSpaceWith (fun _ => return (0, [0x90, 0, 0, 0x90])) true 0x1000 4 2 nops =
        .ok (0, t')) ∧
      FirstRun [0x90, 0, 0, 0x90] 2 1 ∧
      ¬ ∃ result t', findFreeSpaceWith (fun _ => return (0, [0x90, 0, 0, 0x90])) true 0x1000 4 2
        nops = .ok (result, t') ∧ FindsSpace [0x90, 0, 0, 0x90] 0x1000 2 result := by
  have hrun : findFreeSpaceWith (fun _ => return (0, [0x90, 0, 0, 0x90])) true 0x1000 4 2 nops =
      .ok (0, nops) := by rfl
  have hfirst : FirstRun [0x90, 0, 0, 0x90] 2 1 := by
    unfold FirstRun RunAt
    decide
  refine ⟨⟨nops, hrun⟩, hfirst, ?_⟩
  rintro ⟨result, t', h, hfinds⟩
  rw [hrun] at h
  cases h
  exact absurd (hfinds.first 1 hfirst) (by decide)

end Zkz.Inject
