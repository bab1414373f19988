import Zkz.Lib.Success
import Zkz.Symbols.WellFormed

/-!
# Files that can be read

Loading reads a file without looking at its size: exactly the files that are `Readable` can be read
without a fault. An offset is that of a pointer and wraps around at 2^64, so that a field may be
inside a file although its table is not.

* `Readable`: what loading reads of a file is inside it, and no entry size that it divides by is 0.
* `readSymbols_exactly`, `readDynamic_exactly`: the symbols and the dynamic entries can be read if
  the parts of `Readable` about them hold, and only then.
-/

namespace Zkz.Symbols

open Zkz.Lib Zkz.Debugger

/-- A read outside the mapping, or a division by zero. -/
def MemoryFault (e : Fault) : Prop := e = .outOfBounds ∨ e = .nullPointer ∨ e = .divisionByZero

theorem memoryFault_outOfBounds : MemoryFault .outOfBounds := Or.inl rfl

theorem memoryFault_nullPointer : MemoryFault .nullPointer := Or.inr (Or.inl rfl)

theorem memoryFault_divisionByZero : MemoryFault .divisionByZero := Or.inr (Or.inr rfl)

/-! ## Fields -/

/-- The bytes at a pointer are in the file. -/
def Inside (m : Mapping) (off n : Nat) : Prop := off % 2 ^ 64 + n ≤ m.length

/-- A string starts at a pointer and ends in the file. -/
def StringAt (m : Mapping) (off : Nat) : Prop := HasString m (off % 2 ^ 64)

/-- Section header `i` has a field in the file. -/
def HasField (m : Mapping) (i off n : Nat) : Prop :=
  shoffAt m ≠ 0 ∧ Inside m (shoffAt m + sizeofShdr * i + off) n

/-! ## What is read of a section -/

/-- What is read of symbol `j` of the table at `sym`, with its names at `str`. -/
structure ReadableSymbol (m : Mapping) (sym str j : Nat) : Prop where
  info : Inside m (sym + sizeofSym * j + 4) 1
  value : leAt m (sym + sizeofSym * j + 4) 1 % 16 = sttFunc →
    Inside m (sym + sizeofSym * j + 8) 8
  name : leAt m (sym + sizeofSym * j + 4) 1 % 16 = sttFunc →
    leAt m (sym + sizeofSym * j + 8) 8 ≠ 0 → Inside m (sym + sizeofSym * j) 4 ∧
      StringAt m (str + leAt m (sym + sizeofSym * j) 4)

/-- What is read of the symbol table of section `i`. -/
structure ReadableSymtab (m : Mapping) (i : Nat) : Prop where
  offset : HasField m i 24 8
  link : HasField m i 40 4
  strings : HasField m (linkAt m i) 24 8
  size : HasField m i 32 8
  entsize : HasField m i 56 8
  divisor : entsizeAt m i ≠ 0
  symbols : ∀ j < sizeAt m i / entsizeAt m i,
    ReadableSymbol m (offsetAt m i) (offsetAt m (linkAt m i)) j

def tagAt (m : Mapping) (dyn j : Nat) : Nat := leAt m (dyn + sizeofDyn * j) 8

def valAt (m : Mapping) (dyn j : Nat) : Nat := leAt m (dyn + sizeofDyn * j + 8) 8

/-- A `DT_RUNPATH` entry is in front of entry `j` of section `i`. -/
def RunpathBefore (m : Mapping) (i j : Nat) : Prop :=
  ∃ i' j', (i' < i ∨ i' = i ∧ j' < j) ∧ typeAt m i' = shtDynamic ∧ j' < sizeAt m i' / sizeofDyn ∧
    tagAt m (offsetAt m i') j' = dtRunpath

/-- The name of entry `j` of the dynamic section at `dyn` is used. -/
def NameUsed (m : Mapping) (dynstr : Option Nat) (dyn j : Nat) (runpath : Prop) : Prop :=
  tagAt m dyn j = dtRunpath ∨ tagAt m dyn j = dtRpath ∧ ¬ runpath ∨
    tagAt m dyn j = dtNeeded ∧ ¬ (dynstr = none ∧ valAt m dyn j = 0)

/-- What is read of entry `j` of the dynamic section at `dyn`. -/
structure ReadableDyn (m : Mapping) (dynstr : Option Nat) (dyn j : Nat) (runpath : Prop) : Prop where
  tag : Inside m (dyn + sizeofDyn * j) 8
  val : tagAt m dyn j = dtNeeded ∨ NameUsed m dynstr dyn j runpath →
    Inside m (dyn + sizeofDyn * j + 8) 8
  name : NameUsed m dynstr dyn j runpath →
    ∃ str, dynstr = some str ∧ StringAt m (str + valAt m dyn j)

/-- What is read of the dynamic section `i`. -/
structure ReadableDynamic (m : Mapping) (i : Nat) : Prop where
  offset : HasField m i 24 8
  size : HasField m i 32 8
  entries : ∀ j < sizeAt m i / sizeofDyn,
    ReadableDyn m (dynstrOf m) (offsetAt m i) j (RunpathBefore m i j)

/-- What is read of section `i`. -/
structure ReadableSection (m : Mapping) (i : Nat) : Prop where
  kind : HasField m i 4 4
  symtab : typeAt m i = shtSymtab → ReadableSymtab m i
  dynsym : typeAt m i = shtDynsym → HasField m i 40 4 ∧ HasField m (linkAt m i) 24 8
  dynamic : typeAt m i = shtDynamic → ReadableDynamic m i

/-- A file that is loaded, and not rejected. -/
def IsSharedObject (m : Mapping) : Prop := elfMagic <+: m ∧ leAt m 16 2 = etDyn

/-- Loading reads inside the file. -/
structure Readable (m : Mapping) : Prop where
  magic : ¬ (m <+: elfMagic ∧ m.length < elfMagic.length)
  type : elfMagic <+: m → 18 ≤ m.length
  header : IsSharedObject m → 62 ≤ m.length
  sections : IsSharedObject m → ∀ i < shnumAt m, ReadableSection m i

/-! ## Bytes -/

section Bytes

variable {m : Mapping} {off n : Nat}

theorem loadByte_mod (m : Mapping) {off off' : Nat} (h : off % 2 ^ 64 = off' % 2 ^ 64) :
    loadByte m off = loadByte m off' := by
  unfold loadByte
  rw [h]

theorem loadLE_mod (m : Mapping) {off off' : Nat} (h : off % 2 ^ 64 = off' % 2 ^ 64) :
    loadLE m off n = loadLE m off' n := by
  induction n generalizing off off' with
  | zero => rfl
  | succ n ih =>
    have hnext : (off + 1) % 2 ^ 64 = (off' + 1) % 2 ^ 64 := by omega
    unfold loadLE
    rw [loadByte_mod m h, ih hnext]

theorem loadLE_outside (hm : m.length < 2 ^ 64) (hoff : off < 2 ^ 64) (hn : 0 < n)
    (h : ¬ off + n ≤ m.length) : loadLE m off n = .error .outOfBounds := by
  induction n generalizing off with
  | zero => cases hn
  | succ n ih =>
    unfold loadLE
    by_cases hlt : off < m.length
    · rw [loadByte_inside hm hlt, ih (by omega) (by omega) (by omega)]
      rfl
    · have hbyte : loadByte m off = .error .outOfBounds := by
        unfold loadByte
        rw [Nat.mod_eq_of_lt hoff, List.getElem?_eq_none (by omega)]
      rw [hbyte]
      rfl

theorem loadLE_exactly (hm : m.length < 2 ^ 64) (off : Nat) (hn : 0 < n) :
    Exactly MemoryFault (loadLE m off n) (Inside m off n) (· = leAt m off n) := by
  have hmod : loadLE m off n = loadLE m (off % 2 ^ 64) n := loadLE_mod m (Nat.mod_mod _ _).symm
  rw [hmod, leAt_mod m (Nat.mod_mod off (2 ^ 64)).symm]
  refine ⟨fun h => ⟨_, loadLE_inside hm h, rfl⟩, fun h => ⟨.outOfBounds, ?_, memoryFault_outOfBounds⟩⟩
  exact loadLE_outside hm (Nat.mod_lt _ (by decide)) hn h

theorem cString_exactly (m : Mapping) (off : Nat) :
    Exactly MemoryFault (cString m off) (StringAt m off) fun _ => True := by
  unfold cString StringAt HasString
  refine ((Exactly.ite (fun _ => exactly_ok trivial) fun _ =>
    exactly_error memoryFault_outOfBounds).congr ?_)
  simp

/-- The comparison reads up to the first byte that differs. -/
theorem matchesAt_exactly (hm : m.length < 2 ^ 64) (bs : List Byte) (hoff : off < 2 ^ 64) :
    Exactly MemoryFault (matchesAt m bs off)
      (¬ (m.drop off <+: bs ∧ (m.drop off).length < bs.length))
      (· = decide (bs <+: m.drop off)) := by
  induction bs generalizing off with
  | nil => exact (exactly_ok (by simp)).congr (by simp)
  | cons b bs ih =>
    unfold matchesAt at ih ⊢
    rw [matchFrom_pure_cons]
    by_cases hlt : off < m.length
    · have hdrop : m.drop off = m.getD (off % 2 ^ 64) 0 :: m.drop (off + 1) := by
        rw [Nat.mod_eq_of_lt hoff, List.drop_eq_getElem_cons hlt, List.getD_eq_getElem?_getD,
          List.getElem?_eq_getElem hlt]
        rfl
      rw [loadByte_inside hm hlt, hdrop]
      simp only [bind, Except.bind]
      generalize m.getD (off % 2 ^ 64) 0 = x
      by_cases hb : x = b
      · rw [if_pos hb, hb]
        refine ((ih (by omega)).mono ?_).congr ?_
        · rintro a rfl
          simp
        · simp
      · rw [if_neg hb]
        refine (exactly_ok ?_).congr ?_
        · simp [List.cons_prefix_cons, Ne.symm hb]
        · simp [List.cons_prefix_cons, hb]
    · have hnil : m.drop off = [] := List.drop_eq_nil_of_le (by omega)
      have hbyte : loadByte m off = .error .outOfBounds := by
        unfold loadByte
        rw [Nat.mod_eq_of_lt hoff, List.getElem?_eq_none (by omega)]
      rw [hbyte, hnil]
      exact (exactly_error memoryFault_outOfBounds).congr (by simp)

end Bytes

/-! ## Loops -/

/-- A loop whose iterations succeed exactly if their conditions hold. -/
theorem forEach_exactly {β : Type} {f : Nat → β → Except Fault β} {C : Nat → Prop}
    {I : Nat → β → Prop} {b : β} {n : Nat} (hb : I 0 b)
    (hf : ∀ i < n, ∀ b, I i b → Exactly MemoryFault (f i b) (C i) (I (i + 1))) :
    Exactly MemoryFault (forEach f n b) (∀ i < n, C i) (I n) := by
  induction n with
  | zero => exact (exactly_ok hb).congr (by simp)
  | succ n ih =>
    have hfirst := ih fun i hi => hf i (Nat.lt_succ_of_lt hi)
    refine (hfirst.bind fun b hI _ => hf n (Nat.lt_succ_self n) b hI).congr ?_
    exact Nat.forall_lt_succ_right.symm

/-! ## Symbols -/

section Reads

variable {m : Mapping} {i j : Nat}

theorem shField_exactly (hm : m.length < 2 ^ 64) (i off : Nat) {n : Nat} (hn : 0 < n) :
    Exactly MemoryFault (shField (imageOf m) i off n) (HasField m i off n)
      (· = sectionAt m i off n) := by
  unfold shField imageOf HasField
  by_cases hzero : shoffAt m = 0
  · rw [if_pos hzero]
    exact (exactly_error memoryFault_nullPointer).congr (by simp [hzero])
  · rw [if_neg hzero]
    exact (loadLE_exactly hm _ hn).congr (by simp [hzero])

theorem readSymbol_exactly (hm : m.length < 2 ^ 64) (baseAddr : Addr) (sym str j : Nat)
    (syms : List Syminfo) : Exactly MemoryFault (readSymbol m baseAddr sym str j syms)
      (ReadableSymbol m sym str j) fun _ => True := by
  unfold readSymbol
  refine Exactly.congr ((loadLE_exactly hm _ (by decide)).bind_eq fun _ => Exactly.ite
    (fun _ => (loadLE_exactly hm _ (by decide)).bind_eq fun _ => Exactly.ite
      (fun _ => (loadLE_exactly hm _ (by decide)).bind_eq fun _ => (cString_exactly m _).bind
        fun _ _ _ => exactly_ok trivial)
      fun _ => exactly_ok trivial)
    fun _ => exactly_ok trivial) ?_
  constructor
  · rintro ⟨hinfo, hfunc, -⟩
    exact ⟨hinfo, fun h => (hfunc h).1, fun h hne => ⟨((hfunc h).2.1 hne).1, ((hfunc h).2.1 hne).2.1⟩⟩
  · intro h
    refine ⟨h.info, fun hfunc => ⟨h.value hfunc, fun hne => ?_, fun _ => trivial⟩, fun _ => trivial⟩
    exact ⟨(h.name hfunc hne).1, (h.name hfunc hne).2, trivial⟩

/-- The symbols of section `i`. -/
theorem readSection_exactly (hm : m.length < 2 ^ 64) (baseAddr : Addr) (i : Nat)
    (syms : List Syminfo) : Exactly MemoryFault (readSection (imageOf m) baseAddr i syms)
      (HasField m i 4 4 ∧ (typeAt m i = shtSymtab → ReadableSymtab m i)) fun _ => True := by
  unfold readSection
  refine Exactly.congr ((shField_exactly hm i 4 (by decide)).bind_eq fun _ => Exactly.ite
    (fun _ => (shField_exactly hm i 24 (by decide)).bind_eq fun _ =>
      (shField_exactly hm i 40 (by decide)).bind_eq fun _ =>
      (shField_exactly hm _ 24 (by decide)).bind_eq fun _ =>
      (shField_exactly hm i 32 (by decide)).bind_eq fun _ =>
      (shField_exactly hm i 56 (by decide)).bind_eq fun _ => Exactly.ite
        (fun _ => exactly_error memoryFault_divisionByZero)
        fun _ => forEach_exactly (I := fun _ _ => True) trivial fun j _ syms _ =>
          readSymbol_exactly hm baseAddr _ _ j syms)
    fun _ => exactly_ok trivial) (and_congr_right fun _ => ?_)
  constructor
  · rintro ⟨h, -⟩ hkind
    obtain ⟨hoffset, hlink, hstrings, hsize, hentsize, hzero, hsymbols⟩ := h hkind
    exact ⟨hoffset, hlink, hstrings, hsize, hentsize, hzero, hsymbols hzero⟩
  · intro h
    refine ⟨fun hkind => ?_, fun _ => trivial⟩
    have hsymtab := h hkind
    exact ⟨hsymtab.offset, hsymtab.link, hsymtab.strings, hsymtab.size, hsymtab.entsize,
      hsymtab.divisor, fun _ => hsymtab.symbols⟩

theorem eShnum_exactly (hm : m.length < 2 ^ 64) :
    Exactly MemoryFault (eShnum m) (62 ≤ m.length) (· = shnumAt m) :=
  loadLE_exactly hm 60 (by decide)

theorem readSymbols_exactly (hm : m.length < 2 ^ 64) (baseAddr : Addr) :
    Exactly MemoryFault (readSymbols (imageOf m) baseAddr) (62 ≤ m.length ∧ ∀ i < shnumAt m,
      HasField m i 4 4 ∧ (typeAt m i = shtSymtab → ReadableSymtab m i)) fun _ => True := by
  unfold readSymbols
  exact (eShnum_exactly hm).bind_eq fun _ => forEach_exactly (I := fun _ _ => True) trivial
    fun i _ syms _ => readSection_exactly hm baseAddr i syms

/-! ## Dynamic entries -/

theorem readDynstr_exactly (hm : m.length < 2 ^ 64) (i : Nat) :
    Exactly MemoryFault (readDynstr (imageOf m) i (dynstrAt m i))
      (HasField m i 4 4 ∧
        (typeAt m i = shtDynsym → HasField m i 40 4 ∧ HasField m (linkAt m i) 24 8))
      (· = dynstrAt m (i + 1)) := by
  unfold readDynstr
  refine Exactly.congr ((shField_exactly hm i 4 (by decide)).bind_eq fun _ => Exactly.ite
    (fun hkind => (shField_exactly hm i 40 (by decide)).bind_eq fun _ =>
      (shField_exactly hm _ 24 (by decide)).bind_eq fun _ => exactly_ok ?_)
    fun hkind => exactly_ok ?_) (and_congr_right fun _ => ?_)
  · exact (if_pos hkind).symm
  · exact (if_neg hkind).symm
  · constructor
    · exact fun h hkind => ⟨(h.1 hkind).1, (h.1 hkind).2.1⟩
    · exact fun h => ⟨fun hkind => ⟨(h hkind).1, (h hkind).2, trivial⟩, fun _ => trivial⟩

theorem dynString_exactly (m : Mapping) (dynstr : Option Nat) (val : Nat) :
    Exactly MemoryFault (dynString m dynstr val)
      (∃ str, dynstr = some str ∧ StringAt m (str + val)) fun _ => True := by
  unfold dynString
  cases dynstr with
  | none => exact (exactly_error memoryFault_nullPointer).congr (by simp)
  | some str => exact (cString_exactly m (str + val)).congr (by simp)

/-- The name that a dynamic entry gives. -/
theorem readName_exactly (hm : m.length < 2 ^ 64) (dynstr : Option Nat) (dyn j : Nat)
    {P : Dynamic → Prop} (f : CStr → Dynamic) (hf : ∀ text, P (f text)) :
    Exactly MemoryFault (do
      let val ← loadLE m (dyn + sizeofDyn * j + 8) 8
      let text ← dynString m dynstr val
      return f text) (Inside m (dyn + sizeofDyn * j + 8) 8 ∧
        ∃ str, dynstr = some str ∧ StringAt m (str + valAt m dyn j)) P := by
  refine Exactly.congr ((loadLE_exactly hm _ (by decide)).bind_eq fun _ =>
    (dynString_exactly m dynstr _).bind fun text _ _ => exactly_ok (hf text)) ?_
  rw [and_true]
  rfl

/-- `acc` after the entries in front of entry `j` of section `i`. -/
theorem readDyn_exactly (hm : m.length < 2 ^ 64) (dynstr : Option Nat) (dyn j : Nat) (acc : Dynamic) :
    Exactly MemoryFault (readDyn m dynstr dyn j acc)
      (ReadableDyn m dynstr dyn j (acc.isRunpath = true))
      fun acc' => acc'.isRunpath = true ↔ acc.isRunpath = true ∨ tagAt m dyn j = dtRunpath := by
  have hsame : ¬ tagAt m dyn j = dtRunpath →
      (acc.isRunpath = true ↔ acc.isRunpath = true ∨ tagAt m dyn j = dtRunpath) :=
    fun h => (or_iff_left h).symm
  unfold readDyn
  refine Exactly.congr ((loadLE_exactly hm _ (by decide)).bind_eq fun _ => Exactly.ite
    (fun htag => readName_exactly hm dynstr dyn j _ fun _ => iff_of_true rfl (Or.inr htag))
    fun hrunpath => Exactly.ite
      (fun _ => Exactly.ite (fun _ => exactly_ok (hsame hrunpath))
        fun _ => readName_exactly hm dynstr dyn j _ fun _ => hsame hrunpath)
      fun _ => Exactly.ite
        (fun _ => (loadLE_exactly hm _ (by decide)).bind_eq fun _ => Exactly.ite
          (fun _ => exactly_ok (hsame hrunpath))
          fun _ => readName_exactly hm dynstr dyn j _ fun _ => hsame hrunpath)
        fun _ => exactly_ok (hsame hrunpath)) ?_
  have hnone : dynstr.isNone = true ↔ dynstr = none := Option.isNone_iff_eq_none
  constructor
  · rintro ⟨htag, hrunpath, hrest⟩
    have hneeded : tagAt m dyn j = dtNeeded → Inside m (dyn + sizeofDyn * j + 8) 8 ∧
        (¬ (dynstr = none ∧ valAt m dyn j = 0) →
          ∃ str, dynstr = some str ∧ StringAt m (str + valAt m dyn j)) := by
      intro h
      obtain ⟨hval, -, hused⟩ := ((hrest (by rw [show leAt m _ 8 = dtNeeded from h]; decide)).2
        (by rw [show leAt m _ 8 = dtNeeded from h]; decide)).1 h
      exact ⟨hval, fun hne => (hused fun hz => hne (hz.imp_left hnone.mp)).2⟩
    have hused : NameUsed m dynstr dyn j (acc.isRunpath = true) →
        Inside m (dyn + sizeofDyn * j + 8) 8 ∧
          ∃ str, dynstr = some str ∧ StringAt m (str + valAt m dyn j) := by
      rintro (h | ⟨h, hrun⟩ | ⟨h, hne⟩)
      · exact hrunpath h
      · exact ((hrest (by rw [show leAt m _ 8 = dtRpath from h]; decide)).1 h).2 hrun
      · exact ⟨(hneeded h).1, (hneeded h).2 hne⟩
    refine ⟨htag, ?_, fun h => (hused h).2⟩
    rintro (h | h)
    · exact (hneeded h).1
    · exact (hused h).1
  · intro h
    have hused : NameUsed m dynstr dyn j (acc.isRunpath = true) →
        Inside m (dyn + sizeofDyn * j + 8) 8 ∧
          ∃ str, dynstr = some str ∧ StringAt m (str + valAt m dyn j) :=
      fun hname => ⟨h.val (Or.inr hname), h.name hname⟩
    refine ⟨h.tag, fun htag => hused (Or.inl htag), fun _ => ⟨fun htag => ⟨fun _ => trivial,
      fun hrun => hused (Or.inr (Or.inl ⟨htag, hrun⟩))⟩, fun _ => ⟨fun htag => ?_, fun _ => trivial⟩⟩⟩
    refine ⟨h.val (Or.inl htag), fun _ => trivial, fun hne => ?_⟩
    exact hused (Or.inr (Or.inr ⟨htag, fun hz => hne (hz.imp_left hnone.mpr)⟩))

theorem runpathBefore_entry (hkind : typeAt m i = shtDynamic) (hj : j < sizeAt m i / sizeofDyn) :
    RunpathBefore m i (j + 1) ↔
      RunpathBefore m i j ∨ tagAt m (offsetAt m i) j = dtRunpath := by
  constructor
  · rintro ⟨i', j', hlt, hk, hj', htag⟩
    by_cases hlast : i' = i ∧ j' = j
    · obtain ⟨rfl, rfl⟩ := hlast
      exact Or.inr htag
    · exact Or.inl ⟨i', j', by omega, hk, hj', htag⟩
  · rintro (⟨i', j', hlt, hk, hj', htag⟩ | htag)
    · exact ⟨i', j', by omega, hk, hj', htag⟩
    · exact ⟨i, j, by omega, hkind, hj, htag⟩

theorem runpathBefore_section :
    RunpathBefore m i (sizeAt m i / sizeofDyn) ↔ RunpathBefore m (i + 1) 0 := by
  constructor
  · rintro ⟨i', j', hlt, hk, hj', htag⟩
    exact ⟨i', j', by omega, hk, hj', htag⟩
  · rintro ⟨i', j', hlt, hk, hj', htag⟩
    by_cases hi : i' = i
    · rw [hi] at hj'
      exact ⟨i', j', Or.inr ⟨hi, hj'⟩, hk, by rw [hi]; exact hj', htag⟩
    · exact ⟨i', j', by omega, hk, hj', htag⟩

theorem runpathBefore_other (hkind : typeAt m i ≠ shtDynamic) :
    RunpathBefore m i 0 ↔ RunpathBefore m (i + 1) 0 := by
  constructor
  · rintro ⟨i', j', hlt, hk, hj', htag⟩
    exact ⟨i', j', by omega, hk, hj', htag⟩
  · rintro ⟨i', j', hlt, hk, hj', htag⟩
    have hne : i' ≠ i := by
      rintro rfl
      exact hkind hk
    exact ⟨i', j', by omega, hk, hj', htag⟩

/-- The dynamic entries of section `i`. -/
theorem readDynSection_exactly (hm : m.length < 2 ^ 64) (i : Nat) {acc : Dynamic}
    (hacc : acc.isRunpath = true ↔ RunpathBefore m i 0) :
    Exactly MemoryFault (readDynSection (imageOf m) (dynstrOf m) i acc)
      (HasField m i 4 4 ∧ (typeAt m i = shtDynamic → ReadableDynamic m i))
      fun acc' => acc'.isRunpath = true ↔ RunpathBefore m (i + 1) 0 := by
  have hentries : typeAt m i = shtDynamic → Exactly MemoryFault
      (forEach (readDyn m (dynstrOf m) (offsetAt m i)) (sizeAt m i / sizeofDyn) acc)
      (∀ j < sizeAt m i / sizeofDyn,
        ReadableDyn m (dynstrOf m) (offsetAt m i) j (RunpathBefore m i j))
      fun acc' => acc'.isRunpath = true ↔ RunpathBefore m (i + 1) 0 := by
    intro hkind
    refine Exactly.mono (forEach_exactly (I := fun j acc => acc.isRunpath = true ↔
      RunpathBefore m i j) hacc ?_) fun acc' h => h.trans runpathBefore_section
    intro j hj acc hI
    have hdyn := readDyn_exactly hm (dynstrOf m) (offsetAt m i) j acc
    rw [propext hI] at hdyn
    exact hdyn.mono fun acc' h => h.trans (runpathBefore_entry hkind hj).symm
  unfold readDynSection
  refine Exactly.congr ((shField_exactly hm i 4 (by decide)).bind_eq fun _ => Exactly.ite
    (fun hkind => (shField_exactly hm i 24 (by decide)).bind_eq fun _ =>
      (shField_exactly hm i 32 (by decide)).bind_eq fun _ => hentries hkind)
    fun hkind => exactly_ok (hacc.trans (runpathBefore_other hkind))) (and_congr_right fun _ => ?_)
  constructor
  · rintro ⟨h, -⟩ hkind
    exact ⟨(h hkind).1, (h hkind).2.1, (h hkind).2.2⟩
  · exact fun h => ⟨fun hkind => ⟨(h hkind).offset, (h hkind).size, (h hkind).entries⟩, fun _ => trivial⟩

theorem readDynamic_exactly (hm : m.length < 2 ^ 64) :
    Exactly MemoryFault (readDynamic (imageOf m)) (62 ≤ m.length ∧
      (∀ i < shnumAt m, HasField m i 4 4 ∧
        (typeAt m i = shtDynsym → HasField m i 40 4 ∧ HasField m (linkAt m i) 24 8)) ∧
      ∀ i < shnumAt m, HasField m i 4 4 ∧ (typeAt m i = shtDynamic → ReadableDynamic m i))
      fun _ => True := by
  have hdynstr : Exactly MemoryFault (forEach (readDynstr (imageOf m)) (shnumAt m) none)
      (∀ i < shnumAt m, HasField m i 4 4 ∧
        (typeAt m i = shtDynsym → HasField m i 40 4 ∧ HasField m (linkAt m i) 24 8))
      (· = dynstrOf m) := by
    refine forEach_exactly (I := fun i dynstr => dynstr = dynstrAt m i) rfl ?_
    rintro i - dynstr rfl
    exact readDynstr_exactly hm i
  unfold readDynamic
  refine (eShnum_exactly hm).bind_eq fun _ => hdynstr.bind_eq fun _ => Exactly.mono
    (forEach_exactly (I := fun i acc => acc.isRunpath = true ↔ RunpathBefore m i 0) ?_ ?_)
    fun _ _ => trivial
  · refine iff_of_false Bool.false_ne_true ?_
    rintro ⟨i', j', hlt, -⟩
    omega
  · exact fun i _ acc hI => readDynSection_exactly hm i hI

/-! ## Whole files -/

/-- The first reads of `LoadFile`: the file is one that is loaded. -/
def accepts (m : Mapping) : Except Fault Bool := do
  if ← matchesAt m elfMagic 0 then
    if (← eType m) = etDyn then
      let _ ← eShoff m
      return true
    else return false
  else return false

/-- What the first reads find, and what comes of it. -/
inductive FirstReads (m : Mapping) : Except Fault Bool → Prop
  | magicFault {e : Fault} (h : matchesAt m elfMagic 0 = .error e) : FirstReads m (.error e)
  | notElf (h : matchesAt m elfMagic 0 = .ok false) : FirstReads m (.ok false)
  | typeFault {e : Fault} (hmagic : matchesAt m elfMagic 0 = .ok true) (h : eType m = .error e) :
      FirstReads m (.error e)
  | notDyn {type : Nat} (hmagic : matchesAt m elfMagic 0 = .ok true) (htype : eType m = .ok type)
      (h : type ≠ etDyn) : FirstReads m (.ok false)
  | shoffFault {e : Fault} (hmagic : matchesAt m elfMagic 0 = .ok true)
      (htype : eType m = .ok etDyn) (h : eShoff m = .error e) : FirstReads m (.error e)
  | accepted {off : Nat} (hmagic : matchesAt m elfMagic 0 = .ok true)
      (htype : eType m = .ok etDyn) (h : eShoff m = .ok off) : FirstReads m (.ok true)

theorem accepts_firstReads (m : Mapping) : FirstReads m (accepts m) := by
  unfold accepts
  cases hmagic : matchesAt m elfMagic 0 with
  | error e => exact .magicFault hmagic
  | ok magic =>
    cases magic with
    | false => exact .notElf hmagic
    | true =>
      simp only [bind, Except.bind, if_true]
      cases htype : eType m with
      | error e => exact .typeFault hmagic htype
      | ok type =>
        simp only
        by_cases hdyn : type = etDyn
        · rw [if_pos hdyn]
          rw [hdyn] at htype
          cases hshoff : eShoff m with
          | error e => exact .shoffFault hmagic htype hshoff
          | ok off => exact .accepted hmagic htype hshoff
        · rw [if_neg hdyn]
          exact .notDyn hmagic htype hdyn

/-- What loading reads of a file that it accepts. -/
def readTables (m : Mapping) : Except Fault (List Syminfo × Dynamic) := do
  let syms ← readSymbols (imageOf m) 0
  let dyn ← readDynamic (imageOf m)
  return (syms, dyn)

/-- What loading reads of a file. -/
def readFile (m : Mapping) : Except Fault (Option (List Syminfo × Dynamic)) := do
  if ← accepts m then return some (← readTables m)
  else return none

theorem accepts_exactly (hm : m.length < 2 ^ 64) :
    Exactly MemoryFault (accepts m) (¬ (m <+: elfMagic ∧ m.length < elfMagic.length) ∧
      (elfMagic <+: m → 18 ≤ m.length ∧ (leAt m 16 2 = etDyn → 48 ≤ m.length)))
      fun b => b = true ↔ IsSharedObject m := by
  have hmagic : Exactly MemoryFault (matchesAt m elfMagic 0) _ _ :=
    matchesAt_exactly hm elfMagic (by decide)
  rw [List.drop_zero] at hmagic
  unfold accepts
  refine Exactly.congr (hmagic.bind_eq fun _ => Exactly.ite
    (fun hstart => (loadLE_exactly hm 16 (by decide)).bind_eq fun _ => Exactly.ite
      (fun htype => (loadLE_exactly hm 40 (by decide)).bind fun _ _ _ => exactly_ok
        (iff_of_true rfl ⟨of_decide_eq_true hstart, htype⟩))
      fun htype => exactly_ok (iff_of_false Bool.false_ne_true fun h => htype h.2))
    fun hstart => exactly_ok
      (iff_of_false Bool.false_ne_true fun h => hstart (decide_eq_true h.1)))
    (and_congr_right fun _ => ?_)
  rw [decide_eq_true_eq]
  constructor
  · exact fun h hstart => ⟨(h.1 hstart).1, fun htype => ((h.1 hstart).2.1 htype).1⟩
  · exact fun h => ⟨fun hstart => ⟨(h hstart).1, fun htype => ⟨(h hstart).2 htype, trivial⟩,
      fun _ => trivial⟩, fun _ => trivial⟩

theorem readTables_exactly (hm : m.length < 2 ^ 64) :
    Exactly MemoryFault (readTables m) (62 ≤ m.length ∧ ∀ i < shnumAt m, ReadableSection m i)
      fun _ => True := by
  refine Exactly.congr ((readSymbols_exactly hm 0).bind fun _ _ _ =>
    (readDynamic_exactly hm).bind fun _ _ _ => exactly_ok trivial) ?_
  constructor
  · rintro ⟨⟨hheader, hsymtab⟩, ⟨-, hdynsym, hdynamic⟩, -⟩
    exact ⟨hheader, fun i hi => ⟨(hsymtab i hi).1, (hsymtab i hi).2, (hdynsym i hi).2,
      (hdynamic i hi).2⟩⟩
  · rintro ⟨hheader, h⟩
    exact ⟨⟨hheader, fun i hi => ⟨(h i hi).kind, (h i hi).symtab⟩⟩,
      ⟨hheader, fun i hi => ⟨(h i hi).kind, (h i hi).dynsym⟩,
        fun i hi => ⟨(h i hi).kind, (h i hi).dynamic⟩⟩, trivial⟩

/-- Loading reads inside a file exactly if it is readable. -/
theorem readFile_exactly (hm : m.length < 2 ^ 64) :
    Exactly MemoryFault (readFile m) (Readable m) fun _ => True := by
  unfold readFile
  refine Exactly.congr ((accepts_exactly hm).bind (D := IsSharedObject m → 62 ≤ m.length ∧
    ∀ i < shnumAt m, ReadableSection m i) fun b hb _ => ?_) ?_
  · refine (Exactly.ite (fun _ => (readTables_exactly hm).bind fun _ _ _ => exactly_ok trivial)
      fun _ => exactly_ok trivial).congr ?_
    rw [hb]
    exact ⟨fun h hshared => (h.1 hshared).1, fun h => ⟨fun hshared => ⟨h hshared, trivial⟩,
      fun _ => trivial⟩⟩
  · constructor
    · rintro ⟨⟨hmagic, hstart⟩, hshared⟩
      exact ⟨hmagic, fun h => (hstart h).1, fun h => (hshared h).1, fun h => (hshared h).2⟩
    · intro h
      refine ⟨⟨h.magic, fun hstart => ⟨h.type hstart, fun htype => ?_⟩⟩,
        fun hshared => ⟨h.header hshared, h.sections hshared⟩⟩
      have hheader := h.header ⟨hstart, htype⟩
      omega

end Reads

end Zkz.Symbols
