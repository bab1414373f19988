import Mathlib.Data.List.Basic
import Mathlib.Tactic.MkIffOfInductiveProp
import Zkz.Symbols.Elf

/-!
# Well-formed files

A file is well formed if its tables lie inside it and name what is inside it: what loading reads
of such a file is there.

* `WellFormed`: well-formed files.
* `symbolsOf`, `dynEntries`: the symbols and the dynamic entries that a file has.
* `SoundTables.readSymbols`, `WellFormed.readDynamic`: they are what is read of a well-formed file.
-/

namespace Zkz.Symbols

open Zkz.Lib Zkz.Debugger

/-! ## Fields -/

/-- The little-endian integer at a pointer, with zeros outside the file. -/
def leAt (m : Mapping) (off : Nat) : Nat → Nat
  | 0 => 0
  | n + 1 => (m.getD (off % 2 ^ 64) 0).toNat + 256 * leAt m (off + 1) n

theorem leAt_mod (m : Mapping) {off off' n : Nat} (h : off % 2 ^ 64 = off' % 2 ^ 64) :
    leAt m off n = leAt m off' n := by
  induction n generalizing off off' with
  | zero => rfl
  | succ n ih =>
    have hnext : (off + 1) % 2 ^ 64 = (off' + 1) % 2 ^ 64 := by omega
    unfold leAt
    rw [h, ih hnext]

def shoffAt (m : Mapping) : Nat := leAt m 40 8
def shnumAt (m : Mapping) : Nat := leAt m 60 2

def sectionAt (m : Mapping) (i off n : Nat) : Nat := leAt m (shoffAt m + sizeofShdr * i + off) n

def typeAt (m : Mapping) (i : Nat) : Nat := sectionAt m i 4 4
def offsetAt (m : Mapping) (i : Nat) : Nat := sectionAt m i 24 8
def sizeAt (m : Mapping) (i : Nat) : Nat := sectionAt m i 32 8
def linkAt (m : Mapping) (i : Nat) : Nat := sectionAt m i 40 4
def entsizeAt (m : Mapping) (i : Nat) : Nat := sectionAt m i 56 8

/-- A string starts at the offset and ends in the file. -/
def HasString (m : Mapping) (off : Nat) : Prop := 0 ∈ m.drop off

instance (m : Mapping) (off : Nat) : Decidable (HasString m off) :=
  inferInstanceAs (Decidable (_ ∈ _))

/-- The names of the symbol table `i` are strings. -/
def SymbolNames (m : Mapping) (i : Nat) : Prop :=
  ∀ j < sizeAt m i / sizeofSym,
    HasString m (offsetAt m (linkAt m i) + leAt m (offsetAt m i + sizeofSym * j) 4)

/-- The entries of the dynamic section `i` name strings of the table of the section `k`. -/
def DynamicNames (m : Mapping) (i k : Nat) : Prop :=
  ∀ j < sizeAt m i / sizeofDyn,
    leAt m (offsetAt m i + sizeofDyn * j) 8 ∈ [dtNeeded, dtRpath, dtRunpath] →
      HasString m (offsetAt m (linkAt m k) + leAt m (offsetAt m i + sizeofDyn * j + 8) 8)

instance (m : Mapping) (i : Nat) : Decidable (SymbolNames m i) :=
  inferInstanceAs (Decidable (∀ j < _, _))

instance (m : Mapping) (i k : Nat) : Decidable (DynamicNames m i k) :=
  inferInstanceAs (Decidable (∀ j < _, _ → _))

/-- A well-formed `ET_DYN` file: its section headers, symbol tables and dynamic sections are inside
it, symbols have their size, and names are strings of the string tables that the sections name. -/
@[mk_iff]
structure WellFormed (m : Mapping) : Prop where
  header : 64 ≤ m.length
  magic : m.take 4 = elfMagic
  type : leAt m 16 2 = etDyn
  sections : 0 < shnumAt m → shoffAt m ≠ 0 ∧ shoffAt m + sizeofShdr * shnumAt m ≤ m.length
  symtab : ∀ i < shnumAt m, typeAt m i = shtSymtab →
    linkAt m i < shnumAt m ∧ entsizeAt m i = sizeofSym ∧ offsetAt m i + sizeAt m i ≤ m.length ∧
      SymbolNames m i
  dynsym : ∀ i < shnumAt m, typeAt m i = shtDynsym → linkAt m i < shnumAt m
  dynamic : ∀ i < shnumAt m, typeAt m i = shtDynamic →
    (∃ k < shnumAt m, typeAt m k = shtDynsym) ∧ offsetAt m i + sizeAt m i ≤ m.length
  strings : ∀ i < shnumAt m, typeAt m i = shtDynamic → ∀ k < shnumAt m, typeAt m k = shtDynsym →
    DynamicNames m i k

set_option synthInstance.maxSize 1024 in
instance (m : Mapping) : Decidable (WellFormed m) := decidable_of_iff' _ (wellFormed_iff m)

/-- What is mapped, with the section headers of its own header. -/
def imageOf (m : Mapping) : Image := ⟨m, if shoffAt m = 0 then none else some (shoffAt m)⟩

/-! ## What a file says -/

/-- The bytes up to the first NUL, as a string. -/
def textAt (m : Mapping) (off : Nat) : CStr :=
  ((m.drop off).takeWhile (· ≠ 0)).map fun b => Char.ofNat b.toNat

/-- The symbol at index `j` of the table at `sym`, with the string table at `str`, if it is a
function with a value. -/
def symbolOf (m : Mapping) (baseAddr : Addr) (sym str j : Nat) : Option Syminfo :=
  if leAt m (sym + sizeofSym * j + 4) 1 % 16 = sttFunc ∧ leAt m (sym + sizeofSym * j + 8) 8 ≠ 0 then
    some ⟨baseAddr + BitVec.ofNat 64 (leAt m (sym + sizeofSym * j + 8) 8),
      String.ofList (textAt m (str + leAt m (sym + sizeofSym * j) 4))⟩
  else none

def sectionSymbols (m : Mapping) (baseAddr : Addr) (i : Nat) : List Syminfo :=
  if typeAt m i = shtSymtab then
    (List.range (sizeAt m i / sizeofSym)).filterMap
      (symbolOf m baseAddr (offsetAt m i) (offsetAt m (linkAt m i)))
  else []

/-- The symbols of a file, in the order of its sections and of their tables. -/
def symbolsOf (m : Mapping) (baseAddr : Addr) : List Syminfo :=
  (List.range (shnumAt m)).flatMap (sectionSymbols m baseAddr)

/-- An entry of a dynamic section. -/
inductive DynEntry where
  | runpath (dir : CStr)
  | rpath (dir : CStr)
  | needed (lib : CStr)
  | other
deriving DecidableEq

/-- The entry at index `j` of the dynamic section at `dyn`, with the string table at `str`. -/
def dynEntry (m : Mapping) (str dyn j : Nat) : DynEntry :=
  let tag := leAt m (dyn + sizeofDyn * j) 8
  let text := textAt m (str + leAt m (dyn + sizeofDyn * j + 8) 8)
  if tag = dtRunpath then .runpath text
  else if tag = dtRpath then .rpath text
  else if tag = dtNeeded then .needed text
  else .other

def sectionEntries (m : Mapping) (str i : Nat) : List DynEntry :=
  if typeAt m i = shtDynamic then
    (List.range (sizeAt m i / sizeofDyn)).map (dynEntry m str (offsetAt m i))
  else []

/-- `dynstr` after the first `n` sections: the string table of the last table of dynamic symbols. -/
def dynstrAt (m : Mapping) : Nat → Option Nat
  | 0 => none
  | n + 1 => if typeAt m n = shtDynsym then some (offsetAt m (linkAt m n)) else dynstrAt m n

def dynstrOf (m : Mapping) : Option Nat := dynstrAt m (shnumAt m)

/-- The dynamic entries of a file, with their names from the string table of dynamic symbols. -/
def dynEntries (m : Mapping) : List DynEntry :=
  (List.range (shnumAt m)).flatMap (sectionEntries m ((dynstrOf m).getD 0))

/-- The local variables of `ParseDynamic` after one more entry. -/
def Dynamic.add (acc : Dynamic) : DynEntry → Dynamic
  | .runpath dir => { acc with isRunpath := true, libPath := some dir }
  | .rpath dir => if acc.isRunpath then acc else { acc with libPath := some dir }
  | .needed lib => { acc with sharedLibs := acc.sharedLibs ++ [lib] }
  | .other => acc

def Dynamic.addAll (acc : Dynamic) (entries : List DynEntry) : Dynamic :=
  entries.foldl Dynamic.add acc

theorem Dynamic.addAll_nil (acc : Dynamic) : acc.addAll [] = acc := rfl

theorem Dynamic.addAll_append (acc : Dynamic) (es es' : List DynEntry) :
    (acc.addAll es).addAll es' = acc.addAll (es ++ es') := List.foldl_append.symm

/-! ## Reads inside a file -/

section Reads

variable {m : Mapping} {off n : Nat}

theorem loadByte_inside (hm : m.length < 2 ^ 64) (h : off < m.length) :
    loadByte m off = .ok (m.getD (off % 2 ^ 64) 0) := by
  have hmod : off % 2 ^ 64 = off := Nat.mod_eq_of_lt (h.trans hm)
  unfold loadByte
  rw [hmod, List.getD_eq_getElem?_getD, List.getElem?_eq_getElem h]
  rfl

theorem loadLE_inside (hm : m.length < 2 ^ 64) (h : off + n ≤ m.length) :
    loadLE m off n = .ok (leAt m off n) := by
  induction n generalizing off with
  | zero => rfl
  | succ n ih =>
    have hbyte : loadByte m off = .ok (m.getD (off % 2 ^ 64) 0) := loadByte_inside hm (by omega)
    have hrest : loadLE m (off + 1) n = .ok (leAt m (off + 1) n) := ih (by omega)
    unfold loadLE
    rw [hbyte, hrest]
    rfl

theorem cString_inside (hm : m.length < 2 ^ 64) (h : HasString m off) :
    cString m off = .ok (textAt m off) := by
  have hlt : off < m.length := by
    by_contra hge
    unfold HasString at h
    rw [List.drop_eq_nil_of_le (by omega)] at h
    cases h
  have hmod : off % 2 ^ 64 = off := Nat.mod_eq_of_lt (hlt.trans hm)
  unfold cString
  rw [hmod]
  exact if_pos h

/-- A loop of which each iteration adds some elements. -/
theorem forEach_collects {β γ : Type} {op : β → List γ → β} (hnil : ∀ b, op b [] = b)
    (happend : ∀ b l l', op (op b l) l' = op b (l ++ l')) {f : Nat → β → Except Fault β}
    {l : Nat → List γ} (hf : ∀ i < n, ∀ b, f i b = .ok (op b (l i))) (b : β) :
    forEach f n b = .ok (op b ((List.range n).flatMap l)) := by
  induction n with
  | zero =>
    rw [List.range_zero, List.flatMap_nil, hnil]
    rfl
  | succ n ih =>
    have hfirst := ih fun i hi => hf i (Nat.lt_succ_of_lt hi)
    unfold forEach
    rw [hfirst, List.range_succ, List.flatMap_append, List.flatMap_singleton, ← happend]
    exact hf n (Nat.lt_succ_self n) _

end Reads

/-! ## Section headers and symbols -/

/-- The section headers and the symbol tables of a file lie inside it. -/
@[mk_iff]
structure SoundTables (m : Mapping) : Prop where
  size : m.length < 2 ^ 64
  header : 64 ≤ m.length
  sections : 0 < shnumAt m → shoffAt m ≠ 0 ∧ shoffAt m + sizeofShdr * shnumAt m ≤ m.length
  symtab : ∀ i < shnumAt m, typeAt m i = shtSymtab →
    linkAt m i < shnumAt m ∧ entsizeAt m i = sizeofSym ∧ offsetAt m i + sizeAt m i ≤ m.length ∧
      SymbolNames m i

theorem WellFormed.tables {m : Mapping} (h : WellFormed m) (hm : m.length < 2 ^ 64) :
    SoundTables m := ⟨hm, h.header, h.sections, h.symtab⟩

section Loading

variable {m : Mapping} {i : Nat}

theorem SoundTables.field (h : SoundTables m) (hi : i < shnumAt m) {off n : Nat}
    (hoff : off + n ≤ sizeofShdr) : shField (imageOf m) i off n = .ok (sectionAt m i off n) := by
  obtain ⟨hne, hinside⟩ := h.sections (by omega)
  have hle : sizeofShdr * (i + 1) ≤ sizeofShdr * shnumAt m := Nat.mul_le_mul_left _ hi
  have hfield : shoffAt m + sizeofShdr * i + off + n ≤ m.length := by
    rw [Nat.mul_succ] at hle
    omega
  unfold shField imageOf
  rw [if_neg hne]
  exact loadLE_inside h.size hfield

theorem SoundTables.shType (h : SoundTables m) (hi : i < shnumAt m) :
    shType (imageOf m) i = .ok (typeAt m i) := h.field hi (by decide)

theorem SoundTables.shOffset (h : SoundTables m) (hi : i < shnumAt m) :
    shOffset (imageOf m) i = .ok (offsetAt m i) := h.field hi (by decide)

theorem SoundTables.shSize (h : SoundTables m) (hi : i < shnumAt m) :
    shSize (imageOf m) i = .ok (sizeAt m i) := h.field hi (by decide)

theorem SoundTables.shLink (h : SoundTables m) (hi : i < shnumAt m) :
    shLink (imageOf m) i = .ok (linkAt m i) := h.field hi (by decide)

theorem SoundTables.shEntsize (h : SoundTables m) (hi : i < shnumAt m) :
    shEntsize (imageOf m) i = .ok (entsizeAt m i) := h.field hi (by decide)

theorem SoundTables.eShnum (h : SoundTables m) : eShnum (imageOf m).bytes = .ok (shnumAt m) :=
  loadLE_inside (m := m) h.size (by have := h.header; omega)

/-- An entry of a table lies in the table. -/
theorem entry_inside {size off j total : Nat} (hsize : 0 < size) (hin : off + total ≤ m.length)
    (hj : j < total / size) : off + size * j + size ≤ m.length := by
  have hle : size * (j + 1) ≤ total := by
    have hdiv := (Nat.le_div_iff_mul_le hsize).mp hj
    rw [Nat.mul_comm]
    exact hdiv
  rw [Nat.mul_succ] at hle
  omega

/-- A symbol inside the file is read as what it is. -/
theorem readSymbol_eq (hm : m.length < 2 ^ 64) (baseAddr : Addr) {sym str j : Nat}
    (hsym : sym + sizeofSym * j + sizeofSym ≤ m.length)
    (hname : HasString m (str + leAt m (sym + sizeofSym * j) 4)) (syms : List Syminfo) :
    readSymbol m baseAddr sym str j syms =
      .ok (syms ++ (symbolOf m baseAddr sym str j).toList) := by
  have hsize : sizeofSym = 24 := rfl
  have hfield : ∀ off n, off + n ≤ sizeofSym →
      loadLE m (sym + sizeofSym * j + off) n = .ok (leAt m (sym + sizeofSym * j + off) n) :=
    fun off n hoff => loadLE_inside hm (by omega)
  have hinfo := hfield 4 1 (by decide)
  have hvalue := hfield 8 8 (by decide)
  have hoffset : loadLE m (sym + sizeofSym * j) 4 = .ok (leAt m (sym + sizeofSym * j) 4) :=
    hfield 0 4 (by decide)
  have htext := cString_inside hm hname
  unfold readSymbol symbolOf
  rw [hinfo, hvalue, hoffset]
  simp only [bind, Except.bind, htext]
  by_cases hfunc : leAt m (sym + sizeofSym * j + 4) 1 % 16 = sttFunc
  · by_cases hzero : leAt m (sym + sizeofSym * j + 8) 8 = 0
    · rw [if_pos hfunc, if_neg (not_not.mpr hzero), if_neg fun h => h.2 hzero, Option.toList_none,
        List.append_nil]
      rfl
    · rw [if_pos hfunc, if_pos hzero, if_pos ⟨hfunc, hzero⟩]
      rfl
  · rw [if_neg hfunc, if_neg fun h => hfunc h.1, Option.toList_none, List.append_nil]
    rfl

theorem SoundTables.readSection (h : SoundTables m) (baseAddr : Addr) (hi : i < shnumAt m)
    (syms : List Syminfo) :
    readSection (imageOf m) baseAddr i syms = .ok (syms ++ sectionSymbols m baseAddr i) := by
  unfold Symbols.readSection sectionSymbols
  rw [h.shType hi]
  by_cases htype : typeAt m i = shtSymtab
  · obtain ⟨hlink, hentsize, hinside, hnames⟩ := h.symtab i hi htype
    rw [h.shOffset hi, h.shLink hi, h.shSize hi, h.shEntsize hi]
    simp only [bind, Except.bind, htype, if_true, h.shOffset hlink, hentsize]
    rw [List.filterMap_eq_flatMap_toList]
    exact forEach_collects List.append_nil List.append_assoc
      (fun j hj syms => readSymbol_eq h.size baseAddr (entry_inside (by decide) hinside hj)
        (hnames j hj) syms) syms
  · simp only [bind, Except.bind, htype, if_false, List.append_nil]
    rfl

/-- The symbols that are read are those of the file. -/
theorem SoundTables.readSymbols (h : SoundTables m) (baseAddr : Addr) :
    readSymbols (imageOf m) baseAddr = .ok (symbolsOf m baseAddr) := by
  unfold Symbols.readSymbols
  rw [h.eShnum]
  exact forEach_collects List.append_nil List.append_assoc
    (fun i hi syms => h.readSection baseAddr hi syms) []

/-! ## Dynamic entries -/

/-- `dynstr` is the string table of some table of dynamic symbols. -/
def DynstrOf (m : Mapping) (dynstr : Option Nat) : Prop :=
  ∃ k < shnumAt m, typeAt m k = shtDynsym ∧ dynstr = some (offsetAt m (linkAt m k))

/-- `dynstr` after the loop over the first sections. -/
theorem WellFormed.readDynstr (h : WellFormed m) (hm : m.length < 2 ^ 64) {n : Nat}
    (hn : n ≤ shnumAt m) : forEach (readDynstr (imageOf m)) n none = .ok (dynstrAt m n) := by
  induction n with
  | zero => rfl
  | succ n ih =>
    have hi : n < shnumAt m := hn
    unfold forEach dynstrAt
    rw [ih (by omega)]
    simp only [bind, Except.bind, Symbols.readDynstr, (h.tables hm).shType hi]
    by_cases htype : typeAt m n = shtDynsym
    · have hlink := h.dynsym n hi htype
      simp only [htype, if_true, (h.tables hm).shLink hi, (h.tables hm).shOffset hlink]
      rfl
    · simp only [htype, if_false]
      rfl

theorem dynstrOf_of_exists (h : ∃ k < shnumAt m, typeAt m k = shtDynsym) :
    DynstrOf m (dynstrOf m) := by
  unfold DynstrOf dynstrOf
  obtain ⟨k, hk, htype⟩ := h
  generalize shnumAt m = n at hk ⊢
  induction n with
  | zero => exact absurd hk (Nat.not_lt_zero k)
  | succ n ih =>
    unfold dynstrAt
    by_cases hlast : typeAt m n = shtDynsym
    · rw [if_pos hlast]
      exact ⟨n, Nat.lt_succ_self n, hlast, rfl⟩
    · rw [if_neg hlast]
      have hne : k ≠ n := by
        rintro rfl
        exact hlast htype
      obtain ⟨k', hk', hof⟩ := ih (show k < n by omega)
      exact ⟨k', Nat.lt_succ_of_lt hk', hof⟩

/-- A dynamic entry inside the file is read as what it is. -/
theorem readDyn_eq (hm : m.length < 2 ^ 64) {dynstr dyn j : Nat}
    (hdyn : dyn + sizeofDyn * j + sizeofDyn ≤ m.length)
    (hstring : leAt m (dyn + sizeofDyn * j) 8 ∈ [dtNeeded, dtRpath, dtRunpath] →
      HasString m (dynstr + leAt m (dyn + sizeofDyn * j + 8) 8)) (acc : Dynamic) :
    readDyn m (some dynstr) dyn j acc = .ok (acc.addAll [dynEntry m dynstr dyn j]) := by
  have hsize : sizeofDyn = 16 := rfl
  have hfield : ∀ off, off + 8 ≤ sizeofDyn →
      loadLE m (dyn + sizeofDyn * j + off) 8 = .ok (leAt m (dyn + sizeofDyn * j + off) 8) :=
    fun off hoff => loadLE_inside hm (by omega)
  have htag : loadLE m (dyn + sizeofDyn * j) 8 = .ok (leAt m (dyn + sizeofDyn * j) 8) :=
    hfield 0 (by decide)
  have hval := hfield 8 (by decide)
  have htext : leAt m (dyn + sizeofDyn * j) 8 ∈ [dtNeeded, dtRpath, dtRunpath] →
      dynString m (some dynstr) (leAt m (dyn + sizeofDyn * j + 8) 8) =
        .ok (textAt m (dynstr + leAt m (dyn + sizeofDyn * j + 8) 8)) := by
    intro hmem
    unfold dynString
    exact cString_inside hm (hstring hmem)
  unfold readDyn dynEntry Dynamic.addAll
  rw [htag, hval, List.foldl_cons, List.foldl_nil]
  simp only [bind, Except.bind]
  split
  · rename_i hrunpath
    rw [htext (by simp [hrunpath])]
    rfl
  · split
    · rename_i hrpath
      simp only [Dynamic.add]
      split
      · rfl
      · rw [htext (by simp [hrpath])]
        rfl
    · split
      · rename_i hneeded
        rw [htext (by simp [hneeded])]
        rfl
      · rfl

theorem WellFormed.readDynSection (h : WellFormed m) (hm : m.length < 2 ^ 64)
    (hi : i < shnumAt m) (acc : Dynamic) :
    readDynSection (imageOf m) (dynstrOf m) i acc =
      .ok (acc.addAll (sectionEntries m ((dynstrOf m).getD 0) i)) := by
  unfold Symbols.readDynSection sectionEntries
  rw [(h.tables hm).shType hi]
  by_cases htype : typeAt m i = shtDynamic
  · obtain ⟨hdynsym, hinside⟩ := h.dynamic i hi htype
    obtain ⟨k, hk, hktype, hof⟩ := dynstrOf_of_exists hdynsym
    have hentry : ∀ j < sizeAt m i / sizeofDyn, ∀ acc,
        readDyn m (some (offsetAt m (linkAt m k))) (offsetAt m i) j acc =
          .ok (acc.addAll [dynEntry m (offsetAt m (linkAt m k)) (offsetAt m i) j]) := by
      intro j hj acc
      exact readDyn_eq hm (entry_inside (by decide) hinside hj)
        (h.strings i hi htype k hk hktype j hj) acc
    rw [(h.tables hm).shOffset hi, (h.tables hm).shSize hi, hof]
    simp only [bind, Except.bind, htype, if_true, Option.getD_some]
    rw [List.map_eq_flatMap]
    exact forEach_collects Dynamic.addAll_nil Dynamic.addAll_append hentry acc
  · simp only [bind, Except.bind, htype, if_false]
    rfl

/-- The dynamic entries that are read are those of the file. -/
theorem WellFormed.readDynamic (h : WellFormed m) (hm : m.length < 2 ^ 64) :
    readDynamic (imageOf m) = .ok (Dynamic.addAll {} (dynEntries m)) := by
  have hdynstr : forEach (Symbols.readDynstr (imageOf m)) (shnumAt m) none = .ok (dynstrOf m) :=
    h.readDynstr hm (Nat.le_refl _)
  unfold Symbols.readDynamic
  rw [(h.tables hm).eShnum]
  simp only [bind, Except.bind, hdynstr]
  exact forEach_collects Dynamic.addAll_nil Dynamic.addAll_append
    (fun i hi acc => h.readDynSection hm hi acc) {}

end Loading

end Zkz.Symbols
