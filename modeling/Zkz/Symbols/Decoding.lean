import Mathlib.Data.List.GetD
import Zkz.Symbols.Malformed

/-!
# The symbols of a file

`OpenFile` on a well-formed file that needs no library. What is mapped are the first `m_size` bytes
of the file, and `m_size` is an `int`; the names of the dynamic entries are read in the string table
of the dynamic symbols.

* `loadLE_extends`, `readSymbols_extends`: what can be read of a prefix of a file is read of the
  file.
* `decodes_iff`: the symbols of the file are appended exactly when what is mapped is readable.
-/

namespace Zkz.Symbols

open Zkz.Lib Zkz.Debugger

/-! ## Prefixes of a file -/

section Prefixes

variable {m c : Mapping} {off n : Nat}

theorem loadByte_extends (h : m <+: c) (off : Nat) : Extends (loadByte m off) (loadByte c off) := by
  obtain ⟨rest, rfl⟩ := h
  intro b hb
  unfold loadByte at hb ⊢
  cases hget : m[off % 2 ^ 64]? with
  | none =>
    rw [hget] at hb
    cases hb
  | some b' =>
    have hlt : off % 2 ^ 64 < m.length := (List.getElem?_eq_some_iff.mp hget).1
    rw [List.getElem?_append_left hlt]
    exact hb

theorem loadLE_extends (h : m <+: c) (off n : Nat) : Extends (loadLE m off n) (loadLE c off n) := by
  induction n generalizing off with
  | zero => exact Extends.refl _
  | succ n ih => exact (loadByte_extends h off).bind fun _ => (ih (off + 1)).bind fun _ => Extends.refl _

/-- A string ends in front of what follows its NUL. -/
theorem takeWhile_append_of_mem {l : List Byte} (h : 0 ∈ l) (rest : List Byte) :
    (l ++ rest).takeWhile (· ≠ 0) = l.takeWhile (· ≠ 0) := by
  induction l with
  | nil => cases h
  | cons b l ih =>
    rw [List.cons_append, List.takeWhile_cons, List.takeWhile_cons]
    by_cases hb : b = 0
    · simp [hb]
    · rcases List.mem_cons.mp h with h0 | hmem
      · exact absurd h0.symm hb
      · rw [ih hmem]

theorem cString_extends (h : m <+: c) (off : Nat) : Extends (cString m off) (cString c off) := by
  obtain ⟨rest, rfl⟩ := h
  intro text htext
  unfold cString at htext ⊢
  by_cases hmem : 0 ∈ m.drop (off % 2 ^ 64)
  · have hle : off % 2 ^ 64 ≤ m.length := by
      by_contra hgt
      rw [List.drop_eq_nil_of_le (by omega)] at hmem
      cases hmem
    rw [List.drop_append_of_le_length hle]
    simp only [List.mem_append, hmem, true_or, if_true, takeWhile_append_of_mem hmem] at htext ⊢
    exact htext
  · rw [if_neg hmem] at htext
    cases htext

theorem forEach_extends {β : Type} {f g : Nat → β → Except Fault β}
    (h : ∀ i b, Extends (f i b) (g i b)) (n : Nat) (b : β) :
    Extends (forEach f n b) (forEach g n b) := by
  induction n with
  | zero => exact Extends.refl _
  | succ n ih => exact ih.bind fun b' => h n b'

theorem shField_extends (h : m <+: c) (shdr : Option Nat) (i off n : Nat) :
    Extends (shField ⟨m, shdr⟩ i off n) (shField ⟨c, shdr⟩ i off n) := by
  unfold shField
  cases shdr with
  | none => exact extends_error _ _
  | some shdr => exact loadLE_extends h _ n

theorem readSymbol_extends (h : m <+: c) (baseAddr : Addr) (sym str j : Nat)
    (syms : List Syminfo) :
    Extends (readSymbol m baseAddr sym str j syms) (readSymbol c baseAddr sym str j syms) := by
  unfold readSymbol
  exact (loadLE_extends h _ _).bind fun _ => Extends.ite
    ((loadLE_extends h _ _).bind fun _ => Extends.ite
      ((loadLE_extends h _ _).bind fun _ => (cString_extends h _).bind fun _ => Extends.refl _)
      (Extends.refl _))
    (Extends.refl _)

theorem readSection_extends (h : m <+: c) (shdr : Option Nat) (baseAddr : Addr) (i : Nat)
    (syms : List Syminfo) :
    Extends (readSection ⟨m, shdr⟩ baseAddr i syms) (readSection ⟨c, shdr⟩ baseAddr i syms) := by
  unfold readSection
  exact (shField_extends h shdr i _ _).bind fun _ => Extends.ite
    ((shField_extends h shdr i _ _).bind fun _ => (shField_extends h shdr i _ _).bind fun _ =>
      (shField_extends h shdr _ _ _).bind fun _ => (shField_extends h shdr i _ _).bind fun _ =>
      (shField_extends h shdr i _ _).bind fun _ => Extends.ite (Extends.refl _)
        (forEach_extends (fun j syms => readSymbol_extends h baseAddr _ _ j syms) _ _))
    (Extends.refl _)

theorem readSymbols_extends (h : m <+: c) (shdr : Option Nat) (baseAddr : Addr) :
    Extends (readSymbols ⟨m, shdr⟩ baseAddr) (readSymbols ⟨c, shdr⟩ baseAddr) := by
  unfold readSymbols
  exact (loadLE_extends h 60 2).bind fun _ =>
    forEach_extends (fun i syms => readSection_extends h shdr baseAddr i syms) _ _

theorem readDynstr_extends (h : m <+: c) (shdr : Option Nat) (i : Nat) (dynstr : Option Nat) :
    Extends (readDynstr ⟨m, shdr⟩ i dynstr) (readDynstr ⟨c, shdr⟩ i dynstr) := by
  unfold readDynstr
  exact (shField_extends h shdr i _ _).bind fun _ => Extends.ite
    ((shField_extends h shdr i _ _).bind fun _ => (shField_extends h shdr _ _ _).bind fun _ =>
      Extends.refl _)
    (Extends.refl _)

theorem dynString_extends (h : m <+: c) (dynstr : Option Nat) (val : Nat) :
    Extends (dynString m dynstr val) (dynString c dynstr val) := by
  unfold dynString
  cases dynstr with
  | none => exact extends_error _ _
  | some dynstr => exact cString_extends h _

theorem readDyn_extends (h : m <+: c) (dynstr : Option Nat) (dyn j : Nat) (acc : Dynamic) :
    Extends (readDyn m dynstr dyn j acc) (readDyn c dynstr dyn j acc) := by
  have hname : ∀ f : CStr → Dynamic,
      Extends (do
        let val ← loadLE m (dyn + sizeofDyn * j + 8) 8
        let text ← dynString m dynstr val
        return f text) (do
        let val ← loadLE c (dyn + sizeofDyn * j + 8) 8
        let text ← dynString c dynstr val
        return f text) :=
    fun f => (loadLE_extends h _ 8).bind fun val => (dynString_extends h dynstr val).bind fun _ =>
      Extends.refl _
  unfold readDyn
  exact (loadLE_extends h _ 8).bind fun _ => Extends.ite (hname _)
    (Extends.ite (Extends.ite (Extends.refl _) (hname _))
      (Extends.ite ((loadLE_extends h _ 8).bind fun _ => Extends.ite (Extends.refl _) (hname _))
        (Extends.refl _)))

theorem readDynSection_extends (h : m <+: c) (shdr dynstr : Option Nat) (i : Nat) (acc : Dynamic) :
    Extends (readDynSection ⟨m, shdr⟩ dynstr i acc) (readDynSection ⟨c, shdr⟩ dynstr i acc) := by
  unfold readDynSection
  exact (shField_extends h shdr i _ _).bind fun _ => Extends.ite
    ((shField_extends h shdr i _ _).bind fun _ => (shField_extends h shdr i _ _).bind fun _ =>
      forEach_extends (fun j acc => readDyn_extends h dynstr _ j acc) _ _)
    (Extends.refl _)

theorem readDynamic_extends (h : m <+: c) (shdr : Option Nat) :
    Extends (readDynamic ⟨m, shdr⟩) (readDynamic ⟨c, shdr⟩) := by
  unfold readDynamic
  exact (loadLE_extends h 60 2).bind fun _ =>
    (forEach_extends (fun i dynstr => readDynstr_extends h shdr i dynstr) _ _).bind fun dynstr =>
      forEach_extends (fun i acc => readDynSection_extends h shdr dynstr i acc) _ _

theorem leAt_isPrefix (h : m <+: c) (hoff : off + n ≤ m.length) : leAt m off n = leAt c off n := by
  induction n generalizing off with
  | zero => rfl
  | succ n ih =>
    obtain ⟨rest, rfl⟩ := h
    have hbyte : (m ++ rest).getD (off % 2 ^ 64) 0 = m.getD (off % 2 ^ 64) 0 :=
      List.getD_append m rest 0 _ (by have := Nat.mod_le off (2 ^ 64); omega)
    unfold leAt
    rw [hbyte, ih (by omega)]

theorem imageOf_mk (c : Mapping) : ⟨c, (imageOf c).shdr⟩ = imageOf c := by
  simp only [imageOf]

/-- A prefix with the header of the file has its section headers. -/
theorem imageOf_isPrefix (h : m <+: c) (hheader : 48 ≤ m.length) :
    imageOf m = ⟨m, (imageOf c).shdr⟩ := by
  have hshoff : shoffAt m = shoffAt c := leAt_isPrefix h (by omega)
  unfold imageOf
  rw [hshoff]

end Prefixes

/-! ## Files -/

/-- A well-formed `ET_DYN` file. The names of the entries of a dynamic section are in the string
table that the section links. -/
@[mk_iff]
structure SharedObject (c : Mapping) : Prop where
  tables : SoundTables c
  magic : c.take 4 = elfMagic
  type : leAt c 16 2 = etDyn
  dynsym : ∀ i < shnumAt c, typeAt c i = shtDynsym →
    linkAt c i < shnumAt c ∧ entsizeAt c i = sizeofSym ∧ offsetAt c i + sizeAt c i ≤ c.length
  dynamic : ∀ i < shnumAt c, typeAt c i = shtDynamic →
    linkAt c i < shnumAt c ∧ offsetAt c i + sizeAt c i ≤ c.length ∧ DynamicNames c i i

/-- The file has no `DT_NEEDED` entry. -/
def NeedsNothing (c : Mapping) : Prop :=
  ∀ i < shnumAt c, typeAt c i = shtDynamic → ∀ j < sizeAt c i / sizeofDyn,
    leAt c (offsetAt c i + sizeofDyn * j) 8 ≠ dtNeeded

instance (c : Mapping) : Decidable (SoundTables c) := decidable_of_iff' _ (soundTables_iff c)

instance (c : Mapping) : Decidable (SharedObject c) := decidable_of_iff' _ (sharedObject_iff c)

instance (c : Mapping) : Decidable (NeedsNothing c) :=
  inferInstanceAs (Decidable (∀ i < _, _ → ∀ j < _, _))

section Files

variable {m c : Mapping}

theorem eq_ok_of_bind {α β : Type} {x : Except Fault α} {f : α → Except Fault β} {b : β}
    (h : x >>= f = .ok b) : ∃ a, x = .ok a ∧ f a = .ok b := by
  cases hx : x with
  | error e =>
    rw [hx] at h
    cases h
  | ok a =>
    rw [hx] at h
    exact ⟨a, rfl, h⟩

/-- A loop whose body keeps `P`. -/
theorem forEach_keeps {β : Type} {P : β → Prop} {f : Nat → β → Except Fault β} {n : Nat} {b b' : β}
    (hf : ∀ i < n, ∀ b b', f i b = .ok b' → P b → P b') (h : forEach f n b = .ok b') (hb : P b) :
    P b' := by
  induction n generalizing b' with
  | zero =>
    cases h
    exact hb
  | succ n ih =>
    obtain ⟨b₁, hfirst, hlast⟩ := eq_ok_of_bind h
    exact hf n (Nat.lt_succ_self n) b₁ b' hlast (ih (fun i hi => hf i (Nat.lt_succ_of_lt hi)) hfirst)

/-- An entry that is not `DT_NEEDED` names no library. -/
theorem readDyn_libs {dynstr : Option Nat} {dyn j tag : Nat} {acc acc' : Dynamic}
    (htag : loadLE c (dyn + sizeofDyn * j) 8 = .ok tag) (hne : tag ≠ dtNeeded)
    (h : readDyn c dynstr dyn j acc = .ok acc') : acc'.sharedLibs = acc.sharedLibs := by
  have hname : ∀ f : CStr → Dynamic, (∀ text, (f text).sharedLibs = acc.sharedLibs) →
      (do
        let val ← loadLE c (dyn + sizeofDyn * j + 8) 8
        let text ← dynString c dynstr val
        return f text) = .ok acc' → acc'.sharedLibs = acc.sharedLibs := by
    intro f hf hrun
    obtain ⟨val, -, hrun⟩ := eq_ok_of_bind hrun
    obtain ⟨text, -, hrun⟩ := eq_ok_of_bind hrun
    cases hrun
    exact hf text
  unfold readDyn at h
  rw [htag] at h
  simp only [bind, Except.bind, hne, if_false] at h
  split at h
  · exact hname (fun text => { acc with isRunpath := true, libPath := some text }) (fun _ => rfl) h
  · split at h
    · split at h
      · cases h
        rfl
      · exact hname (fun text => { acc with libPath := some text }) (fun _ => rfl) h
    · cases h
      rfl

/-- No library is found in a file that needs none. -/
theorem readDynamic_libs (hc : SharedObject c) (hneeds : NeedsNothing c) {dyn : Dynamic}
    (h : readDynamic (imageOf c) = .ok dyn) : dyn.sharedLibs = [] := by
  obtain ⟨shnum, hshnum, h⟩ := eq_ok_of_bind h
  cases hc.tables.eShnum.symm.trans hshnum
  obtain ⟨dynstr, -, h⟩ := eq_ok_of_bind h
  refine forEach_keeps (P := fun acc => acc.sharedLibs = []) ?_ h rfl
  intro i hi acc acc' hsection hacc
  obtain ⟨type, htype, hsection⟩ := eq_ok_of_bind hsection
  obtain rfl := Except.ok.inj ((hc.tables.shType hi).symm.trans htype)
  by_cases hdynamic : typeAt c i = shtDynamic
  · rw [if_pos hdynamic] at hsection
    obtain ⟨dyn, hdyn, hsection⟩ := eq_ok_of_bind hsection
    obtain rfl := Except.ok.inj ((hc.tables.shOffset hi).symm.trans hdyn)
    obtain ⟨size, hsize, hsection⟩ := eq_ok_of_bind hsection
    obtain rfl := Except.ok.inj ((hc.tables.shSize hi).symm.trans hsize)
    refine forEach_keeps (P := fun acc => acc.sharedLibs = []) ?_ hsection hacc
    intro j hj acc acc' hentry hacc
    have hinside := entry_inside (by decide) (hc.dynamic i hi hdynamic).2.1 hj
    have hsizeof : sizeofDyn = 16 := rfl
    have htag : loadLE c (offsetAt c i + sizeofDyn * j) 8 =
        .ok (leAt c (offsetAt c i + sizeofDyn * j) 8) := loadLE_inside hc.tables.size (by omega)
    rw [readDyn_libs htag (hneeds i hi hdynamic j hj) hentry]
    exact hacc
  · rw [if_neg hdynamic] at hsection
    cases hsection
    exact hacc

/-- What is mapped is a shared object, too, if it can be read. -/
theorem SharedObject.of_prefix (hc : SharedObject c) (h : m <+: c) (hm : Readable m) :
    IsSharedObject m := by
  have hmagic : elfMagic <+: c := by
    rw [← hc.magic]
    exact List.take_prefix 4 c
  have hstart : elfMagic <+: m := by
    rcases List.prefix_or_prefix_of_prefix hmagic h with hstart | hshort
    · exact hstart
    · by_cases hlen : m.length < elfMagic.length
      · exact absurd ⟨hshort, hlen⟩ hm.magic
      · rw [hshort.eq_of_length_le (by omega)]
  refine ⟨hstart, ?_⟩
  rw [leAt_isPrefix h (by have := hm.type hstart; omega)]
  exact hc.type

/-- The symbols that are read of what is mapped are those of the file. -/
theorem readSymbols_isPrefix (hc : SharedObject c) (h : m <+: c) (hheader : 62 ≤ m.length)
    {baseAddr : Addr} {syms : List Syminfo} (hsyms : readSymbols (imageOf m) baseAddr = .ok syms) :
    syms = symbolsOf c baseAddr := by
  rw [imageOf_isPrefix h (by omega)] at hsyms
  have hwhole := readSymbols_extends h _ baseAddr syms hsyms
  rw [imageOf_mk] at hwhole
  exact Except.ok.inj (hwhole.symm.trans (hc.tables.readSymbols baseAddr))

theorem readDynamic_prefix (hc : SharedObject c) (hneeds : NeedsNothing c) (h : m <+: c)
    (hheader : 62 ≤ m.length) {dyn : Dynamic} (hdyn : readDynamic (imageOf m) = .ok dyn) :
    dyn.sharedLibs = [] := by
  rw [imageOf_isPrefix h (by omega)] at hdyn
  have hwhole := readDynamic_extends h _ dyn hdyn
  rw [imageOf_mk] at hwhole
  exact readDynamic_libs hc hneeds hwhole

theorem mappedAt_single (path : CStr) (contents : List Byte) :
    mappedAt [(path, contents)] path = mapFile contents := by
  unfold mappedAt
  rw [List.lookup_cons_self]
  rfl

theorem mapFile_prefix (h : mapFile c = some m) : m <+: c := by
  simp only [mapFile] at h
  split at h
  · cases h
    exact List.take_prefix _ c
  · cases h

/-- A file that cannot be read is not loaded. -/
theorem openFile_unreadable {fs : Files} {s : Symbol} {path : CStr} {index : Nat} (fuel : Nat)
    (hs : Sound s) (hat : (paths s)[index]? = some path) (hmap : mappedAt fs path = some m)
    (hm : ¬ Readable m) : ∃ e, openFile fs (fuel + 1) index s = .error e ∧ MemoryFault e := by
  obtain ⟨e, hread, -⟩ := (readFile_exactly (mappedAt_length hmap)).error hm
  have hlibs : readLibraries fs path = .error e := by
    unfold readLibraries
    rw [hmap]
    simp only [hread]
    rfl
  have hends := openFile_explores fs (fuel + 1) hs hat
  unfold explore at hends
  rw [hlibs] at hends
  exact hends

end Files

/-- **The symbols of a well-formed file** that needs no library are what `OpenFile` appends, exactly
when what is mapped of the file is readable. -/
theorem decodes_iff {fs : Files} {path : CStr} {contents : List Byte} {m : Mapping}
    (hlookup : fs.lookup path = some contents) (hmap : mapFile contents = some m)
    (hc : SharedObject contents) (hneeds : NeedsNothing contents) (baseAddr : Addr) :
    (∀ fuel, ∃ s, openFile fs (fuel + 1) 0 (Symbol.init path baseAddr) = .ok (0, s) ∧
      s.sList = symbolsOf contents baseAddr) ↔ Readable m := by
  have hmapped : mappedAt fs path = some m := by
    unfold mappedAt
    rw [hlookup]
    exact hmap
  have hm := mapFile_length hmap
  have hstart := mapFile_prefix hmap
  constructor
  · intro h
    by_contra hm
    have hat : (paths (Symbol.init path baseAddr))[0]? = some path := rfl
    obtain ⟨e, herror, -⟩ := openFile_unreadable 0 (sound_init path baseAddr) hat hmapped hm
    obtain ⟨s, hrun, -⟩ := h 0
    rw [herror] at hrun
    cases hrun
  · intro hreadable fuel
    have hshared := hc.of_prefix hstart hreadable
    have hheader := hreadable.header hshared
    obtain ⟨b, haccepts, hb⟩ := (accepts_exactly hm).ok ⟨hreadable.magic, fun hstart =>
      ⟨hreadable.type hstart, fun _ => by omega⟩⟩
    rw [hb.mpr hshared] at haccepts
    obtain ⟨⟨syms, dyn⟩, htables, -⟩ := (readTables_exactly hm).ok
      ⟨hheader, hreadable.sections hshared⟩
    obtain ⟨hsyms, hdyn⟩ := readTables_eq_ok.mp htables
    have hat : (paths (Symbol.init path baseAddr))[0]? = some path := rfl
    obtain ⟨out, hstep⟩ := openFile_succ fs fuel hat
    have hsound := sound_init path baseAddr
    obtain ⟨s, hopen, himage, -, hlist, -, hbase, -⟩ := openElf_mapped haccepts hmapped
      (s := { Symbol.init path baseAddr with out := out }) ⟨hsound.pointers, hsound.shdr⟩
    have hinit : s.baseAddr = baseAddr := hbase
    have hempty : s.sList = [] := hlist
    have hbased : readSymbols (imageOf m) s.baseAddr = .ok (symbolsOf contents baseAddr) := by
      rw [hinit, readSymbols_atBase, hsyms]
      refine congrArg Except.ok (readSymbols_isPrefix hc hstart hheader ?_)
      rw [readSymbols_atBase, hsyms]
      rfl
    have hload : loadSymbols (openFile fs fuel) s =
        .ok (0, { s with sList := s.sList ++ symbolsOf contents baseAddr }) := by
      rw [loadSymbols_eq himage hbased hdyn, readDynamic_prefix hc hneeds hstart hheader hdyn]
      rfl
    rw [hstep, run_bind_ok hopen]
    simp only [Int.lt_irrefl, if_false]
    rw [run_bind_ok hload, hempty]
    exact ⟨_, rfl, List.nil_append _⟩

/-- A library with one function. -/
theorem library_decoded : (symbolsOf (sharedObject []) 0x7f0000000000).length = 1 ∧
    ∀ fuel, ∃ s, openFile (sharedObjects [("libc.so".toList, [])]) (fuel + 1) 0
        (Symbol.init "libc.so".toList 0x7f0000000000) = .ok (0, s) ∧
      s.sList = symbolsOf (sharedObject []) 0x7f0000000000 := by
  obtain ⟨hlt, hwell⟩ := someLibs_wellFormed [] (by decide)
  have hheader := hwell.header
  refine ⟨by decide +kernel, (decodes_iff rfl (mapFile_of_lt (by omega) hlt) ?_ ?_ _).mpr ?_⟩
  · decide +kernel
  · decide +kernel
  · exact hwell.readable (by omega)

/-! ## Files that are not decoded -/

/-- A function and a `DT_RPATH` entry, but no table of dynamic symbols. -/
def noDynsym : List Byte :=
  let strings := textBytes [] ++ textBytes ['f'] ++ textBytes "/opt/lib".toList
  let dynamic := le 8 dtRpath ++ le 8 3
  [elfMagic, le 12 0, le 2 etDyn, le 22 0, le 8 64, le 12 0, le 2 3, le 2 0,
    sectionHeader 3 256 strings.length 0 0,
    sectionHeader shtDynamic (256 + strings.length) dynamic.length 0 16,
    sectionHeader shtSymtab (256 + strings.length + dynamic.length) 24 0 24,
    strings, dynamic,
    le 4 1, le 1 sttFunc, le 3 0, le 8 0x1000, le 8 0].flatten

/-- A section header of type 0 at 2^20, and `n` zeros after the header of the file. -/
def farNull (n : Nat) : List Byte := headerWith (2 ^ 20) 1 ++ List.replicate n 0

theorem leAt_farNull (n off k : Nat) : leAt (farNull n) off k = leAt (headerWith (2 ^ 20) 1) off k := by
  induction k generalizing off with
  | zero => rfl
  | succ k ih =>
    have hbyte : ∀ k, (farNull n).getD k 0 = (headerWith (2 ^ 20) 1).getD k 0 := by
      intro k
      unfold farNull
      rcases Nat.lt_or_ge k (headerWith (2 ^ 20) 1).length with hlt | hge
      · exact List.getD_append _ _ 0 k hlt
      · rw [List.getD_append_right _ _ 0 k hge, List.getD_eq_default _ 0 hge,
          List.getD_eq_getElem?_getD, List.getElem?_getD_replicate_default_eq]
    unfold leAt
    rw [hbyte, ih]

theorem farNull_length (n : Nat) : (farNull n).length = 64 + n := by
  unfold farNull
  rw [List.length_append, List.length_replicate]
  rfl

/-- The file is well formed if its section header is inside it. -/
theorem farNull_sharedObject {n : Nat} (hinside : 2 ^ 20 ≤ n) (hn : n < 2 ^ 63) :
    SharedObject (farNull n) ∧ NeedsNothing (farNull n) := by
  have hlen := farNull_length n
  have hshoff : shoffAt (farNull n) = 2 ^ 20 := leAt_farNull n 40 8
  have hshnum : shnumAt (farNull n) = 1 := leAt_farNull n 60 2
  have htype : ∀ i < shnumAt (farNull n), typeAt (farNull n) i = 0 := by
    intro i hi
    obtain rfl : i = 0 := by omega
    unfold typeAt sectionAt
    rw [hshoff, leAt_farNull]
    decide
  refine ⟨⟨⟨by omega, by omega, ?_, ?_⟩, rfl, leAt_farNull n 16 2, ?_, ?_⟩, ?_⟩
  · intro _
    rw [hshoff, hshnum, hlen, show sizeofShdr = 64 from rfl]
    omega
  all_goals
    intro i hi hkind
    rw [htype i hi] at hkind
    exact absurd hkind (by decide)

/-- The size of the file, converted to an `int`, is that of its header. -/
theorem mapFile_farNull : mapFile (farNull (2 ^ 32)) = some (headerWith (2 ^ 20) 1) := by
  have hsize : (BitVec.ofNat 32 (64 + 2 ^ 32)).toInt = 64 := by decide
  have htake : (farNull (2 ^ 32)).take 64 = headerWith (2 ^ 20) 1 := List.take_left' rfl
  simp only [mapFile, farNull_length, hsize]
  rw [if_pos (by decide), show (64 : Int).toNat = 64 from rfl, htake]

/-- **A well-formed file is not decoded** if it has no table of dynamic symbols although a
`DT_RPATH` entry is in it, or if its size is 2^32 + 64: 64 bytes of it are mapped. -/
theorem well_formed_not_decoded :
    (SharedObject noDynsym ∧ NeedsNothing noDynsym ∧ mapFile noDynsym = some noDynsym ∧
      openFile [("a.out".toList, noDynsym)] 1 0 (Symbol.init "a.out".toList 0) =
        .error .nullPointer) ∧
    (SharedObject (farNull (2 ^ 32)) ∧ NeedsNothing (farNull (2 ^ 32)) ∧
      mapFile (farNull (2 ^ 32)) = some (headerWith (2 ^ 20) 1) ∧
      ∃ e, openFile [("a.out".toList, farNull (2 ^ 32))] 1 0 (Symbol.init "a.out".toList 0) =
        .error e) := by
  have hmap := mapFile_farNull
  refine ⟨⟨by decide +kernel, by decide +kernel, by decide +kernel, ?_⟩, ?_⟩
  · exact eq_error_of_faultOf (by decide +kernel)
  · obtain ⟨hc, hneeds⟩ := farNull_sharedObject (n := 2 ^ 32) (by decide) (by decide)
    refine ⟨hc, hneeds, hmap, ?_⟩
    have hat : (paths (Symbol.init "a.out".toList 0))[0]? = some "a.out".toList := rfl
    have hread : readFile (headerWith (2 ^ 20) 1) = .error .outOfBounds :=
      eq_error_of_faultOf (by decide +kernel)
    have hunreadable : ¬ Readable (headerWith (2 ^ 20) 1) := by
      intro hm
      obtain ⟨file, hfile, -⟩ := (readFile_exactly (mapFile_length hmap)).ok hm
      rw [hread] at hfile
      cases hfile
    obtain ⟨e, hrun, -⟩ := openFile_unreadable 0 (sound_init _ _) hat
      ((mappedAt_single _ _).trans hmap) hunreadable
    exact ⟨e, hrun⟩

end Zkz.Symbols
