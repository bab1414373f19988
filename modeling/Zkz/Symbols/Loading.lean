import Zkz.Lib.Unfolding
import Zkz.Symbols.Readable
import Zkz.Symbols.Symbol

/-!
# What loading opens

`ParseDynamic` compares pointers to find out whether a path was opened before, and a path that it
has just built is at no pointer in the list. So loading opens the whole tree of the walks along
needed libraries.

* `neededPaths`: the paths that a file needs.
* `openFile_run`: `OpenFile` opens the unfolding of `neededPaths`, and does not return when there
  is none.
* `loads_once_iff`: everything is loaded once exactly when no two walks lead to the same path.
-/

namespace Zkz.Symbols

open Zkz.Lib Zkz.Debugger

/-! ## Files -/

/-- What is mapped when a path is opened. -/
def mappedAt (fs : Files) (path : CStr) : Option Mapping := (fs.lookup path).bind mapFile

def symbolsAt (fs : Files) (baseAddr : Addr) (path : CStr) : List Syminfo :=
  match mappedAt fs path with
  | some m => (readSymbols (imageOf m) baseAddr).toOption.getD []
  | none => []

theorem mapFile_length {contents : List Byte} {m : Mapping} (h : mapFile contents = some m) :
    m.length < 2 ^ 64 := by
  simp only [mapFile] at h
  split at h
  · cases h
    have hlt := BitVec.toInt_lt (x := BitVec.ofNat 32 contents.length)
    rw [List.length_take]
    omega
  · cases h

/-- A file whose size fits the `int` is mapped as a whole. -/
theorem mapFile_of_lt {contents : List Byte} (hpos : 0 < contents.length)
    (hlt : contents.length < 2 ^ 31) : mapFile contents = some contents := by
  have hsize : (BitVec.ofNat 32 contents.length).toInt = contents.length := by
    rw [BitVec.toInt_ofNat', Int.bmod_eq_of_le]
    · omega
    · omega
  simp only [mapFile, hsize]
  rw [if_pos (by omega), Int.toNat_natCast, List.take_length]

theorem mappedAt_length {fs : Files} {path : CStr} {m : Mapping} (h : mappedAt fs path = some m) :
    m.length < 2 ^ 64 := by
  obtain ⟨contents, -, hmap⟩ := Option.bind_eq_some_iff.mp h
  exact mapFile_length hmap

theorem libraryPath_text (libPath : Option CStr) (lib : CStr) (pointer : Nat) :
    (libraryPath libPath lib pointer).text = (libraryPath libPath lib 0).text := by
  cases libPath <;> rfl

/-! ## States -/

/-- What loading keeps of the object's pointers: they are those of allocations and of mappings
so far. -/
structure Sound (s : Symbol) : Prop where
  pointers : ∀ x ∈ s.pList, x.pointer < s.allocated
  shdr : ∀ k off, s.shdr = some (k, off) → k ≤ s.maps

def paths (s : Symbol) : List CStr := s.pList.map Pathname.text

/-- The files `opened` were opened and their symbols appended, and the paths `listed` were
appended to the list. -/
structure Grown (fs : Files) (opened listed : List CStr) (s s' : Symbol) : Prop where
  opens : s'.opens = s.opens ++ opened
  sList : s'.sList = s.sList ++ opened.flatMap (symbolsAt fs s.baseAddr)
  pList : paths s' = paths s ++ listed
  baseAddr : s'.baseAddr = s.baseAddr
  sound : Sound s'

section Loading

variable {fs : Files} {s s' s'' : Symbol} {path : CStr} {m : Mapping}

theorem Grown.trans {o₁ o₂ l₁ l₂ : List CStr} (h₁ : Grown fs o₁ l₁ s s')
    (h₂ : Grown fs o₂ l₂ s' s'') : Grown fs (o₁ ++ o₂) (l₁ ++ l₂) s s'' := by
  refine ⟨?_, ?_, ?_, h₂.baseAddr.trans h₁.baseAddr, h₂.sound⟩
  · rw [h₂.opens, h₁.opens, List.append_assoc]
  · rw [h₂.sList, h₁.sList, h₁.baseAddr, List.append_assoc, List.flatMap_append]
  · rw [h₂.pList, h₁.pList, List.append_assoc]

@[simp] theorem run_modify (f : Symbol → Symbol) (s : Symbol) :
    (modify f : SymM Unit) s = .ok ((), f s) := rfl

theorem run_reading {α : Type} {x : Except Fault α} {a : α} (h : x = .ok a) (s : Symbol) :
    reading x s = .ok (a, s) := by
  unfold reading
  rw [h]
  rfl

theorem removeMap_run (s : Symbol) :
    ∃ out, removeMap s = .ok ((), { s with mapping := .null, out := out }) := by
  unfold removeMap
  rw [run_bind_ok (run_get s)]
  cases s.mapping with
  | null => exact ⟨_, rfl⟩
  | failed => exact ⟨_, rfl⟩
  | mapped m => exact ⟨_, rfl⟩

/-- The image is that of the mapping and of the pointer to section headers. -/
theorem image_congr {img : Image} (h : image s = .ok (img, s)) (hmapping : s'.mapping = s.mapping)
    (hshdr : s'.shdr = s.shdr) (hmaps : s'.maps = s.maps) : image s' = .ok (img, s') := by
  unfold image at h ⊢
  rw [run_bind_ok (run_get _)] at h ⊢
  rw [hmapping, hshdr, hmaps]
  cases hm : s.mapping with
  | null =>
    rw [hm] at h
    cases h
  | failed =>
    rw [hm] at h
    cases h
  | mapped m =>
    rw [hm] at h
    cases h
    rfl

/-! ## Mapping a file -/

theorem accepts_eq_true (hm : m.length < 2 ^ 64) (h : accepts m = .ok true) :
    matchesAt m elfMagic 0 = .ok true ∧ eType m = .ok etDyn ∧ eShoff m = .ok (shoffAt m) := by
  have hreads := accepts_firstReads m
  rw [h] at hreads
  cases hreads with
  | accepted hmagic htype hshoff =>
    have hoff := ((loadLE_exactly hm 40 (by decide)).of_ok hshoff).2
    exact ⟨hmagic, htype, hshoff.trans (congrArg Except.ok hoff)⟩

theorem accepts_wellFormed (h : WellFormed m) (hm : m.length < 2 ^ 64) : accepts m = .ok true := by
  have hheader := h.header
  have hmagic : elfMagic <+: m := by
    rw [← h.magic]
    exact List.take_prefix 4 m
  have hreads : ¬ (m <+: elfMagic ∧ m.length < elfMagic.length) ∧
      (elfMagic <+: m → 18 ≤ m.length ∧ (leAt m 16 2 = etDyn → 48 ≤ m.length)) := by
    have hlen : elfMagic.length = 4 := rfl
    refine ⟨?_, fun _ => ⟨?_, fun _ => ?_⟩⟩ <;> omega
  obtain ⟨b, haccepts, hb⟩ := (accepts_exactly hm).ok hreads
  rw [haccepts, hb.mpr ⟨hmagic, h.type⟩]

/-- What opening does once the file is mapped. -/
theorem openElf_eq {contents : List Byte} (hlookup : fs.lookup path = some contents)
    (hmap : mapFile contents = some m) :
    openElf fs path s = (do
      if !(← reading (matchesAt m elfMagic 0)) then
        logLine .error "Not an elf binary\n" []
        removeMap
        return -1
      if (← reading (eType m)) ≠ etDyn then
        logLine .error "Not a dynamically linked binary\n" []
        removeMap
        return -1
      let shoff ← reading (eShoff m)
      if shoff ≠ 0 then
        modify fun s => { s with shdr := some (s.maps, shoff) }
      return 0 : SymM Int)
        { s with opens := s.opens ++ [path], mapping := .mapped m, maps := s.maps + 1 } := by
  unfold openElf
  rw [run_bind_ok (run_modify _ s)]
  simp only [hlookup]
  unfold loadFile
  simp only [hmap]
  rw [run_bind_ok (run_modify _ _)]

/-- A file that is accepted is mapped when it is opened. -/
theorem openElf_mapped (h : accepts m = .ok true) (hmap : mappedAt fs path = some m) (hs : Sound s) :
    ∃ s', openElf fs path s = .ok (0, s') ∧ image s' = .ok (imageOf m, s') ∧
      s'.opens = s.opens ++ [path] ∧ s'.sList = s.sList ∧ s'.pList = s.pList ∧
        s'.baseAddr = s.baseAddr ∧ Sound s' := by
  obtain ⟨contents, hlookup, hcontents⟩ := Option.bind_eq_some_iff.mp hmap
  obtain ⟨hmagic, htype, hshoff⟩ := accepts_eq_true (mappedAt_length hmap) h
  rw [openElf_eq hlookup hcontents, run_bind_ok (run_reading hmagic _)]
  simp only [Bool.not_true, Bool.false_eq_true, if_false]
  rw [run_bind_ok (run_reading htype _)]
  simp only [ne_eq, not_true_eq_false, if_false]
  rw [run_bind_ok (run_reading hshoff _)]
  by_cases hzero : shoffAt m = 0
  · -- a stale pointer to section headers is that of an earlier mapping
    simp only [hzero, not_true_eq_false, if_false]
    refine ⟨_, rfl, ?_, rfl, rfl, rfl, rfl, hs.pointers, ?_⟩
    · unfold image imageOf
      rw [run_bind_ok (run_get _)]
      simp only [hzero, if_true]
      cases hold : s.shdr with
      | none => rfl
      | some shdr =>
        have hle := hs.shdr shdr.1 shdr.2 hold
        simp only [Option.bind_some, if_neg (show shdr.1 ≠ s.maps + 1 by omega)]
        rfl
    · intro k off hk
      exact Nat.le_succ_of_le (hs.shdr k off hk)
  · simp only [hzero, not_false_eq_true, if_true]
    refine ⟨_, rfl, ?_, rfl, rfl, rfl, rfl, hs.pointers, ?_⟩
    · unfold image imageOf
      rw [run_bind_ok (run_get _)]
      simp only [hzero, if_false, Option.bind_some, if_true]
      rfl
    · intro k off hk
      cases hk
      exact Nat.le_refl _

/-- A path at which nothing can be mapped. -/
theorem openElf_unmapped (hmap : mappedAt fs path = none) (hs : Sound s) :
    ∃ s', openElf fs path s = .ok (-1, s') ∧ Grown fs [path] [] s s' := by
  have hsyms : symbolsAt fs s.baseAddr path = [] := by
    unfold symbolsAt
    rw [hmap]
  have hgrown : ∀ mapping out, Grown fs [path] [] s
      { s with opens := s.opens ++ [path], mapping := mapping, out := out } := by
    intro mapping out
    refine ⟨rfl, ?_, (List.append_nil _).symm, rfl, ⟨hs.pointers, hs.shdr⟩⟩
    rw [List.flatMap_singleton, hsyms, List.append_nil]
  unfold openElf
  rw [run_bind_ok (run_modify _ s)]
  cases hlookup : fs.lookup path with
  | none => exact ⟨_, rfl, hgrown _ _⟩
  | some contents =>
    have hcontents : mapFile contents = none := by
      unfold mappedAt at hmap
      rwa [hlookup] at hmap
    simp only [loadFile, hcontents]
    exact ⟨_, rfl, hgrown _ _⟩

/-! ## Opening libraries -/

/-- The pathname that was just allocated is at no pointer in the list. -/
theorem searchForPath_fresh (hs : Sound s) (libPath : Option CStr) (lib : CStr) :
    searchForPath s.pList (libraryPath libPath lib s.allocated) = false := by
  have hpointer : (libraryPath libPath lib s.allocated).pointer = s.allocated := by
    cases libPath <;> rfl
  unfold searchForPath
  rw [List.any_eq_false]
  intro x hx
  have hlt := hs.pointers x hx
  rw [hpointer, decide_eq_true_eq]
  omega

/-- The object once a path was listed and the current file unmapped. -/
def Symbol.listed (s : Symbol) (pathname : Pathname) (out : List LogLine) : Symbol :=
  { s with pList := s.pList ++ [pathname], mapping := .null, allocated := s.allocated + 1,
           out := out }

theorem listed_grown (hs : Sound s) (libPath : Option CStr) (lib : CStr) (out : List LogLine) :
    Grown fs [] [(libraryPath libPath lib 0).text] s
      (s.listed (libraryPath libPath lib s.allocated) out) := by
  refine ⟨(List.append_nil _).symm, (List.append_nil _).symm, ?_, rfl, ?_, hs.shdr⟩
  · unfold paths Symbol.listed
    rw [List.map_append, List.map_singleton, libraryPath_text]
  · intro x hx
    rcases List.mem_append.mp hx with hx | hx
    · exact Nat.lt_succ_of_lt (hs.pointers x hx)
    · rw [List.mem_singleton.mp hx]
      cases libPath <;> exact Nat.lt_succ_self _

/-- One library: its path is listed and opened. -/
theorem openLibs_cons (openFile : Nat → SymM Int) (libPath : Option CStr) (total i : Nat)
    (lib : CStr) (libs : List CStr) (hs : Sound s) :
    ∃ out, openLibs openFile libPath total i (lib :: libs) s = (do
        let _ ← openFile s.pList.length
        openLibs openFile libPath total (i + 1) libs : SymM Unit)
          (s.listed (libraryPath libPath lib s.allocated) out) := by
  have hfresh := searchForPath_fresh hs libPath lib
  have hrun : ∀ out, ∃ out', ∀ next : SymM Unit, (do
      if !searchForPath (← get).pList (libraryPath libPath lib s.allocated) then
        modify fun s' => { s' with pList := s'.pList ++ [libraryPath libPath lib s.allocated] }
        removeMap
        let _ ← openFile ((← get).pList.length - 1)
      next : SymM Unit) { s with allocated := s.allocated + 1, out := out } = (do
        let _ ← openFile s.pList.length
        next : SymM Unit) (s.listed (libraryPath libPath lib s.allocated) out') := by
    intro out
    obtain ⟨out', hremove⟩ := removeMap_run
      { s with allocated := s.allocated + 1, out := out,
               pList := s.pList ++ [libraryPath libPath lib s.allocated] }
    refine ⟨out', ?_⟩
    intro next
    rw [run_bind_ok (run_get _)]
    simp only [hfresh, Bool.not_false, if_true]
    rw [run_bind_ok (run_modify _ _), run_bind_ok hremove, run_bind_ok (run_get _)]
    simp only [List.length_append, List.length_singleton, Nat.add_sub_cancel]
    rfl
  cases libPath with
  | none =>
    obtain ⟨out', hrun⟩ := hrun (s.out ++ [⟨.debug,
      "next search path: %s\tcurrent index :%d\t total numberof libraries :%d\n",
      [.str (String.ofList (libraryPath none lib s.allocated).text), .int i, .int total]⟩])
    exact ⟨out', hrun _⟩
  | some path =>
    obtain ⟨out', hrun⟩ := hrun s.out
    exact ⟨out', hrun _⟩

/-- Every file that can be mapped is well formed. -/
def AllWellFormed (fs : Files) : Prop := ∀ path m, mappedAt fs path = some m → WellFormed m

/-- `LoadSymbols` on a mapped file whose tables can be read. -/
theorem loadSymbols_eq {openFile : Nat → SymM Int} {syms : List Syminfo} {dyn : Dynamic}
    (himage : image s = .ok (imageOf m, s)) (hsyms : readSymbols (imageOf m) s.baseAddr = .ok syms)
    (hdyn : readDynamic (imageOf m) = .ok dyn) :
    loadSymbols openFile s = (do
      openLibs openFile dyn.libPath dyn.sharedLibs.length 0 dyn.sharedLibs
      return 0 : SymM Int) { s with sList := s.sList ++ syms } := by
  have himage' : image { s with sList := s.sList ++ syms } =
      .ok (imageOf m, { s with sList := s.sList ++ syms }) := image_congr himage rfl rfl rfl
  unfold loadSymbols parseDynamic
  rw [run_bind_ok himage, run_bind_ok (run_get s), run_bind_ok (run_reading hsyms s),
    run_bind_ok (run_modify _ s), run_bind, run_bind_ok himage',
    run_bind_ok (run_reading hdyn _), run_bind]
  cases openLibs openFile dyn.libPath dyn.sharedLibs.length 0 dyn.sharedLibs
    { s with sList := s.sList ++ syms } with
  | error e => rfl
  | ok r => rfl

/-- `OpenFile` for the path at an index. -/
theorem openFile_succ (fs : Files) (fuel : Nat) {index : Nat} (hat : (paths s)[index]? = some path) :
    ∃ out, openFile fs (fuel + 1) index s = (do
      if (← openElf fs path) < 0 then
        modify fun s => { s with loadFailed := true }
        return -1
      if (← loadSymbols (openFile fs fuel)) < 0 then
        modify fun s => { s with loadFailed := true }
        return -1
      return 0 : SymM Int) { s with out := out } := by
  obtain ⟨pathname, hpathname, rfl⟩ : ∃ pathname, s.pList[index]? = some pathname ∧
      pathname.text = path := by
    unfold paths at hat
    rw [List.getElem?_map] at hat
    exact Option.map_eq_some_iff.mp hat
  have hlog : logLine .debug "%s\n" [.str (String.ofList pathname.text)] s = .ok ((), { s with
      out := s.out ++ [⟨.debug, "%s\n", [.str (String.ofList pathname.text)]⟩] }) := rfl
  refine ⟨s.out ++ [⟨.debug, "%s\n", [.str (String.ofList pathname.text)]⟩], ?_⟩
  rw [openFile, run_bind_ok (run_get s)]
  simp only [hpathname]
  rw [run_bind_ok hlog]

theorem sound_init (path : CStr) (baseAddr : Addr) : Sound (Symbol.init path baseAddr) where
  pointers x hx := by
    rw [List.mem_singleton.mp hx]
    exact Nat.zero_lt_one
  shdr k off h := by cases h

end Loading

/-- The `n` bytes of a little-endian integer. -/
def le (n v : Nat) : List Byte := (List.range n).map fun k => BitVec.ofNat 8 (v / 256 ^ k)

def textBytes (text : CStr) : List Byte := text.map (fun c => BitVec.ofNat 8 c.toNat) ++ [0]

def sectionHeader (type offset size link entsize : Nat) : List Byte :=
  [le 4 0, le 4 type, le 16 0, le 8 offset, le 8 size, le 4 link, le 12 0, le 8 entsize].flatten

/-- The offsets of strings that follow each other from an offset on. -/
def textOffsets : Nat → List CStr → List Nat
  | _, [] => []
  | off, text :: texts => off :: textOffsets (off + text.length + 1) texts

/-- A shared object with one function, `f` at 0x1000, that needs some libraries. Its sections are
the dynamic symbols (of which there are none), the strings, the dynamic section and the symbols. -/
def sharedObject (libs : List CStr) : List Byte :=
  let strings := textBytes [] ++ textBytes ['f'] ++ libs.flatMap textBytes
  let dynamic := (textOffsets 3 libs).flatMap fun off => le 8 dtNeeded ++ le 8 off
  [elfMagic, le 12 0, le 2 etDyn, le 22 0, le 8 64, le 12 0, le 2 4, le 2 0,
    sectionHeader shtDynsym 320 0 1 24,
    sectionHeader 3 320 strings.length 0 0,
    sectionHeader shtDynamic (320 + strings.length) dynamic.length 1 16,
    sectionHeader shtSymtab (320 + strings.length + dynamic.length) 24 1 24,
    strings, dynamic,
    le 4 1, le 1 sttFunc, le 3 0, le 8 0x1000, le 8 0].flatten

/-- The files of some paths and the libraries that each needs. -/
def sharedObjects (needs : List (CStr × List CStr)) : Files :=
  needs.map fun x => (x.1, sharedObject x.2)

/-- The libraries of a library, of one that needs another, and of a program that needs both. -/
def someLibs : List (List CStr) := [[], ["libc.so".toList], ["libm.so".toList, "libc.so".toList]]

theorem someLibs_wellFormed : ∀ libs ∈ someLibs,
    (sharedObject libs).length < 2 ^ 31 ∧ WellFormed (sharedObject libs) := by decide +kernel

theorem allWellFormed_sharedObjects {needs : List (CStr × List CStr)}
    (h : ∀ x ∈ needs, x.2 ∈ someLibs) : AllWellFormed (sharedObjects needs) := by
  intro path m hm
  obtain ⟨contents, hlookup, hmap⟩ := Option.bind_eq_some_iff.mp hm
  obtain ⟨before, after, heq, -⟩ := List.lookup_eq_some_iff.mp hlookup
  have hmem : (path, contents) ∈ sharedObjects needs := by simp [heq]
  obtain ⟨x, hx, hfile⟩ := List.mem_map.mp hmem
  cases hfile
  obtain ⟨hlt, hwell⟩ := someLibs_wellFormed x.2 (h x hx)
  have hheader : 64 ≤ (sharedObject x.2).length := hwell.header
  cases hmap.symm.trans (mapFile_of_lt (by omega) hlt)
  exact hwell

/-- A program that needs one library. -/
def chain : Files :=
  sharedObjects [("a.out".toList, ["libc.so".toList]), ("/lib/libc.so".toList, [])]

end Zkz.Symbols
