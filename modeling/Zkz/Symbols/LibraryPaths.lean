import Zkz.Symbols.Malformed

/-!
# The paths of libraries

`ParseDynamic` looks up each needed library in the directory that the dynamic entries name, or in
`/lib`. The directory of an entry is joined with the name of a library without a separator, in a
buffer without room for the NUL.

* `addAll_eq`: the directory and the libraries that the scan finds.
* `openLibs_lookups`: the libraries are looked up in order, each at its path.
* `lookups_iff`: the paths are right, and fit their buffers, exactly when no directory is named.
-/

namespace Zkz.Symbols

open Zkz.Lib Zkz.Debugger

/-! ## Entries -/

def DynEntry.runpathDir : DynEntry → Option CStr
  | .runpath dir => some dir
  | _ => none

def DynEntry.rpathDir : DynEntry → Option CStr
  | .rpath dir => some dir
  | _ => none

def DynEntry.lib : DynEntry → Option CStr
  | .needed lib => some lib
  | _ => none

/-- The names of the needed libraries, in order. -/
def neededLibs (entries : List DynEntry) : List CStr := entries.filterMap DynEntry.lib

/-- The directory that the entries name: the last of `DT_RUNPATH`, or else of `DT_RPATH`. -/
def namedDir (entries : List DynEntry) : Option CStr :=
  (entries.filterMap DynEntry.runpathDir).getLast?.or (entries.filterMap DynEntry.rpathDir).getLast?

/-- The directory in which libraries are looked up. -/
def searchDir (entries : List DynEntry) : CStr := (namedDir entries).getD "/lib".toList

/-- No entry is `DT_RUNPATH` or `DT_RPATH`. -/
def NamesNoDir (entries : List DynEntry) : Prop :=
  ∀ e ∈ entries, e.runpathDir = none ∧ e.rpathDir = none

theorem namedDir_eq_none_iff (entries : List DynEntry) :
    namedDir entries = none ↔ NamesNoDir entries := by
  unfold namedDir NamesNoDir
  rw [Option.or_eq_none_iff, List.getLast?_eq_none_iff, List.getLast?_eq_none_iff,
    List.filterMap_eq_nil_iff, List.filterMap_eq_nil_iff]
  exact forall₂_and.symm

/-- What the scan has found: the directory is final once a `DT_RUNPATH` entry was met. -/
theorem addAll_eq (entries : List DynEntry) :
    (Dynamic.addAll {} entries).isRunpath = (entries.filterMap DynEntry.runpathDir).getLast?.isSome ∧
      (Dynamic.addAll {} entries).libPath = namedDir entries ∧
      (Dynamic.addAll {} entries).sharedLibs = neededLibs entries := by
  induction entries using List.reverseRecOn with
  | nil => exact ⟨rfl, rfl, rfl⟩
  | append_singleton entries e ih =>
    obtain ⟨hrunpath, hlibPath, hlibs⟩ := ih
    have hstep : Dynamic.addAll {} (entries ++ [e]) = (Dynamic.addAll {} entries).add e :=
      (Dynamic.addAll_append {} entries [e]).symm
    unfold namedDir at hlibPath ⊢
    unfold neededLibs at hlibs ⊢
    rw [hstep]
    simp only [List.filterMap_append, List.getLast?_append]
    cases e with
    | runpath dir => exact ⟨rfl, rfl, hlibs.trans (List.append_nil _).symm⟩
    | rpath dir =>
      -- a `DT_RPATH` entry only counts in front of every `DT_RUNPATH` entry
      simp only [Dynamic.add]
      cases hlast : (entries.filterMap DynEntry.runpathDir).getLast? with
      | none =>
        rw [hlast] at hrunpath
        rw [if_neg (by simp [hrunpath])]
        exact ⟨hrunpath, rfl, hlibs.trans (List.append_nil _).symm⟩
      | some last =>
        rw [hlast] at hrunpath hlibPath
        rw [if_pos (by simp [hrunpath])]
        exact ⟨hrunpath, hlibPath, hlibs.trans (List.append_nil _).symm⟩
    | needed lib => exact ⟨hrunpath, hlibPath, congrArg (· ++ [lib]) hlibs⟩
    | other => exact ⟨hrunpath, hlibPath, hlibs.trans (List.append_nil _).symm⟩

/-! ## Lookups -/

/-- The run from `s` to `s'` lists and opens the path of each library, one after the other: each
path is followed by those that loading the library lists and opens. -/
def LookedUp (R : CStr → Pathname → Prop) (libs : List CStr) (s s' : Symbol) : Prop :=
  ∃ chunks : List (List Pathname), s'.pList = s.pList ++ chunks.flatten ∧
    s'.opens = s.opens ++ chunks.flatten.map Pathname.text ∧
    List.Forall₂ (fun lib chunk => ∃ pathname rest, chunk = pathname :: rest ∧ R lib pathname)
      libs chunks

/-- The path of a library: the directory, one `/` and the name. With its NUL it fits the buffer. -/
def PathIn (dir lib : CStr) (pathname : Pathname) : Prop :=
  pathname.text = dir ++ '/' :: lib ∧ pathname.text.length + 1 ≤ pathname.size

/-- The lists and the pointers of the object are kept. -/
structure Steady (s s' : Symbol) : Prop where
  pList : s'.pList = s.pList
  opens : s'.opens = s.opens
  sound : Sound s → Sound s'

/-- A path was opened, and then those that loading it has listed. -/
def OpenedFirst (path : CStr) (s s' : Symbol) : Prop :=
  Sound s' ∧ ∃ rest, s'.pList = s.pList ++ rest ∧ s'.opens = s.opens ++ path :: rest.map Pathname.text

section Lookups

variable {s s' s'' : Symbol} {fs : Files} {path : CStr}

theorem Steady.trans (h : Steady s s') (h' : Steady s' s'') : Steady s s'' :=
  ⟨h'.pList.trans h.pList, h'.opens.trans h.opens, fun hs => h'.sound (h.sound hs)⟩

theorem logLine_steady (level : Level) (msg : String) (args : List LogArg) (s : Symbol) :
    Post (logLine level msg args) s fun _ s' => Steady s s' :=
  post_ok rfl ⟨rfl, rfl, fun hs => ⟨hs.pointers, hs.shdr⟩⟩

theorem removeMap_steady (s : Symbol) : Post removeMap s fun _ s' => Steady s s' := by
  obtain ⟨out, hrun⟩ := removeMap_run s
  exact post_ok hrun ⟨rfl, rfl, fun hs => ⟨hs.pointers, hs.shdr⟩⟩

theorem reading_same {α : Type} (x : Except Fault α) (s : Symbol) :
    Post (reading x) s fun a s' => x = .ok a ∧ s' = s := by
  intro a s' h
  unfold reading at h
  cases hx : x with
  | error e =>
    rw [hx] at h
    cases h
  | ok a' =>
    rw [hx] at h
    cases h
    exact ⟨rfl, rfl⟩

theorem rejected_steady (level : Level) (msg : String) (s : Symbol) :
    Post (do
      logLine level msg []
      removeMap
      return -1 : SymM Int) s fun _ s' => Steady s s' :=
  post_bind (logLine_steady level msg [] s) fun _ s₁ h₁ =>
    post_bind (removeMap_steady s₁) fun _ _ h₂ => post_pure (h₁.trans h₂)

theorem loadFile_steady (contents : List Byte) (s : Symbol) :
    Post (loadFile contents) s fun _ s' => Steady s s' := by
  unfold loadFile
  cases mapFile contents with
  | none => exact post_ok rfl ⟨rfl, rfl, fun hs => ⟨hs.pointers, hs.shdr⟩⟩
  | some m =>
    have hmapped : Steady s { s with mapping := .mapped m, maps := s.maps + 1 } :=
      ⟨rfl, rfl, fun hs => ⟨hs.pointers, fun k off h => Nat.le_succ_of_le (hs.shdr k off h)⟩⟩
    simp only
    refine post_bind_ok (run_modify _ s) (post_bind (reading_same _ _) ?_)
    rintro magic _ ⟨-, rfl⟩
    refine post_ite (fun _ => post_mono (rejected_steady _ _ _) fun _ _ => hmapped.trans) fun _ => ?_
    refine post_bind (reading_same _ _) ?_
    rintro type _ ⟨-, rfl⟩
    refine post_ite (fun _ => post_mono (rejected_steady _ _ _) fun _ _ => hmapped.trans) fun _ => ?_
    refine post_bind (reading_same _ _) ?_
    rintro shoff _ ⟨-, rfl⟩
    refine post_ite (fun _ => post_ok rfl ⟨rfl, rfl, fun hs => ⟨hs.pointers, ?_⟩⟩)
      fun _ => post_pure hmapped
    intro k off h
    cases h
    exact Nat.le_refl _

theorem openElf_opens (fs : Files) (path : CStr) (s : Symbol) :
    Post (openElf fs path) s fun _ s' => Steady { s with opens := s.opens ++ [path] } s' := by
  unfold openElf
  refine post_bind_ok (run_modify _ s) ?_
  cases fs.lookup path with
  | none => exact post_bind (logLine_steady _ _ _ _) fun _ _ h => post_pure h
  | some contents => exact loadFile_steady contents _

/-- The libraries are looked up in order, each at the path that is built for it. -/
theorem openLibs_lookups {openFile : Nat → SymM Int}
    (hopen : ∀ s index path, Sound s → (paths s)[index]? = some path →
      Post (openFile index) s fun _ s' => OpenedFirst path s s')
    (libPath : Option CStr) (total i : Nat) (libs : List CStr) (hs : Sound s) :
    Post (openLibs openFile libPath total i libs) s fun _ s' => Sound s' ∧
      LookedUp (fun lib pathname => ∃ pointer, pathname = libraryPath libPath lib pointer)
        libs s s' := by
  induction libs generalizing i s with
  | nil => exact post_pure ⟨hs, [], (List.append_nil _).symm, (List.append_nil _).symm, .nil⟩
  | cons lib libs ih =>
    obtain ⟨out, hrun⟩ := openLibs_cons openFile libPath total i lib libs hs
    have hgrown : Grown [] [] [(libraryPath libPath lib 0).text] s
        (s.listed (libraryPath libPath lib s.allocated) out) := listed_grown hs libPath lib out
    have hlisted : Sound (s.listed (libraryPath libPath lib s.allocated) out) := hgrown.sound
    have hat : (paths (s.listed (libraryPath libPath lib s.allocated) out))[s.pList.length]? =
        some (libraryPath libPath lib s.allocated).text := by
      unfold paths Symbol.listed
      rw [List.getElem?_map, List.getElem?_concat_length]
      rfl
    refine post_of_eq hrun (post_bind (hopen _ _ _ hlisted hat) ?_)
    rintro ret s₁ ⟨hs₁, rest, hpList, hopens⟩
    refine post_mono (ih (i + 1) hs₁) ?_
    rintro _ s₂ ⟨hs₂, chunks, hpList₂, hopens₂, hall⟩
    refine ⟨hs₂, (libraryPath libPath lib s.allocated :: rest) :: chunks, ?_, ?_,
      .cons ⟨_, rest, rfl, s.allocated, rfl⟩ hall⟩
    · rw [hpList₂, hpList]
      simp [Symbol.listed]
    · rw [hopens₂, hopens]
      simp [Symbol.listed]

theorem image_same (s : Symbol) : Post image s fun _ s' => s' = s := by
  unfold image
  refine post_get_bind ?_
  split
  · exact post_pure rfl
  · exact post_throw _

/-- What loading lists of the libraries it also opens. -/
theorem LookedUp.listed {R : CStr → Pathname → Prop} {libs : List CStr} (h : LookedUp R libs s s') :
    ∃ rest, s'.pList = s.pList ++ rest ∧ s'.opens = s.opens ++ rest.map Pathname.text := by
  obtain ⟨chunks, hpList, hopens, -⟩ := h
  exact ⟨chunks.flatten, hpList, hopens⟩

theorem parseDynamic_lists {openFile : Nat → SymM Int}
    (hopen : ∀ s index path, Sound s → (paths s)[index]? = some path →
      Post (openFile index) s fun _ s' => OpenedFirst path s s') (hs : Sound s) :
    Post (parseDynamic openFile) s fun _ s' => Sound s' ∧
      ∃ rest, s'.pList = s.pList ++ rest ∧ s'.opens = s.opens ++ rest.map Pathname.text := by
  unfold parseDynamic
  refine post_bind (image_same s) ?_
  rintro img _ rfl
  refine post_bind (reading_same _ _) ?_
  rintro dyn _ ⟨-, rfl⟩
  refine post_bind (openLibs_lookups hopen dyn.libPath dyn.sharedLibs.length 0 dyn.sharedLibs hs) ?_
  rintro _ s' ⟨hs', hlookups⟩
  exact post_pure ⟨hs', hlookups.listed⟩

theorem loadSymbols_lists {openFile : Nat → SymM Int}
    (hopen : ∀ s index path, Sound s → (paths s)[index]? = some path →
      Post (openFile index) s fun _ s' => OpenedFirst path s s') (hs : Sound s) :
    Post (loadSymbols openFile) s fun _ s' => Sound s' ∧
      ∃ rest, s'.pList = s.pList ++ rest ∧ s'.opens = s.opens ++ rest.map Pathname.text := by
  unfold loadSymbols
  refine post_bind (image_same s) ?_
  rintro img _ rfl
  refine post_get_bind (post_bind (reading_same _ _) ?_)
  rintro syms _ ⟨-, rfl⟩
  refine post_bind_ok (run_modify _ _) (post_bind (parseDynamic_lists hopen ⟨hs.pointers, hs.shdr⟩) ?_)
  rintro ret s₁ ⟨hs₁, rest, hpList, hopens⟩
  refine post_ite (fun _ => post_bind (removeMap_steady s₁) ?_) fun _ =>
    post_pure ⟨hs₁, rest, hpList, hopens⟩
  intro _ s₂ hsteady
  have hs₂ := hsteady.sound hs₁
  exact post_ok rfl ⟨⟨hs₂.pointers, hs₂.shdr⟩, rest, hsteady.pList.trans hpList,
    hsteady.opens.trans hopens⟩

/-- `OpenFile` opens the path at the index before it lists others. -/
theorem openFile_opensFirst (fs : Files) (fuel : Nat) {index : Nat} (hs : Sound s)
    (hat : (paths s)[index]? = some path) :
    Post (openFile fs fuel index) s fun _ s' => OpenedFirst path s s' := by
  induction fuel generalizing s index path with
  | zero => exact post_throw _
  | succ fuel ih =>
    obtain ⟨out, hstep⟩ := openFile_succ fs fuel hat
    refine post_of_eq hstep (post_bind (openElf_opens fs path _) ?_)
    intro ret s₁ hopened
    have hs₁ : Sound s₁ := hopened.sound ⟨hs.pointers, hs.shdr⟩
    have hfirst : OpenedFirst path s { s₁ with loadFailed := true } := by
      refine ⟨⟨hs₁.pointers, hs₁.shdr⟩, [], ?_, hopened.opens⟩
      rw [List.append_nil]
      exact hopened.pList
    refine post_ite (fun _ => post_ok rfl hfirst) fun _ => ?_
    refine post_bind (loadSymbols_lists (fun s index path hs hat => ih hs hat) hs₁) ?_
    rintro loaded s₂ ⟨hs₂, rest, hpList, hopens⟩
    have hpList₂ : s₂.pList = s.pList ++ rest := by
      rw [hpList, hopened.pList]
    have hopens₂ : s₂.opens = s.opens ++ path :: rest.map Pathname.text := by
      rw [hopens, hopened.opens, List.append_assoc, List.singleton_append]
    exact post_ite (fun _ => post_ok rfl ⟨⟨hs₂.pointers, hs₂.shdr⟩, rest, hpList₂, hopens₂⟩)
      fun _ => post_pure ⟨hs₂, rest, hpList₂, hopens₂⟩

end Lookups

/-! ## Paths -/

/-- The path of a library is the one in the default directory, and then it fits its buffer. -/
theorem libraryPath_pathIn_iff (entries : List DynEntry) (lib : CStr) (pointer : Nat) :
    PathIn (searchDir entries) lib (libraryPath (namedDir entries) lib pointer) ↔
      NamesNoDir entries := by
  rw [← namedDir_eq_none_iff]
  unfold PathIn searchDir
  cases hdir : namedDir entries with
  | none =>
    refine iff_of_true ⟨rfl, ?_⟩ rfl
    simp only [libraryPath, List.length_append]
    omega
  | some dir =>
    refine iff_of_false ?_ (Option.some_ne_none dir)
    rintro ⟨-, hfits⟩
    simp only [libraryPath, List.length_append] at hfits
    omega

/-- The path that is built for a library. -/
def BuiltFor (entries : List DynEntry) (lib : CStr) (pathname : Pathname) : Prop :=
  ∃ pointer, pathname = libraryPath (namedDir entries) lib pointer

/-- `ParseDynamic` looks up the needed libraries at the paths that it builds. -/
theorem parseDynamic_lookups {m : Mapping} (h : WellFormed m) (hm : m.length < 2 ^ 64)
    {s s' : Symbol} (hs : Sound s) (himage : image s = .ok (imageOf m, s)) {fs : Files} {fuel : Nat}
    {ret : Int} (hrun : parseDynamic (openFile fs fuel) s = .ok (ret, s')) :
    LookedUp (BuiltFor (dynEntries m)) (neededLibs (dynEntries m)) s s' := by
  obtain ⟨-, hlibPath, hlibs⟩ := addAll_eq (dynEntries m)
  unfold parseDynamic at hrun
  rw [run_bind_ok himage, run_bind_ok (run_reading (h.readDynamic hm) s), hlibPath, hlibs] at hrun
  obtain ⟨_, s₁, hopened, hret⟩ := run_bind_eq_ok.mp hrun
  cases hret
  exact (openLibs_lookups (fun s index path hs hat => openFile_opensFirst fs fuel hs hat)
    _ _ _ _ hs _ _ hopened).2

/-- The paths that are built are right if there are none or no directory is named. -/
theorem LookedUp.pathIn_iff {entries : List DynEntry} {s s' : Symbol}
    (h : LookedUp (BuiltFor entries) (neededLibs entries) s s') :
    LookedUp (PathIn (searchDir entries)) (neededLibs entries) s s' ↔
      neededLibs entries = [] ∨ NamesNoDir entries := by
  obtain ⟨chunks, hpList, hopens, hall⟩ := h
  constructor
  · rintro ⟨chunks', hpList', -, hall'⟩
    cases hneeded : neededLibs entries with
    | nil => exact Or.inl rfl
    | cons lib libs =>
      -- the first path that is listed is that of the first library
      rw [hneeded] at hall hall'
      have hflatten : chunks.flatten = chunks'.flatten :=
        List.append_cancel_left (hpList.symm.trans hpList')
      cases hall with
      | cons hfirst _ =>
        cases hall' with
        | cons hfirst' _ =>
          obtain ⟨_, rest, rfl, pointer, rfl⟩ := hfirst
          obtain ⟨pathname, rest', rfl, hpath⟩ := hfirst'
          obtain ⟨rfl, -⟩ := List.cons.inj hflatten
          exact Or.inr ((libraryPath_pathIn_iff entries lib pointer).mp hpath)
  · rintro (hnone | hdir)
    · rw [hnone] at hall ⊢
      cases hall
      exact ⟨[], hpList, hopens, .nil⟩
    · refine ⟨chunks, hpList, hopens, hall.imp ?_⟩
      rintro lib chunk ⟨pathname, rest, rfl, pointer, rfl⟩
      exact ⟨_, rest, rfl, (libraryPath_pathIn_iff entries lib pointer).mpr hdir⟩

/-- **Libraries are looked up** in order, each at its path in the directory that the entries name
or else in `/lib`, with buffers that their paths fit, exactly when no library is needed or no
directory is named. -/
theorem lookups_iff {m : Mapping} (h : WellFormed m) (hm : m.length < 2 ^ 64) {s s' : Symbol}
    (hs : Sound s) (himage : image s = .ok (imageOf m, s)) {fs : Files} {fuel : Nat} {ret : Int}
    (hrun : parseDynamic (openFile fs fuel) s = .ok (ret, s')) :
    LookedUp (PathIn (searchDir (dynEntries m))) (neededLibs (dynEntries m)) s s' ↔
      neededLibs (dynEntries m) = [] ∨ NamesNoDir (dynEntries m) :=
  (parseDynamic_lookups h hm hs himage hrun).pathIn_iff

/-! ## Two programs -/

/-- The object for a program once it is mapped. -/
def opened (m : Mapping) : Symbol :=
  { Symbol.init "a.out".toList 0 with mapping := .mapped m, maps := 1, shdr := some (1, shoffAt m) }

theorem opened_sound (m : Mapping) : Sound (opened m) where
  pointers := (sound_init "a.out".toList 0).pointers
  shdr k off h := by
    cases h
    exact Nat.le_refl 1

theorem opened_image {m : Mapping} (h : shoffAt m ≠ 0) :
    image (opened m) = .ok (imageOf m, opened m) := by
  unfold image imageOf
  rw [run_bind_ok (run_get _), if_neg h]
  rfl

/-- A program that needs a library from the default directory. -/
theorem default_looked_up : ∃ s', parseDynamic (openFile
      (sharedObjects [("/lib/libc.so".toList, [])]) 1) (opened (sharedObject ["libc.so".toList])) =
        .ok (0, s') ∧
      s'.opens = ["/lib/libc.so".toList] ∧
      LookedUp (PathIn "/lib".toList) ["libc.so".toList]
        (opened (sharedObject ["libc.so".toList])) s' := by
  have hobs : ((parseDynamic (openFile (sharedObjects [("/lib/libc.so".toList, [])]) 1)
      (opened (sharedObject ["libc.so".toList]))).toOption.map fun r => (r.1, r.2.opens)) =
        some (0, ["/lib/libc.so".toList]) := by decide +kernel
  obtain ⟨ret, s', hrun, hv⟩ := exists_ok_of_observed hobs
  simp only [Prod.mk.injEq] at hv
  obtain ⟨rfl, hopens⟩ := hv
  obtain ⟨hlt, hwell⟩ := someLibs_wellFormed ["libc.so".toList] (by decide)
  have hentries : dynEntries (sharedObject ["libc.so".toList]) = [.needed "libc.so".toList] := by
    decide +kernel
  have hiff := lookups_iff hwell (by omega) (opened_sound _) (opened_image (by decide +kernel)) hrun
  rw [hentries] at hiff
  refine ⟨s', hrun, hopens, hiff.mpr (Or.inr ?_)⟩
  intro e he
  cases List.mem_singleton.mp he
  exact ⟨rfl, rfl⟩

/-- A program that needs a library, with a `DT_RPATH` entry for it. Its sections are the dynamic
symbols, of which there are none, the strings and the dynamic section. -/
def rpathObject (dir lib : CStr) : List Byte :=
  let strings := textBytes [] ++ textBytes dir ++ textBytes lib
  let dynamic := le 8 dtRpath ++ le 8 1 ++ le 8 dtNeeded ++ le 8 (dir.length + 2)
  [elfMagic, le 12 0, le 2 etDyn, le 22 0, le 8 64, le 12 0, le 2 3, le 2 0,
    sectionHeader shtDynsym 256 0 1 24,
    sectionHeader 3 256 strings.length 0 0,
    sectionHeader shtDynamic (256 + strings.length) dynamic.length 1 16,
    strings, dynamic].flatten

/-- For a library in `/opt/lib` there is no `/` in the path, and no room for its NUL. -/
theorem separator_missing : WellFormed (rpathObject "/opt/lib".toList "libc.so".toList) ∧
    dynEntries (rpathObject "/opt/lib".toList "libc.so".toList) =
      [.rpath "/opt/lib".toList, .needed "libc.so".toList] ∧
    ∃ s', parseDynamic (openFile [] 1) (opened (rpathObject "/opt/lib".toList "libc.so".toList)) =
        .ok (0, s') ∧
      s'.opens = ["/opt/liblibc.so".toList] ∧
      s'.pList.map (fun x => (x.text.length + 1, x.size)) = [(6, 6), (16, 15)] ∧
      ¬ LookedUp (PathIn "/opt/lib".toList) ["libc.so".toList]
        (opened (rpathObject "/opt/lib".toList "libc.so".toList)) s' := by
  have hwell : WellFormed (rpathObject "/opt/lib".toList "libc.so".toList) := by decide +kernel
  have hentries : dynEntries (rpathObject "/opt/lib".toList "libc.so".toList) =
      [.rpath "/opt/lib".toList, .needed "libc.so".toList] := by decide +kernel
  have hobs : ((parseDynamic (openFile [] 1)
      (opened (rpathObject "/opt/lib".toList "libc.so".toList))).toOption.map fun r =>
        (r.1, r.2.opens, r.2.pList.map fun x => (x.text.length + 1, x.size))) =
          some (0, ["/opt/liblibc.so".toList], [(6, 6), (16, 15)]) := by decide +kernel
  obtain ⟨ret, s', hrun, hv⟩ := exists_ok_of_observed hobs
  simp only [Prod.mk.injEq] at hv
  obtain ⟨rfl, hopens, hsizes⟩ := hv
  have hlookups := parseDynamic_lookups hwell (by decide +kernel) (opened_sound _)
    (opened_image (by decide +kernel)) hrun
  refine ⟨hwell, hentries, s', hrun, hopens, hsizes, ?_⟩
  rw [hentries] at hlookups
  refine fun hpaths => ?_
  rcases hlookups.pathIn_iff.mp hpaths with hnone | hdir
  · cases hnone
  · exact absurd (hdir _ (List.mem_cons_self ..)).2 (Option.some_ne_none _)

end Zkz.Symbols
