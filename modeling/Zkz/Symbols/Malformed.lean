import Zkz.Lib.Exploration
import Zkz.Symbols.Loading
import Zkz.Symbols.Readable

/-!
# Loading files that are not well formed

Loading explores the files along the libraries that they need, and what it reads of a file that is
not `Readable` is outside the mapping.

* `openFile_explores`: `OpenFile` fails as the exploration does.
* `reads_inside_iff`: loading reads inside the mappings exactly when every file that it comes to is
  readable.
-/

namespace Zkz.Symbols

open Zkz.Lib Zkz.Debugger

/-! ## Files -/

/-- The paths of the libraries that a file needs. -/
def librariesOf (dyn : Dynamic) : List CStr :=
  dyn.sharedLibs.map fun lib => (libraryPath dyn.libPath lib 0).text

/-- What loading finds out about the file at a path: the libraries that it needs, and none if it is
rejected. -/
def readLibraries (fs : Files) (path : CStr) : Except Fault (List CStr) :=
  match mappedAt fs path with
  | none => .ok []
  | some m => (readFile m).map fun file => (file.map fun x => librariesOf x.2).getD []

/-- The symbols of the file at a path that loading reads, with their values for addresses. -/
def fileSymbols (fs : Files) (path : CStr) : List Syminfo :=
  match mappedAt fs path with
  | none => []
  | some m => ((readFile m).toOption.bind id).elim [] Prod.fst

/-- Loading finds out about a path exactly if what is mapped there is readable. -/
theorem readLibraries_exactly (fs : Files) (path : CStr) :
    Exactly MemoryFault (readLibraries fs path) (∀ m, mappedAt fs path = some m → Readable m)
      fun _ => True := by
  unfold readLibraries
  cases hmap : mappedAt fs path with
  | none => exact (exactly_ok trivial).congr (by simp)
  | some m =>
    have hfile := readFile_exactly (mappedAt_length hmap)
    simp only [Option.some.injEq, forall_eq']
    refine ⟨fun h => ?_, fun h => ?_⟩
    · obtain ⟨file, hread, -⟩ := hfile.ok h
      rw [hread]
      exact ⟨_, rfl, trivial⟩
    · obtain ⟨e, hread, he⟩ := hfile.error h
      rw [hread]
      exact ⟨e, rfl, he⟩

/-! ## Addresses -/

/-- Symbols whose addresses are their values, at a base address. -/
def atBase (baseAddr : Addr) (syms : List Syminfo) : List Syminfo :=
  syms.map fun x => { x with address := baseAddr + x.address }

theorem map_bind_eq {α β γ : Type} (x : Except Fault α) (f : α → Except Fault β) (g : β → γ) :
    (x >>= f).map g = x >>= fun a => (f a).map g := by
  cases x <;> rfl

theorem forEach_map {β γ : Type} {f : Nat → β → Except Fault β} {f' : Nat → γ → Except Fault γ}
    {g : β → γ} (hf : ∀ i b, f' i (g b) = (f i b).map g) (n : Nat) (b : β) :
    forEach f' n (g b) = (forEach f n b).map g := by
  induction n with
  | zero => rfl
  | succ n ih =>
    unfold forEach
    rw [ih]
    cases forEach f n b with
    | error e => rfl
    | ok b' => exact hf n b'

theorem readSymbol_atBase (m : Mapping) (baseAddr : Addr) (sym str j : Nat) (syms : List Syminfo) :
    readSymbol m baseAddr sym str j (atBase baseAddr syms) =
      (readSymbol m 0 sym str j syms).map (atBase baseAddr) := by
  unfold readSymbol
  rw [map_bind_eq]
  refine bind_congr fun info => ?_
  rw [apply_ite (Except.map _), map_bind_eq]
  congr 1
  refine bind_congr fun value => ?_
  rw [apply_ite (Except.map _), map_bind_eq]
  congr 1
  refine bind_congr fun name => ?_
  rw [map_bind_eq]
  refine bind_congr fun symbol => ?_
  simp [atBase, pure, Except.pure, Except.map]

theorem readSection_atBase (img : Image) (baseAddr : Addr) (i : Nat) (syms : List Syminfo) :
    readSection img baseAddr i (atBase baseAddr syms) =
      (readSection img 0 i syms).map (atBase baseAddr) := by
  unfold readSection
  rw [map_bind_eq]
  refine bind_congr fun kind => ?_
  rw [apply_ite (Except.map _)]
  congr 1
  simp only [map_bind_eq]
  refine bind_congr fun sym => bind_congr fun link => bind_congr fun str => bind_congr fun size =>
    bind_congr fun entsize => ?_
  split
  · rfl
  · exact forEach_map (readSymbol_atBase img.bytes baseAddr sym str) _ syms

/-- The base address only moves the symbols. -/
theorem readSymbols_atBase (img : Image) (baseAddr : Addr) :
    readSymbols img baseAddr = (readSymbols img 0).map (atBase baseAddr) := by
  unfold readSymbols
  rw [map_bind_eq]
  exact bind_congr fun n => forEach_map (readSection_atBase img baseAddr) n []

/-! ## Runs -/

/-- A run keeps what is known of the object, and the symbols so far. -/
structure Kept (s s' : Symbol) : Prop where
  sound : Sound s'
  baseAddr : s'.baseAddr = s.baseAddr
  sList : s.sList <+: s'.sList

theorem Kept.refl {s : Symbol} (hs : Sound s) : Kept s s := ⟨hs, rfl, List.prefix_refl _⟩

theorem Kept.trans {s s₁ s₂ : Symbol} (h₁ : Kept s s₁) (h₂ : Kept s₁ s₂) : Kept s s₂ :=
  ⟨h₂.sound, h₂.baseAddr.trans h₁.baseAddr, h₁.sList.trans h₂.sList⟩

/-- A run ends as an exploration does: in a state with `Q`, without returning, or with a fault. -/
def EndsAs {α : Type} (Q : Symbol → Prop) (result : Except Fault (α × Symbol)) :
    Except (Option Fault) Unit → Prop
  | .ok _ => ∃ a s', result = .ok (a, s') ∧ Q s'
  | .error none => result = .error .noReturn
  | .error (some _) => ∃ e, result = .error e ∧ MemoryFault e

section Runs

variable {fs : Files} {s s' : Symbol} {path : CStr} {m : Mapping}

theorem run_reading_error {α : Type} {x : Except Fault α} {e : Fault} (h : x = .error e)
    (s : Symbol) : reading x s = .error e := by
  unfold reading
  rw [h]
  rfl

theorem run_bind_error {α β : Type} {x : SymM α} {f : α → SymM β} {e : Fault}
    (h : x s = .error e) : (x >>= f) s = .error e := by
  rw [run_bind, h]

theorem EndsAs.mono {α : Type} {Q Q' : Symbol → Prop} {result : Except Fault (α × Symbol)}
    {outcome : Except (Option Fault) Unit} (h : EndsAs Q result outcome)
    (hQ : ∀ s', Q s' → Q' s') : EndsAs Q' result outcome := by
  cases outcome with
  | ok u =>
    obtain ⟨a, s', hrun, hs'⟩ := h
    exact ⟨a, s', hrun, hQ s' hs'⟩
  | error e =>
    cases e with
    | none => exact h
    | some e => exact h

theorem EndsAs.post {α : Type} {Q : Symbol → Prop} {x : SymM α}
    {outcome : Except (Option Fault) Unit} (h : EndsAs Q (x s) outcome) :
    Post x s fun _ s' => Q s' := by
  intro a s' hrun
  rw [hrun] at h
  cases outcome with
  | ok u =>
    obtain ⟨_, _, heq, hs'⟩ := h
    cases heq
    exact hs'
  | error e =>
    cases e with
    | none => cases h
    | some e =>
      obtain ⟨_, heq, -⟩ := h
      cases heq

/-- A second part that ends as the rest of an exploration does. -/
theorem EndsAs.bind {α β : Type} {Q R : Symbol → Prop} {x : SymM α} {f : α → SymM β}
    {first rest : Except (Option Fault) Unit} (hx : EndsAs Q (x s) first)
    (hf : ∀ a s', Q s' → EndsAs R (f a s') rest) :
    EndsAs R ((x >>= f) s) (first >>= fun _ => rest) := by
  cases first with
  | ok u =>
    obtain ⟨a, s', hrun, hs'⟩ := hx
    rw [run_bind_ok hrun]
    exact hf a s' hs'
  | error e =>
    cases e with
    | none => exact run_bind_error hx
    | some e =>
      obtain ⟨e', hrun, he'⟩ := hx
      exact ⟨e', run_bind_error hrun, he'⟩

/-- A second part that does not fail. -/
theorem EndsAs.then {α β : Type} {Q R : Symbol → Prop} {x : SymM α} {f : α → SymM β}
    {outcome : Except (Option Fault) Unit} (hx : EndsAs Q (x s) outcome)
    (hf : ∀ a s', Q s' → ∃ b s'', f a s' = .ok (b, s'') ∧ R s'') :
    EndsAs R ((x >>= f) s) outcome := by
  have hboth := hx.bind (fun a s' hs' => show EndsAs R (f a s') (.ok ()) from hf a s' hs')
  cases outcome with
  | ok u => exact hboth
  | error e => exact hboth

/-- The libraries of a file, in order. -/
theorem openLibs_explores {openFile : Nat → SymM Int} {g : CStr → Except (Option Fault) Unit}
    (hopen : ∀ s index path, Sound s → (paths s)[index]? = some path →
      EndsAs (Kept s) (openFile index s) (g path)) (libPath : Option CStr) (total i : Nat)
    (libs : List CStr) (hs : Sound s) :
    EndsAs (Kept s) (openLibs openFile libPath total i libs s)
      (inOrder g (libs.map fun lib => (libraryPath libPath lib 0).text)) := by
  induction libs generalizing i s with
  | nil => exact ⟨(), s, rfl, Kept.refl hs⟩
  | cons lib libs ih =>
    obtain ⟨out, hrun⟩ := openLibs_cons openFile libPath total i lib libs hs
    obtain ⟨-, -, hpaths, -, hsound⟩ : Grown [] [] [(libraryPath libPath lib 0).text] s
        (s.listed (libraryPath libPath lib s.allocated) out) := listed_grown hs libPath lib out
    have hkept : Kept s (s.listed (libraryPath libPath lib s.allocated) out) :=
      ⟨hsound, rfl, List.prefix_refl _⟩
    have hat : (paths (s.listed (libraryPath libPath lib s.allocated) out))[s.pList.length]? =
        some (libraryPath libPath lib 0).text := by
      have hlen : (paths s).length = s.pList.length := List.length_map _
      rw [hpaths, ← hlen, List.getElem?_concat_length]
    have hone := hopen _ _ _ hsound hat
    have hboth := hone.bind fun _ s₁ hkept₁ => (ih (i + 1) hkept₁.sound).mono
      fun s₂ hkept₂ => hkept.trans (hkept₁.trans hkept₂)
    rw [hrun]
    exact hboth

/-- Loading the file at a path keeps the symbols so far and appends those of the file first. -/
structure Appended (fs : Files) (path : CStr) (s s' : Symbol) : Prop where
  kept : Kept s s'
  symbols : s.sList ++ atBase s.baseAddr (fileSymbols fs path) <+: s'.sList

theorem readTables_eq_ok {syms : List Syminfo} {dyn : Dynamic} :
    readTables m = .ok (syms, dyn) ↔
      readSymbols (imageOf m) 0 = .ok syms ∧ readDynamic (imageOf m) = .ok dyn := by
  unfold readTables
  cases hsyms : readSymbols (imageOf m) 0 with
  | error e => simp [bind, Except.bind]
  | ok syms' =>
    cases hdyn : readDynamic (imageOf m) with
    | error e => simp [bind, Except.bind]
    | ok dyn' => simp [bind, Except.bind, pure, Except.pure]

theorem loadSymbols_error {openFile : Nat → SymM Int} {e : Fault}
    (himage : image s = .ok (imageOf m, s)) (h : readTables m = .error e) :
    loadSymbols openFile s = .error e := by
  unfold loadSymbols parseDynamic
  rw [run_bind_ok himage, run_bind_ok (run_get s), readSymbols_atBase]
  unfold readTables at h
  cases hsyms : readSymbols (imageOf m) 0 with
  | error e' =>
    rw [hsyms] at h
    cases h
    exact run_bind_error (run_reading_error rfl s)
  | ok syms =>
    rw [hsyms] at h
    cases hdyn : readDynamic (imageOf m) with
    | ok dyn =>
      rw [hdyn] at h
      cases h
    | error e' =>
      rw [hdyn] at h
      cases h
      have himage' : image { s with sList := s.sList ++ atBase s.baseAddr syms } =
          .ok (imageOf m, { s with sList := s.sList ++ atBase s.baseAddr syms }) :=
        image_congr himage rfl rfl rfl
      rw [Except.map, run_bind_ok (run_reading rfl s), run_bind_ok (run_modify _ s)]
      refine run_bind_error ?_
      rw [run_bind_ok himage', hdyn]
      exact run_bind_error (run_reading_error rfl _)

/-- `LoadSymbols` on a mapped file: its symbols are appended before its libraries are opened. -/
theorem loadSymbols_explores {openFile : Nat → SymM Int} {g : CStr → Except (Option Fault) Unit}
    (hopen : ∀ s index path, Sound s → (paths s)[index]? = some path →
      EndsAs (Kept s) (openFile index s) (g path)) (hs : Sound s)
    (himage : image s = .ok (imageOf m, s)) {syms : List Syminfo} {dyn : Dynamic}
    (h : readTables m = .ok (syms, dyn)) :
    EndsAs (Kept { s with sList := s.sList ++ atBase s.baseAddr syms }) (loadSymbols openFile s)
      (inOrder g (librariesOf dyn)) := by
  obtain ⟨hsyms, hdyn⟩ := readTables_eq_ok.mp h
  have hat : readSymbols (imageOf m) s.baseAddr = .ok (atBase s.baseAddr syms) := by
    rw [readSymbols_atBase, hsyms]
    rfl
  have hlibs := openLibs_explores hopen dyn.libPath dyn.sharedLibs.length 0 dyn.sharedLibs
    (s := { s with sList := s.sList ++ atBase s.baseAddr syms }) ⟨hs.pointers, hs.shdr⟩
  rw [loadSymbols_eq himage hat hdyn]
  exact hlibs.then fun _ s' hkept => ⟨0, s', rfl, hkept⟩

/-- A file that is rejected is unmapped. -/
theorem rejected_run (level : Level) (msg : String) (hs : Sound s) :
    ∃ s', (do
      logLine level msg []
      removeMap
      return -1 : SymM Int) s = .ok (-1, s') ∧ Kept s s' := by
  have hlog : logLine level msg [] s =
      .ok ((), { s with out := s.out ++ [⟨level, msg, []⟩] }) := rfl
  obtain ⟨out, hremove⟩ := removeMap_run { s with out := s.out ++ [⟨level, msg, []⟩] }
  rw [run_bind_ok hlog, run_bind_ok hremove]
  exact ⟨_, rfl, ⟨hs.pointers, hs.shdr⟩, rfl, List.prefix_refl _⟩

/-- A file whose first reads fail. -/
theorem openElf_error (hmap : mappedAt fs path = some m) {e : Fault} (h : accepts m = .error e) :
    openElf fs path s = .error e := by
  obtain ⟨contents, hlookup, hcontents⟩ := Option.bind_eq_some_iff.mp hmap
  rw [openElf_eq hlookup hcontents]
  have hreads := accepts_firstReads m
  rw [h] at hreads
  cases hreads with
  | magicFault hmagic => exact run_bind_error (run_reading_error hmagic _)
  | typeFault hmagic htype =>
    rw [run_bind_ok (run_reading hmagic _)]
    exact run_bind_error (run_reading_error htype _)
  | shoffFault hmagic htype hshoff =>
    rw [run_bind_ok (run_reading hmagic _)]
    simp only [Bool.not_true, Bool.false_eq_true, if_false]
    rw [run_bind_ok (run_reading htype _)]
    exact run_bind_error (run_reading_error hshoff _)

/-- A file that is rejected. -/
theorem openElf_rejected (hmap : mappedAt fs path = some m) (h : accepts m = .ok false)
    (hs : Sound s) : ∃ s', openElf fs path s = .ok (-1, s') ∧ Kept s s' := by
  obtain ⟨contents, hlookup, hcontents⟩ := Option.bind_eq_some_iff.mp hmap
  have hmapped : Sound
      { s with opens := s.opens ++ [path], mapping := .mapped m, maps := s.maps + 1 } :=
    ⟨hs.pointers, fun k off h => Nat.le_succ_of_le (hs.shdr k off h)⟩
  rw [openElf_eq hlookup hcontents]
  have hreads := accepts_firstReads m
  rw [h] at hreads
  cases hreads with
  | notElf hmagic =>
    obtain ⟨s', hrun, hkept⟩ := rejected_run .error "Not an elf binary\n" hmapped
    rw [run_bind_ok (run_reading hmagic _)]
    exact ⟨s', hrun, hkept.sound, hkept.baseAddr, hkept.sList⟩
  | notDyn hmagic htype hdyn =>
    obtain ⟨s', hrun, hkept⟩ := rejected_run .error "Not a dynamically linked binary\n" hmapped
    rw [run_bind_ok (run_reading hmagic _)]
    simp only [Bool.not_true, Bool.false_eq_true, if_false]
    rw [run_bind_ok (run_reading htype _), if_pos hdyn]
    exact ⟨s', hrun, hkept.sound, hkept.baseAddr, hkept.sList⟩

theorem Appended.failed (h : Appended fs path s s') : Appended fs path s { s' with loadFailed := true } :=
  ⟨⟨⟨h.kept.sound.pointers, h.kept.sound.shdr⟩, h.kept.baseAddr, h.kept.sList⟩, h.symbols⟩

/-- A file from which nothing is read. -/
theorem Kept.appended (h : Kept s s') (hsyms : fileSymbols fs path = []) : Appended fs path s s' := by
  refine ⟨h, ?_⟩
  rw [hsyms]
  change s.sList ++ [] <+: s'.sList
  rw [List.append_nil]
  exact h.sList

/-- `OpenFile` ends as the exploration of the libraries does. -/
theorem openFile_explores (fs : Files) (fuel : Nat) {index : Nat} (hs : Sound s)
    (hat : (paths s)[index]? = some path) :
    EndsAs (Appended fs path s) (openFile fs fuel index s)
      (explore (readLibraries fs) fuel path) := by
  induction fuel generalizing s index path with
  | zero => rfl
  | succ fuel ih =>
    have hbelow : ∀ s index path, Sound s → (paths s)[index]? = some path →
        EndsAs (Kept s) (openFile fs fuel index s) (explore (readLibraries fs) fuel path) :=
      fun s index path hs hat => (ih hs hat).mono fun _ h => h.kept
    obtain ⟨out, hstep⟩ := openFile_succ fs fuel hat
    have hlogged : Sound { s with out := out } := ⟨hs.pointers, hs.shdr⟩
    unfold explore
    rw [hstep]
    cases hmap : mappedAt fs path with
    | none =>
      have hsyms : fileSymbols fs path = [] := by
        unfold fileSymbols
        rw [hmap]
      have hlibs : readLibraries fs path = .ok [] := by
        unfold readLibraries
        rw [hmap]
      obtain ⟨s₁, hopen, hgrown⟩ := openElf_unmapped hmap hlogged
      have hkept : Kept s s₁ := ⟨hgrown.sound, hgrown.baseAddr, hgrown.sList ▸ List.prefix_append _ _⟩
      rw [run_bind_ok hopen, hlibs]
      exact ⟨-1, _, rfl, (hkept.appended hsyms).failed⟩
    | some m =>
      have hlibs : readLibraries fs path =
          (readFile m).map fun file => (file.map fun x => librariesOf x.2).getD [] := by
        unfold readLibraries
        rw [hmap]
      have hsyms : fileSymbols fs path = ((readFile m).toOption.bind id).elim [] Prod.fst := by
        unfold fileSymbols
        rw [hmap]
      rw [hlibs]
      unfold readFile at hsyms ⊢
      cases haccepts : accepts m with
      | error e =>
        exact ⟨e, run_bind_error (openElf_error hmap haccepts),
          (accepts_exactly (mappedAt_length hmap)).of_error haccepts⟩
      | ok b =>
        rw [haccepts] at hsyms
        cases b with
        | false =>
          obtain ⟨s₁, hopen, hkept⟩ := openElf_rejected hmap haccepts hlogged
          rw [run_bind_ok hopen]
          have hkept' : Kept s s₁ := ⟨hkept.sound, hkept.baseAddr, hkept.sList⟩
          exact ⟨-1, _, rfl, (hkept'.appended hsyms).failed⟩
        | true =>
          obtain ⟨s₁, hopen, himage, -, hlist, -, hbase, hs₁⟩ := openElf_mapped haccepts hmap hlogged
          rw [run_bind_ok hopen]
          cases htables : readTables m with
          | error e =>
            exact ⟨e, run_bind_error (loadSymbols_error himage htables),
              (readTables_exactly (mappedAt_length hmap)).of_error htables⟩
          | ok x =>
            rw [htables] at hsyms
            change fileSymbols fs path = x.1 at hsyms
            have hload := loadSymbols_explores hbelow hs₁ himage htables
            rw [hlist, hbase, ← hsyms] at hload
            refine hload.then fun ret s' hkept => ?_
            have happended : Appended fs path s s' :=
              ⟨⟨hkept.sound, hkept.baseAddr, (List.prefix_append _ _).trans hkept.sList⟩,
                hkept.sList⟩
            split
            · exact ⟨-1, _, rfl, happended.failed⟩
            · exact ⟨0, s', rfl, happended⟩

theorem openFile_ok_path {fuel index : Nat} {ret : Int}
    (h : openFile fs fuel index s = .ok (ret, s')) : ∃ path, (paths s)[index]? = some path := by
  cases fuel with
  | zero => cases h
  | succ fuel =>
    rw [openFile, run_bind_ok (run_get s)] at h
    cases hpathname : s.pList[index]? with
    | none =>
      simp only [hpathname] at h
      cases h
    | some pathname =>
      unfold paths
      exact ⟨pathname.text, by rw [List.getElem?_map, hpathname]; rfl⟩

theorem avoids_endsAs {α : Type} {Q : Symbol → Prop} {x : SymM α}
    {outcome : Except (Option Fault) Unit} (h : EndsAs Q (x s) outcome) :
    Avoids MemoryFault x s ↔ ∀ e, outcome ≠ .error (some e) := by
  cases outcome with
  | ok u =>
    obtain ⟨a, s', hrun, -⟩ := h
    exact iff_of_true (avoids_ok hrun) fun e he => by cases he
  | error e =>
    cases e with
    | none =>
      refine iff_of_true (avoids_error h ?_) fun e he => by cases he
      rintro (hfault | hfault | hfault) <;> cases hfault
    | some e =>
      obtain ⟨e', hrun, he'⟩ := h
      exact iff_of_false (fun havoids => havoids e' hrun he') fun hne => hne e rfl

/-! ## Sequences of files -/

/-- The object after calls of `OpenFile` that have returned, each with files of its own. -/
inductive AfterLoads (path : CStr) (baseAddr : Addr) : Symbol → Prop
  | init : AfterLoads path baseAddr (Symbol.init path baseAddr)
  | load {s s' : Symbol} {fs : Files} {fuel index : Nat} {ret : Int}
      (hs : AfterLoads path baseAddr s) (h : openFile fs fuel index s = .ok (ret, s')) :
      AfterLoads path baseAddr s'

theorem AfterLoads.sound {baseAddr : Addr} (h : AfterLoads path baseAddr s) : Sound s := by
  induction h with
  | init => exact sound_init path baseAddr
  | @load s s' fs fuel index ret _ hrun ih =>
    obtain ⟨p, hat⟩ := openFile_ok_path hrun
    exact ((openFile_explores fs fuel ih hat).post ret s' hrun).kept.sound

/-- **Loading reads inside the mappings** and divides by no zero, after any calls, exactly when
each file that it comes to is readable. -/
theorem reads_inside_iff {baseAddr : Addr} (hs : AfterLoads path baseAddr s) {index : Nat}
    {p : CStr} (hat : (paths s)[index]? = some p) (fs : Files) :
    (∀ fuel, Avoids MemoryFault (openFile fs fuel index) s) ↔
      ∀ q, ComesTo (readLibraries fs) p q → ∀ m, mappedAt fs q = some m → Readable m := by
  have hexplored : (∀ fuel, Avoids MemoryFault (openFile fs fuel index) s) ↔
      ∀ fuel e, explore (readLibraries fs) fuel p ≠ .error (some e) :=
    forall_congr' fun fuel => avoids_endsAs (openFile_explores fs fuel hs.sound hat)
  rw [hexplored, explore_succeeds_iff]
  refine forall_congr' fun q => imp_congr_right fun _ => ?_
  have hq := readLibraries_exactly fs q
  constructor
  · rintro ⟨libs, hlibs⟩
    exact (hq.of_ok hlibs).1
  · intro hreadable
    obtain ⟨libs, hlibs, -⟩ := hq.ok hreadable
    exact ⟨libs, hlibs⟩

/-- What is well formed is readable. -/
theorem WellFormed.readable (h : WellFormed m) (hm : m.length < 2 ^ 64) : Readable m := by
  have hsyms := (h.tables hm).readSymbols 0
  have hdyn := h.readDynamic hm
  have hread : readFile m = .ok (some (symbolsOf m 0, Dynamic.addAll {} (dynEntries m))) := by
    unfold readFile
    rw [accepts_wellFormed h hm, readTables_eq_ok.mpr ⟨hsyms, hdyn⟩]
    rfl
  exact ((readFile_exactly hm).of_ok hread).1

end Runs

/-- A program and the library that it needs. -/
theorem chain_reads_inside : AllWellFormed chain ∧ ∀ fuel,
    Avoids MemoryFault (openFile chain fuel 0) (Symbol.init "a.out".toList 0x400000) := by
  have hfs : AllWellFormed chain := allWellFormed_sharedObjects (by decide)
  refine ⟨hfs, (reads_inside_iff .init rfl chain).mpr ?_⟩
  intro q _ m hm
  exact (hfs q m hm).readable (mappedAt_length hm)

/-! ## Malformed files -/

/-- The fault that a result is. -/
def faultOf {α : Type} : Except Fault α → Option Fault
  | .ok _ => none
  | .error e => some e

theorem eq_error_of_faultOf {α : Type} {result : Except Fault α} {e : Fault}
    (h : faultOf result = some e) : result = .error e := by
  cases result with
  | ok a => cases h
  | error e' =>
    cases h
    rfl

/-- A file with `e_shoff` and `e_shnum` in its header. -/
def headerWith (shoff shnum : Nat) : List Byte :=
  [elfMagic, le 12 0, le 2 etDyn, le 22 0, le 8 shoff, le 12 0, le 2 shnum, le 2 0].flatten

/-- A symbol table whose entries have the size 0. -/
def zeroEntsize : List Byte := headerWith 64 1 ++ sectionHeader shtSymtab 64 24 0 0

/-- Section headers far outside the file. -/
def farSections : List Byte := headerWith (2 ^ 40) 1

/-- A section, but no section headers: `m_shdr` is not set for the file. -/
def noSections : List Byte := headerWith 0 1

/-- Files that are not readable are not rejected: loading them divides by zero, and reads outside
the mapping or where no section headers are. -/
theorem malformed_not_rejected :
    openFile [("a.out".toList, zeroEntsize)] 1 0 (Symbol.init "a.out".toList 0) =
      .error .divisionByZero ∧
    openFile [("a.out".toList, farSections)] 1 0 (Symbol.init "a.out".toList 0) =
      .error .outOfBounds ∧
    openFile [("a.out".toList, noSections)] 1 0 (Symbol.init "a.out".toList 0) =
      .error .nullPointer ∧
    ¬ ∀ (fs : Files) (fuel : Nat),
      Avoids MemoryFault (openFile fs fuel 0) (Symbol.init "a.out".toList 0) := by
  have hzero : openFile [("a.out".toList, zeroEntsize)] 1 0 (Symbol.init "a.out".toList 0) =
      .error .divisionByZero := eq_error_of_faultOf (by decide +kernel)
  refine ⟨hzero, ?_, ?_, ?_⟩
  · exact eq_error_of_faultOf (by decide +kernel)
  · exact eq_error_of_faultOf (by decide +kernel)
  · exact fun h => h _ 1 _ hzero memoryFault_divisionByZero

end Zkz.Symbols
