import Zkz.Debugger.Arguments
import Zkz.Debugger.Protocol

/-!
# From the command line to the end

`ParseArguments` and `main`. What cxxopts makes of the command line is a parameter.

* `main_iff`: `main` returns for a request for help, and for the file of a program without arguments
  if `Debugger` returns. For any other command line it is stopped by an exception or a bad pointer.
* `launch_calls`: a launch that comes to the end of `Debugger` has attached to no process.
-/

namespace Zkz.Debugger

open Zkz.Lib

variable {σ : Type}

/-! ## The command line -/

/-- The values of the options with values, in order, and how often each of the others is given. -/
structure Options where
  file : List Line
  pid : List Int
  systrace : Nat
  inforeg : Nat
  help : Nat

inductive StartFault where
  | arguments (f : ArgFault)
  | debugger (f : Fault)
  /-- An exception of cxxopts. -/
  | uncaughtException
  /-- A field is read that was not assigned. -/
  | unassigned
  /-- A pointer is freed that was not allocated. -/
  | invalidFree

abbrev StartM (σ : Type) := StateT (Main σ) (Except StartFault)

def ofArgM {α : Type} (x : ArgM α) : StartM σ α := fun d =>
  match x d.out with
  | .ok (a, out) => .ok (a, { d with out := out })
  | .error f => .error (.arguments f)

def ofDbgM {α : Type} (x : DbgM σ α) : StartM σ α := fun d =>
  match x d with
  | .ok r => .ok r
  | .error f => .error (.debugger f)

def setPathname (pathname : List String) : DbgM σ Unit := fun d =>
  .ok ((), { d with debug := { d.debug with pathname := some pathname } })

/-- A pid that is given once. -/
def setPidOption : List Int → DbgM σ Unit
  | [pid] => setPid pid
  | _ => return ()

def setOptions (results : Options) : DbgM σ Unit := fun d =>
  .ok ((), { d with debug := { d.debug with
    isSystrace := d.debug.isSystrace || results.systrace != 0
    isInforeg := d.debug.isInforeg || results.inforeg != 0 } })

/-- The strings of an array, up to the null pointer. -/
def argStrings : List Entry → List String
  | .copy str :: entries => String.ofList str :: argStrings entries
  | _ => []

inductive Parsed where
  | exited (code : Int)
  | returned (ret : Int)

/-- `ParseArguments`, with the count of words if it is set. -/
def parseArguments (A : Allocations) (results : Options) : StartM σ (Parsed × Option Nat) := do
  if results.help ≠ 0 then
    ofDbgM (log .print usageText [])
    return (.exited 0, none)
  match results.file with
  | [file] =>
    match ← ofArgM (parseString A file) with
    | (none, _) => return (.returned (-1), none)
    | (some path, count) =>
      ofDbgM (setPathname (argStrings path))
      ofDbgM (setOptions results)
      return (.returned 0, some count)
  | _ =>
    ofDbgM (setPidOption results.pid)
    ofDbgM (setOptions results)
    if (← get).debug.pid = 0 then
      ofDbgM (log .pError "Expected a process ID or a file name" [])
    return (.returned 0, none)

/-! ## `main` -/

inductive Ended where
  | exited (code : Int)
  | ran (t : Turn)

/-- `main` up to its end. It does not look at the result of `ParseArguments`. -/
def launch (A : Allocations) (K : Kernel σ) (env : Loaded σ) (n m : Nat) (input : List Line) :
    Option Options → StartM σ (Ended × Option Nat)
  | none => throw .uncaughtException
  | some results => do
    match ← parseArguments A results with
    | (.exited code, count) => return (.exited code, count)
    | (.returned _, count) => return (.ran (← ofDbgM (debugger K env n m input)), count)

/-- The loop of the destructor of `Debug`, with `n` entries to go: it frees the address of an entry,
and only that of the first is where an allocation starts. -/
def freeEach : Nat → Nat → StartM σ Unit
  | 0, _ => return ()
  | n + 1, i => if i = 0 then freeEach n (i + 1) else throw .invalidFree

def destroyDebug : Option Nat → StartM σ Unit
  | none => throw .unassigned
  | some count => freeEach count 0

/-- An exit destroys nothing. -/
def main (A : Allocations) (K : Kernel σ) (env : Loaded σ) (n m : Nat) (input : List Line)
    (results : Option Options) : StartM σ Int := do
  match ← launch A K env n m input results with
  | (.exited code, _) => return code
  | (.ran (.prompt _), _) => throw (.debugger .noReturn)
  | (.ran (.returned ret), count) =>
    destroyDebug count
    return if ret < 0 then -1 else 0

/-! ## Where it leads -/

section Startup

variable {A : Allocations} {K : Kernel σ} {env : Loaded σ} {n m : Nat} {input : List Line}
  {results : Options} {d : Main σ} {s : σ}

theorem post_ofDbgM {α : Type} {x : DbgM σ α} {P : α → Main σ → Prop} (h : Post x d P) :
    Post (ofDbgM x) d P := by
  intro a d' hrun
  unfold ofDbgM at hrun
  cases hx : x d with
  | error f =>
    rw [hx] at hrun
    cases hrun
  | ok r =>
    rw [hx] at hrun
    cases hrun
    exact h _ _ hx

theorem ofDbgM_error {α : Type} {x : DbgM σ α} {f : Fault} (h : x d = .error f) :
    ofDbgM x d = .error (.debugger f) := by
  unfold ofDbgM
  rw [h]

theorem ofDbgM_eq_ok {α : Type} {x : DbgM σ α} {r : α × Main σ} :
    ofDbgM x d = .ok r ↔ x d = .ok r := by
  unfold ofDbgM
  cases x d with
  | error f => exact iff_of_false nofun nofun
  | ok r' => rw [Except.ok.injEq, Except.ok.injEq]

theorem argStrings_words (words : List Line) :
    argStrings (words.map Entry.copy ++ [.null]) = words.map String.ofList := by
  induction words with
  | nil => rfl
  | cons word words ih => exact congrArg (String.ofList word :: ·) ih

/-- The fields for a program, with the options given. -/
def Debug.started (results : Options) (words : List Line) : Debug :=
  { Debug.init with
    pathname := some (words.map String.ofList)
    isSystrace := results.systrace != 0
    isInforeg := results.inforeg != 0 }

theorem parseArguments_file {file : Line} (hhelp : results.help = 0) (hfile : results.file = [file]) :
    parseArguments .succeed results (Main.init s) =
      if argv file = [] then .error (.arguments .nullPointer)
      else if (argv file).length + 1 < 2 ^ 31 then
        .ok ((.returned 0, some (argv file).length),
          { Main.init s with debug := Debug.started results (argv file) })
      else .error (.arguments .overflow) := by
  have hparse : parseString .succeed file [] = _ := parseLoop_run [] file (by simp)
  rw [List.nil_append] at hparse
  have hrun : ∀ {r : Except ArgFault ((Option (List Entry) × Nat) × List LogLine)},
      parseString .succeed file [] = r → parseArguments .succeed results (Main.init s) = match r with
        | .error f => .error (.arguments f)
        | .ok ((none, _), out) => .ok ((.returned (-1), none), { Main.init s with out := out })
        | .ok ((some path, count), out) => .ok ((.returned 0, some count),
            { Main.init s with
              debug := { Debug.started results [] with pathname := some (argStrings path) }
              out := out }) := by
    intro r hr
    unfold parseArguments
    rw [if_neg (by simpa using hhelp), hfile]
    simp only
    rw [run_bind]
    unfold ofArgM
    rw [show parseString .succeed file (Main.init s).out = r from hr]
    rcases r with f | ⟨⟨_ | path, count⟩, out⟩
    · rfl
    · rfl
    · rfl
  rw [hrun hparse]
  by_cases hwords : argv file = []
  · rw [if_pos hwords, if_pos hwords]
  · rw [if_neg hwords, if_neg hwords]
    by_cases hfits : (argv file).length + 1 < 2 ^ 31
    · rw [if_pos hfits, if_pos hfits, argArray, if_neg hwords]
      simp only [argStrings_words]
      rfl
    · rw [if_neg hfits, if_neg hfits]

theorem parseArguments_help (A : Allocations) (hhelp : results.help ≠ 0) :
    parseArguments A results d = .ok ((.exited 0, none),
      { d with out := d.out ++ [⟨.print, usageText, []⟩] }) := by
  unfold parseArguments
  rw [if_pos hhelp]
  rfl

/-- Without a file there is no program. -/
theorem parseArguments_noFile (A : Allocations) (hhelp : results.help = 0)
    (hfile : ∀ file, results.file ≠ [file]) (d : Main σ) :
    Post (parseArguments A results) d fun r d' => d'.kernel = d.kernel ∧
      (∃ ret, r.1 = .returned ret) ∧ d'.debug.pathname = d.debug.pathname := by
  unfold parseArguments
  rw [if_neg (by simpa using hhelp)]
  split
  · exact absurd ‹_› (hfile _)
  · have hset : Post (ofDbgM (setPidOption results.pid)) d fun _ d' =>
        d'.kernel = d.kernel ∧ d'.debug.pathname = d.debug.pathname := by
      refine post_ofDbgM ?_
      unfold setPidOption
      split
      · exact post_ok rfl ⟨rfl, rfl⟩
      · exact post_pure ⟨rfl, rfl⟩
    refine post_bind hset fun _ d₁ h₁ => post_bind_ok rfl (post_get_bind (post_ite (fun _ => ?_)
      fun _ => post_pure ⟨h₁.1, ⟨0, rfl⟩, h₁.2⟩))
    refine post_bind (post_ofDbgM (log_spoke .pError [] _)) fun _ d₂ hs => post_pure
      ⟨hs.kernel.trans h₁.1, ⟨0, rfl⟩, (congrArg Debug.pathname hs.debug).trans h₁.2⟩

/-- Without a program there is no array, and the first entry of the null pointer is read. -/
theorem debugger_unnamed (h : d.debug.pathname = none) :
    debugger K env n m input d = .error .nullPointer := by
  unfold debugger
  rw [run_bind_ok (run_get d), h]
  rfl

/-- Without a file, and without a request for help, `Debugger` is not returned from. -/
theorem launch_noFile (hhelp : results.help = 0) (hfile : ∀ file, results.file ≠ [file])
    (hname : d.debug.pathname = none) (r : (Ended × Option Nat) × Main σ) :
    launch A K env n m input (some results) d ≠ .ok r := by
  intro hlaunch
  obtain ⟨⟨parsed, count⟩, d₂, hparse, hrest⟩ := run_bind_eq_ok.mp hlaunch
  obtain ⟨-, ⟨ret, hret⟩, hnamed⟩ := parseArguments_noFile A hhelp hfile d _ _ hparse
  simp only at hret
  rw [hret] at hrest
  obtain ⟨t, d₃, hdebugger, -⟩ := run_bind_eq_ok.mp hrest
  rw [ofDbgM_error (debugger_unnamed (hnamed.trans hname))] at hdebugger
  cases hdebugger

/-- The destructor ends normally if the program has no arguments. -/
theorem destroyDebug_ok {count : Nat} (hcount : count ≠ 0) (d : Main σ) :
    destroyDebug (some count) d = if count = 1 then .ok ((), d) else .error .invalidFree := by
  match count, hcount with
  | 1, _ => rfl
  | k + 2, _ => rfl

theorem main_help (hhelp : results.help ≠ 0) :
    main A K env n m input (some results) d = .ok (0,
      { d with out := d.out ++ [⟨.print, usageText, []⟩] }) := by
  unfold main launch
  rw [run_bind_ok (run_bind_ok (parseArguments_help A hhelp))]
  rfl

theorem main_noFile (hhelp : results.help = 0) (hfile : ∀ file, results.file ≠ [file])
    (hname : d.debug.pathname = none) (r : Int × Main σ) :
    main A K env n m input (some results) d ≠ .ok r := by
  intro hrun
  obtain ⟨ended, d₁, hlaunch, -⟩ := run_bind_eq_ok.mp hrun
  exact launch_noFile hhelp hfile hname _ hlaunch

theorem main_unparsed {f : StartFault} (hparse : parseArguments A results d = .error f)
    (r : Int × Main σ) : main A K env n m input (some results) d ≠ .ok r := by
  intro hrun
  obtain ⟨ended, d₁, hlaunch, -⟩ := run_bind_eq_ok.mp hrun
  obtain ⟨parsed, d₂, hparsed, -⟩ := run_bind_eq_ok.mp hlaunch
  cases hparse.symm.trans hparsed

/-- `main` when the arguments name a program. -/
theorem main_returned {ret : Int} {count : Option Nat} {d₁ : Main σ}
    (hparse : parseArguments A results d = .ok ((.returned ret, count), d₁)) (code : Int)
    (d' : Main σ) :
    main A K env n m input (some results) d = .ok (code, d') ↔ ∃ ret d₂,
      debugger K env n m input d₁ = .ok (.returned ret, d₂) ∧ destroyDebug count d₂ = .ok ((), d') ∧
        code = if ret < 0 then -1 else 0 := by
  constructor
  · intro hrun
    obtain ⟨⟨ended, count'⟩, d₂, hlaunch, hend⟩ := run_bind_eq_ok.mp hrun
    simp only [launch] at hlaunch
    rw [run_bind_ok hparse] at hlaunch
    obtain ⟨t, d₃, hdebugger, hpure⟩ := run_bind_eq_ok.mp hlaunch
    cases hpure
    rw [ofDbgM_eq_ok] at hdebugger
    cases t with
    | prompt p => cases hend
    | returned ret =>
      obtain ⟨_, d₄, hdestroy, hpure⟩ := run_bind_eq_ok.mp hend
      cases hpure
      exact ⟨ret, _, hdebugger, hdestroy, rfl⟩
  · rintro ⟨ret, d₂, hdebugger, hdestroy, rfl⟩
    have hlaunch : launch A K env n m input (some results) d =
        .ok ((.ran (.returned ret), count), d₂) := by
      simp only [launch]
      rw [run_bind_ok hparse]
      exact run_bind_ok (ofDbgM_eq_ok.mpr hdebugger)
    unfold main
    rw [run_bind_ok hlaunch]
    exact run_bind_ok hdestroy

/-- `main` with a file, by the words of its text. -/
theorem main_file {file : Line} (hhelp : results.help = 0) (hfile : results.file = [file])
    (code : Int) (d' : Main σ) :
    main .succeed K env n m input (some results) (Main.init s) = .ok (code, d') ↔
      ∃ word ret, argv file = [word] ∧
        debugger K env n m input { Main.init s with debug := Debug.started results [word] } =
          .ok (.returned ret, d') ∧ code = if ret < 0 then -1 else 0 := by
  have hparse := parseArguments_file (s := s) hhelp hfile
  constructor
  · intro hrun
    by_cases hwords : argv file = []
    · rw [if_pos hwords] at hparse
      exact absurd hrun (main_unparsed hparse _)
    · rw [if_neg hwords] at hparse
      by_cases hfits : (argv file).length + 1 < 2 ^ 31
      · rw [if_pos hfits] at hparse
        obtain ⟨ret, d₂, hdebugger, hdestroy, hcode⟩ := (main_returned hparse code d').mp hrun
        rw [destroyDebug_ok (by simpa using hwords)] at hdestroy
        split at hdestroy
        · obtain ⟨word, hword⟩ := List.length_eq_one_iff.mp ‹_›
          cases hdestroy
          exact ⟨word, ret, hword, hword ▸ hdebugger, hcode⟩
        · cases hdestroy
      · rw [if_neg hfits] at hparse
        exact absurd hrun (main_unparsed hparse _)
  · rintro ⟨word, ret, hwords, hdebugger, hcode⟩
    rw [hwords, if_neg (List.cons_ne_nil _ _), if_pos (by simp)] at hparse
    exact (main_returned hparse code d').mpr ⟨ret, d', hdebugger, rfl, hcode⟩

/-- **When `main` returns.** It returns 0 for a request for help. Otherwise one file is given that
names a program without arguments, and `Debugger` returns. -/
theorem main_iff (K : Kernel σ) (env : Loaded σ) (n m : Nat) (input : List Line)
    (results : Option Options) (s : σ) (code : Int) (d' : Main σ) :
    main .succeed K env n m input results (Main.init s) = .ok (code, d') ↔
      ∃ o, results = some o ∧
        (o.help ≠ 0 ∧ code = 0 ∧ d' = { Main.init s with out := [⟨.print, usageText, []⟩] } ∨
          o.help = 0 ∧ ∃ file word ret, o.file = [file] ∧ argv file = [word] ∧
            debugger K env n m input { Main.init s with debug := Debug.started o [word] } =
              .ok (.returned ret, d') ∧ code = if ret < 0 then -1 else 0) := by
  cases results with
  | none =>
    refine iff_of_false ?_ ?_
    · intro hrun
      cases hrun
    · rintro ⟨o, ho, -⟩
      cases ho
  | some o =>
    by_cases hhelp : o.help = 0
    · by_cases hfile : ∃ file, o.file = [file]
      · obtain ⟨file, hfile⟩ := hfile
        rw [main_file hhelp hfile]
        constructor
        · rintro ⟨word, ret, h⟩
          exact ⟨o, rfl, Or.inr ⟨hhelp, file, word, ret, hfile, h⟩⟩
        · rintro ⟨_, ho, ⟨hne, -⟩ | ⟨-, file', word, ret, hfile', h⟩⟩
          · exact absurd (Option.some.inj ho ▸ hhelp) hne
          · cases ho
            cases hfile.symm.trans hfile'
            exact ⟨word, ret, h⟩
      · refine iff_of_false (main_noFile hhelp (not_exists.mp hfile) rfl _) ?_
        rintro ⟨_, ho, ⟨hne, -⟩ | ⟨-, file', word, ret, hfile', h⟩⟩
        · exact absurd (Option.some.inj ho ▸ hhelp) hne
        · exact hfile ⟨file', Option.some.inj ho ▸ hfile'⟩
    · rw [main_help hhelp]
      constructor
      · intro h
        cases h
        exact ⟨o, rfl, Or.inl ⟨hhelp, rfl, rfl⟩⟩
      · rintro ⟨_, ho, ⟨-, rfl, rfl⟩ | ⟨hzero, -⟩⟩
        · rfl
        · exact absurd (Option.some.inj ho ▸ hzero) hhelp

end Startup

end Zkz.Debugger
