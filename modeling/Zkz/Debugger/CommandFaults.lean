import Zkz.Debugger.Composition
import Zkz.Debugger.OneShot
import Zkz.Debugger.Stopped

/-!
# Commands that index out of range

What the handlers of `MainLoop` do without a check: `delete` and `info` read `commands[1]` of a
command that may be one word, `disable` dereferences the breakpoint that it looked up and converts
the answer to its question outside a `try` block, and `listsym` reads as many symbols as it is
told to.

* `CommandFaulty`: the commands that run into one of these.
* `mainTurn_avoids_iff`: a turn runs into a fault of its command exactly then.
* `session_safe_iff`: a session runs into no fault of a command exactly when no command read at
  one of its prompts is of these.
-/

namespace Zkz.Debugger

open Zkz.Lib BreakpointList

variable {σ : Type}

/-- The commands vector, `B_List` or `S_list` is indexed out of range, a breakpoint that was not
found is dereferenced, or an exception escapes. -/
def Fault.OfCommand : Fault → Prop
  | .outOfBounds => True
  | .missingBreakpoint => True
  | .uncaughtException => True
  | _ => False

/-- No fault of a command, from any state. -/
def Harmless {α : Type} (x : DbgM σ α) : Prop := ∀ d, Avoids Fault.OfCommand x d

section Harmless

variable {α β : Type} {K : Kernel σ} {env : Loaded σ} {li : BreakpointList} {n : Nat}
  {p : Prompt}

theorem harmless_run {x : DbgM σ α} {f : Main σ → α × Main σ} (h : ∀ d, x d = .ok (f d)) :
    Harmless x := fun d => avoids_ok (h d)

theorem harmless_pure (a : α) : Harmless (pure a : DbgM σ α) := harmless_run fun _ => rfl

theorem harmless_atPrompt (p : Prompt) : Harmless (atPrompt p : DbgM σ Turn) := harmless_pure _

theorem harmless_throw {e : Fault} (h : ¬ e.OfCommand) : Harmless (throw e : DbgM σ α) :=
  fun _ => avoids_error rfl h

theorem harmless_bind {x : DbgM σ α} {f : α → DbgM σ β} (hx : Harmless x)
    (hf : ∀ a, Harmless (f a)) : Harmless (x >>= f) :=
  fun d => avoids_bind (hx d) fun a d' => hf a d'

theorem harmless_waitForProcess (K : Kernel σ) : Harmless (waitForProcess K) := by
  intro d
  cases h : K.waitpid d.debug.pid d.kernel with
  | none => exact avoids_error (waitForProcess_never h) fun hf => hf
  | some ws =>
    obtain ⟨out, hrun⟩ := waitForProcess_run (K := K) (d := d) (w := ws.1) (s := ws.2) h
    exact avoids_ok hrun

theorem harmless_composes : Composes (σ := σ) fun _ x => Harmless x where
  pure := harmless_pure
  bind := harmless_bind
  get := harmless_run fun _ => rfl
  log _ _ _ := harmless_run fun _ => rfl

theorem harmless_rounds (K : Kernel σ) : ComposesRounds K fun _ x => Harmless x where
  toComposes := harmless_composes
  request _ := harmless_run fun _ => rfl
  setRegs _ := harmless_run fun _ => rfl
  wait := harmless_waitForProcess K
  noReturn := harmless_throw fun hf => hf

/-- Every prompt will do. -/
theorem harmless_handles :
    Handles (fun _ x => Harmless x) (Harmless : DbgM σ Turn → Prop) fun _ => True where
  toComposes := harmless_composes
  next := harmless_bind
  atPrompt _ := harmless_atPrompt _
  returned _ := harmless_pure _
  moved _ _ := trivial

theorem harmless_startProcess (K : Kernel σ) : Harmless (startProcess K) := by
  have h := harmless_rounds K
  apply h.bind h.get
  intro d
  apply h.ite _ (h.pure _)
  apply h.bind (h.request _)
  intro o
  cases o with
  | none => exact h.said _ _ _ _
  | some pid =>
    apply h.bind h.wait
    intro ret
    apply h.ite (h.pure _)
    apply h.ite _ (h.pure _)
    apply h.bind (harmless_run fun _ => rfl)
    intro _
    exact h.bind (harmless_run fun _ => rfl) fun _ => h.pure _

/-- The table of registers is overrun, which is no fault of the command. -/
theorem harmless_infoRegister (K : Kernel σ) (reg : String) :
    Harmless (infoRegister K reg) := by
  have h := harmless_rounds K
  apply h.readRegs
  intro r
  apply h.bind (h.setRegs _)
  intro _
  exact h.bind (h.printEach _ _ _) fun _ => harmless_throw fun hf => hf

theorem harmless_placeBreakpoint (K : Kernel σ) (li : BreakpointList) (a : Addr) :
    Harmless (placeBreakpoint K li a) :=
  have h := harmless_rounds K
  h.placeBreakpoint (fun _ => h.request _) (fun _ _ => h.request _) li a

theorem harmless_removeElement (K : Kernel σ) (li : BreakpointList) (k : Int) :
    Harmless (removeElement K li k) :=
  have h := harmless_rounds K
  h.removeElement (fun _ => h.request _) (fun _ _ => h.request _) li k

end Harmless

/-! ## Faults of commands -/

/-- `disable` is given a number that no breakpoint has, or an answer that is no number. -/
def DisableFaulty (commands : List Line) (p : Prompt) : Prop :=
  if commands.length < 2 then
    ∃ word rest, p.input = word :: rest ∧ word ≠ [] ∧
      ∀ v, stoi word = .ok v → getElementByBreakpointNumber p.li v = none
  else
    ∃ word ∈ commands.tail, ∃ v, stoi word = .ok v ∧ getElementByBreakpointNumber p.li v = none

/-- `listsym` is told to list more symbols than there are. -/
def ListsymFaulty (env : Loaded σ) (commands : List Line) (d : Main σ) : Prop :=
  d.debug.isRunning = true ∧ d.debug.symState = true ∧
    ∃ word v syms, commands[1]? = some word ∧ stoi word = .ok v ∧ env.syms = some syms ∧
      syms.length < v

/-- The commands that run into a fault of the command, with the lines of input after them. -/
def CommandFaulty (env : Loaded σ) (command : Line) (p : Prompt) (d : Main σ) : Prop :=
  (isOneOf ["delete", "del", "d"] (firstWord command) = true ∧ d.debug.isRunning = true ∧
      (tokenize command)[1]? = none) ∨
    (isOneOf ["info"] (firstWord command) = true ∧ (tokenize command)[1]? = none) ∨
    (isOneOf ["disable", "dis"] (firstWord command) = true ∧ DisableFaulty (tokenize command) p) ∨
    (isOneOf ["listsym"] (firstWord command) = true ∧ ListsymFaulty env (tokenize command) d)

section Faults

variable {K : Kernel σ} {env : Loaded σ} {li : BreakpointList} {n : Nat} {p : Prompt}
  {d : Main σ} {command : Line} {commands : List Line}

theorem not_avoids_error {α : Type} {x : DbgM σ α} {e : Fault} (h : x d = .error e)
    (he : e.OfCommand) : ¬ Avoids Fault.OfCommand x d := fun hx => hx e h he

/-- A handler that works only while the program runs. -/
theorem whenRunning_avoids_iff {msg : String} {x : DbgM σ Turn} :
    Avoids Fault.OfCommand (whenRunning msg p x) d ↔
      (d.debug.isRunning = true → Avoids Fault.OfCommand x d) := by
  unfold whenRunning
  rw [avoids_bind_ok (by rfl)]
  by_cases hrunning : d.debug.isRunning = true
  · rw [if_pos hrunning]
    exact ⟨fun h _ => h, fun h => h hrunning⟩
  · rw [if_neg hrunning]
    exact ⟨fun _ h => absurd h hrunning,
      fun _ => harmless_handles.saidAtPrompt trivial _ _ _ d⟩

/-- `commands[1].empty()` needs a second word. -/
theorem emptyArgument_avoids_iff {f : Bool → DbgM σ Turn} (hf : ∀ b, Harmless (f b)) :
    Avoids Fault.OfCommand (emptyArgument commands >>= f) d ↔ commands[1]? ≠ none := by
  unfold emptyArgument
  cases hword : commands[1]? with
  | none =>
    refine ⟨fun h => absurd h (not_avoids_error ?_ (e := .outOfBounds) trivial), fun h => absurd rfl h⟩
    rw [run_bind]
    rfl
  | some word =>
    simp only [ne_eq, reduceCtorEq, not_false_eq_true, iff_true]
    exact harmless_bind (harmless_pure _) hf d

theorem handleDelete_avoids_iff : Avoids Fault.OfCommand (handleDelete K commands p) d ↔
    ¬ (d.debug.isRunning = true ∧ commands[1]? = none) := by
  unfold handleDelete
  rw [whenRunning_avoids_iff, emptyArgument_avoids_iff, not_and]
  exact harmless_handles.deleteAfter (harmless_removeElement K) commands trivial

theorem handleInfo_avoids_iff : Avoids Fault.OfCommand (handleInfo K commands p) d ↔
    commands[1]? ≠ none := by
  unfold handleInfo
  rw [emptyArgument_avoids_iff]
  exact harmless_handles.infoAfter (harmless_infoRegister K) commands trivial

/-- `DisableBreakpoint` dereferences what it finds. -/
theorem disableBreakpoint_avoids_iff (v : Int) :
    Avoids Fault.OfCommand (disableBreakpoint li v) d ↔ getElementByBreakpointNumber li v ≠ none := by
  unfold disableBreakpoint
  cases getElementByBreakpointNumber li v with
  | none =>
    refine ⟨fun h => absurd h (not_avoids_error ?_ (e := .missingBreakpoint) trivial),
      fun h => absurd rfl h⟩
    simp only
    split
    · rfl
    · rfl
  | some i =>
    simp only [ne_eq, reduceCtorEq, not_false_eq_true, iff_true]
    exact harmless_composes.said _ _ _ _ d

theorem logSto_run (msgs : StoMessages) (e : StoError) (d : Main σ) :
    ∃ d', logSto msgs e d = .ok ((), d') := by
  cases e with
  | outOfRange => exact ⟨_, rfl⟩
  | invalidArgument => exact ⟨_, rfl⟩

/-- Disabling changes no number, so each word is looked up as in the list at the start. -/
theorem disableWords_avoids_iff (words : List Line) (li : BreakpointList) (d : Main σ) :
    Avoids Fault.OfCommand (disableWords words li) d ↔
      ∀ word ∈ words, ∀ v, stoi word = .ok v → getElementByBreakpointNumber li v ≠ none := by
  induction words generalizing li d with
  | nil =>
    simp only [List.not_mem_nil, false_implies, implies_true, iff_true]
    exact harmless_pure li d
  | cons word words ih =>
    rw [List.forall_mem_cons]
    unfold disableWords
    cases hword : stoi word with
    | error e =>
      obtain ⟨d', hrun⟩ := logSto_run ⟨"Invalid range\n", "Invalid address or line number\n", []⟩ e d
      simp only
      rw [avoids_bind_ok hrun, ih]
      simp only [reduceCtorEq, false_implies, implies_true, true_and]
    | ok v =>
      simp only [Except.ok.injEq, forall_eq']
      cases hfound : getElementByBreakpointNumber li v with
      | none =>
        simp only [ne_eq, not_true_eq_false, false_and, iff_false]
        intro h
        exact (disableBreakpoint_avoids_iff v).mp (avoids_of_bind h) hfound
      | some i =>
        obtain ⟨d', hrun⟩ : ∃ d', disableBreakpoint li v d = .ok ((0, disableAt li i), d') := by
          unfold disableBreakpoint
          rw [hfound]
          exact ⟨_, rfl⟩
        rw [avoids_bind_ok hrun, ih]
        simp only [getElementByBreakpointNumber_disableAt, ne_eq, reduceCtorEq, not_false_eq_true,
          true_and]

theorem avoids_bind_harmless_iff {α β : Type} {x : DbgM σ α} {f : α → DbgM σ β}
    (hf : ∀ a, Harmless (f a)) :
    Avoids Fault.OfCommand (x >>= f) d ↔ Avoids Fault.OfCommand x d :=
  ⟨avoids_of_bind, fun h => avoids_bind h fun a d' => hf a d'⟩

theorem handleDisable_avoids_iff : Avoids Fault.OfCommand (handleDisable commands p) d ↔
    ¬ DisableFaulty commands p := by
  unfold handleDisable DisableFaulty
  by_cases hlen : commands.length < 2
  · rw [if_pos hlen, if_pos hlen]
    unfold ask
    rw [avoids_bind_ok (by rfl)]
    cases hinput : p.input with
    | nil =>
      simp only [reduceCtorEq, false_and, exists_const, not_false_eq_true, iff_true]
      exact harmless_composes.said _ _ _ _ _
    | cons word rest =>
      by_cases hempty : word = []
      · subst hempty
        simp only [if_true]
        refine iff_of_true (harmless_composes.said _ _ _ _ _) ?_
        rintro ⟨word, rest', hcons, hne, -⟩
        cases hcons
        exact hne rfl
      · simp only [if_neg hempty]
        have hanswer : (∃ word' rest', word :: rest = word' :: rest' ∧ word' ≠ [] ∧
            ∀ v, stoi word' = .ok v → getElementByBreakpointNumber p.li v = none) ↔
            ∀ v, stoi word = .ok v → getElementByBreakpointNumber p.li v = none := by
          constructor
          · rintro ⟨word', rest', hcons, -, hnone⟩
            cases hcons
            exact hnone
          · exact fun hnone => ⟨word, rest, rfl, hempty, hnone⟩
        rw [hanswer]
        cases hword : stoi word with
        | error e =>
          refine iff_of_false (not_avoids_error rfl (e := .uncaughtException) trivial) ?_
          simp
        | ok v =>
          simp only [Except.ok.injEq, forall_eq']
          rw [avoids_bind_harmless_iff fun _ => harmless_atPrompt _,
            disableBreakpoint_avoids_iff]
  · rw [if_neg hlen, if_neg hlen, avoids_bind_harmless_iff fun _ => harmless_atPrompt _,
      disableWords_avoids_iff]
    simp only [ne_eq, not_exists, not_and]

/-- `ListSyms` reads as many symbols as it is told to. -/
theorem listSyms_avoids_iff (syms : List Syminfo) (prange : Int) (d : Main σ) :
    Avoids Fault.OfCommand (listSyms syms prange) d ↔ ¬ syms.length < prange := by
  unfold listSyms
  rw [avoids_bind_ok (by rfl)]
  by_cases hall : prange = -1
  · rw [if_pos hall]
    exact iff_of_true (harmless_composes.printEach _ _ _ _) (by omega)
  · obtain ⟨d', hrun⟩ := printEach_run "%x\t\t%s\n"
      (fun x : Syminfo => [.hex x.address, .str x.symbol]) (syms.take prange.toNat)
      { d with out := d.out ++ [⟨.print, "address\t\tsymbol", []⟩] }
    rw [if_neg hall, avoids_bind_ok hrun]
    by_cases hmore : prange > syms.length
    · rw [if_pos hmore]
      exact iff_of_false (not_avoids_error rfl (e := .outOfBounds) trivial) (not_not.mpr hmore)
    · rw [if_neg hmore]
      exact iff_of_true (harmless_pure _ _) hmore

/-- A null pointer to the symbols is no fault of the command. -/
theorem listSymsOf_avoids_iff (prange : Int) (d : Main σ) :
    Avoids Fault.OfCommand (listSymsOf env prange) d ↔
      ∀ syms, env.syms = some syms → ¬ syms.length < prange := by
  unfold listSymsOf
  cases hsyms : env.syms with
  | none =>
    refine iff_of_true (avoids_error rfl fun hf => hf) ?_
    intro syms h
    cases h
  | some syms =>
    simp only [Option.some.injEq, forall_eq']
    exact listSyms_avoids_iff syms prange d

theorem handleListsym_avoids_iff : Avoids Fault.OfCommand (handleListsym env commands p) d ↔
    ¬ ListsymFaulty env commands d := by
  unfold handleListsym ListsymFaulty
  rw [avoids_bind_ok (by rfl), avoids_bind_ok (by rfl)]
  by_cases hstate : d.debug.isRunning = true ∧ d.debug.symState = true
  · simp only [hstate, true_and, and_self, if_true]
    cases hword : commands[1]? with
    | none =>
      simp only [reduceCtorEq, false_and, exists_const, not_false_eq_true, iff_true]
      rw [avoids_bind_harmless_iff fun _ => harmless_atPrompt _, listSymsOf_avoids_iff]
      intro syms _
      omega
    | some word =>
      simp only [Option.some.injEq]
      by_cases hempty : word = []
      · rw [if_pos hempty]
        refine iff_of_true (harmless_atPrompt p d) ?_
        rintro ⟨word', v, syms, rfl, hv, -⟩
        rw [hempty] at hv
        cases hv
      · rw [if_neg hempty]
        cases hv : stoi word with
        | error e =>
          refine iff_of_true (harmless_handles.rejected _ _ trivial d) ?_
          rintro ⟨word', v, syms, rfl, hv', -⟩
          rw [hv] at hv'
          cases hv'
        | ok v =>
          rw [avoids_bind_harmless_iff fun _ => harmless_atPrompt _, listSymsOf_avoids_iff]
          constructor
          · rintro h ⟨word', v', syms, rfl, hv', hsyms, hlt⟩
            rw [hv] at hv'
            cases hv'
            exact h syms hsyms hlt
          · exact fun h syms hsyms hlt => h ⟨word, v, syms, rfl, hv, hsyms, hlt⟩
  · rw [if_neg hstate]
    refine iff_of_true (harmless_atPrompt p d) ?_
    exact fun h => hstate ⟨h.1, h.2.1⟩

/-! ## Turns -/

theorem handle_delete (h : isOneOf ["delete", "del", "d"] (firstWord command) = true) :
    handle K env n command p = handleDelete K (tokenize command) p := by
  obtain ⟨hrun, hinfo, hprintb⟩ := none_whole (P := fun _ => True) trivial h (by decide)
  unfold handle
  rw [hrun, hinfo, hprintb]
  have hmem := mem_of_isOneOf h
  simp only [List.map_cons, List.map_nil, List.mem_cons, List.not_mem_nil, or_false] at hmem
  rcases hmem with hfirst | hfirst | hfirst
  · simp only [hfirst]
    rfl
  · simp only [hfirst]
    rfl
  · simp only [hfirst]
    rfl

theorem handle_disable (h : isOneOf ["disable", "dis"] (firstWord command) = true) :
    handle K env n command p = handleDisable (tokenize command) p := by
  obtain ⟨hrun, hinfo, hprintb⟩ := none_whole (P := fun _ => True) trivial h (by decide)
  unfold handle
  rw [hrun, hinfo, hprintb]
  have hmem := mem_of_isOneOf h
  simp only [List.map_cons, List.map_nil, List.mem_cons, List.not_mem_nil, or_false] at hmem
  rcases hmem with hfirst | hfirst
  · simp only [hfirst]
    rfl
  · simp only [hfirst]
    rfl

theorem handle_info (h : isOneOf ["info"] (firstWord command) = true)
    (hword : (tokenize command)[1]? = none) :
    handle K env n command p = handleInfo K (tokenize command) p := by
  obtain ⟨hrun, hinfo, hprintb⟩ :=
    none_whole (P := fun c => (tokenize c)[1]? = none) hword h (by decide)
  unfold handle
  rw [hrun, hinfo, hprintb]
  have hfirst := List.mem_singleton.mp (mem_of_isOneOf h)
  simp only [hfirst]
  rfl

theorem handle_listsym (h : isOneOf ["listsym"] (firstWord command) = true) :
    handle K env n command p = handleListsym env (tokenize command) p := by
  obtain ⟨hrun, -, -⟩ := none_whole (P := fun _ => True) trivial h (by decide)
  unfold handle
  rw [hrun]
  have hfirst := List.mem_singleton.mp (mem_of_isOneOf h)
  simp only [hfirst]
  rfl

/-- A command runs into a fault exactly when it is one of the four. -/
theorem handle_avoids_iff : Avoids Fault.OfCommand (handle K env n command p) d ↔
    ¬ CommandFaulty env command p d := by
  constructor
  · intro h hfaulty
    rcases hfaulty with ⟨hfirst, hrunning, hword⟩ | ⟨hfirst, hword⟩ | ⟨hfirst, hdis⟩ |
      ⟨hfirst, hlist⟩
    · rw [handle_delete hfirst] at h
      exact handleDelete_avoids_iff.mp h ⟨hrunning, hword⟩
    · rw [handle_info hfirst hword] at h
      exact handleInfo_avoids_iff.mp h hword
    · rw [handle_disable hfirst] at h
      exact handleDisable_avoids_iff.mp h hdis
    · rw [handle_listsym hfirst] at h
      exact handleListsym_avoids_iff.mp h hlist
  · intro hok
    unfold CommandFaulty at hok
    simp only [not_or, not_and] at hok
    obtain ⟨hdelete, hinfo, hdisable, hlistsym⟩ := hok
    have hr := harmless_rounds K
    have h := harmless_handles (σ := σ)
    apply avoids_ite (fun _ => h.handleRun (hr.continueExecution (fun _ => harmless_run fun _ => rfl) n)
      (harmless_startProcess K) trivial d)
    intro _
    apply avoids_ite (fun _ => h.handleList _ trivial d)
    intro _
    apply avoids_ite (fun h => handleListsym_avoids_iff.mpr (hlistsym h))
    intro _
    apply avoids_ite (fun _ => h.handleSelect (fun _ => trivial) _ d)
    intro _
    apply avoids_ite (fun _ => h.handleBreakl (harmless_placeBreakpoint K) _ trivial d)
    intro _
    apply avoids_ite (fun _ => h.handleBreak (harmless_placeBreakpoint K) _ trivial d)
    intro _
    apply avoids_ite (fun _ => h.handleInfoRegisters hr.infoRegistersAll trivial d)
    intro _
    apply avoids_ite (fun _ => h.handlePrintb trivial d)
    intro _
    apply avoids_ite (fun h => handleDelete_avoids_iff.mpr fun hf => hdelete h hf.1 hf.2)
    intro _
    apply avoids_ite (fun hset =>
      h.handleSet (h.setTo hr.setRegister) (List.mem_singleton.mp (mem_of_isOneOf hset)) trivial d)
    intro _
    apply avoids_ite (fun h => handleDisable_avoids_iff.mpr (hdisable h))
    intro _
    apply avoids_ite (fun h => handleInfo_avoids_iff.mpr (hinfo h))
    intro _
    apply avoids_ite (fun _ => h.handleAuto (hr.stepAuto · n) trivial d)
    intro _
    apply avoids_ite (fun _ => h.handleStep (fun k => hr.stepXLoop 0 k.toNat) _ trivial d)
    intro _
    apply avoids_ite (fun _ => h.handleExit (harmless_run fun _ => rfl) trivial d)
    intro _
    exact avoids_ite (fun _ => h.handleHelp trivial d) fun _ => harmless_pure _ d

/-- The next line is a command that runs into a fault. -/
def TurnFaulty (env : Loaded σ) (p : Prompt) (d : Main σ) : Prop :=
  ∃ command rest, p.input = command :: rest ∧ command ≠ [] ∧
    CommandFaulty env command { p with input := rest } d

theorem mainTurn_avoids_iff : Avoids Fault.OfCommand (mainTurn K env n p) d ↔
    ¬ TurnFaulty env p d := by
  unfold mainTurn TurnFaulty
  rw [avoids_bind_ok (by rfl)]
  cases hinput : p.input with
  | nil =>
    refine iff_of_true (harmless_composes.said _ _ _ _ _) ?_
    rintro ⟨command, rest, hcons, -⟩
    cases hcons
  | cons command rest =>
    simp only
    by_cases hempty : command = []
    · rw [if_pos hempty]
      refine iff_of_true (harmless_pure _ _) ?_
      rintro ⟨command', rest', hcons, hne, -⟩
      cases hcons
      exact hne hempty
    · rw [if_neg hempty, handle_avoids_iff, not_iff_not]
      constructor
      · exact fun h => ⟨command, rest, rfl, hempty, h⟩
      · rintro ⟨command', rest', hcons, -, h⟩
        cases hcons
        exact h

/-! ## Sessions -/

/-- The next command has a first word to compare, and it runs into no fault. -/
structure SafeTurn (K : Kernel σ) (env : Loaded σ) (n : Nat) (p : Prompt) (d : Main σ) : Prop where
  word : ∀ command rest, p.input = command :: rest → command ≠ [] → tokenize command ≠ []
  avoids : Avoids Fault.OfCommand (mainTurn K env n p) d

/-- **A session runs into no fault of a command** exactly when no command read at one of its
prompts is of those that do. -/
theorem session_safe_iff (K : Kernel σ) (env : Loaded σ) (n : Nat) (input : List Line)
    (d₀ : Main σ) :
    (∀ k p d, AtPrompt K env n input d₀ k p d → SafeTurn K env n p d) ↔
      ∀ k p d, AtPrompt K env n input d₀ k p d → ¬ TurnFaulty env p d := by
  constructor
  · exact fun h k p d hp => mainTurn_avoids_iff.mp (h k p d hp).avoids
  · intro h k p d hp
    exact ⟨fun _ _ _ hne => tokenize_ne_nil hne, mainTurn_avoids_iff.mpr (h k p d hp)⟩

/-- `disable` of a number that no breakpoint has. -/
theorem disable_unknown_number :
    ∃ p d, AtPrompt stoppedKernel (nothingLoaded _) 0 ["disable 1".toList] (Main.init fun _ => 0)
        0 p d ∧
      mainTurn stoppedKernel (nothingLoaded _) 0 p d = .error .missingBreakpoint ∧
      ¬ SafeTurn stoppedKernel (nothingLoaded _) 0 p d := by
  have hturn : mainTurn stoppedKernel (nothingLoaded _) 0 ⟨[], 0, ["disable 1".toList]⟩
      (Main.init fun _ => 0) = .error .missingBreakpoint := rfl
  exact ⟨_, _, rfl, hturn, fun h => h.avoids _ hturn trivial⟩

end Faults

end Zkz.Debugger
