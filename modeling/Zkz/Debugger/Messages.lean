import Zkz.Debugger.RegisterDump
import Zkz.Debugger.Plans
import Zkz.Debugger.Select

/-!
# The formats of the messages

`Log` takes from the arguments of a call what the directives of its format ask for, and checks
neither their number nor their types. The calls of the debugger supply their formats, whatever it is
told and whatever the kernel answers, with one exception: an answer to `select` that is no number is
reported with a text where the format asks for an `int`.

* `Speaks`: every line that a computation adds is supplied, or is an exception.
* `handle_speaks`: so does every command, and the exception needs its line of the input.
* `debugger_messages`: so does a whole run.
-/

namespace Zkz.Debugger

open Zkz.Lib BreakpointList

variable {σ : Type}

/-! ## Supplied lines -/

/-- The directive that takes an argument. -/
def LogArg.directive : LogArg → Char
  | .int _ => 'd'
  | .str _ => 's'
  | .hex _ => 'x'

theorem takes_directive (arg : LogArg) : Takes arg.directive arg := by
  cases arg <;> trivial

/-- The arguments begin with those that the directives ask for. -/
theorem supplies_of_directives {fmt : Line} {args : List LogArg}
    (h : directives fmt <+: args.map LogArg.directive) : Supplies fmt args := by
  obtain ⟨more, hmore⟩ := h
  obtain ⟨given, rest, rfl, hgiven, -⟩ := List.map_eq_append_iff.mp hmore.symm
  refine ⟨given, rest, rfl, ?_⟩
  rw [← hgiven, List.forall₂_map_left_iff, List.forall₂_same]
  exact fun arg _ => takes_directive arg

/-- The arguments of a call of `log` supply its format. -/
def LogLine.Supplied (l : LogLine) : Prop := Supplies l.msg.toList l.args

/-- The lines that a computation adds are supplied, or exceptions. -/
def Speaks {α : Type} (X : LogLine → Prop) (x : DbgM σ α) : Prop :=
  ∀ d, Post x d fun _ d' => ∃ said, d'.out = d.out ++ said ∧ ∀ l ∈ said, l.Supplied ∨ X l

theorem not_mem_literal {c : Char} {s : String} {text : Line} (h : s = String.ofList text)
    (htext : c ∉ text) : c ∉ s.toList := by
  rw [h, String.toList_ofList]
  exact htext

/-! ## Composition -/

section Composition

variable {α β : Type} {X : LogLine → Prop} {x y : DbgM σ α} {f : α → DbgM σ β} {level : Level}
  {msg : String} {fmt : Line} {args : List LogArg}

theorem speaks_silent (h : ∀ d, Post x d fun _ d' => d'.out = d.out) : Speaks X x := by
  intro d
  refine post_mono (h d) fun _ d' hout => ⟨[], ?_, fun l hl => absurd hl List.not_mem_nil⟩
  rw [hout, List.append_nil]

theorem speaks_pure (a : α) : Speaks X (pure a : DbgM σ α) :=
  speaks_silent fun _ => post_pure rfl

theorem speaks_throw (fault : Fault) : Speaks X (throw fault : DbgM σ α) := fun _ => post_throw _

theorem speaks_get : Speaks X (get : DbgM σ (Main σ)) := speaks_silent fun _ => post_ok rfl rfl

theorem speaks_ptrace (req : Int → σ → α × σ) : Speaks X (ptrace req) :=
  speaks_silent fun _ => post_ok rfl rfl

theorem speaks_setRegs (r : UserRegs) : Speaks X (setRegs r : DbgM σ Unit) :=
  speaks_silent fun _ => post_ok rfl rfl

theorem speaks_setProgramState (state : Bool) : Speaks X (setProgramState state : DbgM σ Unit) :=
  speaks_silent fun _ => post_ok rfl rfl

theorem speaks_setSyscallState (state : Bool) : Speaks X (setSyscallState state : DbgM σ Unit) :=
  speaks_silent fun _ => post_ok rfl rfl

theorem Speaks.bind (hx : Speaks X x) (hf : ∀ a, Speaks X (f a)) : Speaks X (x >>= f) := by
  intro d
  refine post_bind (hx d) ?_
  rintro a d₁ ⟨said, hsaid, hfine⟩
  refine post_mono (hf a d₁) ?_
  rintro _ d₂ ⟨more, hmore, hfine'⟩
  refine ⟨said ++ more, by rw [hmore, hsaid, List.append_assoc], fun l hl => ?_⟩
  exact (List.mem_append.mp hl).elim (hfine l) (hfine' l)

theorem Speaks.ite {c : Prop} [Decidable c] (hx : Speaks X x) (hy : Speaks X y) :
    Speaks X (if c then x else y) := by
  split
  · exact hx
  · exact hy

theorem speaks_line (h : LogLine.Supplied ⟨level, msg, args⟩ ∨ X ⟨level, msg, args⟩) :
    Speaks X (log level msg args : DbgM σ Unit) := by
  intro d
  refine post_ok rfl ⟨[⟨level, msg, args⟩], rfl, fun l hl => ?_⟩
  rw [List.mem_singleton.mp hl]
  exact h

/-- A message whose format is given by its characters, with some directives. -/
theorem speaks_log (directed : List Char) (hmsg : msg = String.ofList fmt)
    (hfmt : directives fmt = directed) (hargs : directed <+: args.map LogArg.directive) :
    Speaks X (log level msg args : DbgM σ Unit) := by
  refine speaks_line (Or.inl (supplies_of_directives ?_))
  show directives msg.toList <+: _
  rw [hmsg, String.toList_ofList, hfmt]
  exact hargs

/-- A message without directives. -/
theorem speaks_plain (hmsg : msg = String.ofList fmt) (hfmt : directives fmt = []) :
    Speaks X (log level msg args : DbgM σ Unit) :=
  speaks_log [] hmsg hfmt List.nil_prefix

/-- A message that nothing is put into. -/
theorem speaks_text (h : '%' ∉ msg.toList) : Speaks X (log level msg args : DbgM σ Unit) :=
  speaks_line (Or.inl (plain_format h args).1)

/-- A message, and what the function returns. -/
theorem Speaks.then_pure {y : DbgM σ Unit} (hy : Speaks X y) (a : α) :
    Speaks X (do
      y
      return a) :=
  hy.bind fun _ => speaks_pure a

end Composition

/-! ## Functions -/

section Functions

variable {α : Type} {X : LogLine → Prop} {K : Kernel σ} {env : Loaded σ} {li : BreakpointList}

theorem speaks_pError (a : α) : Speaks X (do
    log .pError "Ptrace error" []
    return a : DbgM σ α) :=
  (speaks_plain rfl rfl).then_pure a

theorem waitForProcess_speaks : Speaks X (waitForProcess K) := by
  have hwait : Speaks X (waitpid K) := by
    refine speaks_silent fun d w d' hrun => ?_
    unfold waitpid at hrun
    split at hrun
    · cases hrun
    · cases hrun
      rfl
  refine hwait.bind fun w => .ite ?_ (.ite (speaks_pure _) (.ite ?_ (speaks_pure _)))
  · refine (speaks_log ['d'] rfl rfl (List.prefix_refl _)).bind fun _ => ?_
    exact (speaks_setProgramState false).then_pure _
  · exact (speaks_log ['d'] rfl rfl (List.prefix_refl _)).then_pure _

theorem infoRegistersAll_speaks : Speaks X (infoRegistersAll K) := by
  refine (speaks_ptrace _).bind fun o => ?_
  cases o with
  | none => exact speaks_pure _
  | some r =>
    refine (speaks_setRegs r).bind fun _ => Speaks.then_pure ?_ _
    obtain ⟨hmsg, -⟩ := registersLine_directives r
    exact speaks_line (Or.inl (supplies_of_directives (hmsg ▸ ⟨List.replicate 4 'x', rfl⟩)))

/-- The registers are read, or an error is reported. -/
theorem readRegs_speaks {f : UserRegs → DbgM σ α} (a : α) (hf : ∀ r, Speaks X (f r)) : Speaks X (do
    let some r ← ptrace K.getregs | do
      log .pError "Ptrace error" []
      return a
    f r) := by
  refine (speaks_ptrace _).bind fun o => ?_
  cases o with
  | none => exact speaks_pError a
  | some r => exact hf r

/-- The dump that `isInforeg` asks for, and what comes next. -/
theorem informed_speaks {c : Prop} [Decidable c] {next : DbgM σ α} (hnext : Speaks X next) :
    Speaks X (do
      if c then
        let _ ← infoRegistersAll K
      next) :=
  .ite (infoRegistersAll_speaks.bind fun _ => hnext) hnext

theorem removeElement_speaks (k : Int) : Speaks X (removeElement K li k) := by
  have hremoved : ∀ r : Int × BreakpointList, Speaks X (do
      log .print "Removed breakpoint %d\n" [.int k]
      return r : DbgM σ _) :=
    fun r => (speaks_log ['d'] rfl rfl (List.prefix_refl _)).then_pure r
  unfold removeElement
  split
  · exact (speaks_plain rfl rfl).then_pure _
  · split
    · exact speaks_throw _
    · refine (speaks_ptrace _).bind fun o => .ite ?_ (hremoved _)
      exact (speaks_ptrace _).bind fun poked => .ite (speaks_pError _) (hremoved _)

theorem disableBreakpoint_speaks (k : Int) :
    Speaks X (disableBreakpoint li k : DbgM σ (Int × BreakpointList)) := by
  have hmissing : Speaks X (do
      log .error "Breakpoint %d not found\n" [.int k]
      throw .missingBreakpoint : DbgM σ (Int × BreakpointList)) :=
    (speaks_log ['d'] rfl rfl (List.prefix_refl _)).bind fun _ => speaks_throw _
  unfold disableBreakpoint
  split
  · exact .ite ((speaks_plain rfl rfl).bind fun _ => hmissing) hmissing
  · exact (speaks_log ['d'] rfl rfl (List.prefix_refl _)).then_pure _

theorem restoreBreakpoint_speaks (b : Breakpoint) (a : Addr) :
    Speaks X (restoreBreakpoint K b a) := by
  refine (speaks_log ['x'] rfl rfl (List.prefix_refl _)).bind fun _ => ?_
  refine (speaks_ptrace _).bind fun poked => .ite (speaks_pError _) ?_
  refine readRegs_speaks _ fun r => (speaks_setRegs _).bind fun _ => ?_
  refine (speaks_ptrace _).bind fun written => .ite (speaks_pError _) ?_
  refine (speaks_ptrace _).bind fun stepped => .ite (speaks_pError _) ?_
  refine (speaks_plain rfl rfl).bind fun _ => waitForProcess_speaks.bind fun ret => ?_
  exact .ite (speaks_pure _) ((speaks_plain rfl rfl).then_pure _)

theorem restoreThen_speaks (b : Breakpoint) (a : Addr) (o : Option Int) : Speaks X (do
    if (← restoreBreakpoint K b a) < -1 then
      return some (-1)
    return o) :=
  (restoreBreakpoint_speaks b a).bind fun _ => .ite (speaks_pure _) (speaks_pure _)

theorem placeBreakpoint_speaks (a : Addr) : Speaks X (placeBreakpoint K li a) := by
  refine (speaks_ptrace _).bind fun o => (speaks_ptrace _).bind fun poked => ?_
  refine .ite (speaks_pError _) ?_
  exact (speaks_log ['x'] rfl rfl (List.prefix_refl _)).then_pure _

theorem stepXLoop_speaks (i n : Nat) : Speaks X (stepXLoop K li i n) := by
  have hstop : ∀ i r, Speaks X (stepXAtStop K li i r) := by
    intro i r
    refine (speaks_setRegs r).bind fun _ => ?_
    split
    · exact speaks_pure _
    · refine .ite ?_ (restoreThen_speaks _ _ _)
      refine (speaks_log ['x', 'd'] rfl rfl (List.prefix_refl _)).bind fun _ => ?_
      exact restoreThen_speaks _ _ _
  have hround : ∀ i, Speaks X (stepXRound K li i) := by
    intro i
    refine (speaks_ptrace _).bind fun stepped => .ite (speaks_pError _) ?_
    refine waitForProcess_speaks.bind fun ret => .ite (speaks_pure _) (.ite ?_ (speaks_pure _))
    exact speaks_get.bind fun d => informed_speaks (readRegs_speaks _ fun r => hstop i r)
  induction n generalizing i with
  | zero =>
    refine speaks_get.bind fun d => Speaks.then_pure ?_ _
    exact speaks_log ['x'] rfl rfl (List.prefix_refl _)
  | succ n ih =>
    refine (hround i).bind fun o => ?_
    cases o with
    | some ret => exact speaks_pure _
    | none => exact ih (i + 1)

theorem stepAuto_speaks (ret : Int) (n : Nat) : Speaks X (stepAuto K li ret n) := by
  have hstop : ∀ r, Speaks X (stepAutoAtStop K li r) := by
    intro r
    refine (speaks_setRegs r).bind fun _ => ?_
    split
    · exact speaks_pure _
    · refine .ite ?_ ((restoreBreakpoint_speaks _ _).bind fun _ => speaks_pure _)
      refine (speaks_log ['x', 'd'] rfl rfl (List.prefix_refl _)).bind fun _ => ?_
      exact (restoreBreakpoint_speaks _ _).bind fun _ => speaks_pure _
  have hrest : Speaks X (do
      if (← get).debug.isInforeg then
        let _ ← infoRegistersAll K
      let some r ← ptrace K.getregs | do
        log .pError "Ptrace error" []
        return some (-1)
      stepAutoAtStop K li r) :=
    speaks_get.bind fun d => informed_speaks (readRegs_speaks _ hstop)
  have hround : Speaks X (stepAutoRound K li) := by
    refine (speaks_ptrace _).bind fun stepped => .ite ?_ ?_
    · exact (speaks_plain rfl rfl).then_pure _
    · refine waitForProcess_speaks.bind fun ret => .ite (speaks_pure _) (.ite ?_ hrest)
      refine speaks_get.bind fun d => ?_
      exact (speaks_log ['x'] rfl rfl (List.prefix_refl _)).bind fun _ => hrest
  induction n with
  | zero => exact speaks_throw _
  | succ n ih =>
    refine hround.bind fun o => ?_
    cases o with
    | some ret => exact speaks_pure _
    | none => exact .ite ih (speaks_pure _)

theorem continueAtStop_speaks (r : UserRegs) : Speaks X (continueAtStop K li r) := by
  refine (speaks_setRegs r).bind fun _ => ?_
  refine (speaks_log ['x'] rfl rfl (List.prefix_refl _)).bind fun _ => ?_
  split
  · refine speaks_get.bind fun d => .ite ?_ (speaks_pure _)
    refine (speaks_log ['x'] rfl rfl (List.prefix_refl _)).bind fun _ => ?_
    refine (speaks_setSyscallState true).bind fun _ => speaks_get.bind fun d => ?_
    refine .ite ?_ (speaks_pure _)
    refine (speaks_plain rfl rfl).bind fun _ => ?_
    exact infoRegistersAll_speaks.bind fun _ => speaks_pure _
  · refine (speaks_plain rfl rfl).bind fun _ => .ite ?_ ?_
    · refine (speaks_log ['x', 'd'] rfl rfl (List.prefix_refl _)).bind fun _ => ?_
      refine speaks_get.bind fun d => informed_speaks ?_
      refine (speaks_plain rfl rfl).bind fun _ => ?_
      exact speaks_get.bind fun d => restoreThen_speaks _ _ _
    · exact (speaks_plain rfl rfl).bind fun _ => restoreThen_speaks _ _ _

theorem continueRound_speaks : Speaks X (continueRound K li) := by
  have hwait : Speaks X (continueFromWait K li) := by
    refine waitForProcess_speaks.bind fun ret => .ite (speaks_pure _) (.ite ?_ (speaks_pure _))
    exact readRegs_speaks _ continueAtStop_speaks
  have hresume : ∀ req : Int → σ → Bool × σ, Speaks X (do
      if !(← ptrace req) then
        log .pError "Ptrace error" []
        return some (-1)
      continueFromWait K li) :=
    fun req => (speaks_ptrace req).bind fun resumed => .ite (speaks_pError _) hwait
  have hrest : Speaks X (do
      log .info "Continuing execution...\n" []
      if (← get).debug.isSystrace then
        log .debug "stopping at syscalls\n" []
        if !(← ptrace K.syscall) then
          log .pError "Ptrace error" []
          return some (-1)
      else
        if !(← ptrace K.cont) then
          log .pError "Ptrace error" []
          return some (-1)
      continueFromWait K li) := by
    refine (speaks_plain rfl rfl).bind fun _ => speaks_get.bind fun d => ?_
    exact .ite ((speaks_plain rfl rfl).bind fun _ => hresume _) (hresume _)
  exact speaks_get.bind fun d => .ite ((speaks_setSyscallState false).bind fun _ => hrest) hrest

theorem continueExecution_speaks (n : Nat) : Speaks X (continueExecution K li n) := by
  induction n with
  | zero => exact speaks_throw _
  | succ n ih =>
    refine continueRound_speaks.bind fun o => ?_
    cases o with
    | some ret => exact speaks_pure _
    | none => exact ih.bind fun _ => speaks_pure _

theorem startProcess_speaks : Speaks X (startProcess K) := by
  refine speaks_get.bind fun d => .ite ?_ (speaks_pure _)
  refine (speaks_ptrace _).bind fun o => ?_
  cases o with
  | none => exact (speaks_plain rfl rfl).then_pure _
  | some pid =>
    refine waitForProcess_speaks.bind fun ret => .ite (speaks_pure _) (.ite ?_ (speaks_pure _))
    refine (speaks_setProgramState true).bind fun _ => Speaks.then_pure ?_ _
    exact speaks_silent fun _ => post_ok rfl rfl

theorem attachProcess_speaks : Speaks X (attachProcess K) := by
  refine speaks_get.bind fun d => .ite ?_ (speaks_pure _)
  refine (speaks_ptrace _).bind fun attached => .ite (speaks_pError _) ?_
  refine waitForProcess_speaks.bind fun ret => .ite (speaks_pure _) ?_
  exact .ite (speaks_pure _) (speaks_pure _)

/-! ### Tables -/

theorem printEach_speaks {γ : Type} {msg : String} {args : γ → List LogArg} (xs : List γ)
    (h : ∀ x, Speaks X (log .print msg (args x) : DbgM σ Unit)) :
    Speaks X (printEach msg args xs : DbgM σ Unit) := by
  induction xs with
  | nil => exact speaks_pure _
  | cons x xs ih => exact (h x).bind fun _ => ih

theorem addressOfLine_speaks (unit lineNumber : Int) :
    Speaks X (addressOfLine env unit lineNumber) := by
  have hmax : Speaks X (getMaxLineNumber env.lines unit : DbgM σ Int) :=
    .ite ((speaks_plain rfl rfl).then_pure _) (speaks_pure _)
  have hmin : ∀ prevMin, Speaks X (getMinLineNumber prevMin env.lines unit : DbgM σ Int) :=
    fun _ => .ite ((speaks_plain rfl rfl).then_pure _) (speaks_pure _)
  have hrange : ∀ prevMin,
      Speaks X (outOfLineRange prevMin env.lines unit lineNumber : DbgM σ Bool) := by
    intro prevMin
    refine .ite (speaks_pure _) (hmax.bind fun max => .ite (speaks_pure _) ?_)
    exact (hmin prevMin).bind fun _ => speaks_pure _
  refine speaks_get.bind fun d => (hrange _).bind fun out => .ite ?_ ?_
  · exact (speaks_plain rfl rfl).then_pure _
  · split
    · exact speaks_pure _
    · exact speaks_pure _

theorem listSrcLines_speaks (lines : List Lineinfo) (unit : Int) :
    Speaks X (listSrcLines lines unit : DbgM σ Int) := by
  refine .ite ((speaks_plain rfl rfl).then_pure _) (Speaks.then_pure ?_ _)
  exact printEach_speaks _ fun x => speaks_log ['d', 'x'] rfl rfl (List.prefix_refl _)

theorem listBreakpoints_speaks : Speaks X (listBreakpoints li : DbgM σ Unit) := by
  refine (speaks_plain rfl rfl).bind fun _ => printEach_speaks _ fun b => ?_
  exact speaks_log ['x', 'd', 's'] rfl rfl (List.prefix_refl _)

theorem listSymsOf_speaks (prange : Int) : Speaks X (listSymsOf env prange) := by
  have heach : ∀ syms : List Syminfo, Speaks X (printEach "%x\t\t%s\n"
      (fun x : Syminfo => [.hex x.address, .str x.symbol]) syms : DbgM σ Unit) :=
    fun syms => printEach_speaks syms fun x =>
      speaks_log ['x', 's'] rfl rfl (List.prefix_refl _)
  unfold listSymsOf
  split
  · exact speaks_throw _
  · refine (speaks_plain rfl rfl).bind fun _ => .ite (heach _) ?_
    exact (heach _).bind fun _ => .ite (speaks_throw _) (speaks_pure _)

theorem infoRegister_speaks (reg : String) : Speaks X (infoRegister K reg) := by
  refine (speaks_ptrace _).bind fun o => ?_
  cases o with
  | none => exact (speaks_plain rfl rfl).then_pure _
  | some r =>
    refine (speaks_setRegs r).bind fun _ => Speaks.bind (printEach_speaks _ fun x => ?_) fun _ => ?_
    · exact speaks_log ['s'] rfl rfl ⟨['x'], rfl⟩
    · exact speaks_throw _

theorem setRegister_speaks (reg : String) (value : Word) : Speaks X (setRegister K reg value) := by
  refine speaks_get.bind fun d => (speaks_setRegs _).bind fun _ => speaks_get.bind fun d => ?_
  refine (speaks_ptrace _).bind fun written => .ite ?_ (speaks_pure _)
  exact (speaks_plain rfl rfl).then_pure _

end Functions

/-! ## Handlers -/

section Handlers

variable {X : LogLine → Prop} {K : Kernel σ} {env : Loaded σ} {n : Nat} {p : Prompt}
  {fmt error : Line}

theorem logSto_speaks {msgs : StoMessages} {range invalid : Line}
    (hrange : msgs.outOfRange = String.ofList range)
    (hrangeArgs : directives range <+: msgs.what.map LogArg.directive)
    (hinvalid : msgs.invalidArgument = String.ofList invalid)
    (hinvalidArgs : directives invalid <+: msgs.what.map LogArg.directive) (e : StoError) :
    Speaks X (logSto msgs e : DbgM σ Unit) := by
  cases e with
  | outOfRange => exact speaks_log _ hrange rfl hrangeArgs
  | invalidArgument => exact speaks_log _ hinvalid rfl hinvalidArgs

theorem whenRunning_speaks {msg : String} {x : DbgM σ Turn} (hmsg : msg = String.ofList fmt)
    (hfmt : directives fmt = []) (hx : Speaks X x) : Speaks X (whenRunning msg p x) :=
  speaks_get.bind fun _ => .ite hx ((speaks_plain hmsg hfmt).then_pure _)

theorem complain_speaks {msg : String} (hmsg : msg = String.ofList fmt)
    (hfmt : directives fmt = []) : Speaks X (complain msg p : DbgM σ Turn) :=
  (speaks_plain hmsg hfmt).then_pure _

theorem ask_speaks {msg ioError : String} {onEmpty : Prompt → DbgM σ Turn}
    {onWord : Line → Prompt → DbgM σ Turn} (hmsg : msg = String.ofList fmt)
    (hfmt : directives fmt = []) (herror : ioError = String.ofList error)
    (herrorFmt : directives error = []) (hempty : ∀ q, Speaks X (onEmpty q))
    (hword : ∀ word rest, p.input = word :: rest → word ≠ [] →
      Speaks X (onWord word { p with input := rest })) :
    Speaks X (ask msg ioError p onEmpty onWord) := by
  refine (speaks_plain hmsg hfmt).bind fun _ => ?_
  cases hinput : p.input with
  | nil => exact (speaks_plain herror herrorFmt).then_pure _
  | cons word rest =>
    by_cases hne : word = []
    · simpa only [if_pos hne] using hempty { p with input := rest }
    · simpa only [if_neg hne] using hword word rest hinput hne

theorem afterExit_speaks {msg : String} (hmsg : msg = String.ofList fmt)
    (hfmt : directives fmt = []) : Speaks X (afterExit msg p : DbgM σ Turn) :=
  speaks_get.bind fun _ => speaks_get.bind fun _ =>
    .ite ((speaks_plain hmsg hfmt).then_pure _) (speaks_pure _)

theorem handleContinue_speaks : Speaks X (handleContinue K n p) :=
  (continueExecution_speaks n).bind fun _ =>
    .ite (afterExit_speaks rfl rfl) (.ite (speaks_pure _) (speaks_pure _))

theorem handleRun_speaks : Speaks X (handleRun K n p) := by
  refine speaks_get.bind fun d => .ite ?_ handleContinue_speaks
  refine (speaks_plain rfl rfl).bind fun _ => speaks_get.bind fun d => ?_
  refine .ite ?_ handleContinue_speaks
  exact startProcess_speaks.bind fun _ => .ite (speaks_pure _) (speaks_pure _)

theorem handleAuto_speaks : Speaks X (handleAuto K env n p) :=
  speaks_get.bind fun _ => (stepAuto_speaks _ n).bind fun _ => .ite (speaks_pure _) (speaks_pure _)

theorem handleStep_speaks (commands : List Line) : Speaks X (handleStep K commands p) := by
  have hstep : ∀ k, Speaks X (stepBy K k p) := fun k => (stepXLoop_speaks 0 k.toNat).bind fun _ =>
    .ite (afterExit_speaks rfl rfl) (.ite (speaks_pure _) (speaks_pure _))
  unfold handleStep
  split
  · exact hstep 1
  · split
    · exact (logSto_speaks rfl (by decide) rfl (by decide) _).then_pure _
    · refine (speaks_log ['d'] rfl rfl (List.prefix_refl _)).bind fun _ => ?_
      exact hstep _

theorem placeAt_speaks (a : Addr) : Speaks X (placeAt K a p) :=
  (placeBreakpoint_speaks a).bind fun _ => speaks_pure _

theorem handleBreak_speaks (commands : List Line) : Speaks X (handleBreak K commands p) := by
  have hwords : ∀ words li, Speaks X (placeWords K words li) := by
    intro words
    induction words with
    | nil => exact fun li => speaks_pure li
    | cons word words ih =>
      intro li
      unfold placeWords
      split
      · exact (logSto_speaks rfl (by decide) rfl (by decide) _).bind fun _ => ih li
      · exact (placeBreakpoint_speaks _).bind fun r => ih r.2
  refine whenRunning_speaks rfl rfl (.ite ?_ ((hwords _ _).bind fun _ => speaks_pure _))
  refine ask_speaks rfl rfl rfl rfl
    (fun q => complain_speaks rfl rfl) fun word rest _ _ => ?_
  split
  · exact (logSto_speaks rfl (by decide) rfl (by decide) _).then_pure _
  · exact placeAt_speaks _

theorem breaklMessages_speaks (e : StoError) : Speaks X (logSto breaklMessages e : DbgM σ Unit) :=
  logSto_speaks rfl (by decide) rfl (by decide) e

theorem handleBreakl_speaks (commands : List Line) : Speaks X (handleBreakl K env commands p) := by
  have hlines : ∀ words li, Speaks X (placeLines K env p.defaultCompilationUnit words li) := by
    intro words
    induction words with
    | nil => exact fun li => speaks_pure li
    | cons word words ih =>
      intro li
      unfold placeLines
      split
      · exact (breaklMessages_speaks _).bind fun _ => ih li
      · refine (addressOfLine_speaks _ _).bind fun a => ?_
        exact (placeBreakpoint_speaks a).bind fun r => ih r.2
  refine whenRunning_speaks rfl rfl (speaks_get.bind fun d => .ite ?_ ?_)
  · refine (speaks_plain rfl rfl).bind fun _ => .ite ?_ ?_
    · refine ask_speaks rfl rfl rfl rfl
        (fun q => complain_speaks rfl rfl) fun word rest _ _ => ?_
      split
      · exact (breaklMessages_speaks _).then_pure _
      · exact (addressOfLine_speaks _ _).bind fun a => placeAt_speaks a
    · exact (hlines _ _).bind fun _ => speaks_pure _
  · exact (speaks_plain rfl rfl).then_pure _

/-- The message of a question whose answer is empty, and the end of the loop. -/
theorem refuse_speaks {msg : String} (hmsg : msg = String.ofList fmt) (hfmt : directives fmt = []) :
    Speaks X (do
      log .error msg []
      returned (-1) : DbgM σ Turn) :=
  (speaks_plain hmsg hfmt).bind fun _ => speaks_pure _

theorem emptyArgument_speaks (commands : List Line) :
    Speaks X (emptyArgument commands : DbgM σ Bool) := by
  unfold emptyArgument
  split
  · exact speaks_throw _
  · exact speaks_pure _

theorem handleDelete_speaks (commands : List Line) : Speaks X (handleDelete K commands p) := by
  have hwords : ∀ words q, Speaks X (deleteWords K words q) := by
    intro words
    induction words with
    | nil => exact fun q => speaks_pure _
    | cons word words ih =>
      intro q
      unfold deleteWords
      split
      · refine Speaks.bind ?_ fun _ => ih q
        exact logSto_speaks rfl (by decide) rfl (by decide) _
      · exact (removeElement_speaks _).bind fun r => .ite (speaks_pure _) (ih _)
  refine whenRunning_speaks rfl rfl ((emptyArgument_speaks commands).bind fun b => ?_)
  refine .ite ?_ (hwords _ p)
  exact ask_speaks rfl rfl rfl rfl
    (fun q => refuse_speaks rfl rfl) fun word rest _ _ => hwords [word] _

theorem handleDisable_speaks (commands : List Line) :
    Speaks X (handleDisable commands p : DbgM σ Turn) := by
  have hwords : ∀ words li, Speaks X (disableWords words li : DbgM σ BreakpointList) := by
    intro words
    induction words with
    | nil => exact fun li => speaks_pure li
    | cons word words ih =>
      intro li
      unfold disableWords
      split
      · refine Speaks.bind ?_ fun _ => ih li
        exact logSto_speaks rfl (by decide) rfl (by decide) _
      · exact (disableBreakpoint_speaks _).bind fun r => ih r.2
  refine .ite ?_ ((hwords _ _).bind fun _ => speaks_pure _)
  refine ask_speaks rfl rfl rfl rfl
    (fun q => refuse_speaks rfl rfl) fun word rest _ _ => ?_
  split
  · exact speaks_throw _
  · exact (disableBreakpoint_speaks _).bind fun _ => speaks_pure _

/-! ### Tables and registers -/

theorem unavailable_speaks : Speaks X (do
    log .print "Debug information not available\n" []
    atPrompt p : DbgM σ Turn) :=
  (speaks_plain rfl rfl).bind fun _ => speaks_pure _

theorem handlePrintb_speaks : Speaks X (handlePrintb p : DbgM σ Turn) :=
  whenRunning_speaks rfl rfl (listBreakpoints_speaks.bind fun _ => speaks_pure _)

theorem handleList_speaks (commands : List Line) : Speaks X (handleList env commands p) := by
  have hunit : ∀ word q, Speaks X (listUnit env word q) := by
    intro word q
    unfold listUnit
    split
    · exact (logSto_speaks rfl (by decide) rfl (by decide) _).then_pure _
    · exact (listSrcLines_speaks _ _).bind fun _ => speaks_pure _
  refine whenRunning_speaks rfl rfl (speaks_get.bind fun d => .ite ?_ unavailable_speaks)
  split
  · exact ask_speaks rfl rfl rfl rfl (fun q => complain_speaks rfl rfl)
      fun word rest _ _ => hunit word _
  · exact hunit _ p

theorem handleListsym_speaks (commands : List Line) : Speaks X (handleListsym env commands p) := by
  refine speaks_get.bind fun d => speaks_get.bind fun d' => .ite ?_ (speaks_pure _)
  split
  · exact (listSymsOf_speaks _).bind fun _ => speaks_pure _
  · refine .ite (speaks_pure _) ?_
    split
    · exact (logSto_speaks rfl (by decide) rfl (by decide) _).then_pure _
    · exact (listSymsOf_speaks _).bind fun _ => speaks_pure _

/-- The message for an answer to `select` that is no number. -/
def unitSlip : LogLine := ⟨.error, "Invalid compilation unit number %d\n", [.str "stoi"]⟩

/-- It is the one exception, and takes such an answer to a `select` without a unit. -/
theorem handleSelect_speaks (commands : List Line)
    (hslip : commands[1]? = none → ∀ word rest, p.input = word :: rest → word ≠ [] →
      stoi word = .error .invalidArgument → X unitSlip) :
    Speaks X (handleSelect env commands p) := by
  refine whenRunning_speaks rfl rfl (speaks_get.bind fun d => .ite ?_ unavailable_speaks)
  split
  · rename_i hnone
    refine ask_speaks rfl rfl rfl rfl (fun q => complain_speaks rfl rfl) ?_
    intro word rest hinput hne
    split
    · rename_i e he
      refine Speaks.then_pure ?_ _
      cases e with
      | outOfRange => exact speaks_log ['s'] rfl rfl (List.prefix_refl _)
      | invalidArgument => exact speaks_line (Or.inr (hslip hnone word rest hinput hne he))
    · exact speaks_pure _
  · split
    · exact (logSto_speaks rfl (by decide) rfl (by decide) _).then_pure _
    · refine .ite (complain_speaks rfl rfl) ?_
      exact (speaks_log ['d'] rfl rfl (List.prefix_refl _)).then_pure _

theorem handleInfoRegisters_speaks : Speaks X (handleInfoRegisters K p) :=
  whenRunning_speaks rfl rfl (infoRegistersAll_speaks.bind fun _ => speaks_pure _)

theorem handleInfo_speaks (commands : List Line) : Speaks X (handleInfo K commands p) := by
  have hinfo : ∀ word q, Speaks X (infoOf K word q) := fun word q =>
    (infoRegister_speaks _).bind fun _ => .ite (speaks_pure _) (speaks_pure _)
  refine (emptyArgument_speaks commands).bind fun b => .ite ?_ (hinfo _ p)
  exact (speaks_plain rfl rfl).bind fun _ => .ite (complain_speaks rfl rfl) (hinfo _ _)

theorem setTo_speaks (regname word : Line) {invalid : String} (limit : Int)
    (hinvalid : invalid = String.ofList fmt) (hfmt : directives fmt = ['s']) :
    Speaks X (setTo K regname word invalid limit p) := by
  unfold setTo
  split
  · rename_i e _
    refine Speaks.then_pure ?_ _
    cases e with
    | outOfRange => exact speaks_log ['s'] rfl rfl (List.prefix_refl _)
    | invalidArgument => exact speaks_log ['s'] hinvalid hfmt (List.prefix_refl _)
  · exact (setRegister_speaks _ _).bind fun _ => .ite (speaks_pure _) (speaks_pure _)

theorem handleSet_speaks (command : Line) (commands : List Line) :
    Speaks X (handleSet K command commands p) := by
  refine whenRunning_speaks rfl rfl (.ite ?_ ?_)
  · refine ask_speaks rfl rfl rfl rfl (fun q => complain_speaks rfl rfl)
      fun regname rest _ _ => ?_
    exact ask_speaks rfl rfl rfl rfl (fun q => complain_speaks rfl rfl)
      fun word rest _ _ => setTo_speaks _ _ _ rfl rfl
  · split
    · exact ask_speaks rfl rfl rfl rfl (fun q => complain_speaks rfl rfl)
        fun word rest _ _ => setTo_speaks _ _ _ rfl rfl
    · refine .ite ?_ (speaks_pure _)
      split
      · exact setTo_speaks _ _ _ rfl rfl
      · exact speaks_throw _

theorem handleExit_speaks : Speaks X (handleExit K p) := by
  refine ask_speaks rfl rfl rfl rfl (fun q => ?_) fun word rest _ _ => ?_
  · exact (speaks_plain rfl rfl).then_pure _
  · refine .ite (Speaks.then_pure ?_ _) (speaks_pure _)
    exact speaks_silent fun _ => post_ok rfl rfl

theorem handleHelp_speaks : Speaks X (handleHelp p : DbgM σ Turn) := by
  refine Speaks.then_pure (speaks_text ?_) _
  unfold helpText
  simp only [String.toList_append, List.mem_append, not_or]
  repeat' apply And.intro
  all_goals exact not_mem_literal rfl (by decide)

/-! ## Runs -/

/-- A command and an answer that make the debugger misprint. -/
def Slips (command word : Line) : Prop :=
  tokenize command = ["select".toList] ∧ word ≠ [] ∧ stoi word = .error .invalidArgument

example : Slips "select ".toList "first".toList := ⟨by decide, by decide, by decide⟩

/-- A command of one word that is a keyword. -/
theorem words_eq {keyword : String} {commands : List Line}
    (hfirst : isOneOf [keyword] (commands.headD []) = true) (hnone : commands[1]? = none)
    (hne : commands ≠ []) : commands = [keyword.toList] := by
  cases commands with
  | nil => exact absurd rfl hne
  | cons first rest =>
    have hkeyword := mem_of_isOneOf hfirst
    cases rest with
    | nil => rw [← List.mem_singleton.mp hkeyword]; rfl
    | cons second rest => cases hnone

/-- Every command adds supplied lines, but for the answer that slips. -/
theorem handle_speaks (command : Line)
    (hslip : ∀ word rest, p.input = word :: rest → Slips command word → X unitSlip) :
    Speaks X (handle K env n command p) := by
  refine .ite handleRun_speaks (.ite (handleList_speaks _) (.ite (handleListsym_speaks _) ?_))
  by_cases hselect : isOneOf ["select"] (firstWord command) = true
  · refine (if_pos hselect).symm ▸ handleSelect_speaks _ ?_
    intro hnone word rest hinput hempty hword
    have hne : tokenize command ≠ [] := by
      intro hnil
      rw [firstWord, hnil] at hselect
      cases mem_of_isOneOf hselect with
      | tail _ h => cases h
    exact hslip word rest hinput ⟨words_eq hselect hnone hne, hempty, hword⟩
  · refine (if_neg hselect).symm ▸ ?_
    refine .ite (handleBreakl_speaks _) (.ite (handleBreak_speaks _) ?_)
    refine .ite handleInfoRegisters_speaks (.ite handlePrintb_speaks ?_)
    refine .ite (handleDelete_speaks _) (.ite (handleSet_speaks _ _) ?_)
    refine .ite (handleDisable_speaks _) (.ite (handleInfo_speaks _) (.ite handleAuto_speaks ?_))
    refine .ite (handleStep_speaks _) (.ite handleExit_speaks ?_)
    exact .ite handleHelp_speaks (speaks_pure _)

/-- The lines that lead to the exception are among those of the input. -/
def Heard (input : List Line) (l : LogLine) : Prop :=
  l = unitSlip ∧ ∃ command word rest, command :: word :: rest <:+ input ∧ Slips command word

/-- A turn adds supplied lines, and the exception if its input asks for it. -/
theorem mainTurn_speaks (hslip : ∀ command word rest, p.input = command :: word :: rest →
    Slips command word → X unitSlip) : Speaks X (mainTurn K env n p) := by
  refine (speaks_plain rfl rfl).bind fun _ => ?_
  cases hp : p.input with
  | nil => exact (speaks_plain rfl rfl).then_pure _
  | cons command lines =>
    refine .ite (speaks_pure _) (handle_speaks command ?_)
    rintro word rest rfl hslips
    exact hslip command word rest hp hslips

theorem mainTurns_speaks {input : List Line} (m : Nat) (hinput : p.input <:+ input) :
    Speaks (Heard input) (mainTurns K env n m p) := by
  induction m generalizing p with
  | zero => exact speaks_pure _
  | succ m ih =>
    have hturn : Speaks (Heard input) (mainTurn K env n p) := by
      refine mainTurn_speaks fun command word rest hp hslips => ?_
      exact ⟨rfl, command, word, rest, hp ▸ hinput, hslips⟩
    intro d
    refine post_bind (post_and (hturn d) (mainTurn_performs K env n p d)) ?_
    rintro t d₁ ⟨⟨said, hsaid, hfine⟩, ⟨done, li, -, hends⟩, -⟩
    cases t with
    | prompt p' =>
      refine post_mono (ih ((hends.suffix.trans (List.tail_suffix _)).trans hinput) d₁) ?_
      rintro _ d₂ ⟨more, hmore, hfine'⟩
      refine ⟨said ++ more, by rw [hmore, hsaid, List.append_assoc], fun l hl => ?_⟩
      exact (List.mem_append.mp hl).elim (hfine l) (hfine' l)
    | returned code => exact post_pure ⟨said, hsaid, hfine⟩

theorem debuggerLoop_speaks (m : Nat) (input : List Line) :
    Speaks (Heard input) (debuggerLoop K env n m input) :=
  (mainTurns_speaks m (List.suffix_refl _)).bind fun _ => speaks_pure _

theorem debugFrom_speaks (m : Nat) (input : List Line) (ret : Int) :
    Speaks (Heard input) (debugFrom K env n m input ret) := by
  have hloop : Speaks (Heard input) (debuggerLoop K env n m input) := debuggerLoop_speaks m input
  refine .ite (speaks_pure _) (.ite (speaks_pure _) ((speaks_ptrace _).bind fun o => ?_))
  cases o with
  | none => exact (speaks_plain rfl rfl).bind fun _ => speaks_throw _
  | some r =>
    refine (speaks_setRegs r).bind fun _ => Speaks.bind ?_ fun _ => ?_
    · exact speaks_silent fun _ => post_ok rfl rfl
    · refine (speaks_log ['x'] rfl rfl (List.prefix_refl _)).bind fun _ => ?_
      exact .ite ((speaks_plain rfl rfl).bind fun _ => hloop) hloop

theorem debugger_speaks (m : Nat) (input : List Line) :
    Speaks (Heard input) (debugger K env n m input) := by
  have husage : '%' ∉ usageText.toList := by
    unfold usageText
    simp only [String.toList_append, List.mem_append, not_or]
    repeat' apply And.intro
    all_goals exact not_mem_literal rfl (by decide)
  refine speaks_get.bind fun d => ?_
  cases d.debug.pathname with
  | none => exact speaks_throw _
  | some path =>
    refine speaks_get.bind fun d => .ite ?_ (speaks_get.bind fun d => .ite ?_ ?_)
    · exact (speaks_text husage).bind fun _ => debuggerLoop_speaks m input
    · exact attachProcess_speaks.bind fun ret => debugFrom_speaks m input ret
    · exact startProcess_speaks.bind fun ret => debugFrom_speaks m input ret

end Handlers

/-! ## What the log takes -/

/-- The log finds every argument that a line asks for. -/
def LogLine.Read (l : LogLine) : Prop :=
  ∀ L : Log, L.call fullText l.level l.msg.toList l.args ≠ .error .badArgument

theorem LogLine.Supplied.read {l : LogLine} (h : l.Supplied) : l.Read := by
  intro L hbad
  cases hheader : l.level.header with
  | some header =>
    by_cases hstate : L.checkState l.level.state ≠ 0
    · obtain ⟨hprints, hover⟩ := call_enabled hheader hstate h
      by_cases hcount : Countable 0 l.msg.toList l.args
      · rw [hprints hcount] at hbad
        cases hbad
      · rw [hover hcount] at hbad
        cases hbad
    · rw [call_eq_format hheader, Log.format, if_neg hstate] at hbad
      cases hbad
  | none =>
    -- no format, and the text is put as it is
    obtain ⟨level, msg, args⟩ := l
    cases level with
    | pError =>
      have hcall : L.pError fullText msg.toList = .error .badArgument := hbad
      unfold Log.pError at hcall
      split at hcall
      · cases hcall
      · cases hcall
    | prompt => cases hbad
    | _ => cases hheader

/-- **Every message of a run gets the arguments that it asks for**, whatever the kernel answers and
whatever is typed, except the one for an answer to `select` that is no number. -/
theorem debugger_messages (K : Kernel σ) (env : Loaded σ) (n m : Nat) (input : List Line)
    (d : Main σ) :
    Post (debugger K env n m input) d fun _ d' =>
      ∃ said, d'.out = d.out ++ said ∧ ∀ l ∈ said, l.Read ∨ Heard input l := by
  refine post_mono (debugger_speaks m input d) ?_
  rintro _ d' ⟨said, hsaid, hfine⟩
  exact ⟨said, hsaid, fun l hl => (hfine l hl).imp_left LogLine.Supplied.read⟩

/-! ## When it slips -/

/-- The program runs with debug information, and the next command is a `select` without a unit whose
answer is no number. -/
def Misprints (p : Prompt) (debug : Debug) : Prop :=
  debug.isRunning = true ∧ debug.dwarfState = true ∧
    ∃ command word rest, p.input = command :: word :: rest ∧ Slips command word

theorem unitSlip_unsupplied : ¬ unitSlip.Supplied := by
  rintro ⟨given, more, hargs, hgiven⟩
  have hdirected : directives unitSlip.msg.toList = ['d'] := by decide
  rw [hdirected] at hgiven
  cases hgiven with
  | cons hfirst hrest =>
    obtain ⟨rfl, -⟩ := List.cons.inj hargs
    exact hfirst

/-- Nothing is misprinted by a computation that adds supplied lines only. -/
theorem supplied_post {α : Type} {x : DbgM σ α} {d : Main σ} {C : Prop}
    (hx : Speaks (fun _ => False) x) (hC : ¬ C) :
    Post x d fun _ d' => ∃ said, d'.out = d.out ++ said ∧ ((∃ l ∈ said, ¬ l.Supplied) ↔ C) := by
  refine post_mono (hx d) ?_
  rintro _ d' ⟨said, hsaid, hfine⟩
  refine ⟨said, hsaid, iff_of_false ?_ hC⟩
  rintro ⟨l, hl, hunsupplied⟩
  exact hunsupplied ((hfine l hl).resolve_right id)

/-- The question and the message, or what is said instead of them. -/
theorem handleSelect_slips (env : Loaded σ) (p : Prompt) (d : Main σ) {command word : Line}
    {rest : List Line} (hslip : Slips command word) (hinput : p.input = word :: rest) :
    Post (handleSelect env (tokenize command) p) d fun _ d' => ∃ said, d'.out = d.out ++ said ∧
      ((∃ l ∈ said, ¬ l.Supplied) ↔ d.debug.isRunning = true ∧ d.debug.dwarfState = true) := by
  obtain ⟨hselect, hne, hword⟩ := hslip
  rw [hselect]
  unfold handleSelect whenRunning
  refine post_get_bind (post_ite (fun hrunning => ?_) fun hrunning => ?_)
  · refine post_get_bind (post_ite (fun hdwarf => ?_) fun hdwarf => ?_)
    · unfold ask
      refine post_bind_ok rfl ?_
      rw [hinput]
      simp only [if_neg hne, hword]
      refine post_bind_ok rfl (post_pure ⟨[_, unitSlip], List.append_assoc _ _ _, ?_⟩)
      exact iff_of_true ⟨unitSlip, by simp, unitSlip_unsupplied⟩ ⟨hrunning, hdwarf⟩
    · exact supplied_post unavailable_speaks fun h => hdwarf h.2
  · exact supplied_post ((speaks_plain rfl rfl).then_pure _) fun h => hrunning h.1

/-- **A turn asks for an argument that it does not pass exactly** if the program runs with debug
information and an answer to `select` is no number, in every state and for every kernel. -/
theorem mainTurn_misprints_iff (K : Kernel σ) (env : Loaded σ) (n : Nat) (p : Prompt) (d : Main σ) :
    Post (mainTurn K env n p) d fun _ d' => ∃ said, d'.out = d.out ++ said ∧
      ((∃ l ∈ said, ¬ l.Supplied) ↔ Misprints p d.debug) := by
  by_cases hslips : ∃ command word rest, p.input = command :: word :: rest ∧ Slips command word
  · have hcond : Misprints p d.debug ↔ d.debug.isRunning = true ∧ d.debug.dwarfState = true :=
      ⟨fun h => ⟨h.1, h.2.1⟩, fun h => ⟨h.1, h.2, hslips⟩⟩
    obtain ⟨command, word, rest, hinput, hslip⟩ := hslips
    rw [hcond]
    obtain ⟨li, unit, lines⟩ := p
    obtain rfl : lines = command :: word :: rest := hinput
    have hselect : IsSelect command := by
      unfold IsSelect
      rw [hslip.1]
      rfl
    refine post_of_eq (mainTurn_command K env n ⟨li, unit, []⟩ d hselect.ne_nil (word :: rest)) ?_
    rw [handle_select hselect]
    refine post_mono (handleSelect_slips env _ _ hslip rfl) ?_
    rintro _ d' ⟨said, hsaid, hiff⟩
    refine ⟨⟨.prompt, "[zkz] ", []⟩ :: said, ?_, ?_⟩
    · rw [hsaid, List.append_assoc]
      rfl
    · rw [← hiff]
      have hprompt : LogLine.Supplied ⟨.prompt, "[zkz] ", []⟩ :=
        supplies_of_directives List.nil_prefix
      simp only [List.exists_mem_cons_iff, hprompt, not_true_eq_false, false_or]
  · refine supplied_post (mainTurn_speaks fun command word rest hp h => ?_) fun h => hslips h.2.2
    exact hslips ⟨command, word, rest, hp, h⟩

end Zkz.Debugger
