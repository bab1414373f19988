import Zkz.Debugger.Loops
import Zkz.Debugger.MainLoop
import Zkz.Debugger.Stopped

/-!
# What the handlers have by composition

A property that messages and composed computations have is a property of every function of the
debugger whose requests have it, and of every handler whose functions have it.

* `Composes`: the property of functions, `ComposesRounds`: that of requests and waits.
* `Handles`: the property of handlers, which may depend on the compilation unit of the prompt that
  the handler goes back to.
-/

namespace Zkz.Debugger

open Zkz.Lib BreakpointList

variable {σ : Type}

/-- `P` is kept by composition, and messages have it. -/
structure Composes (P : (α : Type) → DbgM σ α → Prop) : Prop where
  pure : ∀ {α : Type} (a : α), P α (Pure.pure a)
  bind : ∀ {α β : Type} {x : DbgM σ α} {f : α → DbgM σ β},
    P α x → (∀ a, P β (f a)) → P β (x >>= f)
  get : P (Main σ) MonadState.get
  log : ∀ level msg args, P Unit (Debugger.log level msg args)

/-- Requests, waits and calls that do not return have it too. -/
structure ComposesRounds (K : Kernel σ) (P : (α : Type) → DbgM σ α → Prop) : Prop extends
    Composes P where
  request : ∀ {α : Type} (req : Int → σ → α × σ), P α (ptrace req)
  setRegs : ∀ r, P Unit (Debugger.setRegs r)
  wait : P Int (waitForProcess K)
  noReturn : ∀ {α : Type}, P α (throw .noReturn)

/-- `T` is a property of handlers whose functions have `P`, where the prompt that they go back to
has `Q`. -/
structure Handles (P : (α : Type) → DbgM σ α → Prop) (T : DbgM σ Turn → Prop)
    (Q : Prompt → Prop) : Prop extends Composes P where
  next : ∀ {α : Type} {x : DbgM σ α} {f : α → DbgM σ Turn}, P α x → (∀ a, T (f a)) → T (x >>= f)
  atPrompt : ∀ {p}, Q p → T (Debugger.atPrompt p)
  returned : ∀ code, T (Debugger.returned code)
  moved : ∀ {p q}, Q p → q.defaultCompilationUnit = p.defaultCompilationUnit → Q q

/-- What every function keeps as an invariant `I`, and every handler ends with as `R`. -/
theorem handles_of_post {I : Main σ → Prop} {R : Turn → Main σ → Prop}
    (hlog : ∀ level msg args d, I d → Post (log level msg args) d fun _ d' => I d')
    (hprompt : ∀ p d, I d → R (.prompt p) d) (hreturned : ∀ code d, R (.returned code) d) :
    Handles (fun _ x => ∀ d, I d → Post x d fun _ d' => I d') (fun x => ∀ d, I d → Post x d R)
      fun _ => True where
  pure _ := fun _ h => post_pure h
  bind hx hf := fun d h => post_bind (hx d h) fun a d' h' => hf a d' h'
  get := fun _ h => post_ok rfl h
  log level msg args := fun d h => hlog level msg args d h
  next hx hf := fun d h => post_bind (hx d h) fun a d' h' => hf a d' h'
  atPrompt {p} _ := fun d h => post_pure (hprompt p d h)
  returned code := fun d _ => post_pure (hreturned code d)
  moved _ _ := trivial

/-! ## Functions -/

section Functions

variable {P : (α : Type) → DbgM σ α → Prop} {K : Kernel σ} {env : Loaded σ} {α : Type}

theorem Composes.ite (_ : Composes P) {c : Prop} [Decidable c] {x y : DbgM σ α} (hx : P α x)
    (hy : P α y) : P α (if c then x else y) := by
  split
  · exact hx
  · exact hy

/-- A message, and what the function returns. -/
theorem Composes.said (h : Composes P) (level : Level) (msg : String) (args : List LogArg)
    (a : α) : P α (do
      Debugger.log level msg args
      return a) :=
  h.bind (h.log level msg args) fun _ => h.pure a

theorem Composes.printEach (h : Composes P) (msg : String) (args : α → List LogArg)
    (xs : List α) : P Unit (printEach msg args xs) := by
  induction xs with
  | nil => exact h.pure ()
  | cons x xs ih => exact h.bind (h.log _ _ _) fun _ => ih

theorem Composes.logSto (h : Composes P) (msgs : StoMessages) (e : StoError) :
    P Unit (logSto msgs e) := by
  cases e with
  | outOfRange => exact h.log _ _ _
  | invalidArgument => exact h.log _ _ _

theorem Composes.addressOfLine (h : Composes P) (unit lineNumber : Int) :
    P Addr (addressOfLine env unit lineNumber) := by
  have hmax : P Int (getMaxLineNumber env.lines unit) := h.ite (h.said _ _ _ _) (h.pure _)
  have hmin : ∀ prevMin, P Int (getMinLineNumber prevMin env.lines unit) :=
    fun _ => h.ite (h.said _ _ _ _) (h.pure _)
  apply h.bind h.get
  intro d
  apply h.bind
  · apply h.ite (h.pure _)
    apply h.bind hmax
    intro max
    apply h.ite (h.pure _)
    exact h.bind (hmin _) fun _ => h.pure _
  · intro out
    apply h.ite (h.said _ _ _ _)
    split
    · exact h.pure _
    · exact h.pure _

theorem Composes.listSrcLines (h : Composes P) (lines : List Lineinfo) (unit : Int) :
    P Int (listSrcLines lines unit) := by
  apply h.ite (h.said _ _ _ _)
  exact h.bind (h.printEach _ _ _) fun _ => h.pure _

theorem Composes.listBreakpoints (h : Composes P) (li : BreakpointList) :
    P Unit (listBreakpoints li) :=
  h.bind (h.log _ _ _) fun _ => h.printEach _ _ _

theorem Composes.placeBreakpoint (h : Composes P)
    (hpeek : ∀ a, P _ (ptrace fun pid => K.peektext pid a))
    (hpoke : ∀ a w, P _ (ptrace fun pid => K.poketext pid a w)) (li : BreakpointList) (a : Addr) :
    P _ (placeBreakpoint K li a) := by
  apply h.bind (hpeek a)
  intro o
  apply h.bind (hpoke a _)
  intro poked
  exact h.ite (h.said _ _ _ _) (h.said _ _ _ _)

/-- The loop of `RemoveElement` stays inside the list. -/
theorem Composes.removeElement (h : Composes P)
    (hpeek : ∀ a, P _ (ptrace fun pid => K.peektext pid a))
    (hpoke : ∀ a w, P _ (ptrace fun pid => K.poketext pid a w)) (li : BreakpointList) (k : Int) :
    P _ (removeElement K li k) := by
  unfold Debugger.removeElement
  split
  · exact h.said _ _ _ _
  · rename_i i hi
    split
    · rename_i hnone
      rw [List.getElem?_eq_getElem (removalIndex_lt hi)] at hnone
      cases hnone
    · apply h.bind (hpeek _)
      intro o
      apply h.ite _ (h.said _ _ _ _)
      apply h.bind (hpoke _ _)
      intro poked
      exact h.ite (h.said _ _ _ _) (h.said _ _ _ _)

end Functions

/-! ## Rounds -/

section Rounds

variable {P : (α : Type) → DbgM σ α → Prop} {K : Kernel σ} {li : BreakpointList} {α : Type}

theorem ComposesRounds.infoRegistersAll (h : ComposesRounds K P) :
    P Int (infoRegistersAll K) := by
  apply h.bind (h.request _)
  intro o
  cases o with
  | none => exact h.pure _
  | some r => exact h.bind (h.setRegs r) fun _ => h.said _ _ _ _

/-- The registers are read, or an error is reported. -/
theorem ComposesRounds.readRegs (h : ComposesRounds K P) {f : UserRegs → DbgM σ α} {msg : String}
    (a : α) (hf : ∀ r, P α (f r)) : P α (do
      let some r ← ptrace K.getregs | do
        Debugger.log .pError msg []
        return a
      f r) := by
  apply h.bind (h.request _)
  intro o
  cases o with
  | none => exact h.said _ _ _ _
  | some r => exact hf r

/-- The dump that `isInforeg` asks for, and what comes next. -/
theorem ComposesRounds.informed (h : ComposesRounds K P) {c : Prop} [Decidable c]
    {next : DbgM σ α} (hnext : P α next) : P α (do
      if c then
        let _ ← Debugger.infoRegistersAll K
      next) :=
  h.ite (h.bind h.infoRegistersAll fun _ => hnext) hnext

theorem ComposesRounds.setRegister (h : ComposesRounds K P) (reg : String) (value : Word) :
    P Int (setRegister K reg value) := by
  apply h.bind h.get
  intro d
  apply h.bind (h.setRegs _)
  intro _
  apply h.bind h.get
  intro d
  apply h.bind (h.request _)
  intro written
  exact h.ite (h.said _ _ _ _) (h.pure _)

theorem ComposesRounds.restoreBreakpoint (h : ComposesRounds K P) (b : Breakpoint) (a : Addr) :
    P Int (restoreBreakpoint K b a) := by
  apply h.bind (h.log _ _ _)
  intro _
  apply h.bind (h.request _)
  intro poked
  apply h.ite (h.said _ _ _ _)
  apply h.readRegs
  intro r
  apply h.bind (h.setRegs _)
  intro _
  apply h.bind (h.request _)
  intro written
  apply h.ite (h.said _ _ _ _)
  apply h.bind (h.request _)
  intro stepped
  apply h.ite (h.said _ _ _ _)
  apply h.bind (h.log _ _ _)
  intro _
  apply h.bind h.wait
  intro ret
  exact h.ite (h.pure _) (h.said _ _ _ _)

theorem ComposesRounds.restoreThen (h : ComposesRounds K P) (b : Breakpoint) (a : Addr)
    (o : Option Int) : P (Option Int) (do
      if (← Debugger.restoreBreakpoint K b a) < -1 then
        return some (-1)
      return o) :=
  h.bind (h.restoreBreakpoint b a) fun _ => h.ite (h.pure _) (h.pure _)

theorem ComposesRounds.continueAtStop (h : ComposesRounds K P)
    (hsys : ∀ state, P Unit (setSyscallState state)) (r : UserRegs) :
    P _ (continueAtStop K li r) := by
  apply h.bind (h.setRegs r)
  intro _
  apply h.bind (h.log _ _ _)
  intro _
  split
  · apply h.bind h.get
    intro d
    apply h.ite _ (h.pure _)
    apply h.bind (h.log _ _ _)
    intro _
    apply h.bind (hsys true)
    intro _
    apply h.bind h.get
    intro d
    apply h.ite _ (h.pure _)
    apply h.bind (h.log _ _ _)
    intro _
    exact h.bind h.infoRegistersAll fun _ => h.pure _
  · apply h.bind (h.log _ _ _)
    intro _
    apply h.ite
    · apply h.bind (h.log _ _ _)
      intro _
      apply h.bind h.get
      intro d
      apply h.informed
      apply h.bind (h.log _ _ _)
      intro _
      exact h.bind h.get fun _ => h.restoreThen _ _ _
    · exact h.bind (h.log _ _ _) fun _ => h.restoreThen _ _ _

theorem ComposesRounds.continueFromWait (h : ComposesRounds K P)
    (hsys : ∀ state, P Unit (setSyscallState state)) : P _ (continueFromWait K li) := by
  apply h.bind h.wait
  intro ret
  apply h.ite (h.pure _)
  exact h.ite (h.readRegs _ fun r => h.continueAtStop hsys r) (h.pure _)

theorem ComposesRounds.continueRound (h : ComposesRounds K P)
    (hsys : ∀ state, P Unit (setSyscallState state)) : P _ (continueRound K li) := by
  have hreq : ∀ req : Int → σ → Bool × σ, P (Option Int) (do
      if !(← ptrace req) then
        Debugger.log .pError "Ptrace error" []
        return some (-1)
      Debugger.continueFromWait K li) := by
    intro req
    apply h.bind (h.request req)
    intro resumed
    exact h.ite (h.said _ _ _ _) (h.continueFromWait hsys)
  have hrest : P (Option Int) (do
      Debugger.log .info "Continuing execution...\n" []
      if (← MonadState.get).debug.isSystrace then
        Debugger.log .debug "stopping at syscalls\n" []
        if !(← ptrace K.syscall) then
          Debugger.log .pError "Ptrace error" []
          return some (-1)
      else
        if !(← ptrace K.cont) then
          Debugger.log .pError "Ptrace error" []
          return some (-1)
      Debugger.continueFromWait K li) := by
    apply h.bind (h.log _ _ _)
    intro _
    apply h.bind h.get
    intro d
    exact h.ite (h.bind (h.log _ _ _) fun _ => hreq _) (hreq _)
  apply h.bind h.get
  intro d
  exact h.ite (h.bind (hsys false) fun _ => hrest) hrest

theorem ComposesRounds.continueExecution (h : ComposesRounds K P)
    (hsys : ∀ state, P Unit (setSyscallState state)) (n : Nat) :
    P Int (continueExecution K li n) := by
  induction n with
  | zero => exact h.noReturn
  | succ n ih =>
    apply h.bind (h.continueRound hsys)
    intro o
    cases o with
    | some ret => exact h.pure _
    | none => exact h.bind ih fun _ => h.pure _

theorem ComposesRounds.stepXAtStop (h : ComposesRounds K P) (i : Nat) (r : UserRegs) :
    P _ (stepXAtStop K li i r) := by
  apply h.bind (h.setRegs r)
  intro _
  split
  · exact h.pure _
  · apply h.ite _ (h.restoreThen _ _ _)
    exact h.bind (h.log _ _ _) fun _ => h.restoreThen _ _ _

theorem ComposesRounds.stepXRound (h : ComposesRounds K P) (i : Nat) :
    P _ (stepXRound K li i) := by
  apply h.bind (h.request _)
  intro stepped
  apply h.ite (h.said _ _ _ _)
  apply h.bind h.wait
  intro ret
  apply h.ite (h.pure _)
  apply h.ite _ (h.pure _)
  apply h.bind h.get
  intro d
  apply h.informed
  exact h.readRegs _ fun r => h.stepXAtStop i r

theorem ComposesRounds.stepXLoop (h : ComposesRounds K P) (i n : Nat) :
    P Int (stepXLoop K li i n) := by
  induction n generalizing i with
  | zero => exact h.bind h.get fun _ => h.said _ _ _ _
  | succ n ih =>
    apply h.bind (h.stepXRound i)
    intro o
    cases o with
    | some ret => exact h.pure _
    | none => exact ih (i + 1)

theorem ComposesRounds.stepAutoAtStop (h : ComposesRounds K P) (r : UserRegs) :
    P _ (stepAutoAtStop K li r) := by
  apply h.bind (h.setRegs r)
  intro _
  split
  · exact h.pure _
  · apply h.ite
    · apply h.bind (h.log _ _ _)
      intro _
      exact h.bind (h.restoreBreakpoint _ _) fun _ => h.pure _
    · exact h.bind (h.restoreBreakpoint _ _) fun _ => h.pure _

theorem ComposesRounds.stepAutoRound (h : ComposesRounds K P) : P _ (stepAutoRound K li) := by
  have hrest : P (Option Int) (do
      if (← MonadState.get).debug.isInforeg then
        let _ ← Debugger.infoRegistersAll K
      let some r ← ptrace K.getregs | do
        Debugger.log .pError "Ptrace error" []
        return some (-1)
      Debugger.stepAutoAtStop K li r) := by
    apply h.bind h.get
    intro d
    apply h.informed
    exact h.readRegs _ fun r => h.stepAutoAtStop r
  apply h.bind (h.request _)
  intro stepped
  apply h.ite (h.said _ _ _ _)
  apply h.bind h.wait
  intro ret
  apply h.ite (h.pure _)
  apply h.ite _ hrest
  apply h.bind h.get
  intro d
  exact h.bind (h.log _ _ _) fun _ => hrest

theorem ComposesRounds.stepAuto (h : ComposesRounds K P) (ret : Int) (n : Nat) :
    P Int (stepAuto K li ret n) := by
  induction n with
  | zero => exact h.noReturn
  | succ n ih =>
    apply h.bind h.stepAutoRound
    intro o
    cases o with
    | some ret => exact h.pure _
    | none => exact h.ite ih (h.pure _)

end Rounds

/-! ## Parts of handlers -/

section Handlers

variable {P : (α : Type) → DbgM σ α → Prop} {T : DbgM σ Turn → Prop} {Q : Prompt → Prop}
  {K : Kernel σ} {env : Loaded σ} {n : Nat} {p : Prompt}

theorem Handles.ite (_ : Handles P T Q) {c : Prop} [Decidable c] {x y : DbgM σ Turn} (hx : T x)
    (hy : T y) : T (if c then x else y) := by
  split
  · exact hx
  · exact hy

/-- Another list or the rest of the input. -/
theorem Handles.relisted (h : Handles P T Q) (hp : Q p) (li : BreakpointList) :
    Q { p with li := li } := h.moved hp rfl

theorem Handles.consumed (h : Handles P T Q) (hp : Q p) (input : List Line) :
    Q { p with input := input } := h.moved hp rfl

/-- A message, and back to the prompt. -/
theorem Handles.saidAtPrompt (h : Handles P T Q) (hp : Q p) (level : Level) (msg : String)
    (args : List LogArg) : T (do
      Debugger.log level msg args
      Debugger.atPrompt p) :=
  h.next (h.log _ _ _) fun _ => h.atPrompt hp

/-- A message, and the end of the loop. -/
theorem Handles.saidReturned (h : Handles P T Q) (level : Level) (msg : String)
    (args : List LogArg) (code : Int) : T (do
      Debugger.log level msg args
      Debugger.returned code) :=
  h.next (h.log _ _ _) fun _ => h.returned code

theorem Handles.complain (h : Handles P T Q) (msg : String) (hp : Q p) : T (complain msg p) :=
  h.saidAtPrompt hp _ _ _

theorem Handles.rejected (h : Handles P T Q) (msgs : StoMessages) (e : StoError) (hp : Q p) :
    T (do
      Debugger.logSto msgs e
      Debugger.atPrompt p) :=
  h.next (h.logSto msgs e) fun _ => h.atPrompt hp

theorem Handles.whenRunning (h : Handles P T Q) {msg : String} {x : DbgM σ Turn} (hp : Q p)
    (hx : T x) : T (whenRunning msg p x) :=
  h.next h.get fun _ => h.ite hx (h.saidAtPrompt hp _ _ _)

theorem Handles.ask (h : Handles P T Q) {msg ioError : String} {onEmpty : Prompt → DbgM σ Turn}
    {onWord : Line → Prompt → DbgM σ Turn} (hp : Q p) (hempty : ∀ q, Q q → T (onEmpty q))
    (hword : ∀ word q, Q q → T (onWord word q)) : T (ask msg ioError p onEmpty onWord) := by
  apply h.next (h.log _ _ _)
  intro _
  cases p.input with
  | nil => exact h.saidReturned _ _ _ _
  | cons word rest => exact h.ite (hempty _ (h.consumed hp _)) (hword word _ (h.consumed hp _))

theorem Handles.afterExit (h : Handles P T Q) {msg : String} (hp : Q p) : T (afterExit msg p) := by
  apply h.next h.get
  intro d
  apply h.next h.get
  intro d'
  exact h.ite (h.saidReturned _ _ _ _) (h.atPrompt hp)

/-! ## Running and stepping -/

/-- What follows a command that resumes the debuggee. -/
theorem Handles.afterCommand (h : Handles P T Q) (msg : String) (ret : Int) (hp : Q p) : T (do
    if ret = exitStatusRet then Debugger.afterExit msg p
    else if ret = -1 then Debugger.returned (-1)
    else Debugger.atPrompt p) :=
  h.ite (h.afterExit hp) (h.ite (h.returned _) (h.atPrompt hp))

theorem Handles.handleContinue (h : Handles P T Q) (hcont : P Int (continueExecution K p.li n))
    (hp : Q p) : T (handleContinue K n p) :=
  h.next hcont fun ret => h.afterCommand _ ret hp

theorem Handles.handleRun (h : Handles P T Q) (hcont : P Int (continueExecution K p.li n))
    (hstart : P Int (startProcess K)) (hp : Q p) : T (handleRun K n p) := by
  have hcontinue := h.handleContinue hcont hp
  apply h.next h.get
  intro d
  apply h.ite _ hcontinue
  apply h.next (h.log _ _ _)
  intro _
  apply h.next h.get
  intro d'
  apply h.ite _ hcontinue
  exact h.next hstart fun _ => h.ite (h.returned _) (h.atPrompt hp)

theorem Handles.handleAuto (h : Handles P T Q) (hauto : ∀ ret, P Int (stepAuto K p.li ret n))
    (hp : Q p) : T (handleAuto K env n p) := by
  apply h.next h.get
  intro d
  exact h.next (hauto _) fun _ => h.ite (h.returned _) (h.atPrompt hp)

theorem Handles.stepBy (h : Handles P T Q) {k : Int} (hstep : P Int (stepX K p.li k)) (hp : Q p) :
    T (stepBy K k p) :=
  h.next hstep fun ret => h.afterCommand _ ret hp

theorem Handles.handleStep (h : Handles P T Q) (hstep : ∀ k, P Int (stepX K p.li k))
    (commands : List Line) (hp : Q p) : T (handleStep K commands p) := by
  unfold Debugger.handleStep
  split
  · exact h.stepBy (hstep 1) hp
  · split
    · exact h.rejected _ _ hp
    · exact h.next (h.log _ _ _) fun _ => h.stepBy (hstep _) hp

/-! ## Breakpoints -/

theorem Handles.placeAt (h : Handles P T Q) (hplace : ∀ li a, P _ (placeBreakpoint K li a))
    (a : Addr) (hp : Q p) : T (placeAt K a p) :=
  h.next (hplace _ a) fun _ => h.atPrompt (h.relisted hp _)

theorem Composes.placeWords (h : Composes P)
    (hplace : ∀ li a, P _ (Debugger.placeBreakpoint K li a)) (words : List Line)
    (li : BreakpointList) : P _ (placeWords K words li) := by
  induction words generalizing li with
  | nil => exact h.pure _
  | cons word words ih =>
    unfold Debugger.placeWords
    split
    · exact h.bind (h.logSto _ _) fun _ => ih li
    · exact h.bind (hplace li _) fun r => ih r.2

theorem Handles.handleBreak (h : Handles P T Q) (hplace : ∀ li a, P _ (placeBreakpoint K li a))
    (commands : List Line) (hp : Q p) : T (handleBreak K commands p) := by
  apply h.whenRunning hp
  apply h.ite
  · apply h.ask hp (fun q hq => h.complain _ hq)
    intro word q hq
    split
    · exact h.rejected _ _ hq
    · exact h.placeAt hplace _ hq
  · exact h.next (h.placeWords hplace _ _) fun _ => h.atPrompt (h.relisted hp _)

theorem Composes.placeLines (h : Composes P)
    (hplace : ∀ li a, P _ (Debugger.placeBreakpoint K li a)) (unit : Int) (words : List Line)
    (li : BreakpointList) : P _ (placeLines K env unit words li) := by
  induction words generalizing li with
  | nil => exact h.pure _
  | cons word words ih =>
    unfold Debugger.placeLines
    split
    · exact h.bind (h.logSto _ _) fun _ => ih li
    · apply h.bind (h.addressOfLine unit _)
      intro a
      exact h.bind (hplace li a) fun r => ih r.2

theorem Handles.handleBreakl (h : Handles P T Q) (hplace : ∀ li a, P _ (placeBreakpoint K li a))
    (commands : List Line) (hp : Q p) : T (handleBreakl K env commands p) := by
  apply h.whenRunning hp
  apply h.next h.get
  intro d
  apply h.ite _ (h.saidAtPrompt hp _ _ _)
  apply h.next (h.log _ _ _)
  intro _
  apply h.ite
  · apply h.ask hp (fun q hq => h.complain _ hq)
    intro word q hq
    split
    · exact h.rejected _ _ hq
    · exact h.next (h.addressOfLine _ _) fun a => h.placeAt hplace a hq
  · exact h.next (h.placeLines hplace _ _ _) fun _ => h.atPrompt (h.relisted hp _)

theorem Handles.deleteWords (h : Handles P T Q) (hremove : ∀ li k, P _ (removeElement K li k))
    (words : List Line) (p : Prompt) (hp : Q p) : T (deleteWords K words p) := by
  induction words generalizing p with
  | nil => exact h.atPrompt hp
  | cons word words ih =>
    unfold Debugger.deleteWords
    split
    · exact h.next (h.logSto _ _) fun _ => ih p hp
    · apply h.next (hremove _ _)
      intro r
      exact h.ite (h.returned _) (ih _ (h.relisted hp _))

/-- What `delete` does once it knows whether its argument is empty. -/
theorem Handles.deleteAfter (h : Handles P T Q) (hremove : ∀ li k, P _ (removeElement K li k))
    (commands : List Line) (hp : Q p) (b : Bool) : T (if b = true then
      Debugger.ask "Enter breakpoint number to remove" "IO error\n" p
        (fun _ => do
          Debugger.log .error "Invalid breakpoint number\n" []
          Debugger.returned (-1))
        fun word p => Debugger.deleteWords K [word] p
      else Debugger.deleteWords K commands.tail p) := by
  apply h.ite
  · apply h.ask hp (fun _ _ => h.saidReturned _ _ _ _)
    exact fun word q hq => h.deleteWords hremove _ q hq
  · exact h.deleteWords hremove _ p hp

theorem Handles.handleDelete (h : Handles P T Q) (hremove : ∀ li k, P _ (removeElement K li k))
    {commands : List Line} (hempty : P Bool (emptyArgument commands)) (hp : Q p) :
    T (handleDelete K commands p) :=
  h.whenRunning hp (h.next hempty fun b => h.deleteAfter hremove commands hp b)

theorem Composes.disableWords (h : Composes P) (hdisable : ∀ li k, P _ (disableBreakpoint li k))
    (words : List Line) (li : BreakpointList) : P _ (disableWords words li) := by
  induction words generalizing li with
  | nil => exact h.pure _
  | cons word words ih =>
    unfold Debugger.disableWords
    split
    · exact h.bind (h.logSto _ _) fun _ => ih li
    · exact h.bind (hdisable li _) fun r => ih r.2

theorem Handles.handleDisable (h : Handles P T Q)
    (hdisable : ∀ li k, P _ (disableBreakpoint li k)) (huncaught : T (throw .uncaughtException))
    (commands : List Line) (hp : Q p) : T (handleDisable commands p) := by
  apply h.ite
  · apply h.ask hp (fun _ _ => h.saidReturned _ _ _ _)
    intro word q hq
    split
    · exact huncaught
    · exact h.next (hdisable _ _) fun _ => h.atPrompt (h.relisted hq _)
  · exact h.next (h.disableWords hdisable _ _) fun _ => h.atPrompt (h.relisted hp _)

/-! ## Lists -/

theorem Handles.handlePrintb (h : Handles P T Q) (hp : Q p) : T (handlePrintb p) :=
  h.whenRunning hp (h.next (h.listBreakpoints _) fun _ => h.atPrompt hp)

theorem Handles.listUnit (h : Handles P T Q) (word : Line) (hp : Q p) :
    T (listUnit env word p) := by
  unfold Debugger.listUnit
  split
  · exact h.rejected _ _ hp
  · exact h.next (h.listSrcLines _ _) fun _ => h.atPrompt hp

theorem Handles.handleList (h : Handles P T Q) (commands : List Line) (hp : Q p) :
    T (handleList env commands p) := by
  apply h.whenRunning hp
  apply h.next h.get
  intro d
  apply h.ite _ (h.saidAtPrompt hp _ _ _)
  split
  · exact h.ask hp (fun q hq => h.complain _ hq) fun word q hq => h.listUnit word hq
  · exact h.listUnit _ hp

theorem Handles.handleListsym (h : Handles P T Q) (hsyms : ∀ k, P Unit (listSymsOf env k))
    (commands : List Line) (hp : Q p) : T (handleListsym env commands p) := by
  apply h.next h.get
  intro d
  apply h.next h.get
  intro d'
  apply h.ite _ (h.atPrompt hp)
  split
  · exact h.next (hsyms _) fun _ => h.atPrompt hp
  · apply h.ite (h.atPrompt hp)
    split
    · exact h.rejected _ _ hp
    · exact h.next (hsyms _) fun _ => h.atPrompt hp

/-- The only command that changes the unit. -/
theorem Handles.handleSelect (h : Handles P T Q) (hunit : ∀ q : Prompt, Q q)
    (commands : List Line) : T (handleSelect env commands p) := by
  apply h.whenRunning (hunit p)
  apply h.next h.get
  intro d
  apply h.ite _ (h.saidAtPrompt (hunit p) _ _ _)
  split
  · apply h.ask (hunit p) (fun q hq => h.complain _ hq)
    intro word q hq
    split
    · exact h.rejected _ _ hq
    · exact h.atPrompt (hunit _)
  · split
    · exact h.rejected _ _ (hunit p)
    · exact h.ite (h.complain _ (hunit _)) (h.saidAtPrompt (hunit _) _ _ _)

/-! ## Registers -/

theorem Handles.handleInfoRegisters (h : Handles P T Q) (hinfo : P Int (infoRegistersAll K))
    (hp : Q p) : T (handleInfoRegisters K p) :=
  h.whenRunning hp (h.next hinfo fun _ => h.atPrompt hp)

theorem Handles.infoOf (h : Handles P T Q) (hinfo : ∀ reg, P Int (infoRegister K reg))
    (word : Line) (hp : Q p) : T (infoOf K word p) :=
  h.next (hinfo _) fun _ => h.ite (h.returned _) (h.atPrompt hp)

/-- What `info` does once it knows whether its argument is empty. -/
theorem Handles.infoAfter (h : Handles P T Q) (hinfo : ∀ reg, P Int (infoRegister K reg))
    (commands : List Line) (hp : Q p) (b : Bool) : T (if b = true then do
      Debugger.log .prompt "Enter a register" []
      let word := p.input.headD []
      if word = [] then Debugger.complain "Invalid register\n" { p with input := p.input.tail }
      else Debugger.infoOf K word { p with input := p.input.tail }
      else Debugger.infoOf K (commands[1]?.getD []) p) := by
  apply h.ite _ (h.infoOf hinfo _ hp)
  apply h.next (h.log _ _ _)
  intro _
  have hrest := h.consumed hp p.input.tail
  exact h.ite (h.complain _ hrest) (h.infoOf hinfo _ hrest)

theorem Handles.handleInfo (h : Handles P T Q) (hinfo : ∀ reg, P Int (infoRegister K reg))
    {commands : List Line} (hempty : P Bool (emptyArgument commands)) (hp : Q p) :
    T (handleInfo K commands p) :=
  h.next hempty fun b => h.infoAfter hinfo commands hp b

theorem Handles.setTo (h : Handles P T Q) (hset : ∀ reg v, P Int (setRegister K reg v))
    (regname word : Line) (invalid : String) (limit : Int) (p : Prompt) (hp : Q p) :
    T (setTo K regname word invalid limit p) := by
  unfold Debugger.setTo
  split
  · exact h.rejected _ _ hp
  · exact h.next (hset _ _) fun _ => h.ite (h.returned _) (h.atPrompt hp)

/-- A `set` of several words is longer than three characters. -/
theorem length_ne_three {command : Line} (h : (tokenize command).headD [] = "set".toList)
    (hone : (tokenize command).length ≠ 1) : command.length ≠ 3 := by
  intro hlen
  have hthree : ((tokenize command).headD []).length = 3 := by rw [h]; rfl
  rcases Nat.lt_or_ge (tokenize command).length 2 with hlt | hge
  · have hzero : tokenize command = [] := List.eq_nil_of_length_eq_zero (by omega)
    rw [hzero] at hthree
    cases hthree
  · have hshort := tokenize_head_length hge
    omega

theorem Handles.handleSet (h : Handles P T Q)
    (hset : ∀ regname word invalid limit q, Q q → T (Debugger.setTo K regname word invalid limit q))
    {command : Line} (hcommand : (tokenize command).headD [] = "set".toList) (hp : Q p) :
    T (handleSet K command (tokenize command) p) := by
  apply h.whenRunning hp
  split
  · apply h.ask hp (fun q hq => h.complain _ hq)
    intro regname q hq
    exact h.ask hq (fun q' hq' => h.complain _ hq')
      fun word q' hq' => hset regname word _ _ q' hq'
  · rename_i hone
    split
    · exact h.ask hp (fun q hq => h.complain _ hq) fun word q hq => hset _ word _ _ q hq
    · rw [if_neg (length_ne_three hcommand hone)]
      exact h.atPrompt hp

theorem Handles.handleExit (h : Handles P T Q) (hkill : T (do
      killProcess K
      Debugger.returned 0)) (hp : Q p) : T (handleExit K p) := by
  apply h.ask hp (fun q hq => h.saidAtPrompt hq _ _ _)
  intro word q hq
  exact h.ite hkill (h.atPrompt hq)

theorem Handles.handleHelp (h : Handles P T Q) (hp : Q p) : T (handleHelp p) :=
  h.saidAtPrompt hp _ _ _

/-! ## Commands -/

/-- Every prompt and every fault will do, and so do the functions that only read the debuggee or
poke it. -/
structure HandlesCommands (K : Kernel σ) (P : (α : Type) → DbgM σ α → Prop)
    (T : DbgM σ Turn → Prop) (Q : Prompt → Prop) : Prop extends Handles P T Q where
  anywhere : ∀ q, Q q
  throw : ∀ {α : Type} (e : Fault), P α (throw e)
  peek : ∀ a, P _ (ptrace fun pid => K.peektext pid a)
  poke : ∀ a w, P _ (ptrace fun pid => K.poketext pid a w)
  infoRegistersAll : P Int (Debugger.infoRegistersAll K)
  infoRegister : ∀ reg, P Int (Debugger.infoRegister K reg)
  killed : T (do
    killProcess K
    Debugger.returned 0)

theorem HandlesCommands.disableBreakpoint (h : HandlesCommands K P T Q) (li : BreakpointList)
    (k : Int) : P _ (disableBreakpoint li k) := by
  unfold Debugger.disableBreakpoint
  split
  · apply h.toComposes.ite
    · apply h.bind (h.log _ _ _)
      exact fun _ => h.bind (h.log _ _ _) fun _ => h.throw _
    · exact h.bind (h.log _ _ _) fun _ => h.throw _
  · exact h.said _ _ _ _

theorem HandlesCommands.emptyArgument (h : HandlesCommands K P T Q) (commands : List Line) :
    P Bool (emptyArgument commands) := by
  unfold Debugger.emptyArgument
  split
  · exact h.throw _
  · exact h.pure _

theorem HandlesCommands.listSymsOf (h : HandlesCommands K P T Q) (prange : Int) :
    P Unit (listSymsOf env prange) := by
  unfold Debugger.listSymsOf
  split
  · exact h.throw _
  · apply h.bind (h.log _ _ _)
    intro _
    apply h.toComposes.ite (h.printEach _ _ _)
    apply h.bind (h.printEach _ _ _)
    exact fun _ => h.toComposes.ite (h.throw _) (h.pure _)

/-- The commands that do not resume the debuggee or set its registers; `R` is what the others
have. -/
theorem HandlesCommands.handle (h : HandlesCommands K P T Q) {command : Line}
    {R : DbgM σ Turn → Prop} (hR : ∀ x, T x → R x)
    (hrun : isOneOf ["run", "r", "continue", "c"] command = true → R (handleRun K n p))
    (hset : (tokenize command).headD [] = "set".toList →
      R (handleSet K command (tokenize command) p))
    (hauto : isOneOf ["auto", "a"] ((tokenize command).headD []) = true → R (handleAuto K env n p))
    (hstep : isOneOf ["step", "s"] ((tokenize command).headD []) = true →
      R (handleStep K (tokenize command) p)) :
    R (handle K env n command p) := by
  have hp := h.anywhere p
  have hplace : ∀ li a, P _ (Debugger.placeBreakpoint K li a) := h.placeBreakpoint h.peek h.poke
  have hremove : ∀ li k, P _ (Debugger.removeElement K li k) := h.removeElement h.peek h.poke
  have hite : ∀ {c : Prop} [Decidable c] {x y : DbgM σ Turn}, (c → R x) → R y →
      R (if c then x else y) := by
    intro c _ x y hx hy
    split
    · exact hx ‹_›
    · exact hy
  apply hite hrun
  apply hite fun _ => hR _ (h.handleList _ hp)
  apply hite fun _ => hR _ (h.handleListsym h.listSymsOf _ hp)
  apply hite fun _ => hR _ (h.handleSelect h.anywhere _)
  apply hite fun _ => hR _ (h.handleBreakl hplace _ hp)
  apply hite fun _ => hR _ (h.handleBreak hplace _ hp)
  apply hite fun _ => hR _ (h.handleInfoRegisters h.infoRegistersAll hp)
  apply hite fun _ => hR _ (h.handlePrintb hp)
  apply hite fun _ => hR _ (h.handleDelete hremove (h.emptyArgument _) hp)
  apply hite fun hfirst => hset (List.mem_singleton.mp (mem_of_isOneOf hfirst))
  apply hite fun _ => hR _ (h.handleDisable h.disableBreakpoint
    (h.next (f := fun _ : Unit => Debugger.atPrompt p) (h.throw .uncaughtException)
      fun _ => h.atPrompt hp) _ hp)
  apply hite fun _ => hR _ (h.handleInfo h.infoRegister (h.emptyArgument _) hp)
  apply hite hauto
  apply hite hstep
  apply hite fun _ => hR _ (h.handleExit h.killed hp)
  exact hite (fun _ => hR _ (h.handleHelp hp)) (hR _ (h.atPrompt hp))

end Handlers

end Zkz.Debugger
