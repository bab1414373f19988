import Zkz.Debugger.Loops
import Zkz.Debugger.MainLoop

/-!
# What a turn of the main loop keeps

An invariant of the list of breakpoints and the debugger that messages and the functions of the
commands keep is kept by every turn. A `delete` may keep a weaker one.

* `Framed`: messages keep the invariant.
* `Keeps`: the functions of the commands keep it, `KeepsRemovals`: removals do.
* `mainTurn_keeps`: so does a turn, and `mainTurns_holds`: so do any number of them.
-/

namespace Zkz.Debugger

open Zkz.Lib BreakpointList

variable {σ : Type}

/-- A property that messages keep. -/
def Framed (I : BreakpointList → Main σ → Prop) : Prop :=
  ∀ li d d', I li d → Spoke d d' → I li d'

/-- What holds of the list and the debugger at the prompt that a turn ends with. -/
def Turn.Holds (I : BreakpointList → Main σ → Prop) : Turn → Main σ → Prop
  | .prompt p, d => I p.li d
  | .returned _, _ => True

theorem Turn.Holds.reduced {I : BreakpointList → Main σ → Prop} {t : Turn} {d : Main σ}
    (h : t.Holds I d) : t.reduced.Holds I d := by
  cases t with
  | prompt p => exact h
  | returned code => trivial

theorem debuggerLoop_post {K : Kernel σ} {env : Loaded σ} {n m : Nat} {input : List Line}
    {d : Main σ} {P : Turn → Main σ → Prop}
    (h : Post (mainLoop K env n m input) d fun t d' => P t.reduced d') :
    Post (debuggerLoop K env n m input) d P :=
  post_bind h fun _ _ ht => post_pure ht

/-! ## Messages -/

section Messages

variable {I : BreakpointList → Main σ → Prop} {li : BreakpointList} {p : Prompt} {d : Main σ}

theorem printEach_spoke {α : Type} {msg : String}
    (args : α → List LogArg) (xs : List α) (d : Main σ) :
    Post (printEach msg args xs) d fun _ d' => Spoke d d' := by
  induction xs generalizing d with
  | nil => exact post_pure (Spoke.refl d)
  | cons x xs ih =>
    refine post_bind (log_spoke .print (args x) d) ?_
    intro _ d₁ h₁
    exact post_mono (ih d₁) fun _ _ h₂ => h₁.trans h₂

theorem logSto_spoke {msgs : StoMessages} (e : StoError) (d : Main σ) :
    Post (logSto msgs e) d fun _ d' => Spoke d d' := by
  cases e with
  | invalidArgument => exact log_spoke .error msgs.what d
  | outOfRange => exact log_spoke .error msgs.what d

theorem getMaxLineNumber_spoke (lines : List Lineinfo) (unit : Int) (d : Main σ) :
    Post (getMaxLineNumber lines unit) d fun _ d' => Spoke d d' := by
  refine post_ite (fun _ => ?_) fun _ => post_pure (Spoke.refl d)
  exact post_bind (log_spoke .error [] d) fun _ _ h => post_pure h

theorem getMinLineNumber_spoke (prevMin : Int) (lines : List Lineinfo) (unit : Int)
    (d : Main σ) : Post (getMinLineNumber prevMin lines unit) d fun _ d' => Spoke d d' := by
  refine post_ite (fun _ => ?_) fun _ => post_pure (Spoke.refl d)
  exact post_bind (log_spoke .error [] d) fun _ _ h => post_pure h

theorem outOfLineRange_spoke (prevMin : Int) (lines : List Lineinfo) (unit lineNumber : Int)
    (d : Main σ) :
    Post (outOfLineRange prevMin lines unit lineNumber) d fun _ d' => Spoke d d' := by
  refine post_ite (fun _ => post_pure (Spoke.refl d)) fun _ => ?_
  refine post_bind (getMaxLineNumber_spoke lines unit d) ?_
  intro max d₁ h₁
  refine post_ite (fun _ => post_pure h₁) fun _ => ?_
  refine post_bind (getMinLineNumber_spoke prevMin lines unit d₁) ?_
  intro min d₂ h₂
  exact post_pure (h₁.trans h₂)

theorem addressOfLine_spoke (env : Loaded σ) (unit lineNumber : Int) (d : Main σ) :
    Post (addressOfLine env unit lineNumber) d fun _ d' => Spoke d d' := by
  refine post_get_bind ?_
  refine post_bind (outOfLineRange_spoke (env.prevMin d) env.lines unit lineNumber d) ?_
  intro out d₁ h₁
  refine post_ite (fun _ => ?_) fun _ => ?_
  · exact post_bind (log_spoke .error [] d₁) fun _ _ h₂ => post_pure (h₁.trans h₂)
  · split
    · exact post_pure h₁
    · exact post_pure h₁

theorem listSrcLines_spoke (lines : List Lineinfo) (unit : Int) (d : Main σ) :
    Post (listSrcLines lines unit) d fun _ d' => Spoke d d' := by
  refine post_ite (fun _ => ?_) fun _ => ?_
  · exact post_bind (log_spoke .error [] d) fun _ _ h => post_pure h
  · exact post_bind (printEach_spoke _ _ d) fun _ _ h => post_pure h

theorem listSyms_spoke (syms : List Syminfo) (prange : Int) (d : Main σ) :
    Post (listSyms syms prange) d fun _ d' => Spoke d d' := by
  refine post_bind (log_spoke .print [] d) ?_
  intro _ d₁ h₁
  refine post_ite (fun _ => ?_) fun _ => ?_
  · exact post_mono (printEach_spoke _ _ d₁) fun _ _ h₂ => h₁.trans h₂
  · refine post_bind (printEach_spoke _ _ d₁) ?_
    intro _ d₂ h₂
    refine post_ite (fun _ => post_throw _) fun _ => post_pure (h₁.trans h₂)

theorem listBreakpoints_spoke (li : BreakpointList) (d : Main σ) :
    Post (listBreakpoints li) d fun _ d' => Spoke d d' := by
  refine post_bind (log_spoke .print [] d) ?_
  intro _ d₁ h₁
  exact post_mono (printEach_spoke _ _ d₁) fun _ _ h₂ => h₁.trans h₂

/-! ## Parts of handlers -/

theorem atPrompt_holds (h : I p.li d) : Post (atPrompt p) d (Turn.Holds I) := post_pure h

theorem returned_holds (code : Int) (d : Main σ) : Post (returned code) d (Turn.Holds I) :=
  post_pure trivial

/-- Something that only speaks, and what follows it. -/
theorem spoke_bind {α : Type} {x : DbgM σ α} {f : α → DbgM σ Turn}
    {R : Turn → Main σ → Prop} (hI : Framed I) (h : I li d)
    (hx : Post x d fun _ d' => Spoke d d') (hf : ∀ a d', I li d' → Post (f a) d' R) :
    Post (x >>= f) d R :=
  post_bind hx fun a d' hs => hf a d' (hI li d d' h hs)

theorem complain_holds (hI : Framed I) {msg : String} (h : I p.li d) :
    Post (complain msg p) d (Turn.Holds I) :=
  spoke_bind hI h (log_spoke .error [] d) fun _ _ h => atPrompt_holds h

theorem whenRunning_holds (hI : Framed I) {msg : String}
    {x : DbgM σ Turn} (h : I p.li d) (hx : Post x d (Turn.Holds I)) :
    Post (whenRunning msg p x) d (Turn.Holds I) := by
  refine post_get_bind (post_ite (fun _ => hx) fun _ => ?_)
  exact spoke_bind hI h (log_spoke .print [] d) fun _ _ h => atPrompt_holds h

theorem ask_holds (hI : Framed I) {msg ioError : String} {onEmpty : Prompt → DbgM σ Turn}
    {onWord : Line → Prompt → DbgM σ Turn} (h : I p.li d)
    (hempty : ∀ p' d', I p'.li d' → Post (onEmpty p') d' (Turn.Holds I))
    (hword : ∀ word p' d', I p'.li d' → Post (onWord word p') d' (Turn.Holds I)) :
    Post (ask msg ioError p onEmpty onWord) d (Turn.Holds I) := by
  refine spoke_bind hI h (log_spoke .prompt [] d) ?_
  intro _ d₁ h₁
  cases p.input with
  | nil => exact spoke_bind hI h₁ (log_spoke .error [] d₁) fun _ d₂ _ => returned_holds _ d₂
  | cons word rest =>
    exact post_ite (fun _ => hempty _ d₁ h₁) fun _ => hword word _ d₁ h₁

theorem afterExit_holds (hI : Framed I) {msg : String} (h : I p.li d) :
    Post (afterExit msg p) d (Turn.Holds I) := by
  refine post_get_bind (post_get_bind (post_ite (fun _ => ?_) fun _ => atPrompt_holds h))
  exact spoke_bind hI h (log_spoke .prompt [] d) fun _ d₁ _ => returned_holds _ d₁

theorem emptyArgument_bind {commands : List Line} {f : Bool → DbgM σ Turn}
    {R : Turn → Main σ → Prop} (hf : ∀ b, Post (f b) d R) :
    Post (emptyArgument commands >>= f) d R := by
  unfold emptyArgument
  split
  · exact post_bind (post_throw (P := fun _ _ => False) _) fun _ _ h => h.elim
  · exact post_bind_ok rfl (hf _)

end Messages

/-! ## Commands -/

/-- The functions of the commands keep `I`. `atStart` is what the debugger's fields are when a
command is read: `StartProcess` is called before anything has changed. -/
structure Keeps (K : Kernel σ) (atStart : Debug) (I R : BreakpointList → Main σ → Prop) :
    Prop where
  rounds : ∀ li, KeepsRounds K (I li) (R li)
  place : ∀ li a d, I li d → Post (placeBreakpoint K li a) d fun r d' => I r.2 d'
  disable : ∀ li i d, I li d → I (disableAt li i) d
  setregsByValue : ∀ li r d, I li d →
    I li { d with kernel := (K.setregsByValue d.debug.pid r d.kernel).2 }
  startProcess : ∀ li d, I li d → d.debug = atStart → atStart.isRunning = false →
    atStart.pathname.isSome = true → Post (startProcess K) d fun _ d' => I li d'

section Handlers

variable {K : Kernel σ} {n : Nat} {atStart : Debug} {I R : BreakpointList → Main σ → Prop}
  {p : Prompt} {d : Main σ}

theorem Keeps.framed (hK : Keeps K atStart I R) : Framed I :=
  fun li d d' h hs => (hK.rounds li).spoke d d' h hs

theorem Keeps.infoRegister (hK : Keeps K atStart I R) {li : BreakpointList} (reg : String)
    (h : I li d) : Post (infoRegister K reg) d fun _ d' => I li d' := by
  refine (hK.rounds li).readRegs h ?_ ?_
  · intro r d₁ _
    refine post_bind (setRegs_spoke r d₁) ?_
    intro _ d₂ _
    exact post_bind (printEach_spoke _ _ d₂) fun _ _ _ => post_throw _
  · intro d₁ h₁
    exact post_bind ((hK.rounds li).logged h₁ .pError _) fun _ _ h₂ => post_pure h₂

theorem Keeps.setRegister (hK : Keeps K atStart I R) {li : BreakpointList} (reg : String)
    (value : Word) (h : I li d) : Post (setRegister K reg value) d fun _ d' => I li d' := by
  refine post_get_bind (post_bind ((hK.rounds li).setRegs h _) ?_)
  intro _ d₁ h₁
  refine post_get_bind (post_bind_ok (by rfl) ?_)
  have h₂ := hK.setregsByValue li d₁.regs d₁ h₁
  refine post_ite (fun _ => ?_) fun _ => post_pure h₂
  exact post_bind ((hK.rounds li).logged h₂ .pError _) fun _ _ h₃ => post_pure h₃

theorem Keeps.disableBreakpoint (hK : Keeps K atStart I R) {li : BreakpointList} (k : Int)
    (h : I li d) : Post (disableBreakpoint li k) d fun r d' => I r.2 d' := by
  unfold Debugger.disableBreakpoint
  split
  · refine post_ite (fun _ => ?_) fun _ => ?_
    · refine post_bind (log_spoke .error _ _) ?_
      intro _ d₁ _
      exact post_bind (log_spoke .error _ d₁) fun _ _ _ => post_throw _
    · exact post_bind (log_spoke .error _ d) fun _ _ _ => post_throw _
  · refine post_bind (log_spoke .print _ d) ?_
    intro _ d' hs
    exact post_pure (hK.disable li _ d' (hK.framed li d d' h hs))

/-! ## Running and stepping -/

theorem Keeps.handleContinue (hK : Keeps K atStart I R) (h : I p.li d) :
    Post (handleContinue K n p) d (Turn.Holds I) := by
  refine post_bind ((hK.rounds p.li).continueExecution n h) ?_
  intro ret d' h'
  refine post_ite (fun _ => afterExit_holds hK.framed h') fun _ => ?_
  exact post_ite (fun _ => returned_holds _ d') fun _ => atPrompt_holds h'

theorem Keeps.handleRun (hK : Keeps K atStart I R) (hstart : d.debug = atStart) (h : I p.li d) :
    Post (handleRun K n p) d (Turn.Holds I) := by
  refine post_get_bind (post_ite (fun hrun => ?_) fun _ => hK.handleContinue h)
  refine post_bind (log_spoke .debug [] d) ?_
  intro _ d₁ hs
  have h₁ := hK.framed p.li d d₁ h hs
  have hd₁ := hs.debug.trans hstart
  refine post_get_bind (post_ite (fun hpath => ?_) fun _ => hK.handleContinue h₁)
  rw [hd₁] at hpath
  rw [hstart] at hrun
  refine post_bind (hK.startProcess p.li d₁ h₁ hd₁ (by simpa using hrun) hpath) ?_
  intro ret d₂ h₂
  exact post_ite (fun _ => returned_holds _ d₂) fun _ => atPrompt_holds h₂

theorem Keeps.handleAuto (hK : Keeps K atStart I R) (env : Loaded σ) (h : I p.li d) :
    Post (handleAuto K env n p) d (Turn.Holds I) := by
  refine post_get_bind (post_bind ((hK.rounds p.li).stepAuto _ n h) ?_)
  intro ret d' h'
  exact post_ite (fun _ => returned_holds _ d') fun _ => atPrompt_holds h'

theorem Keeps.stepBy (hK : Keeps K atStart I R) (k : Int) (h : I p.li d) :
    Post (stepBy K k p) d (Turn.Holds I) := by
  refine post_bind ((hK.rounds p.li).stepX k h) ?_
  intro ret d' h'
  refine post_ite (fun _ => afterExit_holds hK.framed h') fun _ => ?_
  exact post_ite (fun _ => returned_holds _ d') fun _ => atPrompt_holds h'

theorem Keeps.handleStep (hK : Keeps K atStart I R) (commands : List Line) (h : I p.li d) :
    Post (handleStep K commands p) d (Turn.Holds I) := by
  unfold Debugger.handleStep
  split
  · exact hK.stepBy 1 h
  · split
    · exact spoke_bind hK.framed h (logSto_spoke _ d)
        fun _ _ h' => atPrompt_holds h'
    · exact spoke_bind hK.framed h (log_spoke .debug _ d)
        fun _ _ h' => hK.stepBy _ h'

/-! ## Breakpoints -/

theorem Keeps.placeAt (hK : Keeps K atStart I R) (a : Addr) (h : I p.li d) :
    Post (placeAt K a p) d (Turn.Holds I) := by
  refine post_bind (hK.place p.li a d h) ?_
  intro r d' h'
  exact post_pure h'

theorem Keeps.placeWords (hK : Keeps K atStart I R) (words : List Line) (li : BreakpointList)
    (d : Main σ) (h : I li d) : Post (placeWords K words li) d I := by
  induction words generalizing li d with
  | nil => exact post_pure h
  | cons word words ih =>
    unfold Debugger.placeWords
    split
    · refine post_bind (logSto_spoke _ d) ?_
      intro _ d' hs
      exact ih li d' (hK.framed li d d' h hs)
    · refine post_bind (hK.place li _ d h) ?_
      intro r d' h'
      exact ih r.2 d' h'

theorem Keeps.handleBreak (hK : Keeps K atStart I R) (commands : List Line) (h : I p.li d) :
    Post (handleBreak K commands p) d (Turn.Holds I) := by
  refine whenRunning_holds hK.framed h (post_ite (fun _ => ?_) fun _ => ?_)
  · refine ask_holds hK.framed h
      (fun p' d' h' => complain_holds hK.framed h') ?_
    intro word p' d' h'
    split
    · exact spoke_bind hK.framed h' (logSto_spoke _ d')
        fun _ _ h₁ => atPrompt_holds h₁
    · exact hK.placeAt _ h'
  · refine post_bind (hK.placeWords commands.tail p.li d h) ?_
    intro li d' h'
    exact post_pure h'

theorem Keeps.placeLines (hK : Keeps K atStart I R) (env : Loaded σ) (unit : Int)
    (words : List Line) (li : BreakpointList) (d : Main σ) (h : I li d) :
    Post (placeLines K env unit words li) d I := by
  induction words generalizing li d with
  | nil => exact post_pure h
  | cons word words ih =>
    unfold Debugger.placeLines
    split
    · refine post_bind (logSto_spoke _ d) ?_
      intro _ d' hs
      exact ih li d' (hK.framed li d d' h hs)
    · refine post_bind (addressOfLine_spoke env unit _ d) ?_
      intro a d₁ hs
      refine post_bind (hK.place li a d₁ (hK.framed li d d₁ h hs)) ?_
      intro r d' h'
      exact ih r.2 d' h'

theorem Keeps.handleBreakl (hK : Keeps K atStart I R) (env : Loaded σ) (commands : List Line)
    (h : I p.li d) : Post (handleBreakl K env commands p) d (Turn.Holds I) := by
  refine whenRunning_holds hK.framed h ?_
  refine post_get_bind (post_ite (fun _ => ?_) fun _ => ?_)
  · refine spoke_bind hK.framed h (log_spoke .debug [] d) ?_
    intro _ d₁ h₁
    refine post_ite (fun _ => ?_) fun _ => ?_
    · refine ask_holds hK.framed h₁
        (fun p' d' h' => complain_holds hK.framed h') ?_
      intro word p' d' h'
      split
      · exact spoke_bind hK.framed h' (logSto_spoke _ d')
          fun _ _ h₂ => atPrompt_holds h₂
      · exact spoke_bind hK.framed h' (addressOfLine_spoke env _ _ d')
          fun a _ h₂ => hK.placeAt a h₂
    · refine post_bind (hK.placeLines env _ commands.tail p.li d₁ h₁) ?_
      intro li d' h'
      exact post_pure h'
  · exact spoke_bind hK.framed h (log_spoke .print [] d)
      fun _ _ h' => atPrompt_holds h'

theorem Keeps.disableWords (hK : Keeps K atStart I R) (words : List Line) (li : BreakpointList)
    (d : Main σ) (h : I li d) : Post (disableWords words li) d I := by
  induction words generalizing li d with
  | nil => exact post_pure h
  | cons word words ih =>
    unfold Debugger.disableWords
    split
    · refine post_bind (logSto_spoke _ d) ?_
      intro _ d' hs
      exact ih li d' (hK.framed li d d' h hs)
    · refine post_bind (hK.disableBreakpoint _ h) ?_
      intro r d' h'
      exact ih r.2 d' h'

theorem Keeps.handleDisable (hK : Keeps K atStart I R) (commands : List Line) (h : I p.li d) :
    Post (handleDisable commands p) d (Turn.Holds I) := by
  refine post_ite (fun _ => ?_) fun _ => ?_
  · refine ask_holds hK.framed h ?_ ?_
    · intro p' d' h'
      exact spoke_bind hK.framed h' (log_spoke .error [] d')
        fun _ d₁ _ => returned_holds _ d₁
    · intro word p' d' h'
      split
      · exact post_throw _
      · refine post_bind (hK.disableBreakpoint _ h') ?_
        intro r d₁ h₁
        exact post_pure h₁
  · refine post_bind (hK.disableWords commands.tail p.li d h) ?_
    intro li d' h'
    exact post_pure h'

/-- The removals of a `delete` keep `J`. -/
structure KeepsRemovals (K : Kernel σ) (J : BreakpointList → Main σ → Prop) : Prop where
  framed : Framed J
  remove : ∀ li k d, J li d → Post (removeElement K li k) d fun r d' => J r.2 d'

variable {J : BreakpointList → Main σ → Prop}

theorem KeepsRemovals.deleteWords (hJ : KeepsRemovals K J) (words : List Line) (p : Prompt)
    (d : Main σ) (h : J p.li d) : Post (deleteWords K words p) d (Turn.Holds J) := by
  induction words generalizing p d with
  | nil => exact atPrompt_holds h
  | cons word words ih =>
    unfold Debugger.deleteWords
    split
    · refine spoke_bind hJ.framed h (logSto_spoke _ d) ?_
      intro _ d' h'
      exact ih p d' h'
    · refine post_bind (hJ.remove p.li _ d h) ?_
      intro r d' h'
      exact post_ite (fun _ => returned_holds _ d') fun _ => ih { p with li := r.2 } d' h'

theorem KeepsRemovals.handleDelete (hJ : KeepsRemovals K J) (commands : List Line)
    (h : J p.li d) : Post (handleDelete K commands p) d (Turn.Holds J) := by
  refine whenRunning_holds hJ.framed h (emptyArgument_bind fun b => ?_)
  refine post_ite (fun _ => ?_) fun _ => hJ.deleteWords _ p d h
  refine ask_holds hJ.framed h ?_ ?_
  · intro p' d' h'
    exact spoke_bind hJ.framed h' (log_spoke .error [] d')
      fun _ d₁ _ => returned_holds _ d₁
  · intro word p' d' h'
    exact hJ.deleteWords [word] p' d' h'

/-! ## Lists and registers -/

theorem Framed.handlePrintb (hI : Framed I) (h : I p.li d) :
    Post (handlePrintb p) d (Turn.Holds I) :=
  whenRunning_holds hI h
    (spoke_bind hI h (listBreakpoints_spoke p.li d) fun _ _ h' => atPrompt_holds h')

theorem Framed.listUnit (hI : Framed I) (env : Loaded σ) (word : Line) (h : I p.li d) :
    Post (listUnit env word p) d (Turn.Holds I) := by
  unfold Debugger.listUnit
  split
  · exact spoke_bind hI h (logSto_spoke _ d)
      fun _ _ h' => atPrompt_holds h'
  · exact spoke_bind hI h (listSrcLines_spoke env.lines _ d) fun _ _ h' => atPrompt_holds h'

theorem Framed.handleList (hI : Framed I) (env : Loaded σ) (commands : List Line)
    (h : I p.li d) : Post (handleList env commands p) d (Turn.Holds I) := by
  refine whenRunning_holds hI h ?_
  refine post_get_bind (post_ite (fun _ => ?_) fun _ => ?_)
  · split
    · exact ask_holds hI h
        (fun p' d' h' => complain_holds hI h')
        fun word p' d' h' => hI.listUnit env word h'
    · exact hI.listUnit env _ h
  · exact spoke_bind hI h (log_spoke .print [] d) fun _ _ h' => atPrompt_holds h'

theorem listSymsOf_spoke (env : Loaded σ) (prange : Int) (d : Main σ) :
    Post (listSymsOf env prange) d fun _ d' => Spoke d d' := by
  unfold listSymsOf
  split
  · exact post_throw _
  · exact listSyms_spoke _ prange d

theorem Framed.handleListsym (hI : Framed I) (env : Loaded σ) (commands : List Line)
    (h : I p.li d) : Post (handleListsym env commands p) d (Turn.Holds I) := by
  refine post_get_bind (post_get_bind (post_ite (fun _ => ?_) fun _ => atPrompt_holds h))
  split
  · exact spoke_bind hI h (listSymsOf_spoke env _ d) fun _ _ h' => atPrompt_holds h'
  · refine post_ite (fun _ => atPrompt_holds h) fun _ => ?_
    split
    · exact spoke_bind hI h (logSto_spoke _ d)
        fun _ _ h' => atPrompt_holds h'
    · exact spoke_bind hI h (listSymsOf_spoke env _ d) fun _ _ h' => atPrompt_holds h'

theorem Framed.handleSelect (hI : Framed I) (env : Loaded σ) (commands : List Line)
    (h : I p.li d) : Post (handleSelect env commands p) d (Turn.Holds I) := by
  refine whenRunning_holds hI h ?_
  refine post_get_bind (post_ite (fun _ => ?_) fun _ => ?_)
  · split
    · refine ask_holds hI h
        (fun p' d' h' => complain_holds hI h') ?_
      intro word p' d' h'
      split
      · exact spoke_bind hI h' (logSto_spoke _ d')
          fun _ _ h₁ => atPrompt_holds h₁
      · exact post_pure h'
    · split
      · exact spoke_bind hI h (logSto_spoke _ d)
          fun _ _ h' => atPrompt_holds h'
      · refine post_ite (fun _ => ?_) fun _ => ?_
        · exact spoke_bind hI h (log_spoke .error [] d) fun _ _ h' => post_pure h'
        · exact spoke_bind hI h (log_spoke .print _ d) fun _ _ h' => post_pure h'
  · exact spoke_bind hI h (log_spoke .print [] d) fun _ _ h' => atPrompt_holds h'

theorem Keeps.handleInfoRegisters (hK : Keeps K atStart I R) (h : I p.li d) :
    Post (handleInfoRegisters K p) d (Turn.Holds I) := by
  refine whenRunning_holds hK.framed h ?_
  exact post_bind ((hK.rounds p.li).infoRegistersAll h) fun _ _ h' => atPrompt_holds h'

theorem Keeps.infoOf (hK : Keeps K atStart I R) (word : Line) (h : I p.li d) :
    Post (infoOf K word p) d (Turn.Holds I) := by
  refine post_bind (hK.infoRegister _ h) ?_
  intro ret d' h'
  exact post_ite (fun _ => returned_holds _ d') fun _ => atPrompt_holds h'

theorem Keeps.handleInfo (hK : Keeps K atStart I R) (commands : List Line) (h : I p.li d) :
    Post (handleInfo K commands p) d (Turn.Holds I) := by
  refine emptyArgument_bind fun b => post_ite (fun _ => ?_) fun _ => hK.infoOf _ h
  refine spoke_bind hK.framed h (log_spoke .prompt [] d) ?_
  intro _ d' h'
  refine post_ite (fun _ => ?_) fun _ => ?_
  · exact spoke_bind hK.framed h' (log_spoke .error [] d') fun _ _ h₁ => post_pure h₁
  · exact hK.infoOf _ h'

theorem Keeps.setTo (hK : Keeps K atStart I R) (regname word : Line) {invalid : String}
    (limit : Int) (h : I p.li d) :
    Post (setTo K regname word invalid limit p) d (Turn.Holds I) := by
  unfold Debugger.setTo
  split
  · exact spoke_bind hK.framed h (logSto_spoke _ d) fun _ _ h' => atPrompt_holds h'
  · refine post_bind (hK.setRegister _ _ h) ?_
    intro ret d' h'
    exact post_ite (fun _ => returned_holds _ d') fun _ => atPrompt_holds h'

theorem Keeps.handleSet (hK : Keeps K atStart I R) (command : Line) (commands : List Line)
    (h : I p.li d) : Post (handleSet K command commands p) d (Turn.Holds I) := by
  refine whenRunning_holds hK.framed h (post_ite (fun _ => ?_) fun _ => ?_)
  · refine ask_holds hK.framed h
      (fun p' d' h' => complain_holds hK.framed h') ?_
    intro regname p' d' h'
    exact ask_holds hK.framed h'
      (fun p₁ d₁ h₁ => complain_holds hK.framed h₁)
      fun word p₁ d₁ h₁ => hK.setTo regname word _ h₁
  · split
    · exact ask_holds hK.framed h
        (fun p₁ d₁ h₁ => complain_holds hK.framed h₁)
        fun word p₁ d₁ h₁ => hK.setTo _ word _ h₁
    · refine post_ite (fun _ => ?_) fun _ => atPrompt_holds h
      split
      · exact hK.setTo _ _ _ h
      · exact post_throw _

theorem Framed.handleExit (hI : Framed I) (h : I p.li d) :
    Post (handleExit K p) d (Turn.Holds I) := by
  refine ask_holds hI h ?_ ?_
  · intro p' d' h'
    exact spoke_bind hI h' (log_spoke .print [] d') fun _ _ h₁ => atPrompt_holds h₁
  · intro word p' d' h'
    refine post_ite (fun _ => ?_) fun _ => atPrompt_holds h'
    exact post_bind_ok rfl (returned_holds _ _)

theorem Framed.handleHelp (hI : Framed I) (h : I p.li d) :
    Post (handleHelp p) d (Turn.Holds I) :=
  spoke_bind hI h (log_spoke .print [] d) fun _ _ h' => atPrompt_holds h'

/-! ## Turns -/

/-- A command keeps `I`, or `J` if it is a `delete`. -/
theorem handle_keeps (hK : Keeps K atStart I R) (hJ : KeepsRemovals K J) (env : Loaded σ)
    (command : Line) (hstart : d.debug = atStart) (h : I p.li d) (h' : J p.li d) :
    Post (handle K env n command p) d (Turn.Holds fun li d => I li d ∨ J li d) := by
  have hleft : ∀ {x : DbgM σ Turn}, Post x d (Turn.Holds I) →
      Post x d (Turn.Holds fun li d => I li d ∨ J li d) := by
    intro x hx
    refine post_mono hx ?_
    intro t d' ht
    cases t with
    | prompt p => exact Or.inl ht
    | returned code => trivial
  have hright : ∀ {x : DbgM σ Turn}, Post x d (Turn.Holds J) →
      Post x d (Turn.Holds fun li d => I li d ∨ J li d) := by
    intro x hx
    refine post_mono hx ?_
    intro t d' ht
    cases t with
    | prompt p => exact Or.inr ht
    | returned code => trivial
  have hI := hK.framed
  refine post_ite (fun _ => hleft (hK.handleRun hstart h)) fun _ => ?_
  refine post_ite (fun _ => hleft (hI.handleList env _ h)) fun _ => ?_
  refine post_ite (fun _ => hleft (hI.handleListsym env _ h)) fun _ => ?_
  refine post_ite (fun _ => hleft (hI.handleSelect env _ h)) fun _ => ?_
  refine post_ite (fun _ => hleft (hK.handleBreakl env _ h)) fun _ => ?_
  refine post_ite (fun _ => hleft (hK.handleBreak _ h)) fun _ => ?_
  refine post_ite (fun _ => hleft (hK.handleInfoRegisters h)) fun _ => ?_
  refine post_ite (fun _ => hleft (hI.handlePrintb h)) fun _ => ?_
  refine post_ite (fun _ => hright (hJ.handleDelete _ h')) fun _ => ?_
  refine post_ite (fun _ => hleft (hK.handleSet command _ h)) fun _ => ?_
  refine post_ite (fun _ => hleft (hK.handleDisable _ h)) fun _ => ?_
  refine post_ite (fun _ => hleft (hK.handleInfo _ h)) fun _ => ?_
  refine post_ite (fun _ => hleft (hK.handleAuto env h)) fun _ => ?_
  refine post_ite (fun _ => hleft (hK.handleStep _ h)) fun _ => ?_
  refine post_ite (fun _ => hleft (hI.handleExit h)) fun _ => ?_
  exact post_ite (fun _ => hleft (hI.handleHelp h)) fun _ => hleft (atPrompt_holds h)

/-- A turn keeps `I`, or `J` if its command is a `delete`. -/
theorem mainTurn_keeps (hK : Keeps K atStart I R) (hJ : KeepsRemovals K J) (env : Loaded σ)
    (hstart : d.debug = atStart) (h : I p.li d) (h' : J p.li d) :
    Post (mainTurn K env n p) d (Turn.Holds fun li d => I li d ∨ J li d) := by
  refine post_bind (log_spoke .prompt [] d) ?_
  intro _ d₁ hs
  have h₁ := hK.framed p.li d d₁ h hs
  have h₁' := hJ.framed p.li d d₁ h' hs
  have hd₁ := hs.debug.trans hstart
  split
  · exact post_bind (log_spoke .error [] d₁) fun _ d₂ _ => returned_holds _ d₂
  · exact post_ite (fun _ => post_pure (Or.inl h₁))
      fun _ => handle_keeps hK hJ env _ hd₁ h₁ h₁'

/-- What every turn keeps holds at every prompt. -/
theorem mainTurns_holds {env : Loaded σ}
    (hturn : ∀ p d, I p.li d → Post (mainTurn K env n p) d (Turn.Holds I)) (m : Nat) (p : Prompt)
    (d : Main σ) (h : I p.li d) : Post (mainTurns K env n m p) d (Turn.Holds I) := by
  induction m generalizing p d with
  | zero => exact atPrompt_holds h
  | succ m ih =>
    refine post_bind (hturn p d h) ?_
    intro t d' ht
    cases t with
    | prompt p' => exact ih p' d' ht
    | returned code => exact returned_holds code d'

end Handlers

end Zkz.Debugger
