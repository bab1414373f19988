import Zkz.Lib.Paths
import Zkz.Debugger.Turns

/-!
# The deeds of a command

A deed is a call of one of the functions that do a command's work. `plan` reads the deeds off the
text that is typed, without doing any of them.

* `Deed.run`: the call that a deed is.
* `plan`, `turnPlan`: the deeds of a command and of the next turn, from the debugger's flags and the
  lines typed.
* `questions`, `turnQuestions`: how many lines they read behind the command for that.
-/

namespace Zkz.Debugger

open Zkz.Lib BreakpointList

variable {σ : Type}

inductive Deed where
  | start
  | continue
  | step (numberOfSteps : Int)
  | auto
  | place (address : Addr)
  | placeLine (unit lineNumber : Int)
  | remove (breakpointNumber : Int)
  | disable (bNumber : Int)
  | infoRegisters
  | info (reg : Line)
  | set (regname : Line) (value : Word)
  | kill
deriving DecidableEq

/-- The result of a function that does not edit the list. -/
def keepList (li : BreakpointList) (x : DbgM σ Int) : DbgM σ (Int × BreakpointList) := do
  return (← x, li)

/-- The call that is a deed, with its result and the list it leaves; `n` bounds the recursions. -/
def Deed.run (K : Kernel σ) (env : Loaded σ) (n : Nat) (li : BreakpointList) :
    Deed → DbgM σ (Int × BreakpointList)
  | .start => keepList li (startProcess K)
  | .continue => keepList li (continueExecution K li n)
  | .step numberOfSteps => keepList li (stepX K li numberOfSteps)
  | .auto => keepList li do stepAuto K li (env.autoRet (← get)) n
  | .place address => placeBreakpoint K li address
  | .placeLine unit lineNumber => do placeBreakpoint K li (← addressOfLine env unit lineNumber)
  | .remove breakpointNumber => removeElement K li breakpointNumber
  | .disable bNumber => disableBreakpoint li bNumber
  | .infoRegisters => keepList li (infoRegistersAll K)
  | .info reg => keepList li (infoRegister K (String.ofList reg))
  | .set regname value => keepList li (setRegister K (String.ofList regname) value)
  | .kill => keepList li do
    killProcess K
    return 0

/-! ## Plans -/

/-- A deed for a word that is a decimal number. -/
def decimalDeed (deed : Int → Deed) (word : Line) : List Deed :=
  match stoi word with
  | .ok v => [deed v]
  | .error _ => []

/-- A deed for a word that is a hexadecimal number. -/
def hexDeed (deed : Word → Deed) (word : Line) : List Deed :=
  match stoll word with
  | .ok v => [deed (BitVec.ofInt 64 v)]
  | .error _ => []

/-- The line that answers a question, which is empty if there is none. -/
def answer (lines : List Line) (k : Nat) : Line := lines.getD k []

/-- The words a command works on, or the answer to its question. -/
def operands (commands lines : List Line) : List Line :=
  if commands.length < 2 then [answer lines 0] else commands.tail

def planRun (debug : Debug) : List Deed :=
  if !debug.isRunning && debug.pathname.isSome then [.start] else [.continue]

def planBreakl (debug : Debug) (unit : Int) (commands lines : List Line) : List Deed :=
  if debug.isRunning then
    if debug.dwarfState then (operands commands lines).flatMap (decimalDeed (.placeLine unit))
    else []
  else []

def planBreak (debug : Debug) (commands lines : List Line) : List Deed :=
  if debug.isRunning then (operands commands lines).flatMap (hexDeed .place) else []

def planDelete (debug : Debug) (commands lines : List Line) : List Deed :=
  if debug.isRunning then
    (if commands[1]? = some [] then [answer lines 0] else commands.tail).flatMap
      (decimalDeed .remove)
  else []

/-- A register without a name is not set. -/
def planSet (debug : Debug) (command : Line) (commands lines : List Line) : List Deed :=
  if debug.isRunning then
    if commands.length = 1 then
      if answer lines 0 = [] then [] else hexDeed (.set (answer lines 0)) (answer lines 1)
    else match commands with
      | [_, regname] => hexDeed (.set regname) (answer lines 0)
      | _ =>
        if command.length = 3 then
          match commands[1]?, commands[2]? with
          | some regname, some word => hexDeed (.set regname) word
          | _, _ => []
        else []
  else []

def planDisable (commands lines : List Line) : List Deed :=
  (operands commands lines).flatMap (decimalDeed .disable)

def planInfo (commands lines : List Line) : List Deed :=
  if commands[1]? = some [] then
    if answer lines 0 = [] then [] else [.info (answer lines 0)]
  else [.info (commands[1]?.getD [])]

def planStep (commands : List Line) : List Deed :=
  match commands[1]? with
  | none => [.step 1]
  | some word => decimalDeed .step word

def planExit (lines : List Line) : List Deed :=
  if answer lines 0 = "yes".toList ∨ answer lines 0 = "y".toList then [.kill] else []

/-- The deeds of a command, in order; `lines` is the input that follows it. -/
def plan (debug : Debug) (unit : Int) (command : Line) (lines : List Line) : List Deed :=
  let commands := tokenize command
  let first := commands.headD []
  if isOneOf ["run", "r", "continue", "c"] command then planRun debug
  else if isOneOf ["list"] first then []
  else if isOneOf ["listsym"] first then []
  else if isOneOf ["select"] first then []
  else if isOneOf ["breakl", "bl"] first then planBreakl debug unit commands lines
  else if isOneOf ["break", "b"] first then planBreak debug commands lines
  else if isOneOf ["info registers", "i r", "i registers", "info r"] command then
    if debug.isRunning then [.infoRegisters] else []
  else if isOneOf ["printb"] command then []
  else if isOneOf ["delete", "del", "d"] first then planDelete debug commands lines
  else if isOneOf ["set"] first then planSet debug command commands lines
  else if isOneOf ["disable", "dis"] first then planDisable commands lines
  else if isOneOf ["info"] first then planInfo commands lines
  else if isOneOf ["auto", "a"] first then [.auto]
  else if isOneOf ["step", "s"] first then planStep commands
  else if isOneOf ["exit"] command then planExit lines
  else []

/-- The plan of the next turn. An empty line is no command. -/
def turnPlan (debug : Debug) (p : Prompt) : List Deed :=
  match p.input with
  | [] => []
  | command :: lines =>
    if command = [] then [] else plan debug p.defaultCompilationUnit command lines

/-! ## Questions -/

/-- A command without arguments asks for one. -/
def questionsOperand (commands : List Line) : Nat := if commands.length < 2 then 1 else 0

/-- The questions of a command that needs the line table. -/
def questionsLines (debug : Debug) (commands : List Line) : Nat :=
  if debug.isRunning then
    if debug.dwarfState then questionsOperand commands else 0
  else 0

def questionsBreak (debug : Debug) (commands : List Line) : Nat :=
  if debug.isRunning then questionsOperand commands else 0

/-- The question of a command that looks at its first argument without counting them. -/
def questionsFirst (commands : List Line) : Nat := if commands[1]? = some [] then 1 else 0

def questionsDelete (debug : Debug) (commands : List Line) : Nat :=
  if debug.isRunning then questionsFirst commands else 0

/-- A register without a name is not asked for its value. -/
def questionsSet (debug : Debug) (commands lines : List Line) : Nat :=
  if debug.isRunning then
    if commands.length = 1 then
      if answer lines 0 = [] then 1 else 2
    else if commands.length = 2 then 1 else 0
  else 0

/-- The number of questions a command asks, one line of the input each. -/
def questions (debug : Debug) (command : Line) (lines : List Line) : Nat :=
  let commands := tokenize command
  let first := commands.headD []
  if isOneOf ["run", "r", "continue", "c"] command then 0
  else if isOneOf ["list"] first then questionsLines debug commands
  else if isOneOf ["listsym"] first then 0
  else if isOneOf ["select"] first then questionsLines debug commands
  else if isOneOf ["breakl", "bl"] first then questionsLines debug commands
  else if isOneOf ["break", "b"] first then questionsBreak debug commands
  else if isOneOf ["info registers", "i r", "i registers", "info r"] command then 0
  else if isOneOf ["printb"] command then 0
  else if isOneOf ["delete", "del", "d"] first then questionsDelete debug commands
  else if isOneOf ["set"] first then questionsSet debug commands lines
  else if isOneOf ["disable", "dis"] first then questionsOperand commands
  else if isOneOf ["info"] first then questionsFirst commands
  else if isOneOf ["auto", "a"] first then 0
  else if isOneOf ["step", "s"] first then 0
  else if isOneOf ["exit"] command then 1
  else 0

/-- The questions of the next turn. Without a line there is only the prompt itself. -/
def turnQuestions (debug : Debug) (p : Prompt) : Nat :=
  match p.input with
  | [] => 1
  | command :: lines => if command = [] then 0 else questions debug command lines

end Zkz.Debugger
