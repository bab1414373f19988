import Zkz.Debugger.Tables
import Zkz.Debugger.Text

/-!
# The main loop

`MainLoop` reads a command, performs it and comes back to its prompt, until it returns. The
handler of each command is a function of its own here; a handler may read further lines of
the input, and it ends with a `Turn`.
-/

namespace Zkz.Debugger

open Zkz.Lib BreakpointList

variable {σ : Type}

/-! ## Prompts -/

/-- The variables of `MainLoop` at its prompt, and the lines of input that are left. Every line
of the input ends with a newline. -/
structure Prompt where
  li : BreakpointList
  defaultCompilationUnit : Int
  input : List Line

/-- How a command ends. -/
inductive Turn where
  | prompt (p : Prompt)
  | returned (code : Int)

/-- What is read off the prompt, `otherwise` if there is none. -/
def Turn.elim {α : Type} (otherwise : α) (read : Prompt → α) : Turn → α
  | .prompt p => read p
  | .returned _ => otherwise

/-- What is loaded before the main loop starts, and the values of the two local variables that
are read without being set, which may differ from call to call. -/
structure Loaded (σ : Type) where
  lines : List Lineinfo
  dwarfFailed : Bool
  /-- `none` is a null pointer, for a process that was attached. -/
  syms : Option (List Syminfo)
  symsFailed : Bool
  prevMin : Main σ → Int
  autoRet : Main σ → Int

def atPrompt (p : Prompt) : DbgM σ Turn := return .prompt p

def returned (code : Int) : DbgM σ Turn := return .returned code

/-- A handler that does its work only while the program runs. -/
def whenRunning (msg : String) (p : Prompt) (x : DbgM σ Turn) : DbgM σ Turn := do
  if (← get).debug.isRunning then x
  else
    log .print msg []
    atPrompt p

/-- A question that is answered on the next line of the input. -/
def ask (msg ioError : String) (p : Prompt) (onEmpty : Prompt → DbgM σ Turn)
    (onWord : Line → Prompt → DbgM σ Turn) : DbgM σ Turn := do
  log .prompt msg []
  match p.input with
  | [] =>
    log .error ioError []
    returned (-1)
  | word :: rest =>
    if word = [] then onEmpty { p with input := rest }
    else onWord word { p with input := rest }

/-- An error message, and back to the prompt. -/
def complain (msg : String) (p : Prompt) : DbgM σ Turn := do
  log .error msg []
  atPrompt p

/-- The messages of a handler for the two exceptions; `what` is what the exception's `what`
returns, where the message has it. -/
structure StoMessages where
  outOfRange : String
  invalidArgument : String
  what : List LogArg := []

def logSto (msgs : StoMessages) : StoError → DbgM σ Unit
  | .outOfRange => log .error msgs.outOfRange msgs.what
  | .invalidArgument => log .error msgs.invalidArgument msgs.what

/-- `commands[1].empty()`. -/
def emptyArgument (commands : List Line) : DbgM σ Bool :=
  match commands[1]? with
  | none => throw .outOfBounds
  | some word => return word = []

/-! ## Running and stepping -/

/-- What follows the end of the debuggee: without a pathname it cannot be started again. -/
def afterExit (msg : String) (p : Prompt) : DbgM σ Turn := do
  if (← get).debug.pathname.isNone ∧ (← get).debug.pid ≠ 0 then
    log .prompt msg []
    returned exitStatusRet
  else atPrompt p

def handleContinue (K : Kernel σ) (n : Nat) (p : Prompt) : DbgM σ Turn := do
  let ret ← continueExecution K p.li n
  if ret = exitStatusRet then afterExit "Press any key to exit zkz" p
  else if ret = -1 then returned (-1)
  else atPrompt p

def handleRun (K : Kernel σ) (n : Nat) (p : Prompt) : DbgM σ Turn := do
  if !(← get).debug.isRunning then
    log .debug "if program is stopped\n" []
    if (← get).debug.pathname.isSome then
      if (← startProcess K) < 0 then returned (-1)
      else atPrompt p
    else handleContinue K n p
  else handleContinue K n p

def handleAuto (K : Kernel σ) (env : Loaded σ) (n : Nat) (p : Prompt) : DbgM σ Turn := do
  if (← stepAuto K p.li (env.autoRet (← get)) n) < 0 then returned (-1)
  else atPrompt p

def stepBy (K : Kernel σ) (numberOfSteps : Int) (p : Prompt) : DbgM σ Turn := do
  let ret ← stepX K p.li numberOfSteps
  if ret = exitStatusRet then afterExit "[!] Press any key to exit zkz" p
  else if ret = -1 then returned (-1)
  else atPrompt p

def handleStep (K : Kernel σ) (commands : List Line) (p : Prompt) : DbgM σ Turn :=
  match commands[1]? with
  | none => stepBy K 1 p
  | some word => match stoi word with
    | .error e => do
      logSto { outOfRange := "Invalid range\n",
               invalidArgument := "Invalid address or line number\n" } e
      atPrompt p
    | .ok numberOfSteps => do
      log .debug "%d\n" [.int numberOfSteps]
      stepBy K numberOfSteps p

/-! ## Breakpoints -/

def placeAt (K : Kernel σ) (address : Addr) (p : Prompt) : DbgM σ Turn := do
  let r ← placeBreakpoint K p.li address
  atPrompt { p with li := r.2 }

/-- One placement for each word that is a number. -/
def placeWords (K : Kernel σ) : List Line → BreakpointList → DbgM σ BreakpointList
  | [], li => return li
  | word :: words, li => match stoll word with
    | .error e => do
      logSto { outOfRange := "Invalid range :%s\n",
               invalidArgument := "Invalid memory address :%s\n", what := [.str "stoll"] } e
      placeWords K words li
    | .ok v => do
      let r ← placeBreakpoint K li (BitVec.ofInt 64 v)
      placeWords K words r.2

def handleBreak (K : Kernel σ) (commands : List Line) (p : Prompt) : DbgM σ Turn :=
  whenRunning "[!] Process is not running\n" p do
    if commands.length ≤ 1 then
      ask "Enter memory address to place a breakpoint" "IO error\n" p
        (complain "Invalid memory address\n") fun word p => match stoll word with
        | .error e => do
          logSto { outOfRange := "Invalid range :%s\n",
                   invalidArgument := "Invalid memory address :%s\n",
                   what := [.str "stoll"] } e
          atPrompt p
        | .ok v => placeAt K (BitVec.ofInt 64 v) p
    else do
      let li ← placeWords K commands.tail p.li
      atPrompt { p with li := li }

def addressOfLine (env : Loaded σ) (unit lineNumber : Int) : DbgM σ Addr := do
  getAddressByLine (env.prevMin (← get)) env.lines unit lineNumber

def breaklMessages : StoMessages where
  outOfRange := "Invalid range %s\n"
  invalidArgument := "Invalid line number %s\n"
  what := [.str "stoi"]

/-- One placement for each word that is a number. The test `address < 0` of an unsigned address
is never true. -/
def placeLines (K : Kernel σ) (env : Loaded σ) (unit : Int) :
    List Line → BreakpointList → DbgM σ BreakpointList
  | [], li => return li
  | word :: words, li => match stoi word with
    | .error e => do
      logSto breaklMessages e
      placeLines K env unit words li
    | .ok lineNumber => do
      let address ← addressOfLine env unit lineNumber
      let r ← placeBreakpoint K li address
      placeLines K env unit words r.2

def handleBreakl (K : Kernel σ) (env : Loaded σ) (commands : List Line) (p : Prompt) :
    DbgM σ Turn :=
  whenRunning "[!] Process is not running\n" p do
    if (← get).debug.dwarfState then
      log .debug "Breakpoint at line number\n" []
      if commands.length < 2 then
        ask "Enter line to place a breakpoint >" "IO error\n" p
          (complain "Invalid line number\n") fun word p => match stoi word with
          | .error e => do
            logSto breaklMessages e
            atPrompt p
          | .ok lineNumber => do
            let address ← addressOfLine env p.defaultCompilationUnit lineNumber
            placeAt K address p
      else do
        let li ← placeLines K env p.defaultCompilationUnit commands.tail p.li
        atPrompt { p with li := li }
    else do
      log .print "Debug information not available\n" []
      atPrompt p

def deleteMessages : StoMessages where
  outOfRange := "Invalid range : %s\n"
  invalidArgument := "Invalid address or line number : %s\n"
  what := [.str "stoi"]

/-- One removal for each word that is a number, until one fails. -/
def deleteWords (K : Kernel σ) : List Line → Prompt → DbgM σ Turn
  | [], p => atPrompt p
  | word :: words, p => match stoi word with
    | .error e => do
      logSto deleteMessages e
      deleteWords K words p
    | .ok breakpointNumber => do
      let r ← removeElement K p.li breakpointNumber
      if r.1 < 0 then returned (-1)
      else deleteWords K words { p with li := r.2 }

def handleDelete (K : Kernel σ) (commands : List Line) (p : Prompt) : DbgM σ Turn :=
  whenRunning "Program is not running" p do
    if ← emptyArgument commands then
      ask "Enter breakpoint number to remove" "IO error\n" p
        (fun _ => do
          log .error "Invalid breakpoint number\n" []
          returned (-1))
        fun word p => deleteWords K [word] p
    else deleteWords K commands.tail p

/-- One `DisableBreakpoint` for each word that is a number. -/
def disableWords : List Line → BreakpointList → DbgM σ BreakpointList
  | [], li => return li
  | word :: words, li => match stoi word with
    | .error e => do
      logSto { outOfRange := "Invalid range\n",
               invalidArgument := "Invalid address or line number\n" } e
      disableWords words li
    | .ok bNumber => do
      let r ← disableBreakpoint li bNumber
      disableWords words r.2

/-- The conversion of the answer is not in a `try` block. -/
def handleDisable (commands : List Line) (p : Prompt) : DbgM σ Turn :=
  if commands.length < 2 then
    ask "Enter breakpoint number to disable" "IO error\n" p
      (fun _ => do
        log .error "Invalid breakpoint number\n" []
        returned (-1))
      fun word p => match stoi word with
      | .error _ => throw .uncaughtException
      | .ok bNumber => do
        let r ← disableBreakpoint p.li bNumber
        atPrompt { p with li := r.2 }
  else do
    let li ← disableWords commands.tail p.li
    atPrompt { p with li := li }

/-! ## Lists -/

def handlePrintb (p : Prompt) : DbgM σ Turn :=
  whenRunning "Program is not running" p do
    listBreakpoints p.li
    atPrompt p

def listMessages : StoMessages where
  outOfRange := "Invalid range :%s\n"
  invalidArgument := "Invalid unit number :%s\n"
  what := [.str "stoi"]

def listUnit (env : Loaded σ) (word : Line) (p : Prompt) : DbgM σ Turn :=
  match stoi word with
  | .error e => do
    logSto listMessages e
    atPrompt p
  | .ok compilationUnit => do
    let _ ← listSrcLines env.lines compilationUnit
    atPrompt p

def handleList (env : Loaded σ) (commands : List Line) (p : Prompt) : DbgM σ Turn :=
  whenRunning "Program is not running\n" p do
    if (← get).debug.dwarfState then
      match commands[1]? with
      | none =>
        ask "Please select a compilation unit" "IO error" p
          (complain "Invalid unit number.. default unit selected") (listUnit env)
      | some word => listUnit env word p
    else do
      log .print "Debug information not available\n" []
      atPrompt p

def listSymsOf (env : Loaded σ) (prange : Int) : DbgM σ Unit :=
  match env.syms with
  | none => throw .nullPointer
  | some syms => listSyms syms prange

/-- Nothing is printed when the program does not run. -/
def handleListsym (env : Loaded σ) (commands : List Line) (p : Prompt) : DbgM σ Turn := do
  if (← get).debug.isRunning ∧ (← get).debug.symState then
    match commands[1]? with
    | none =>
      listSymsOf env (-1)
      atPrompt p
    | some word =>
      if word = [] then atPrompt p
      else match stoi word with
        | .error e => do
          logSto { outOfRange := "Invalid range %s\n", invalidArgument := "Invalid range %s\n",
                   what := [.str "stoi"] } e
          atPrompt p
        | .ok prange => do
          listSymsOf env prange
          atPrompt p
  else atPrompt p

/-- An answer is not checked against the number of units, an argument is checked once it is
set. -/
def handleSelect (env : Loaded σ) (commands : List Line) (p : Prompt) : DbgM σ Turn :=
  whenRunning "[!] Process is not running\n" p do
    if (← get).debug.dwarfState then
      match commands[1]? with
      | none =>
        ask "Please select a comilation unit\n" "IO error\n" p
          (complain "Invalid comilation unit number\n") fun word p => match stoi word with
          | .error e => do
            logSto { outOfRange := "Invalid range %s\n",
                     invalidArgument := "Invalid compilation unit number %d\n",
                     what := [.str "stoi"] } e
            atPrompt p
          | .ok unit => atPrompt { p with defaultCompilationUnit := unit }
      | some word => match stoi word with
        | .error e => do
          logSto { outOfRange := "Invalid range %s\n",
                   invalidArgument := "Invalid compilation unit number %s\n",
                   what := [.str "stoi"] } e
          atPrompt p
        | .ok unit =>
          if unit < 0 ∨ unit > getNoOfCompilationUnits env.lines then
            complain "Compilation unit number is not in range\n"
              { p with defaultCompilationUnit := unit }
          else do
            log .print "Compilation unit : %d selected\n" [.int unit]
            atPrompt { p with defaultCompilationUnit := unit }
    else do
      log .print "Debug information not available\n" []
      atPrompt p

/-! ## Registers -/

def handleInfoRegisters (K : Kernel σ) (p : Prompt) : DbgM σ Turn :=
  whenRunning "[!] Process is not running\n" p do
    let _ ← infoRegistersAll K
    atPrompt p

def infoOf (K : Kernel σ) (word : Line) (p : Prompt) : DbgM σ Turn := do
  if (← infoRegister K (String.ofList word)) < 0 then returned (-1)
  else atPrompt p

/-- A failure to read the answer is not checked. -/
def handleInfo (K : Kernel σ) (commands : List Line) (p : Prompt) : DbgM σ Turn := do
  if ← emptyArgument commands then
    log .prompt "Enter a register" []
    let word := p.input.headD []
    if word = [] then complain "Invalid register\n" { p with input := p.input.tail }
    else infoOf K word { p with input := p.input.tail }
  else infoOf K (commands[1]?.getD []) p

/-- The conversion of a value and the call of `SetRegister`, whose result is compared with
`limit`. -/
def setTo (K : Kernel σ) (regname word : Line) (invalid : String) (limit : Int) (p : Prompt) :
    DbgM σ Turn :=
  match stoll word with
  | .error e => do
    logSto { outOfRange := "Invalid range :%s\n", invalidArgument := invalid,
             what := [.str "stoll"] } e
    atPrompt p
  | .ok v => do
    if (← setRegister K (String.ofList regname) (BitVec.ofInt 64 v)) < limit then returned (-1)
    else atPrompt p

/-- The last case compares the length of the command, not the number of its words. -/
def handleSet (K : Kernel σ) (command : Line) (commands : List Line) (p : Prompt) :
    DbgM σ Turn :=
  whenRunning "Program is not running" p do
    if commands.length = 1 then
      ask "Enter register name" "IO error\n" p (complain "Invalid register name\n")
        fun regname p => ask "Enter value" "IO error\n" p (complain "Invalid value\n")
          fun word p => setTo K regname word "Invalid value :%s\n" (-1) p
    else match commands with
      | [_, regname] =>
        ask "Enter value" "IO error" p (complain "Invalid value")
          fun word p => setTo K regname word "Invalid value :%s\n" 0 p
      | _ =>
        if command.length = 3 then
          match commands[1]?, commands[2]? with
          | some regname, some word => setTo K regname word "Invalid argument :%s\n" 0 p
          | _, _ => throw .outOfBounds
        else atPrompt p

/-! ## The loop -/

def killProcess (K : Kernel σ) : DbgM σ Unit := fun d =>
  .ok ((), { d with kernel := K.kill d.debug.pid d.kernel })

def handleExit (K : Kernel σ) (p : Prompt) : DbgM σ Turn :=
  ask "Do you want to kill the process? [yes/no] " "IO error\n" p
    (fun p => do
      log .print "Assumed [no]\n" []
      atPrompt p)
    fun word p => do
      if word = "yes".toList ∨ word = "y".toList then
        killProcess K
        returned 0
      else atPrompt p

def helpText : String :=
  "[zkz] help\nQuick navigation help for zkz debugger\n\t " ++
  "            [r]un / [c]ontinue\tstart debugging\n             " ++
  "            list\tlist line information\n             " ++
  "            [b]reak\tbreakpoint at memory address\n           " ++
  "            [b]reak[l]\tbreakpoint at line number\n           " ++
  "            select\tselect a compilation unit\n               " ++
  "            [[i]nfo] [[r]egisters]\tregister information\n    " ++
  "            [[d]el]ete\tdelete a breakpoint\n                 " ++
  "            set\tset register values\n                        " ++
  "            [dis]able\t disable breakpoints\n                 " ++
  "            exit\texit zkz"

def handleHelp (p : Prompt) : DbgM σ Turn := do
  log .print helpText []
  atPrompt p

/-- The text equals one of some keywords. -/
def isOneOf (keywords : List String) (text : Line) : Bool := keywords.any (·.toList = text)

theorem mem_of_isOneOf {keywords : List String} {text : Line} (h : isOneOf keywords text = true) :
    text ∈ keywords.map String.toList := by
  simp only [isOneOf, List.any_eq_true, decide_eq_true_eq] at h
  obtain ⟨keyword, hkeyword, rfl⟩ := h
  exact List.mem_map_of_mem hkeyword

/-- A text with a property that no keyword has is none of them. -/
theorem isOneOf_eq_false {keywords : List String} {text : Line} {P : Line → Prop} (hP : P text)
    (hkeywords : ∀ keyword ∈ keywords.map String.toList, ¬ P keyword) :
    isOneOf keywords text = false := by
  by_contra hone
  exact hkeywords text (mem_of_isOneOf (by simpa using hone)) hP

/-- The first word of a command. -/
abbrev firstWord (command : Line) : Line := (tokenize command).headD []

/-- A command whose first word is one of some keywords, and whose other words are right, is none
of the commands that are compared as a whole. -/
theorem not_whole {command : Line} {keywords firsts : List String} {P : Line → Prop} (hP : P command)
    (hfirst : isOneOf firsts (firstWord command) = true)
    (hkeywords : ∀ keyword ∈ keywords.map String.toList,
      ¬ (isOneOf firsts (firstWord keyword) = true ∧ P keyword)) :
    isOneOf keywords command = false :=
  isOneOf_eq_false (P := fun c => isOneOf firsts (firstWord c) = true ∧ P c) ⟨hfirst, hP⟩ hkeywords

/-- Such a command goes past the first branches of the prompt. -/
theorem none_whole {command : Line} {firsts : List String} {P : Line → Prop} (hP : P command)
    (hfirst : isOneOf firsts (firstWord command) = true)
    (hkeywords : ∀ keyword ∈ ["run", "r", "continue", "c", "info registers", "i r", "i registers",
      "info r", "printb"].map String.toList,
      ¬ (isOneOf firsts (firstWord keyword) = true ∧ P keyword)) :
    isOneOf ["run", "r", "continue", "c"] command = false ∧
      isOneOf ["info registers", "i r", "i registers", "info r"] command = false ∧
        isOneOf ["printb"] command = false := by
  refine ⟨not_whole hP hfirst fun keyword h => hkeywords keyword ?_,
    not_whole hP hfirst fun keyword h => hkeywords keyword ?_,
    not_whole hP hfirst fun keyword h => hkeywords keyword ?_⟩
  · revert keyword
    decide
  · revert keyword
    decide
  · revert keyword
    decide

/-- The chain of comparisons of `MainLoop`: some compare the whole line, some its first
word. -/
def handle (K : Kernel σ) (env : Loaded σ) (n : Nat) (command : Line) (p : Prompt) :
    DbgM σ Turn :=
  let commands := tokenize command
  let first := commands.headD []
  if isOneOf ["run", "r", "continue", "c"] command then handleRun K n p
  else if isOneOf ["list"] first then handleList env commands p
  else if isOneOf ["listsym"] first then handleListsym env commands p
  else if isOneOf ["select"] first then handleSelect env commands p
  else if isOneOf ["breakl", "bl"] first then handleBreakl K env commands p
  else if isOneOf ["break", "b"] first then handleBreak K commands p
  else if isOneOf ["info registers", "i r", "i registers", "info r"] command then
    handleInfoRegisters K p
  else if isOneOf ["printb"] command then handlePrintb p
  else if isOneOf ["delete", "del", "d"] first then handleDelete K commands p
  else if isOneOf ["set"] first then handleSet K command commands p
  else if isOneOf ["disable", "dis"] first then handleDisable commands p
  else if isOneOf ["info"] first then handleInfo K commands p
  else if isOneOf ["auto", "a"] first then handleAuto K env n p
  else if isOneOf ["step", "s"] first then handleStep K commands p
  else if isOneOf ["exit"] command then handleExit K p
  else if isOneOf ["help"] command then handleHelp p
  else atPrompt p

/-- One turn of the loop. An empty line is no command. -/
def mainTurn (K : Kernel σ) (env : Loaded σ) (n : Nat) (p : Prompt) : DbgM σ Turn := do
  log .prompt "[zkz] " []
  match p.input with
  | [] =>
    log .error "IO error\n" []
    returned (-1)
  | command :: rest =>
    if command = [] then atPrompt { p with input := rest }
    else handle K env n command { p with input := rest }

/-- A turn that begins with a command. -/
theorem mainTurn_command (K : Kernel σ) (env : Loaded σ) (n : Nat) (p : Prompt) (d : Main σ)
    {command : Line} (hne : command ≠ []) (rest : List Line) :
    mainTurn K env n { p with input := command :: rest } d =
      handle K env n command { p with input := rest }
        { d with out := d.out ++ [⟨.prompt, "[zkz] ", []⟩] } := by
  unfold mainTurn
  rw [run_bind_ok (by rfl)]
  simp only
  rw [if_neg hne]

/-- At most `m` turns. -/
def mainTurns (K : Kernel σ) (env : Loaded σ) (n : Nat) : Nat → Prompt → DbgM σ Turn
  | 0, p => atPrompt p
  | m + 1, p => do
    match ← mainTurn K env n p with
    | .prompt p' => mainTurns K env n m p'
    | .returned code => returned code

/-- `MainLoop`, up to `m` turns after its start. -/
def mainLoop (K : Kernel σ) (env : Loaded σ) (n m : Nat) (input : List Line) : DbgM σ Turn :=
  mainTurns K env n m ⟨[], 0, input⟩

/-- What `Debugger` makes of the result of `MainLoop`. -/
def Turn.reduced : Turn → Turn
  | .prompt p => .prompt p
  | .returned ret => .returned (if ret < 0 then -1 else 0)

/-- The end of `Debugger`. -/
def debuggerLoop (K : Kernel σ) (env : Loaded σ) (n m : Nat) (input : List Line) : DbgM σ Turn := do
  return (← mainLoop K env n m input).reduced

/-- The two flags that say what is available. -/
def setLoaded (env : Loaded σ) : DbgM σ Unit := fun d =>
  .ok ((), { d with debug := { d.debug with
    dwarfState := d.debug.dwarfState && !env.dwarfFailed
    symState := d.debug.symState && env.syms.isSome && !env.symsFailed } })

/-- What `Debugger` makes of the result of `StartProcess` or `AttachProcess`: the registers are
read again before the main loop, and what could not be loaded is noted. The threads that load it
are still to be joined when the registers are read, so a return at a failure destroys them. -/
def debugFrom (K : Kernel σ) (env : Loaded σ) (n m : Nat) (input : List Line) (ret : Int) :
    DbgM σ Turn := do
  if ret = 1 then returned 0
  else if ret = -1 then returned (-1)
  else
    let some r ← ptrace K.getregs | do
      log .pError "Ptrace error" []
      throw .unjoinedThread
    setRegs r
    setLoaded env
    log .print "[zkz] Started debugging\trip : %x\n" [.hex r.rip]
    if env.syms.isSome && env.symsFailed then
      log .error "Error parsing symbols" []
    debuggerLoop K env n m input

def usageText : String :=
  "[zkz] Usage\nQuick help to start zkz debugger\n " ++
  "            -f - Start executing given file as the debugee\n  " ++
  "            -p - Attach to given process ID\n               " ++
  "            -s - Enable system call tracing\n                      " ++
  "            -i - Print register information on each step\n    " ++
  "            "

/-- `Debugger` reads the first entry of the pathname before it tests whether there is one. -/
def debugger (K : Kernel σ) (env : Loaded σ) (n m : Nat) (input : List Line) : DbgM σ Turn := do
  match (← get).debug.pathname with
  | none => throw .nullPointer
  | some path =>
    if path ≠ [] ∧ (← get).debug.pid ≠ 0 then
      log .print usageText []
      debuggerLoop K env n m input
    else if (← get).debug.pid ≠ 0 then
      debugFrom K env n m input (← attachProcess K)
    else
      debugFrom K env n m input (← startProcess K)

end Zkz.Debugger
