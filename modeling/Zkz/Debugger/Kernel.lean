import Zkz.Debugger.Breakpoint

/-!
# The debugger's state and the requests it makes

`Main` is the debugger object with the kernel state behind it, `Kernel` the system calls
it makes. The kernel is a parameter of every function of the debugger: a request names a
process and may fail, and it may change the kernel state in any way. What a result assumes
of the kernel is stated with the result.

A function of the debugger is a `DbgM` computation. Besides a result it may have a `Fault`:
it does not return (a wait that blocks for ever, an unbounded run of stops), or it does what
C++ leaves undefined.
-/

namespace Zkz.Debugger

open Zkz.Lib

/-- `struct user_regs_struct` of x86-64. -/
structure UserRegs where
  r15 : Word := 0
  r14 : Word := 0
  r13 : Word := 0
  r12 : Word := 0
  rbp : Word := 0
  rbx : Word := 0
  r11 : Word := 0
  r10 : Word := 0
  r9 : Word := 0
  r8 : Word := 0
  rax : Word := 0
  rcx : Word := 0
  rdx : Word := 0
  rsi : Word := 0
  rdi : Word := 0
  origRax : Word := 0
  rip : Addr := 0
  cs : Word := 0
  eflags : Word := 0
  rsp : Word := 0
  ss : Word := 0
  fsBase : Word := 0
  gsBase : Word := 0
  ds : Word := 0
  es : Word := 0
  fs : Word := 0
  gs : Word := 0

/-! ## Wait statuses -/

abbrev Wstatus := BitVec 32

/-- `WIFEXITED`: the low seven bits are zero. -/
def wifexited (w : Wstatus) : Bool := w &&& 0x7f == 0

/-- `WIFSTOPPED`: the low byte is 0x7f. -/
def wifstopped (w : Wstatus) : Bool := w &&& 0xff == 0x7f

/-- `WIFSIGNALED`: the low seven bits are neither zero nor all ones. -/
def wifsignaled (w : Wstatus) : Bool := w &&& 0x7f != 0 && w &&& 0x7f != 0x7f

/-- The status of a stop by the signal `sig`. -/
def stopStatus (sig : BitVec 8) : Wstatus := sig.setWidth 32 <<< 8 ||| 0x7f

/-- The status of an exit with `code`. -/
def exitStatus (code : BitVec 8) : Wstatus := code.setWidth 32 <<< 8

def sigtrap : BitVec 8 := 5

theorem wifexited_zero : wifexited 0 = true := by decide

theorem wifstopped_stopStatus : ∀ sig : BitVec 8, wifstopped (stopStatus sig) = true := by decide

theorem wifexited_stopStatus : ∀ sig : BitVec 8, wifexited (stopStatus sig) = false := by decide

/-! ## System calls -/

/-- The system calls of the debugger, on a kernel state `σ`. A `ptrace` request answers
`none` or `false` when it returns -1. `fork` is the child's pid, as the parent sees it; the
child traces itself, executes the program and stops, or exits with `EXIT_FAILURE`.
`waitpid` is `none` when it never returns, and otherwise the status it stores, if it
stores one. -/
structure Kernel (σ : Type) where
  peektext : Int → Addr → σ → Option Word × σ
  poketext : Int → Addr → Word → σ → Bool × σ
  getregs : Int → σ → Option UserRegs × σ
  setregs : Int → UserRegs → σ → Bool × σ
  /-- `PTRACE_SETREGS` as `SetRegister` calls it, with the register set passed by value, so that the
  pointer that the kernel reads is left unset. -/
  setregsByValue : Int → UserRegs → σ → Bool × σ
  singlestep : Int → σ → Bool × σ
  cont : Int → σ → Bool × σ
  syscall : Int → σ → Bool × σ
  attach : Int → σ → Bool × σ
  fork : σ → Option Int × σ
  waitpid : Int → σ → Option (Option Wstatus × σ)
  kill : Int → σ → σ := fun _ s => s

/-! ## The debugger object -/

/-- The fields of `Debug`. -/
structure Debug where
  pid : Int
  pathname : Option (List String)
  isSystrace : Bool
  isInforeg : Bool
  symState : Bool
  dwarfState : Bool
  /-- Is the child process running. -/
  isRunning : Bool
  /-- For system call injection. -/
  isSysStopped : Bool

/-- The constructor of `Debug`. -/
def Debug.init : Debug where
  pid := 0
  pathname := none
  isSystrace := false
  isInforeg := false
  symState := true
  dwarfState := true
  isRunning := false
  isSysStopped := false

inductive Level where
  | print | error | pError | warn | info | debug | prompt
deriving DecidableEq

inductive LogArg where
  | int (d : Int)
  | hex (x : Word)
  | str (s : String)
deriving DecidableEq

/-- A call of one of `Log`'s functions, with its format string and arguments. -/
structure LogLine where
  level : Level
  msg : String
  args : List LogArg
deriving DecidableEq

/-- The debugger object, the kernel state and the calls of `log` so far. -/
structure Main (σ : Type) where
  debug : Debug
  regs : UserRegs
  kernel : σ
  out : List LogLine

/-- The object `main` constructs, over a kernel state. -/
def Main.init {σ : Type} (s : σ) : Main σ where
  debug := Debug.init
  regs := {}
  kernel := s
  out := []

inductive Fault where
  /-- The call does not return. -/
  | noReturn
  /-- A null pointer is dereferenced. -/
  | nullPointer
  /-- An array is read outside its bounds. -/
  | outOfBounds
  /-- An exception is not caught. -/
  | uncaughtException
  /-- An integer is divided by zero. -/
  | divisionByZero
  /-- A breakpoint that was not found is dereferenced. -/
  | missingBreakpoint
  /-- The table of registers is read beyond its end. -/
  | tableOverrun
  /-- A thread is destroyed that was not joined. -/
  | unjoinedThread
deriving DecidableEq

abbrev DbgM (σ : Type) := StateT (Main σ) (Except Fault)

end Zkz.Debugger
