import Zkz.Debugger.Commands
import Zkz.Lib.Post

/-!
# Lines, symbols and registers

What the prompt looks up: the line table of `DebugLineInfo`, the symbols of `Symbol` and the
registers by name.
-/

namespace Zkz.Debugger

open Zkz.Lib

variable {σ : Type}

/-! ## Lines -/

structure Lineinfo where
  lineNumber : Int
  address : Addr
  unitNumber : Int

/-- Updates a maximum that starts at 0. -/
def getNoOfCompilationUnits (lines : List Lineinfo) : Int :=
  lines.foldl (fun max x => if x.unitNumber > max then x.unitNumber else max) 0

def getMaxLineNumber (lines : List Lineinfo) (compilationUnit : Int) : DbgM σ Int := do
  if compilationUnit > getNoOfCompilationUnits lines then
    log .error "Invalid unit number\n" []
    return -1
  return (lines.filter (·.unitNumber = compilationUnit)).foldl
    (fun prevMax x => if x.lineNumber > prevMax then x.lineNumber else prevMax) 0

/-- `prevMin` is not initialised in the source: its value is an argument here. -/
def getMinLineNumber (prevMin : Int) (lines : List Lineinfo) (compilationUnit : Int) :
    DbgM σ Int := do
  if compilationUnit > getNoOfCompilationUnits lines then
    log .error "Invalid unit number\n" []
    return -1
  return (lines.filter (·.unitNumber = compilationUnit)).foldl
    (fun prevMin x => if x.lineNumber < prevMin then x.lineNumber else prevMin) prevMin

/-- The three tests are made one after the other until one holds. -/
def outOfLineRange (prevMin : Int) (lines : List Lineinfo) (compilationUnit lineNumber : Int) :
    DbgM σ Bool := do
  if compilationUnit > getNoOfCompilationUnits lines then
    return true
  if lineNumber > (← getMaxLineNumber lines compilationUnit) then
    return true
  return lineNumber < (← getMinLineNumber prevMin lines compilationUnit)

/-- The failure result is the address -1. -/
def getAddressByLine (prevMin : Int) (lines : List Lineinfo) (compilationUnit lineNumber : Int) :
    DbgM σ Addr := do
  if ← outOfLineRange prevMin lines compilationUnit lineNumber then
    log .error "Unit number is out of range\n" []
    return -1
  match lines.find? fun x => x.unitNumber = compilationUnit ∧ x.lineNumber = lineNumber with
  | some x => return x.address
  | none => return -1

/-- One line of output for each of some values. -/
def printEach {α : Type} (msg : String) (args : α → List LogArg) : List α → DbgM σ Unit
  | [] => return
  | x :: xs => do
    log .print msg (args x)
    printEach msg args xs

theorem printEach_run {γ : Type} (msg : String) (args : γ → List LogArg) (xs : List γ)
    (d : Main σ) : ∃ d', printEach msg args xs d = .ok ((), d') := by
  induction xs generalizing d with
  | nil => exact ⟨d, rfl⟩
  | cons x xs ih =>
    obtain ⟨d', hrun⟩ := ih { d with out := d.out ++ [⟨.print, msg, args x⟩] }
    refine ⟨d', ?_⟩
    unfold printEach
    rw [run_bind_ok (by rfl), hrun]

def listSrcLines (lines : List Lineinfo) (compilationUnit : Int) : DbgM σ Int := do
  if compilationUnit > getNoOfCompilationUnits lines then
    log .error "Unit number out of range\n" []
    return 0
  printEach "%d\t%x\n" (fun x => [.int x.lineNumber, .hex x.address])
    (lines.filter (·.unitNumber = compilationUnit))
  return 0

/-! ## Symbols and breakpoints -/

structure Syminfo where
  address : Addr
  symbol : String

/-- A range larger than the list reads outside it. -/
def listSyms (syms : List Syminfo) (prange : Int) : DbgM σ Unit := do
  log .print "address\t\tsymbol" []
  if prange = -1 then
    printEach "%x\t\t%s\n" (fun x => [.hex x.address, .str x.symbol]) syms
  else
    printEach "%x\t\t%s\n" (fun x => [.hex x.address, .str x.symbol]) (syms.take prange.toNat)
    if prange > syms.length then
      throw .outOfBounds

def listBreakpoints (li : BreakpointList) : DbgM σ Unit := do
  log .print "\taddress\t\tnumber\t\tstate\n" []
  printEach "\t%x\t%d\t\t%s\n" (fun b => [.hex b.address, .int b.breakpointNumber,
    .str (if b.isEnabled then "enabled" else "disabled")]) li

/-! ## Registers -/

/-- An entry of the table of registers: its name, and how it is read and set. -/
structure Reg where
  regname : String
  info : UserRegs → Word
  set : UserRegs → Word → UserRegs

def registers : List Reg :=
  [⟨"rax", UserRegs.rax, fun r v => { r with rax := v }⟩,
    ⟨"rcx", UserRegs.rcx, fun r v => { r with rcx := v }⟩,
    ⟨"rdx", UserRegs.rdx, fun r v => { r with rdx := v }⟩,
    ⟨"rbx", UserRegs.rbx, fun r v => { r with rbx := v }⟩,
    ⟨"rsp", UserRegs.rsp, fun r v => { r with rsp := v }⟩,
    ⟨"rbp", UserRegs.rbp, fun r v => { r with rbp := v }⟩,
    ⟨"rsi", UserRegs.rsi, fun r v => { r with rsi := v }⟩,
    ⟨"rdi", UserRegs.rdi, fun r v => { r with rdi := v }⟩,
    ⟨"r8", UserRegs.r8, fun r v => { r with r8 := v }⟩,
    ⟨"r9", UserRegs.r9, fun r v => { r with r9 := v }⟩,
    ⟨"r10", UserRegs.r10, fun r v => { r with r10 := v }⟩,
    ⟨"r11", UserRegs.r11, fun r v => { r with r11 := v }⟩,
    ⟨"r12", UserRegs.r12, fun r v => { r with r12 := v }⟩,
    ⟨"r13", UserRegs.r13, fun r v => { r with r13 := v }⟩,
    ⟨"r14", UserRegs.r14, fun r v => { r with r14 := v }⟩,
    ⟨"r15", UserRegs.r15, fun r v => { r with r15 := v }⟩]

/-- The loop over the table has no bound: after the last register it reads on. -/
def infoRegister (K : Kernel σ) (reg : String) : DbgM σ Int := do
  let some r ← ptrace K.getregs | do
    log .pError "Ptrace failed" []
    return -1
  setRegs r
  printEach "%s : %lx\n" (fun x => [.str x.regname, .hex (x.info r)])
    (registers.filter (·.regname = reg))
  throw .tableOverrun

/-- The register set is passed to `PTRACE_SETREGS` by value. -/
def setRegister (K : Kernel σ) (reg : String) (value : Word) : DbgM σ Int := do
  setRegs ((registers.filter (·.regname = reg)).foldl (fun r x => x.set r value) (← get).regs)
  let r := (← get).regs
  if !(← ptrace fun pid => K.setregsByValue pid r) then
    log .pError "Ptrace failed" []
    return -1
  return 0

end Zkz.Debugger
