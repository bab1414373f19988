import Zkz.Debugger.Kernel

/-!
# The commands

The functions of `Main` and `BreakpointList` that make system calls, as the source has
them: waiting, restoring and placing breakpoints, stepping, continuing, starting and
attaching. `continueExecution` and `stepAuto` are bounded by a fuel argument: without
fuel they do not return.
-/

namespace Zkz.Debugger

open Zkz.Lib BreakpointList

variable {σ : Type}

def exitStatusRet : Int := 1
def stoppedStatusRet : Int := 2
def signaledStatusRet : Int := 3

/-! ## Requests and messages -/

/-- A request about the recorded pid. -/
def ptrace {α : Type} (req : Int → σ → α × σ) : DbgM σ α := fun d =>
  .ok ((req d.debug.pid d.kernel).1, { d with kernel := (req d.debug.pid d.kernel).2 })

def log (level : Level) (msg : String) (args : List LogArg) : DbgM σ Unit := fun d =>
  .ok ((), { d with out := d.out ++ [⟨level, msg, args⟩] })

def setRegs (r : UserRegs) : DbgM σ Unit := fun d => .ok ((), { d with regs := r })

def setProgramState (state : Bool) : DbgM σ Unit := fun d =>
  .ok ((), { d with debug := { d.debug with isRunning := state } })

def setSyscallState (state : Bool) : DbgM σ Unit := fun d =>
  .ok ((), { d with debug := { d.debug with isSysStopped := state } })

def setPid (pid : Int) : DbgM σ Unit := fun d =>
  .ok ((), { d with debug := { d.debug with pid := pid } })

/-- The wait on the recorded pid. -/
def waitpid (K : Kernel σ) : DbgM σ (Option Wstatus) := fun d =>
  match K.waitpid d.debug.pid d.kernel with
  | none => .error .noReturn
  | some (w, s) => .ok (w, { d with kernel := s })

/-- The status is initialised to 0, and a wait that fails leaves it so. -/
def waitForProcess (K : Kernel σ) : DbgM σ Int := do
  let wstatus := (← waitpid K).getD 0
  if wifexited wstatus then
    log .info "Process terminated with %d\n" [.int wstatus.toInt]
    setProgramState false
    return exitStatusRet
  else if wifstopped wstatus then
    return stoppedStatusRet
  else if wifsignaled wstatus then
    log .info "Process recieved a signal %d\n" [.int wstatus.toInt]
    return signaledStatusRet
  else
    return -1

/-- The output of `InfoRegistersAll`. -/
def registersLine (r : UserRegs) : LogLine where
  level := .print
  msg := "Info registers :\n\tRAX: %llx\n\tRCX: %llx\n\tRDX: %llx\n\tRBX: " ++
    "%llx\n\tRSP: %x\n\tRBP: %x\n\tRSI: %x\n\tRDI: %x\n\tR8: %x\n\tR9: " ++
    "%x\n\tR10: %x\n\tR11: %x\n\tR12: %x\n\tR13: %x\n\tR14: %x\nR15: %x\n"
  args := [.hex r.rax, .hex r.rcx, .hex r.rdx, .hex r.rbx, .hex r.rsp, .hex r.rbp, .hex r.rsi,
    .hex r.rdi, .hex r.r8, .hex r.r9, .hex r.r10, .hex r.r11, .hex r.r12, .hex r.r13,
    .hex r.r14, .hex r.r15]

/-- `InfoRegistersAll` reports a failure by `perror`, not by `log`. -/
def infoRegistersAll (K : Kernel σ) : DbgM σ Int := do
  let some r ← ptrace K.getregs | return -1
  setRegs r
  log .print (registersLine r).msg (registersLine r).args
  return 0

/-! ## Breakpoints -/

def removeElement (K : Kernel σ) (li : BreakpointList) (breakpointNumber : Int) :
    DbgM σ (Int × BreakpointList) :=
  match removalIndex li breakpointNumber with
  | none => do
    log .error "Invalid breakpoint number\n" []
    return (0, li)
  | some i => match li[i]? with
    | none => throw .outOfBounds
    | some b => do
      -- Restoring instruction at the address of the breakpoint we are removing
      let data := (← ptrace fun pid => K.peektext pid b.address).getD (-1)
      if data &&& 0xcc = 0xcc then
        if !(← ptrace fun pid => K.poketext pid b.address b.origdata) then
          log .pError "Ptrace error" []
          return (-1, li)
      log .print "Removed breakpoint %d\n" [.int breakpointNumber]
      return (0, li.eraseIdx i)

def disableBreakpoint (li : BreakpointList) (bNumber : Int) : DbgM σ (Int × BreakpointList) :=
  match getElementByBreakpointNumber li bNumber with
  | none => do
    if bNumber > getNoOfBreakpoints li then
      log .error "Invalid breakpoint number\n" []
    log .error "Breakpoint %d not found\n" [.int bNumber]
    throw .missingBreakpoint
  | some i => do
    log .print "Breakpoint %d disabled\n" [.int bNumber]
    return (0, disableAt li i)

def restoreBreakpoint (K : Kernel σ) (b : Breakpoint) (address : Addr) : DbgM σ Int := do
  log .debug "restore address %x\n" [.hex address]
  if !(← ptrace fun pid => K.poketext pid address b.origdata) then
    log .pError "Ptrace error" []
    return -1
  let some r ← ptrace K.getregs | do
    log .pError "Ptrace error" []
    return -1
  setRegs { r with rip := address }
  if !(← ptrace fun pid => K.setregs pid { r with rip := address }) then
    log .pError "Ptrace error" []
    return -1
  if !(← ptrace K.singlestep) then
    log .pError "Ptrace error" []
    return -1
  log .debug "does not make it here\n" []
  let ret ← waitForProcess K
  if ret = exitStatusRet then
    return exitStatusRet
  else
    log .debug "process stopped or signled\n" []
  return 0

/-- The comparison `origdata < 0` of an unsigned word is never true: a failed peek goes on
with the word -1. -/
def placeBreakpoint (K : Kernel σ) (li : BreakpointList) (address : Addr) :
    DbgM σ (Int × BreakpointList) := do
  let origdata := (← ptrace fun pid => K.peektext pid address).getD (-1)
  let dataWInterrupt : Word := (origdata &&& 0xffffffffffffff00) ||| 0xcc
  if !(← ptrace fun pid => K.poketext pid address dataWInterrupt) then
    log .pError "Ptrace error" []
    return (-1, li)
  log .print "Breakpoint placed at address : %x\n" [.hex address]
  return (0, appendElement li address origdata)

/-! ## Stepping

The body of each loop is a round: its result is what the function returns, or `none` where
the loop goes on. -/

/-- The body of the loop of `StepX` once the debuggee has stopped with registers `r`. -/
def stepXAtStop (K : Kernel σ) (li : BreakpointList) (i : Nat) (r : UserRegs) :
    DbgM σ (Option Int) := do
  setRegs r
  match getElementByAddress li (r.rip - 1) with
  | none => return none
  | some b =>
    if b.isEnabled then
      log .info "Stopped execution at %x : breakpoint number %d\n"
        [.hex (r.rip - 1), .int b.breakpointNumber]
      if (← restoreBreakpoint K b (r.rip - 1)) < -1 then
        return some (-1)
      return some 0
    else
      -- the restore address is `rip - i`
      if (← restoreBreakpoint K b (r.rip - BitVec.ofNat 64 i)) < -1 then
        return some (-1)
      return none

/-- The body of the loop of `StepX` at index `i`. -/
def stepXRound (K : Kernel σ) (li : BreakpointList) (i : Nat) : DbgM σ (Option Int) := do
  if !(← ptrace K.singlestep) then
    log .pError "Ptrace error" []
    return some (-1)
  let ret ← waitForProcess K
  if ret = exitStatusRet then
    return some exitStatusRet
  else if ret = stoppedStatusRet ∨ ret = signaledStatusRet then
    if (← get).debug.isInforeg then
      let _ ← infoRegistersAll K
    let some r ← ptrace K.getregs | do
      log .pError "Ptrace error" []
      return some (-1)
    stepXAtStop K li i r
  else
    return none

/-- The loop of `StepX`: `i` is its index, and the second argument the number of
iterations left. -/
def stepXLoop (K : Kernel σ) (li : BreakpointList) : Nat → Nat → DbgM σ Int
  | _, 0 => do
    log .print "---> rip: %x\n" [.hex (← get).regs.rip]
    return 0
  | i, n + 1 => do
    match ← stepXRound K li i with
    | some ret => return ret
    | none => stepXLoop K li (i + 1) n

def stepX (K : Kernel σ) (li : BreakpointList) (numberOfSteps : Int) : DbgM σ Int :=
  stepXLoop K li 0 numberOfSteps.toNat

/-- The body of the loop of `StepAuto` once the registers `r` are read. The result of
`RestoreBreakpoint` is not used. -/
def stepAutoAtStop (K : Kernel σ) (li : BreakpointList) (r : UserRegs) :
    DbgM σ (Option Int) := do
  setRegs r
  match getElementByAddress li (r.rip - 1) with
  | none => return none
  | some b =>
    if b.isEnabled then
      log .info "Stopped execution at %x : breakpoint number %d\n"
        [.hex (r.rip - 1), .int b.breakpointNumber]
      let _ ← restoreBreakpoint K b (r.rip - 1)
      return some 0
    else
      let _ ← restoreBreakpoint K b (r.rip - 1)
      return none

/-- The body of the loop of `StepAuto`. -/
def stepAutoRound (K : Kernel σ) (li : BreakpointList) : DbgM σ (Option Int) := do
  if !(← ptrace K.singlestep) then
    log .pError "Ptrace eror" []
    return some (-1)
  let ret ← waitForProcess K
  if ret = exitStatusRet then
    return some exitStatusRet
  if ret = stoppedStatusRet ∨ ret = signaledStatusRet then
    log .print "---> rip: %x\n" [.hex (← get).regs.rip]
  if (← get).debug.isInforeg then
    let _ ← infoRegistersAll K
  let some r ← ptrace K.getregs | do
    log .pError "Ptrace error" []
    return some (-1)
  stepAutoAtStop K li r

/-- The loop condition of `StepAuto` reads the outer `ret`, which is never assigned: it is
an argument here. -/
def stepAuto (K : Kernel σ) (li : BreakpointList) (ret : Int) : Nat → DbgM σ Int
  | 0 => throw .noReturn
  | fuel + 1 => do
    match ← stepAutoRound K li with
    | some ret' => return ret'
    | none => if ret ≠ exitStatusRet then stepAuto K li ret fuel else return 0

/-! ## Continuing

`ContinueExecution` is recursive: a round is its body up to a recursive call, and `none`
where it makes one. -/

/-- `ContinueExecution` once the debuggee has stopped with registers `r`. -/
def continueAtStop (K : Kernel σ) (li : BreakpointList) (r : UserRegs) :
    DbgM σ (Option Int) := do
  setRegs r
  log .debug "Prcoess stopped at address %x\n" [.hex (r.rip - 1)]
  match getElementByAddress li (r.rip - 1) with
  | none =>
    if (← get).debug.isSystrace then
      log .info "System call intercepted: %x\n" [.hex r.rax]
      setSyscallState true
      if (← get).debug.isInforeg then
        log .debug "Register information flag is set\n" []
        let _ ← infoRegistersAll K
      return some 0
    else
      return none
  | some b =>
    log .debug "Breakpoint hit\n" []
    if b.isEnabled then
      log .info "Stopped execution at %x : breakpoint number %d\n"
        [.hex (r.rip - 1), .int b.breakpointNumber]
      if (← get).debug.isInforeg then
        let _ ← infoRegistersAll K
      log .debug "Enabled breakpoint\n" []
      if (← restoreBreakpoint K b ((← get).regs.rip - 1)) < -1 then
        return some (-1)
      return some 0
    else
      log .debug "Disabled breakpoint\n" []
      if (← restoreBreakpoint K b (r.rip - 1)) < -1 then
        return some (-1)
      return none

/-- `ContinueExecution` from its wait on. -/
def continueFromWait (K : Kernel σ) (li : BreakpointList) : DbgM σ (Option Int) := do
  let ret ← waitForProcess K
  if ret = exitStatusRet then
    return some exitStatusRet
  if ret = stoppedStatusRet then
    let some r ← ptrace K.getregs | do
      log .pError "Ptrace error" []
      return some (-1)
    continueAtStop K li r
  else
    return some (-1)

def continueRound (K : Kernel σ) (li : BreakpointList) : DbgM σ (Option Int) := do
  if (← get).debug.isSysStopped then
    setSyscallState false
  log .info "Continuing execution...\n" []
  if (← get).debug.isSystrace then
    log .debug "stopping at syscalls\n" []
    if !(← ptrace K.syscall) then
      log .pError "Ptrace error" []
      return some (-1)
  else
    if !(← ptrace K.cont) then
      log .pError "Ptrace error" []
      return some (-1)
  continueFromWait K li

/-- What both recursive branches of `ContinueExecution` make of the inner result. -/
def passResult (ret : Int) : Int :=
  if ret = exitStatusRet then exitStatusRet else if ret = -1 then -1 else 0

def continueExecution (K : Kernel σ) (li : BreakpointList) : Nat → DbgM σ Int
  | 0 => throw .noReturn
  | fuel + 1 => do
    match ← continueRound K li with
    | some ret => return ret
    | none => return passResult (← continueExecution K li fuel)

/-! ## Starting and attaching -/

/-- The parent's side of `StartProcess`. The wait is on the pid recorded before. -/
def startProcess (K : Kernel σ) : DbgM σ Int := do
  if (← get).debug.pathname.isSome then
    match ← ptrace fun _ => K.fork with
    | none =>
      log .pError "Fork failed" []
      return -1
    | some pid =>
      let ret ← waitForProcess K
      if ret = exitStatusRet then
        return 1
      else if ret = signaledStatusRet ∨ ret = stoppedStatusRet then
        setProgramState true
        setPid pid
        return 0
  return -1

def attachProcess (K : Kernel σ) : DbgM σ Int := do
  if (← get).debug.pid ≠ 0 then
    if !(← ptrace K.attach) then
      log .pError "Ptrace error" []
      return -1
    let ret ← waitForProcess K
    if ret = exitStatusRet then
      return 1
    else if ret = stoppedStatusRet ∨ ret = signaledStatusRet then
      return 0
  return -1

end Zkz.Debugger
