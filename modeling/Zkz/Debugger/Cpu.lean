import Mathlib.Logic.Relation
import Zkz.Lib.Overlay
import Zkz.Debugger.Rounds

/-!
# A debuggee that runs

The program under the debugger as a transition system on registers, memory and the rest of
the world, and the kernel that runs it for the debugger. An instruction whose first byte is
0xcc traps with `rip` advanced by one; what any other instruction does is a parameter.

* `Cpu.step`, `Cpu.run`: one instruction, and instructions up to the next stop.
* `cpuKernel`: the system calls of the debugger on one traced process.
* `restoreBreakpoint_cpu`: what `RestoreBreakpoint` does to a stopped process.
-/

namespace Zkz.Debugger

open Zkz.Lib BreakpointList

variable {ε : Type}

/-! ## Programs -/

/-- The state of the debuggee; `env` is what its system calls read and change. -/
structure Machine (ε : Type) where
  regs : UserRegs
  mem : Mem
  env : ε

/-- What an instruction does: it completes, it is a trap, the process stops with a signal to
be delivered, or the process ends. -/
inductive Outcome (ε : Type) where
  | next (s : Machine ε)
  | trap (s : Machine ε)
  | signal (s : Machine ε) (sig : BitVec 8)
  | gone (w : Wstatus) (h : wifexited w = true ∨ wifsignaled w = true)

/-- The instructions of a program other than the byte 0xcc. A system call may stop twice
under `PTRACE_SYSCALL`: `enter` is the state at its entry, and `leave` completes it. -/
structure Cpu (ε : Type) where
  /-- The length of the instruction at `rip`. -/
  len : Machine ε → Nat
  exec : Machine ε → Outcome ε
  enter : Machine ε → Option (Machine ε)
  leave : Machine ε → Outcome ε
  /-- Only the byte 0xcc is a trap. -/
  exec_ne_trap : ∀ s s', exec s ≠ .trap s'
  leave_ne_trap : ∀ s s', leave s ≠ .trap s'

def Machine.rip (s : Machine ε) : Addr := s.regs.rip

def Machine.setRip (s : Machine ε) (a : Addr) : Machine ε :=
  { s with regs := { s.regs with rip := a } }

def Cpu.step (C : Cpu ε) (s : Machine ε) : Outcome ε :=
  if s.mem s.rip = trapByte then .trap (s.setRip (s.rip + 1)) else C.exec s

/-- Instructions up to the next stop, after a first outcome. -/
def Cpu.run (C : Cpu ε) : Nat → Outcome ε → Option (Outcome ε)
  | 0, .next _ => none
  | fuel + 1, .next s => C.run fuel (C.step s)
  | _, o => some o

/-- Instructions up to the next stop or system call; the flag says that the stop is at the
entry of a system call. -/
def Cpu.trace (C : Cpu ε) : Nat → Machine ε → Option (Outcome ε × Bool)
  | 0, _ => none
  | fuel + 1, s =>
    if s.mem s.rip = trapByte then some (C.step s, false)
    else match C.enter s with
      | some s' => some (.next s', true)
      | none => match C.step s with
        | .next s' => C.trace fuel s'
        | o => some (o, false)

theorem Cpu.step_of_trap (C : Cpu ε) {s : Machine ε} (h : s.mem s.rip = trapByte) :
    C.step s = .trap (s.setRip (s.rip + 1)) := if_pos h

theorem Cpu.step_of_ne (C : Cpu ε) {s : Machine ε} (h : s.mem s.rip ≠ trapByte) :
    C.step s = C.exec s := if_neg h

theorem run_trap (C : Cpu ε) (fuel : Nat) (s : Machine ε) :
    C.run fuel (.trap s) = some (.trap s) := by
  cases fuel <;> rfl

theorem run_gone (C : Cpu ε) (fuel : Nat) (w : Wstatus)
    (hw : wifexited w = true ∨ wifsignaled w = true) :
    C.run fuel (.gone w hw) = some (.gone w hw) := by
  cases fuel <;> rfl

/-! ## Traced processes -/

/-- What a traced process is doing. -/
inductive Phase where
  | stopped | stepping | continuing | tracing
  /-- It has ended and its status was waited for. -/
  | reaped
deriving DecidableEq

/-- A change of `rip` by `PTRACE_SETREGS`: where the trap was if the debuggee has just
executed one, and `rip` before and after. -/
structure Rewind where
  lastTrap : Option Addr
  before : Addr
  after : Addr
deriving DecidableEq

structure Proc (ε : Type) where
  machine : Machine ε
  phase : Phase
  /-- It is stopped at the entry of a system call. -/
  inCall : Bool
  /-- Where the trap was, if executing it is the last thing the debuggee did. -/
  lastTrap : Option Addr
  /-- The changes of its registers so far. -/
  rewinds : List Rewind

/-- A process stopped before its first instruction. -/
def Proc.init (s : Machine ε) : Proc ε where
  machine := s
  phase := .stopped
  inCall := false
  lastTrap := none
  rewinds := []

def Outcome.status : Outcome ε → Wstatus
  | .next _ => stopStatus sigtrap
  | .trap _ => stopStatus sigtrap
  | .signal _ sig => stopStatus sig
  | .gone w _ => w

/-- The process once a wait has reported an outcome. -/
def Proc.report (p : Proc ε) : Outcome ε → Proc ε
  | .next s => { p with machine := s, phase := .stopped, inCall := false, lastTrap := none }
  | .trap s =>
    { p with machine := s, phase := .stopped, inCall := false, lastTrap := some (s.rip - 1) }
  | .signal s _ => { p with machine := s, phase := .stopped, inCall := false, lastTrap := none }
  | .gone _ _ => { p with phase := .reaped, inCall := false }

/-- What a process that is resumed does first. -/
def Cpu.resume (C : Cpu ε) (p : Proc ε) : Outcome ε :=
  if p.inCall then C.leave p.machine else C.step p.machine

/-- How a process that was resumed for a phase stops next, and whether that is at the entry of
a system call. -/
def Cpu.nextStop (C : Cpu ε) (fuel : Nat) (phase : Phase) (p : Proc ε) :
    Option (Outcome ε × Bool) :=
  match phase with
  | .stepping => some (C.resume p, false)
  | .continuing => (C.run fuel (C.resume p)).map fun o => (o, false)
  | .tracing => if p.inCall then some (C.leave p.machine, false) else C.trace fuel p.machine
  | _ => none

def Proc.setMem (p : Proc ε) (m : Mem) : Proc ε :=
  { p with machine := { p.machine with mem := m } }

def Proc.setRegs (p : Proc ε) (r : UserRegs) : Proc ε :=
  { p with machine := { p.machine with regs := r },
           rewinds := p.rewinds ++ [⟨p.lastTrap, p.machine.rip, r.rip⟩] }

def Proc.inPhase (p : Proc ε) (phase : Phase) : Proc ε := { p with phase := phase }

/-- A request to resume the process. -/
def Proc.start (p : Proc ε) (phase : Phase) : Bool × Proc ε :=
  if p.phase = .stopped then (true, p.inPhase phase) else (false, p)

/-- The kernel with one traced process. Requests to a process that is not stopped fail. A
wait that would last longer than `fuel` instructions does not return. -/
def cpuKernel (C : Cpu ε) (fuel : Nat) : Kernel (Proc ε) where
  peektext _ a p := (if p.phase = .stopped then some (readWord p.machine.mem a) else none, p)
  poketext _ a w p :=
    if p.phase = .stopped then (true, p.setMem (writeWord p.machine.mem a w)) else (false, p)
  getregs _ p := (if p.phase = .stopped then some p.machine.regs else none, p)
  setregs _ r p := if p.phase = .stopped then (true, p.setRegs r) else (false, p)
  setregsByValue _ _ p := (false, p)
  singlestep _ p := p.start .stepping
  cont _ p := p.start .continuing
  syscall _ p := p.start .tracing
  attach _ p := (false, p)
  fork p := (none, p)
  waitpid _ p := match p.phase with
    | .stopped => none
    | .reaped => some (none, p)
    | phase => (C.nextStop fuel phase p).map fun o =>
      (some o.1.status, { p.report o.1 with inCall := o.2 })

/-- A process that has ended reports no stop. -/
theorem wifstopped_gone {w : Wstatus} (hw : wifexited w = true ∨ wifsignaled w = true) :
    wifstopped w = false := by
  by_contra h
  have hstop : wifstopped w = true := by simpa using h
  rcases hw with hex | hsig
  · rw [wifexited_of_wifstopped hstop] at hex
    cases hex
  · simp only [wifsignaled, Bool.and_eq_true, bne_iff_ne] at hsig
    exact hsig.2 (and_7f_of_wifstopped hstop)

section Requests

variable {C : Cpu ε} (fuel : Nat) {p : Proc ε}

theorem peektext_stopped (h : p.phase = .stopped) (pid : Int) (a : Addr) :
    (cpuKernel C fuel).peektext pid a p = (some (readWord p.machine.mem a), p) := by
  simp only [cpuKernel, if_pos h]

theorem poketext_stopped (h : p.phase = .stopped) (pid : Int) (a : Addr) (w : Word) :
    (cpuKernel C fuel).poketext pid a w p = (true, p.setMem (writeWord p.machine.mem a w)) :=
  if_pos h

theorem setregs_stopped (h : p.phase = .stopped) (pid : Int) (r : UserRegs) :
    (cpuKernel C fuel).setregs pid r p = (true, p.setRegs r) := if_pos h

theorem getregs_stopped (h : p.phase = .stopped) (pid : Int) :
    (cpuKernel C fuel).getregs pid p = (some p.machine.regs, p) := by
  simp only [cpuKernel, if_pos h]

theorem resume_inPhase (h : p.inCall = false) (phase : Phase) :
    C.resume (p.inPhase phase) = C.step p.machine := if_neg (by simp [Proc.inPhase, h])

theorem start_stopped (h : p.phase = .stopped) (phase : Phase) :
    p.start phase = (true, p.inPhase phase) := if_pos h

theorem start_reaped (h : p.phase = .reaped) (phase : Phase) : p.start phase = (false, p) :=
  if_neg (by simp [h])

theorem report_inCall (o : Outcome ε) : { p.report o with inCall := false } = p.report o := by
  cases o <;> rfl

theorem waitpid_stepping (h : p.phase = .stepping) (pid : Int) :
    (cpuKernel C fuel).waitpid pid p =
      some (some (C.resume p).status, p.report (C.resume p)) := by
  simp only [cpuKernel, h, Cpu.nextStop, Option.map_some, report_inCall]

theorem waitpid_continuing (h : p.phase = .continuing) (pid : Int) :
    (cpuKernel C fuel).waitpid pid p =
      (C.run fuel (C.resume p)).map fun o => (some o.status, p.report o) := by
  simp only [cpuKernel, h, Cpu.nextStop, Option.map_map, Function.comp_def, report_inCall]

end Requests

/-! ## Restores of a stopped process -/

/-- The process when `RestoreBreakpoint` has asked for its single step. -/
def Proc.restoring (p : Proc ε) (b : Breakpoint) (a : Addr) : Proc ε :=
  ((p.setMem (writeWord p.machine.mem a b.origdata)).setRegs
    { p.machine.regs with rip := a }).inPhase .stepping

theorem restoreBreakpoint_cpu (C : Cpu ε) (fuel : Nat) (b : Breakpoint) (a : Addr)
    {d : Main (Proc ε)} (h : d.kernel.phase = .stopped) :
    ∃ out, restoreBreakpoint (cpuKernel C fuel) b a d =
      .ok (restoreResult (C.resume (d.kernel.restoring b a)).status,
        ⟨afterWait (C.resume (d.kernel.restoring b a)).status d.debug,
          { d.kernel.machine.regs with rip := a },
          (d.kernel.restoring b a).report (C.resume (d.kernel.restoring b a)), out⟩) := by
  have hpoke := poketext_stopped (C := C) fuel h d.debug.pid a b.origdata
  have hget := getregs_stopped (C := C) fuel
    (p := d.kernel.setMem (writeWord d.kernel.machine.mem a b.origdata)) h d.debug.pid
  have hset := setregs_stopped (C := C) fuel
    (p := d.kernel.setMem (writeWord d.kernel.machine.mem a b.origdata)) h d.debug.pid
    { d.kernel.machine.regs with rip := a }
  have hstep := start_stopped (p := (d.kernel.setMem (writeWord d.kernel.machine.mem a
    b.origdata)).setRegs { d.kernel.machine.regs with rip := a }) h .stepping
  exact restoreBreakpoint_run hpoke hget hset hstep
    (waitpid_stepping fuel (p := d.kernel.restoring b a) rfl _)

end Zkz.Debugger
