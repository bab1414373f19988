import Zkz.Debugger.Kernel

/-!
# A kernel that remembers

`Kernel.noted` is a kernel together with the list of what it was asked and what it answered. It
answers as the kernel alone does.
-/

namespace Zkz.Debugger

variable {σ : Type}

/-- A system call and its answer. -/
inductive Event where
  /-- A `ptrace` request, and whether it succeeded. -/
  | request (ok : Bool)
  /-- The `ptrace` request of `SetRegister`. -/
  | setRegister (pid : Int) (r : UserRegs) (ok : Bool)
  | forked (pid : Option Int)
  /-- A wait that returned, and the status it stored. -/
  | waited (w : Option Wstatus)

/-- A system call whose answer is noted as an event. -/
def noteAnswer {α : Type} (event : α → Event) (call : σ → α × σ) (s : σ × List Event) :
    α × (σ × List Event) :=
  ((call s.1).1, ((call s.1).2, s.2 ++ [event (call s.1).1]))

/-- The kernel with the events so far. -/
def Kernel.noted (K : Kernel σ) : Kernel (σ × List Event) where
  peektext pid a := noteAnswer (fun w => .request w.isSome) (K.peektext pid a)
  poketext pid a w := noteAnswer .request (K.poketext pid a w)
  getregs pid := noteAnswer (fun r => .request r.isSome) (K.getregs pid)
  setregs pid r := noteAnswer .request (K.setregs pid r)
  setregsByValue pid r := noteAnswer (.setRegister pid r) (K.setregsByValue pid r)
  singlestep pid := noteAnswer .request (K.singlestep pid)
  cont pid := noteAnswer .request (K.cont pid)
  syscall pid := noteAnswer .request (K.syscall pid)
  attach pid := noteAnswer .request (K.attach pid)
  fork := noteAnswer .forked K.fork
  waitpid pid s := (K.waitpid pid s.1).map fun r => (r.1, (r.2, s.2 ++ [.waited r.1]))
  kill pid s := (K.kill pid s.1, s.2)

theorem noted_waitpid {K : Kernel σ} {pid : Int} {s s' : σ × List Event} {w : Option Wstatus}
    (h : K.noted.waitpid pid s = some (w, s')) : s'.2 = s.2 ++ [.waited w] := by
  obtain ⟨r, -, hr⟩ := Option.map_eq_some_iff.mp h
  cases hr
  rfl

end Zkz.Debugger
