import Zkz.Debugger.Ideal

/-!
# What a process shows of the ideal debugger

A process under the debugger shows a state of the ideal debugger: its memory is that of the native
program with a trap byte at every address where a trap is set, and the listed breakpoints have saved
the words of such memories. An instruction without a trap in front and a restore keep this.

* `Shows`: what a process and a list have to do with a state of the ideal debugger.
* `advance_shows`, `restore_shows`: an instruction, and the restore behind a trap.
* `continueAtStop_passes`, `stepAutoAtStop_passes`, `stepXAtStop_passes`: the parts of the three
  commands behind a trap pass it.
-/

namespace Zkz.Debugger

open Zkz.Lib BreakpointList

variable {ε : Type}

/-! ## Patched machines -/

/-- The machine with a trap at each of some addresses. -/
def Machine.patched (A : List Addr) (q : Machine ε) : Machine ε :=
  { q with mem := overlay trapByte A q.mem }

/-- An outcome seen through a function on machines. -/
def Outcome.map (f : Machine ε → Machine ε) : Outcome ε → Outcome ε
  | .next q => .next (f q)
  | .trap q => .trap (f q)
  | .signal q sig => .signal (f q) sig
  | .gone w h => .gone w h

/-- The native run from `s₀` without its signals executes no trap of its own, and its code is apart
from its data. -/
structure Cpu.Tame (C : Cpu ε) (code : Set Addr) (s₀ : Machine ε) : Prop where
  noTrap : ∀ q, C.deaf.Reaches s₀ q → q.mem q.rip ≠ trapByte
  apart : ∀ q, C.deaf.Reaches s₀ q → C.CodeApart code q

section Patched

variable {C : Cpu ε} {code : Set Addr} {s₀ q : Machine ε} {A : List Addr}

theorem Outcome.Rel.deaf {R : Machine ε → Machine ε → Prop} {o o' : Outcome ε} (h : o.Rel R o') :
    o.deaf.Rel R o'.deaf := by
  cases o <;> cases o' <;> first | exact h | exact h.1 | exact absurd h id

theorem Outcome.eq_map_of_rel {f : Machine ε → Machine ε} {o o' : Outcome ε}
    (h : o.Rel (fun p q => p = f q) o') : o = o'.map f := by
  cases o <;> cases o' <;> first
    | exact congrArg Outcome.next h
    | exact congrArg Outcome.trap h
    | exact congrArg₂ Outcome.signal h.1 h.2
    | exact absurd h id
    | (cases (h : _ = _); rfl)

/-- Without its signals such a program is a plain one. -/
theorem Cpu.Tame.plain (h : C.Tame code s₀) : C.deaf.Plain code s₀ where
  noTrap := h.noTrap
  noSignal q _ s sig hs := by
    have hdeaf : (C.exec q).deaf = .signal s sig := hs
    cases ho : C.exec q <;> rw [ho] at hdeaf <;> cases hdeaf
  apart q hq m hout hin := (h.apart q hq m hout hin).deaf

/-- Traps elsewhere do not change what an instruction does. -/
theorem exec_patched (h : C.CodeApart code q) (hcode : ∀ a ∈ A, a ∈ code)
    (hfirst : ∀ a ∈ A, (a - q.rip).toNat < C.len q → a = q.rip) (hrip : q.rip ∉ A) :
    C.exec (q.patched A) = (C.exec q).map (Machine.patched A) := by
  have hout : ∀ x, x ∉ code → overlay trapByte A q.mem x = q.mem x :=
    fun x hx => if_neg fun hxA => hx (hcode x hxA)
  have hown : ∀ x, (x - q.rip).toNat < C.len q → overlay trapByte A q.mem x = q.mem x :=
    fun x hx => if_neg fun hxA => hrip (hfirst x hxA hx ▸ hxA)
  have hrel := h _ hout hown
  refine Outcome.eq_map_of_rel (hrel.mono ?_)
  rintro p' q' ⟨hregs, henv, hdata, hin⟩
  have hmem : p'.mem = overlay trapByte A q'.mem := by
    funext x
    by_cases hx : x ∈ code
    · rw [(hin x hx).1]
      unfold overlay
      rw [(hin x hx).2]
    · rw [hdata x hx]
      exact (if_neg fun hxA => hx (hcode x hxA)).symm
  unfold Machine.patched
  rw [← hmem, ← hregs, ← henv]

end Patched

/-! ## What a process shows -/

/-- The breakpoint that has saved the word of a mark, over the code `m`. -/
def Mark.breakpoint (m : Mem) (e : Mark) : Breakpoint where
  isEnabled := e.isEnabled
  address := e.address
  origdata := readWord (overlay trapByte e.under m) e.address
  breakpointNumber := e.number

/-- The list is that of the ideal debugger, all of whose breakpoints can be placed in the program,
which it has run from `s₀`. -/
structure Fits (C : Cpu ε) (code : Set Addr) (s₀ : Machine ε) (s : Ideal ε)
    (li : BreakpointList) : Prop where
  list : li = s.traps.marks.map (Mark.breakpoint s₀.mem)
  spots : ∀ e ∈ s.traps.marks, C.deaf.Placeable code s₀ e.address
  reaches : C.deaf.Reaches s₀ s.machine

/-- The process is stopped where the ideal debugger is, with its traps, or both have ended. -/
structure Shows (C : Cpu ε) (code : Set Addr) (s₀ : Machine ε) (s : Ideal ε)
    (li : BreakpointList) (k : Proc ε) : Prop extends Fits C code s₀ s li where
  gone : s.isOver = true → k.phase = .reaped
  alive : s.isOver = false → k.phase = .stopped ∧ k.inCall = false ∧
    k.machine = s.machine.patched s.traps.armed

section Shows

variable {C : Cpu ε} {code : Set Addr} {s₀ q : Machine ε} {s : Ideal ε} {li : BreakpointList}
  {A : List Addr} {k : Proc ε}

theorem Fits.lookup (h : Fits C code s₀ s li) (a : Addr) :
    getElementByAddress li a = (s.traps.lookup a).map (Mark.breakpoint s₀.mem) := by
  rw [h.list, getElementByAddress, List.find?_map]
  rfl

theorem Fits.spot (h : Fits C code s₀ s li) {x : Addr}
    (hx : x ∈ s.traps.marks.map Mark.address) : C.deaf.Placeable code s₀ x := by
  obtain ⟨e, he, rfl⟩ := List.mem_map.mp hx
  exact h.spots e he

theorem Fits.addresses (h : Fits C code s₀ s li) :
    addresses li = s.traps.marks.map Mark.address := by
  rw [h.list, BreakpointList.addresses, List.map_map]
  rfl

/-- A native instruction with no trap in front of it. -/
theorem step_free (h : C.Tame code s₀) (hq : C.deaf.Reaches s₀ q)
    (hA : ∀ a ∈ A, C.deaf.Placeable code s₀ a) (hrip : q.rip ∉ A) :
    C.step (q.patched A) = (C.exec q).map (Machine.patched A) := by
  rw [C.step_of_ne, exec_patched (h.apart q hq) (fun a ha => (hA a ha).word a (inWord_self a))
    (fun a ha => (hA a ha).first q hq) hrip]
  have hbyte : (q.patched A).mem (q.patched A).rip = q.mem q.rip := if_neg hrip
  rw [hbyte]
  exact h.noTrap q hq

/-- A trap in front. -/
theorem step_armed (hrip : q.rip ∈ A) :
    C.step (q.patched A) = .trap ((q.patched A).setRip (q.rip + 1)) :=
  C.step_of_trap (if_pos hrip)

/-- What a native instruction leaves, with its signals discarded. -/
theorem deaf_step (h : C.Tame code s₀) (hq : C.deaf.Reaches s₀ q) :
    C.deaf.step q = (C.exec q).deaf := C.deaf.step_of_ne (h.noTrap q hq)

/-- A process that reports the instruction in front shows it. -/
theorem advance_shows (h : C.Tame code s₀) (hs : Fits C code s₀ s li) (halive : s.isOver = false)
    (k : Proc ε) : Shows C code s₀ (s.advance C) li
      (k.report ((C.exec s.machine).map (Machine.patched s.traps.armed))) := by
  have hstep := deaf_step h hs.reaches
  unfold Ideal.advance
  rw [show C.deaf.exec s.machine = (C.exec s.machine).deaf from rfl]
  cases ho : C.exec s.machine with
  | next q =>
    rw [ho] at hstep
    exact ⟨⟨hs.list, hs.spots, hs.reaches.tail hstep⟩,
      fun (hover : s.isOver = true) => absurd hover (by simp [halive]),
      fun _ => ⟨rfl, rfl, rfl⟩⟩
  | trap q => exact absurd ho (C.exec_ne_trap _ _)
  | signal q sig =>
    rw [ho] at hstep
    exact ⟨⟨hs.list, hs.spots, hs.reaches.tail hstep⟩,
      fun (hover : s.isOver = true) => absurd hover (by simp [halive]),
      fun _ => ⟨rfl, rfl, rfl⟩⟩
  | gone w hw => exact ⟨⟨hs.list, hs.spots, hs.reaches⟩, fun _ => rfl, fun hover => by cases hover⟩

/-- No trap is left in front once its breakpoint is restored. -/
theorem rip_not_mem_restored {e : { e : Mark // e ∈ s.traps.marks }} (he : s.hit = some e) :
    s.machine.rip ∉ s.traps.restored e.1 := by
  obtain ⟨-, hfind⟩ := Ideal.hit_eq_some.mp he
  intro hin
  rcases List.mem_append.mp hin with hin | hin
  · have hout := (List.mem_filter.mp hin).2
    rw [(Traps.lookup_mem hfind).2] at hout
    simp [inWord_self] at hout
  · exact s.traps.first _ _ hfind hin

/-- A saved word that is written back takes the traps in it from when it was saved. -/
theorem Fits.written (h : C.Tame code s₀) (hs : Fits C code s₀ s li) {e : Mark}
    (he : e ∈ s.traps.marks) :
    writeWord (s.machine.patched s.traps.armed).mem e.address (e.breakpoint s₀.mem).origdata =
      overlay trapByte (s.traps.restored e) s.machine.mem := by
  refine writeWord_overlay (fun x hx => ?_) (s.traps.inWord e he)
  exact (h.plain.code_eq hs.reaches x ((hs.spots e he).word x hx)).symm

/-- The single step inside a restore is the native instruction under the trap. -/
theorem resume_restoring_hit (h : C.Tame code s₀) (hs : Fits C code s₀ s li)
    {e : { e : Mark // e ∈ s.traps.marks }} (he : s.hit = some e) (hcall : k.inCall = false)
    (hk : k.machine = (s.machine.patched s.traps.armed).setRip (s.machine.rip + 1)) :
    C.resume (k.restoring (e.1.breakpoint s₀.mem) s.machine.rip) =
      (C.exec s.machine).map (Machine.patched (s.traps.restored e.1)) := by
  have haddr := (Traps.lookup_mem (Ideal.hit_eq_some.mp he).2).2
  have hrestored : (s.machine.patched s.traps.armed).restored (e.1.breakpoint s₀.mem) =
      s.machine.patched (s.traps.restored e.1) := by
    have hwritten := hs.written h e.2
    rw [haddr] at hwritten
    exact congrArg (fun m => ({ s.machine with mem := m } : Machine ε)) hwritten
  have hmachine : (k.restoring (e.1.breakpoint s₀.mem) s.machine.rip).machine =
      s.machine.patched (s.traps.restored e.1) :=
    (restoring_machine (p := s.machine.patched s.traps.armed) _ hk).trans hrestored
  rw [resume_restoring hcall, hmachine]
  refine step_free h hs.reaches ?_ (rip_not_mem_restored he)
  intro a ha
  exact hs.spot ((s.traps.restore e.1 e.2).listed a ha)

variable (fuel : Nat) {d : Main (Proc ε)} {e : { e : Mark // e ∈ s.traps.marks }}

/-- The process of `d` has just executed the trap in front of the ideal debugger. -/
structure AtTrap (s : Ideal ε) (d : Main (Proc ε)) : Prop where
  stopped : d.kernel.phase = .stopped
  outside : d.kernel.inCall = false
  machine : d.kernel.machine = (s.machine.patched s.traps.armed).setRip (s.machine.rip + 1)

/-- The registers behind a trap. -/
def Ideal.behind (s : Ideal ε) : UserRegs := { s.machine.regs with rip := s.machine.rip + 1 }

theorem behind_back (s : Ideal ε) : s.behind.rip - 1 = s.machine.rip :=
  BitVec.add_sub_cancel _ _

theorem Fits.found (hs : Fits C code s₀ s li) (he : s.hit = some e) :
    getElementByAddress li (s.behind.rip - 1) = some (e.1.breakpoint s₀.mem) := by
  rw [behind_back, hs.lookup, (Ideal.hit_eq_some.mp he).2]
  rfl

/-- A restore behind a trap passes it. -/
theorem restore_shows (h : C.Tame code s₀) (hs : Fits C code s₀ s li) (halive : s.isOver = false)
    (he : s.hit = some e) (hd : AtTrap s d) :
    ∃ ret d', restoreBreakpoint (cpuKernel C fuel) (e.1.breakpoint s₀.mem) s.machine.rip d =
        .ok (ret, d') ∧ ¬ ret < -1 ∧ Shows C code s₀ (s.pass C e) li d'.kernel := by
  obtain ⟨out, hrun⟩ := restoreBreakpoint_cpu C fuel (e.1.breakpoint s₀.mem) s.machine.rip
    hd.stopped
  refine ⟨_, _, hrun, restoreResult_nonneg _, ?_⟩
  rw [resume_restoring_hit h hs he hd.outside hd.machine]
  exact advance_shows h (s := { s with traps := s.traps.restore e.1 e.2 })
    ⟨hs.list, hs.spots, hs.reaches⟩ halive _

/-- What a command leaves behind a trap: it is passed, and the command ends if its breakpoint is
enabled. -/
def Passes (C : Cpu ε) (code : Set Addr) (s₀ : Machine ε) (s : Ideal ε) (li : BreakpointList)
    (e : { e : Mark // e ∈ s.traps.marks }) (x : DbgM (Proc ε) (Option Int))
    (d : Main (Proc ε)) : Prop :=
  ∃ d', x d = .ok (if e.1.isEnabled then some 0 else none, d') ∧
    Shows C code s₀ (s.pass C e) li d'.kernel

theorem restoreThen_passes (h : C.Tame code s₀) (hs : Fits C code s₀ s li)
    (halive : s.isOver = false) (he : s.hit = some e) (hd : AtTrap s d) :
    Passes C code s₀ s li e (do
      if (← restoreBreakpoint (cpuKernel C fuel) (e.1.breakpoint s₀.mem) s.machine.rip) < -1 then
        return some (-1)
      return if e.1.isEnabled then some 0 else none) d := by
  obtain ⟨ret, d', hrun, hret, hshows⟩ := restore_shows fuel h hs halive he hd
  refine ⟨d', ?_, hshows⟩
  rw [run_bind_ok hrun, if_neg hret]
  rfl

theorem continueAtStop_passes (h : C.Tame code s₀) (hs : Fits C code s₀ s li)
    (halive : s.isOver = false) (he : s.hit = some e) (hd : AtTrap s d) :
    Passes C code s₀ s li e (continueAtStop (cpuKernel C fuel) li s.behind) d := by
  have hb := hs.found he
  have hrest := fun out => restoreThen_passes fuel h hs halive he
    (d := ⟨d.debug, s.behind, d.kernel, out⟩) ⟨hd.stopped, hd.outside, hd.machine⟩
  by_cases hen : e.1.isEnabled = true
  · obtain ⟨out, hat⟩ := continueAtStop_enabled (K := cpuKernel C fuel) (d := d) hb hen
      (by rw [getregs_stopped fuel hd.stopped, hd.machine]; rfl)
    obtain ⟨d', hrun, hshows⟩ := hrest out
    refine ⟨d', ?_, hshows⟩
    rw [hat, behind_back, ← hrun]
    simp only [hen, if_true]
  · obtain ⟨out, hat⟩ := continueAtStop_disabled (K := cpuKernel C fuel) (d := d) hb
      (Bool.eq_false_iff.mpr hen)
    obtain ⟨d', hrun, hshows⟩ := hrest out
    refine ⟨d', ?_, hshows⟩
    rw [hat, behind_back, ← hrun]
    simp only [hen, Bool.false_eq_true, if_false]

theorem stepAutoAtStop_passes (h : C.Tame code s₀) (hs : Fits C code s₀ s li)
    (halive : s.isOver = false) (he : s.hit = some e) (hd : AtTrap s d) :
    Passes C code s₀ s li e (stepAutoAtStop (cpuKernel C fuel) li s.behind) d := by
  obtain ⟨out, hat⟩ := stepAutoAtStop_listed (K := cpuKernel C fuel) (d := d) (hs.found he)
  obtain ⟨ret, d', hrun, -, hshows⟩ := restore_shows fuel h hs halive he
    (d := ⟨d.debug, s.behind, d.kernel, out⟩) ⟨hd.stopped, hd.outside, hd.machine⟩
  refine ⟨d', ?_, hshows⟩
  rw [hat, behind_back, run_bind_ok hrun]
  rfl

/-- In a step only an enabled breakpoint is restored where it is. -/
theorem stepXAtStop_passes (h : C.Tame code s₀) (hs : Fits C code s₀ s li)
    (halive : s.isOver = false) (he : s.hit = some e) (hen : e.1.isEnabled = true)
    (hd : AtTrap s d) (i : Nat) :
    Passes C code s₀ s li e (stepXAtStop (cpuKernel C fuel) li i s.behind) d := by
  obtain ⟨out, hat⟩ := stepXAtStop_enabled (K := cpuKernel C fuel) (i := i) (d := d)
    (hs.found he) hen
  obtain ⟨d', hrun, hshows⟩ := restoreThen_passes fuel h hs halive he
    (d := ⟨d.debug, s.behind, d.kernel, out⟩) ⟨hd.stopped, hd.outside, hd.machine⟩
  refine ⟨d', ?_, hshows⟩
  rw [hat, behind_back, ← hrun]
  simp only [hen, if_true]

end Shows

end Zkz.Debugger
