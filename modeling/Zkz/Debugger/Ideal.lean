import Zkz.Debugger.Transparency

/-!
# An ideal debugger

What the debugger is for, said without system calls: the program runs as it does on its own, with
its signals discarded, and the traps are a set of addresses beside it instead of bytes in its code.
A trap is used up when the program comes to it.

* `Traps`: the breakpoints and the traps that are set, of which none is at an unlisted address.
* `Ideal.turn`: the native program with such traps executes an instruction.
* `Ideal.run`, `Ideal.stepX`: it does so until a breakpoint, or for a number of times.
-/

namespace Zkz.Debugger

open Zkz.Lib BreakpointList

variable {ε : Type}

/-! ## Programs without signals -/

/-- What an instruction does if the signal is discarded that it is stopped with. -/
def Outcome.deaf : Outcome ε → Outcome ε
  | .signal s _ => .next s
  | o => o

/-- The program whose signals are discarded. -/
def Cpu.deaf (C : Cpu ε) : Cpu ε where
  len := C.len
  exec s := (C.exec s).deaf
  enter := C.enter
  leave s := (C.leave s).deaf
  exec_ne_trap s s' h := by
    cases ho : C.exec s with
    | next q => simp [Outcome.deaf, ho] at h
    | trap q => exact C.exec_ne_trap s q ho
    | signal q sig => simp [Outcome.deaf, ho] at h
    | gone w hw => simp [Outcome.deaf, ho] at h
  leave_ne_trap s s' h := by
    cases ho : C.leave s with
    | next q => simp [Outcome.deaf, ho] at h
    | trap q => exact C.leave_ne_trap s q ho
    | signal q sig => simp [Outcome.deaf, ho] at h
    | gone w hw => simp [Outcome.deaf, ho] at h

/-! ## Lists with one element changed -/

section Modify

variable {α β : Type} {f : α → α} {i : Nat} {x : α}

theorem exists_of_mem_modify {l : List α} (h : x ∈ l.modify i f) : ∃ y ∈ l, x = y ∨ x = f y := by
  obtain ⟨j, hj⟩ := List.mem_iff_getElem?.mp h
  rw [List.getElem?_modify, Option.map_eq_map, Option.map_eq_some_iff] at hj
  obtain ⟨y, hy, hxy⟩ := hj
  refine ⟨y, List.mem_of_getElem? hy, ?_⟩
  split at hxy
  · exact Or.inr hxy.symm
  · exact Or.inl hxy.symm

theorem map_modify {g : α → β} {h : β → β} (hg : ∀ x, g (f x) = h (g x)) (l : List α) (i : Nat) :
    (l.modify i f).map g = (l.map g).modify i h := by
  refine List.ext_getElem? fun j => ?_
  rw [List.getElem?_map, List.getElem?_modify, List.getElem?_modify, List.getElem?_map,
    Option.map_eq_map, Option.map_eq_map, Option.map_map, Option.map_map]
  refine congrArg (fun e => Option.map e l[j]?) (funext fun x => ?_)
  simp only [Function.comp_apply]
  split
  · exact hg x
  · rfl

theorem find?_modify {p : α → Bool} (hp : ∀ x, p (f x) = p x) (l : List α) (i : Nat)
    (h : (l.modify i f).find? p = some x) : ∃ y, l.find? p = some y ∧ (x = y ∨ x = f y) := by
  induction l generalizing i with
  | nil => simp at h
  | cons y l ih =>
    cases i with
    | zero =>
      rw [List.modify_zero_cons, List.find?_cons, hp] at h
      rw [List.find?_cons]
      cases hy : p y with
      | true =>
        rw [hy] at h
        exact ⟨y, rfl, Or.inr (Option.some.inj h).symm⟩
      | false =>
        rw [hy] at h
        exact ⟨x, h, Or.inl rfl⟩
    | succ i =>
      rw [List.modify_succ_cons, List.find?_cons] at h
      rw [List.find?_cons]
      cases hy : p y with
      | true =>
        rw [hy] at h
        exact ⟨y, rfl, Or.inl (Option.some.inj h).symm⟩
      | false =>
        rw [hy] at h
        exact ih i h

end Modify

/-! ## Breakpoints and traps -/

/-- A breakpoint: `under` are the traps that its word had in it when it was placed. -/
structure Mark where
  isEnabled : Bool
  address : Addr
  under : List Addr
  number : Int

def Mark.disabled (e : Mark) : Mark := { e with isEnabled := false }

/-- The breakpoints, and the addresses at which traps are set. Every trap, also one that may come
back with a word, is at a listed address, and the first breakpoint at an address was not placed over
a trap there. -/
structure Traps where
  marks : List Mark
  armed : List Addr
  listed : ∀ x ∈ armed, x ∈ marks.map Mark.address
  inWord : ∀ e ∈ marks, ∀ x ∈ e.under, InWord e.address x
  underListed : ∀ e ∈ marks, ∀ x ∈ e.under, x ∈ marks.map Mark.address
  first : ∀ a e, marks.find? (·.address == a) = some e → a ∉ e.under

namespace Traps

def empty : Traps where
  marks := []
  armed := []
  listed _ hx := hx
  inWord _ he := absurd he List.not_mem_nil
  underListed _ he := absurd he List.not_mem_nil
  first _ _ h := by cases h

/-- The breakpoint that is found by an address. -/
def lookup (t : Traps) (a : Addr) : Option Mark := t.marks.find? (·.address == a)

theorem lookup_mem {t : Traps} {a : Addr} {e : Mark} (h : t.lookup a = some e) :
    e ∈ t.marks ∧ e.address = a :=
  ⟨List.mem_of_find?_eq_some h, by simpa using List.find?_some h⟩

theorem lookup_isSome {t : Traps} {a : Addr} (h : a ∈ t.armed) : ∃ e, t.lookup a = some e := by
  obtain ⟨e, he, hea⟩ := List.mem_map.mp (t.listed a h)
  rw [← Option.isSome_iff_exists, lookup, List.find?_isSome]
  exact ⟨e, he, by simpa using hea⟩

/-- A breakpoint at an address, and a trap. -/
def place (t : Traps) (a : Addr) : Traps where
  marks := t.marks ++ [⟨true, a, t.armed.filter (InWord a), t.marks.length + 1⟩]
  armed := t.armed ++ [a]
  listed := by
    intro x hx
    rw [List.map_append, List.mem_append]
    exact (List.mem_append.mp hx).imp (t.listed x) id
  inWord := by
    intro e he x hx
    rcases List.mem_append.mp he with he | he
    · exact t.inWord e he x hx
    · rw [List.mem_singleton.mp he] at hx ⊢
      exact of_decide_eq_true (List.mem_filter.mp hx).2
  underListed := by
    intro e he x hx
    rw [List.map_append, List.mem_append]
    rcases List.mem_append.mp he with he | he
    · exact Or.inl (t.underListed e he x hx)
    · rw [List.mem_singleton.mp he] at hx
      exact Or.inl (t.listed x (List.mem_filter.mp hx).1)
  first := by
    intro x e he hx
    rw [List.find?_append] at he
    cases hold : t.marks.find? (·.address == x) with
    | some e' =>
      rw [hold] at he
      cases he
      exact t.first x e hold hx
    | none =>
      rw [hold, Option.none_or] at he
      rw [List.mem_singleton.mp (List.mem_of_find?_eq_some he)] at hx
      obtain ⟨e', he'⟩ := lookup_isSome (List.mem_filter.mp hx).1
      rw [lookup, hold] at he'
      cases he'

/-- The word of a breakpoint is written back: its traps are those that were there before. -/
def restored (t : Traps) (e : Mark) : List Addr :=
  t.armed.filter (fun x => !decide (InWord e.address x)) ++ e.under

def restore (t : Traps) (e : Mark) (he : e ∈ t.marks) : Traps where
  marks := t.marks
  armed := t.restored e
  listed := by
    intro x hx
    rcases List.mem_append.mp hx with hx | hx
    · exact t.listed x (List.mem_filter.mp hx).1
    · exact t.underListed e he x hx
  inWord := t.inWord
  underListed := t.underListed
  first := t.first

/-- The breakpoint at a position is disabled; its trap stays. -/
def disable (t : Traps) (i : Nat) : Traps where
  marks := t.marks.modify i Mark.disabled
  armed := t.armed
  listed := by
    rw [map_modify (f := Mark.disabled) (g := Mark.address) (h := id) fun _ => rfl, List.modify_id]
    exact t.listed
  inWord := by
    intro e he
    obtain ⟨e', he', heq⟩ := exists_of_mem_modify he
    have hword := t.inWord e' he'
    rcases heq with rfl | rfl
    · exact hword
    · exact hword
  underListed := by
    rw [map_modify (f := Mark.disabled) (g := Mark.address) (h := id) fun _ => rfl, List.modify_id]
    intro e he
    obtain ⟨e', he', heq⟩ := exists_of_mem_modify he
    have hunder := t.underListed e' he'
    rcases heq with rfl | rfl
    · exact hunder
    · exact hunder
  first := by
    intro a e h
    obtain ⟨e', he', heq⟩ := find?_modify (f := Mark.disabled) (fun _ => rfl) _ _ h
    have hfirst := t.first a e' he'
    rcases heq with rfl | rfl
    · exact hfirst
    · exact hfirst

end Traps

/-! ## The debugger -/

/-- The native program, whether it has ended, and the traps. -/
structure Ideal (ε : Type) where
  machine : Machine ε
  isOver : Bool
  traps : Traps

namespace Ideal

/-- The breakpoint whose trap is in front of the program. -/
def hit (s : Ideal ε) : Option { e : Mark // e ∈ s.traps.marks } :=
  if s.machine.rip ∈ s.traps.armed then
    (s.traps.lookup s.machine.rip).attachWith _ fun _ h => (Traps.lookup_mem h).1
  else none

/-- The program executes an instruction. -/
def advance (C : Cpu ε) (s : Ideal ε) : Ideal ε :=
  match C.deaf.exec s.machine with
  | .next q => { s with machine := q }
  | .gone _ _ => { s with isOver := true }
  | _ => s

/-- The trap of a breakpoint is used up, and the program executes the instruction there. -/
def pass (C : Cpu ε) (s : Ideal ε) (e : { e : Mark // e ∈ s.traps.marks }) : Ideal ε :=
  advance C { s with traps := s.traps.restore e.1 e.2 }

/-- What a command returns if the program ends by itself. -/
def endResult (w : Wstatus) : Int := if wifexited w then exitStatusRet else -1

/-- One instruction, from under a trap if there is one in front of it, and what a command returns
whose last one it is: it passed an enabled breakpoint, or there is no next one. -/
def turn (C : Cpu ε) (s : Ideal ε) : Option Int × Ideal ε :=
  if s.isOver then (some (-1), s)
  else match s.hit with
    | some e => (if e.1.isEnabled then some 0 else none, s.pass C e)
    | none => match C.exec s.machine with
      | .gone w _ => (some (endResult w), s.advance C)
      | _ => (none, s.advance C)

/-- The program runs until it has passed an enabled breakpoint, or it has ended; `none` if that
takes longer. -/
def run (C : Cpu ε) : Nat → Ideal ε → Option (Int × Ideal ε)
  | 0, _ => none
  | k + 1, s => match s.turn C with
    | (some ret, s') => some (ret, s')
    | (none, s') => run C k s'

/-- The program runs for a number of instructions, or until it has passed an enabled breakpoint. -/
def stepX (C : Cpu ε) : Nat → Ideal ε → Int × Ideal ε
  | 0, s => (0, s)
  | k + 1, s => match s.turn C with
    | (some ret, s') => (ret, s')
    | (none, s') => stepX C k s'

/-- What follows an instruction, unless a command returns there. -/
def andThen (next : Ideal ε → Option (Int × Ideal ε)) :
    Option Int × Ideal ε → Option (Int × Ideal ε)
  | (some ret, t) => some (ret, t)
  | (none, t) => next t

theorem run_succ (C : Cpu ε) (k : Nat) (s : Ideal ε) :
    s.run C (k + 1) = andThen (run C k) (s.turn C) := by
  rw [run]
  cases s.turn C with
  | mk o t => cases o <;> rfl

theorem stepX_succ (C : Cpu ε) (k : Nat) (s : Ideal ε) :
    some (s.stepX C (k + 1)) = andThen (fun t => some (t.stepX C k)) (s.turn C) := by
  rw [stepX]
  cases s.turn C with
  | mk o t => cases o <;> rfl

/-- A run that has ended is not prolonged by more instructions. -/
theorem run_mono {C : Cpu ε} {k : Nat} {s : Ideal ε} {r : Int × Ideal ε}
    (h : s.run C k = some r) (m : Nat) : s.run C (k + m) = some r := by
  induction k generalizing s with
  | zero => cases h
  | succ k ih =>
    rw [Nat.add_right_comm, run_succ]
    rw [run_succ] at h
    generalize s.turn C = x at h ⊢
    obtain ⟨_ | ret, t⟩ := x
    · exact ih h
    · exact h

/-- Two runs that have ended are the same. -/
theorem run_unique {C : Cpu ε} {k m : Nat} {s : Ideal ε} {r r' : Int × Ideal ε}
    (h : s.run C k = some r) (h' : s.run C m = some r') : r = r' := by
  have hk := run_mono h m
  rw [Nat.add_comm, run_mono h' k] at hk
  exact (Option.some.inj hk).symm

theorem endResult_cases (w : Wstatus) : endResult w = exitStatusRet ∨ endResult w = -1 := by
  unfold endResult
  split
  · exact Or.inl rfl
  · exact Or.inr rfl

theorem hit_eq_some {s : Ideal ε} {e : { e : Mark // e ∈ s.traps.marks }} :
    s.hit = some e ↔ s.machine.rip ∈ s.traps.armed ∧ s.traps.lookup s.machine.rip = some e.1 := by
  unfold hit
  split
  · rename_i h
    rw [Option.attachWith_eq_some_iff]
    exact (and_iff_right h).symm
  · rename_i h
    exact iff_of_false (fun hnone => by cases hnone) fun hin => h hin.1

theorem hit_eq_none {s : Ideal ε} : s.hit = none ↔ s.machine.rip ∉ s.traps.armed := by
  constructor
  · intro hnone hin
    obtain ⟨e, he⟩ := Traps.lookup_isSome hin
    have hsome : s.hit = some ⟨e, (Traps.lookup_mem he).1⟩ := hit_eq_some.mpr ⟨hin, he⟩
    rw [hnone] at hsome
    cases hsome
  · exact fun h => if_neg h

/-! ### One instruction -/

section Turn

variable {C : Cpu ε} {s : Ideal ε}

theorem turn_over (h : s.isOver = true) : s.turn C = (some (-1), s) := if_pos h

theorem turn_hit (h : s.isOver = false) {e : { e : Mark // e ∈ s.traps.marks }}
    (he : s.hit = some e) :
    s.turn C = (if e.1.isEnabled then some 0 else none, s.pass C e) := by
  unfold turn
  rw [if_neg (by simp [h]), he]

theorem turn_gone (h : s.isOver = false) (hfree : s.hit = none) {w : Wstatus}
    {hw : wifexited w = true ∨ wifsignaled w = true} (ho : C.exec s.machine = .gone w hw) :
    s.turn C = (some (endResult w), s.advance C) := by
  unfold turn
  rw [if_neg (by simp [h]), hfree]
  simp only [ho]

/-- The program goes on from its next state, also if that is a signal. -/
theorem advance_next {q : Machine ε} (ho : C.deaf.exec s.machine = .next q) :
    s.advance C = { s with machine := q } := by
  unfold advance
  rw [ho]

theorem turn_next (h : s.isOver = false) (hfree : s.hit = none) {q : Machine ε}
    (ho : C.deaf.exec s.machine = .next q) : s.turn C = (none, { s with machine := q }) := by
  unfold turn
  rw [if_neg (by simp [h]), hfree, advance_next ho]
  cases hexec : C.exec s.machine with
  | gone w hw =>
    have hdeaf : (C.exec s.machine).deaf = .next q := ho
    rw [hexec] at hdeaf
    cases hdeaf
  | _ => rfl

end Turn

/-- What a command returns: 0, and 1 or -1 if the program has ended. -/
theorem turn_result {C : Cpu ε} {s : Ideal ε} {ret : Int} (h : (s.turn C).1 = some ret) :
    ret = 0 ∨ ret = exitStatusRet ∨ ret = -1 := by
  unfold turn at h
  split at h
  · exact Or.inr (Or.inr (Option.some.inj h).symm)
  · split at h
    · simp only at h
      split at h
      · exact Or.inl (Option.some.inj h).symm
      · cases h
    · split at h
      · cases h
        exact Or.inr (endResult_cases _)
      · cases h

theorem run_result {C : Cpu ε} {k : Nat} {s t : Ideal ε} {ret : Int}
    (h : s.run C k = some (ret, t)) : ret = 0 ∨ ret = exitStatusRet ∨ ret = -1 := by
  induction k generalizing s with
  | zero => cases h
  | succ k ih =>
    rw [run_succ] at h
    cases hturn : s.turn C with
    | mk o t' =>
      rw [hturn] at h
      cases o with
      | none => exact ih h
      | some ret' =>
        cases h
        exact turn_result (congrArg Prod.fst hturn)

/-! ### What stays -/

theorem advance_traps (C : Cpu ε) (s : Ideal ε) : (s.advance C).traps = s.traps := by
  unfold advance
  split <;> rfl

theorem pass_marks (C : Cpu ε) (s : Ideal ε) (e : { e : Mark // e ∈ s.traps.marks }) :
    (s.pass C e).traps.marks = s.traps.marks := by
  unfold pass
  rw [advance_traps]
  rfl

/-- No instruction changes the breakpoints. -/
theorem turn_marks (C : Cpu ε) (s : Ideal ε) : (s.turn C).2.traps.marks = s.traps.marks := by
  have hadvance := congrArg Traps.marks (advance_traps C s)
  unfold turn
  split
  · rfl
  · split
    · exact pass_marks C s _
    · split
      · exact hadvance
      · exact hadvance

end Ideal

end Zkz.Debugger
