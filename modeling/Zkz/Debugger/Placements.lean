import Mathlib.Algebra.Order.BigOperators.Group.List
import Zkz.Debugger.Answers
import Zkz.Debugger.MainLoop

/-!
# The placements of a command

`Kernel.peeked` is a kernel that notes the addresses it peeks. `PlaceBreakpoint` peeks once, at the
address it is called with, and the commands that place breakpoints peek nowhere else: what they add
to the notes are the addresses of their calls of `PlaceBreakpoint`.

* `placeBreakpoint_peeked`: a call is noted.
* `words_noted`: a loop over some words notes the calls of each.
* `flatMap_eq_iff`: two lists of calls, word by word.
-/

namespace Zkz.Debugger

open Zkz.Lib

variable {σ : Type}

/-- A system call that is not noted. -/
def unnoted {α : Type} (call : σ → α × σ) (s : σ × List Addr) : α × (σ × List Addr) :=
  ((call s.1).1, ((call s.1).2, s.2))

/-- The kernel with the addresses it has peeked so far. -/
def Kernel.peeked (K : Kernel σ) : Kernel (σ × List Addr) where
  peektext pid a s := ((K.peektext pid a s.1).1, ((K.peektext pid a s.1).2, s.2 ++ [a]))
  poketext pid a w := unnoted (K.poketext pid a w)
  getregs pid := unnoted (K.getregs pid)
  setregs pid r := unnoted (K.setregs pid r)
  setregsByValue pid r := unnoted (K.setregsByValue pid r)
  singlestep pid := unnoted (K.singlestep pid)
  cont pid := unnoted (K.cont pid)
  syscall pid := unnoted (K.syscall pid)
  attach pid := unnoted (K.attach pid)
  fork := unnoted K.fork
  waitpid pid s := (K.waitpid pid s.1).map fun r => (r.1, (r.2, s.2))
  kill pid s := (K.kill pid s.1, s.2)

/-- A call of `PlaceBreakpoint` returns, and is noted. -/
theorem placeBreakpoint_peeked (K : Kernel σ) (li : BreakpointList) (a : Addr)
    (d : Main (σ × List Addr)) :
    ∃ r d', placeBreakpoint K.peeked li a d = .ok (r, d') ∧
      d'.kernel.2 = d.kernel.2 ++ [a] := by
  let o := (K.peektext d.debug.pid a d.kernel.1).1
  let s₁ := (K.peektext d.debug.pid a d.kernel.1).2
  have hpeek : K.peeked.peektext d.debug.pid a d.kernel = (o, (s₁, d.kernel.2 ++ [a])) := rfl
  cases hok : (K.poketext d.debug.pid a (setLow (o.getD (-1)) trapByte) s₁).1 with
  | true =>
    have hpoke : K.peeked.poketext d.debug.pid a (setLow (o.getD (-1)) trapByte)
        (s₁, d.kernel.2 ++ [a]) = (true, _) := Prod.ext hok rfl
    obtain ⟨out, hrun⟩ := placeBreakpoint_poked li hpeek hpoke
    exact ⟨_, _, hrun, rfl⟩
  | false =>
    have hpoke : K.peeked.poketext d.debug.pid a (setLow (o.getD (-1)) trapByte)
        (s₁, d.kernel.2 ++ [a]) = (false, _) := Prod.ext hok rfl
    obtain ⟨out, hrun⟩ := placeBreakpoint_fail li hpeek hpoke
    exact ⟨_, _, hrun, rfl⟩

/-- A running debuggee of which nothing was peeked. -/
def unpeekedMain : Main (Mem × List Addr) :=
  { Main.init ((fun _ => 0 : Mem), []) with debug := { Debug.init with isRunning := true } }

/-! ## Words -/

/-- A loop over some words notes the calls of each, if it does so for one word and goes on. -/
theorem words_noted {calls : Line → List Addr}
    {loop : List Line → BreakpointList → DbgM (σ × List Addr) BreakpointList}
    (hnil : ∀ li d, loop [] li d = .ok (li, d))
    (hcons : ∀ word words li d, ∃ li₁ d₁, loop (word :: words) li d = loop words li₁ d₁ ∧
      d₁.kernel.2 = d.kernel.2 ++ calls word)
    (words : List Line) (li : BreakpointList) (d : Main (σ × List Addr)) :
    ∃ li' d', loop words li d = .ok (li', d') ∧
      d'.kernel.2 = d.kernel.2 ++ words.flatMap calls := by
  induction words generalizing li d with
  | nil => exact ⟨li, d, hnil li d, (List.append_nil _).symm⟩
  | cons word words ih =>
    obtain ⟨li₁, d₁, hword, hnoted⟩ := hcons word words li d
    obtain ⟨li', d', hrest, hrestNoted⟩ := ih li₁ d₁
    refine ⟨li', d', hword.trans hrest, ?_⟩
    rw [hrestNoted, hnoted, List.flatMap_cons, List.append_assoc]

/-- Two lists that are put together from parts are equal exactly if the parts are, if those of one
are no longer than those of the other. -/
theorem flatMap_eq_iff {α β : Type} {f g : α → List β} {l : List α}
    (h : ∀ x ∈ l, (f x).length ≤ (g x).length) :
    l.flatMap f = l.flatMap g ↔ ∀ x ∈ l, f x = g x := by
  constructor
  · intro heq
    induction l with
    | nil => exact fun x hx => absurd hx List.not_mem_nil
    | cons y l ih =>
      obtain ⟨hy, hl⟩ := List.forall_mem_cons.mp h
      have hrest : (l.flatMap f).length ≤ (l.flatMap g).length := by
        rw [List.length_flatMap, List.length_flatMap]
        exact List.sum_le_sum hl
      rw [List.flatMap_cons, List.flatMap_cons] at heq
      have hlen := congrArg List.length heq
      rw [List.length_append, List.length_append] at hlen
      obtain ⟨hhead, htail⟩ := List.append_inj heq (by omega)
      exact List.forall_mem_cons.mpr ⟨hhead, ih hl htail⟩
  · exact fun heq => List.flatMap_congr heq

end Zkz.Debugger
