import Zkz.Lib.Overlay
import Zkz.Debugger.Answers

/-!
# A stopped debuggee

What the list operations need of the kernel: `Kernel.PeekPoke` (peeks and pokes succeed)
and `Kernel.Stopped` (they succeed, and read and write the words of one memory).
`stoppedKernel` is a debuggee that is only peeked and poked. `placeBreakpoint_run` and
`removeElement_run` are what the two operations do to the list and the memory then.
-/

namespace Zkz.Debugger

open Zkz.Lib BreakpointList

variable {σ : Type}

/-- Peeks and pokes of the debuggee succeed. -/
structure Kernel.PeekPoke (K : Kernel σ) : Prop where
  peektext : ∀ p a s, (K.peektext p a s).1.isSome
  poketext : ∀ p a w s, (K.poketext p a w s).1 = true

/-- Peeks and pokes succeed and act on the memory `mem` of the debuggee. -/
structure Kernel.Stopped (K : Kernel σ) (mem : σ → Mem) : Prop where
  peektext : ∀ p a s, (K.peektext p a s).1 = some (readWord (mem s) a) ∧
    mem (K.peektext p a s).2 = mem s
  poketext : ∀ p a w s, (K.poketext p a w s).1 = true ∧
    mem (K.poketext p a w s).2 = writeWord (mem s) a w

theorem Kernel.Stopped.peekPoke {K : Kernel σ} {mem : σ → Mem} (hK : K.Stopped mem) :
    K.PeekPoke where
  peektext p a s := by rw [(hK.peektext p a s).1]; rfl
  poketext p a w s := (hK.poketext p a w s).1

/-- A debuggee that does not run. -/
def stoppedKernel : Kernel Mem where
  peektext _ a m := (some (readWord m a), m)
  poketext _ a w m := (true, writeWord m a w)
  getregs _ m := (some {}, m)
  setregs _ _ m := (true, m)
  setregsByValue _ _ m := (false, m)
  singlestep _ m := (false, m)
  cont _ m := (false, m)
  syscall _ m := (false, m)
  attach _ m := (false, m)
  fork m := (none, m)
  waitpid _ _ := none

theorem stoppedKernel_stopped : stoppedKernel.Stopped id where
  peektext _ _ _ := ⟨rfl, rfl⟩
  poketext _ _ _ _ := ⟨rfl, rfl⟩

/-! ## The two list operations -/

/-- What `RemoveElement` leaves of the list when its system calls succeed. -/
def dropNumber (li : BreakpointList) (n : Int) : BreakpointList :=
  match removalIndex li n with
  | none => li
  | some i => li.eraseIdx i

theorem removalIndex_lt {li : BreakpointList} {n : Int} {i : Nat}
    (h : removalIndex li n = some i) : i < li.length := by
  unfold removalIndex at h
  split at h
  · cases h
  · exact (List.findIdx?_eq_some_iff_getElem.mp h).1

theorem removeElement_run {K : Kernel σ} (hK : K.PeekPoke) (li : BreakpointList) (n : Int)
    (d : Main σ) : ∃ d', removeElement K li n d = .ok ((0, dropNumber li n), d') := by
  unfold removeElement dropNumber
  cases h : removalIndex li n with
  | none => exact ⟨_, rfl⟩
  | some i =>
    simp only [List.getElem?_eq_getElem (removalIndex_lt h)]
    rw [run_bind_ok (by rfl)]
    split
    · rw [run_bind_ok (by rfl), hK.poketext]
      exact ⟨_, rfl⟩
    · exact ⟨_, rfl⟩

/-- The guard of `RemoveElement` lets a word with a trap byte through. -/
theorem and_trap_of_low {w : Word} (h : byteAt w 0 = trapByte) : w &&& 0xcc = 0xcc := by
  apply BitVec.eq_of_getLsbD_eq
  intro j hj
  have hhigh : ∀ j : Fin 64, 8 ≤ j.val → BitVec.getLsbD (0xcc : Word) j.val = false := by decide
  have hlow : ∀ j : Fin 8, BitVec.getLsbD (0xcc : Word) j.val = BitVec.getLsbD trapByte j.val := by
    decide
  rw [BitVec.getLsbD_and]
  by_cases hj8 : j < 8
  · have hbit := congrArg (fun b : Byte => b.getLsbD j) h
    simp only [byteAt, BitVec.getLsbD_extractLsb', hj8, decide_true, Bool.true_and, Nat.mul_zero,
      Nat.zero_add] at hbit
    rw [hbit, hlow ⟨j, hj8⟩, Bool.and_self]
  · rw [hhigh ⟨j, hj⟩ (Nat.le_of_not_lt hj8), Bool.and_false]

/-- Removing the breakpoint at a trap writes its saved word back. -/
theorem removeElement_mem {K : Kernel σ} {mem : σ → Mem} (hK : K.Stopped mem)
    {li : BreakpointList} {n : Int} {i : Nat} {b : Breakpoint} (hi : removalIndex li n = some i)
    (hb : li[i]? = some b) {d : Main σ} (htrap : mem d.kernel b.address = trapByte) :
    ∃ d', removeElement K li n d = .ok ((0, li.eraseIdx i), d') ∧
      mem d'.kernel = writeWord (mem d.kernel) b.address b.origdata := by
  have hpeek := hK.peektext d.debug.pid b.address d.kernel
  have hguard : readWord (mem d.kernel) b.address &&& 0xcc = 0xcc := by
    apply and_trap_of_low
    rw [byteAt_readWord (by omega)]
    simpa using htrap
  unfold removeElement
  simp only [hi, hb]
  rw [run_bind_ok (by rfl)]
  simp only [hpeek.1, Option.getD_some, hguard, if_true]
  rw [run_bind_ok (by rfl)]
  have hpoke := hK.poketext d.debug.pid b.address b.origdata
    (K.peektext d.debug.pid b.address d.kernel).2
  simp only [hpoke.1]
  refine ⟨_, rfl, hpoke.2.trans ?_⟩
  rw [hpeek.2]

/-- Placing a breakpoint saves the word at its address and changes the one byte there. -/
theorem placeBreakpoint_run {K : Kernel σ} {mem : σ → Mem} (hK : K.Stopped mem)
    (li : BreakpointList) (a : Addr) (d : Main σ) :
    ∃ d', placeBreakpoint K li a d =
        .ok ((0, appendElement li a (readWord (mem d.kernel) a)), d') ∧
      mem d'.kernel = Function.update (mem d.kernel) a trapByte := by
  have hpeek := hK.peektext d.debug.pid a d.kernel
  have hpoke := hK.poketext d.debug.pid a (setLow (readWord (mem d.kernel) a) trapByte)
    (K.peektext d.debug.pid a d.kernel).2
  obtain ⟨out, h⟩ := placeBreakpoint_ok (K := K) (a := a) (d := d) li
    (Prod.ext hpeek.1 rfl) (Prod.ext hpoke.1 rfl)
  refine ⟨_, h, hpoke.2.trans ?_⟩
  rw [hpeek.2, writeWord_setLow]

end Zkz.Debugger
