import Zkz.Debugger.Stopped

/-!
# Placing a breakpoint

`PlaceBreakpoint` reads the word at an address, writes it back with the trap byte and appends it to
the list. It is to do all of this or nothing. It compares the word, which is unsigned, with 0, so
that it does not see a peek that fails: it goes on with the word -1, which is then written to the
debuggee and saved in the list.

* `Kernel.Answers`: the memory behind two requests that succeed or fail.
* `placeBreakpoint_iff`: all or nothing, exactly if the peek succeeds, the poke fails or the word is
  -1 anyway.
-/

namespace Zkz.Debugger

open Zkz.Lib BreakpointList

variable {σ : Type}

/-- Peeks and pokes act on the memory `mem` of the debuggee, and succeed if `peeks` and `pokes`
say so. -/
structure Kernel.Answers (K : Kernel σ) (mem : σ → Mem) (peeks pokes : Bool) : Prop where
  peektext : ∀ p a s, (K.peektext p a s).1 = (if peeks then some (readWord (mem s) a) else none) ∧
    mem (K.peektext p a s).2 = mem s
  poketext : ∀ p a w s, (K.poketext p a w s).1 = pokes ∧
    mem (K.poketext p a w s).2 = if pokes then writeWord (mem s) a w else mem s

/-- A stopped debuggee is one where both succeed. -/
theorem Kernel.stopped_iff_answers {K : Kernel σ} {mem : σ → Mem} :
    K.Stopped mem ↔ K.Answers mem true true := by
  constructor
  · intro h
    exact ⟨fun p a s => by simpa using h.peektext p a s, fun p a w s => by simpa using h.poketext p a w s⟩
  · intro h
    exact ⟨fun p a s => by simpa using h.peektext p a s, fun p a w s => by simpa using h.poketext p a w s⟩

/-- The result 0, an enabled breakpoint with the word that was at the address at the end of the list,
and no change of the memory but the trap byte. -/
structure PlacedAll (li : BreakpointList) (a : Addr) (m : Mem) (ret : Int) (li' : BreakpointList)
    (m' : Mem) : Prop where
  ret : ret = 0
  appended : ∃ b, li' = li ++ [b] ∧ b.isEnabled = true ∧ b.address = a ∧ b.origdata = readWord m a
  memory : m' = Function.update m a trapByte

/-- The result -1, and no change. -/
structure PlacedNothing (li : BreakpointList) (m : Mem) (ret : Int) (li' : BreakpointList)
    (m' : Mem) : Prop where
  ret : ret = -1
  list : li' = li
  memory : m' = m

section Placement

variable {K : Kernel σ} {mem : σ → Mem} {peeks pokes : Bool}

/-- What a placement does when its poke succeeds: the word is the one peeked, or -1. -/
theorem Kernel.Answers.placeBreakpoint_poked (hK : K.Answers mem peeks true) (li : BreakpointList)
    (a : Addr) (d : Main σ) :
    ∃ d', placeBreakpoint K li a d =
        .ok ((0, appendElement li a (if peeks then readWord (mem d.kernel) a else -1)), d') ∧
      mem d'.kernel = writeWord (mem d.kernel) a
        (setLow (if peeks then readWord (mem d.kernel) a else -1) trapByte) := by
  have hpeek := hK.peektext d.debug.pid a d.kernel
  have hword : ((K.peektext d.debug.pid a d.kernel).1).getD (-1) =
      if peeks then readWord (mem d.kernel) a else -1 := by
    rw [hpeek.1]
    split
    · rfl
    · rfl
  have hpoke := hK.poketext d.debug.pid a
    (setLow ((K.peektext d.debug.pid a d.kernel).1.getD (-1)) trapByte)
    (K.peektext d.debug.pid a d.kernel).2
  obtain ⟨out, h⟩ := Debugger.placeBreakpoint_poked (K := K) (a := a) (d := d) li rfl
    (Prod.ext hpoke.1 rfl)
  rw [hword] at h hpoke
  refine ⟨_, h, ?_⟩
  rw [hpoke.2, if_pos rfl, hpeek.2]

/-- A placement whose poke fails does nothing. -/
theorem Kernel.Answers.placeBreakpoint_fail (hK : K.Answers mem peeks false) (li : BreakpointList)
    (a : Addr) (d : Main σ) :
    ∃ d', placeBreakpoint K li a d = .ok ((-1, li), d') ∧ mem d'.kernel = mem d.kernel := by
  have hpeek := hK.peektext d.debug.pid a d.kernel
  have hpoke := hK.poketext d.debug.pid a
    (setLow ((K.peektext d.debug.pid a d.kernel).1.getD (-1)) trapByte)
    (K.peektext d.debug.pid a d.kernel).2
  obtain ⟨out, h⟩ := Debugger.placeBreakpoint_fail (K := K) (a := a) (d := d) li rfl
    (Prod.ext hpoke.1 rfl)
  refine ⟨_, h, ?_⟩
  rw [hpoke.2, if_neg Bool.false_ne_true, hpeek.2]

end Placement

/-- **A placement is all or nothing**, for every list, address and memory and whichever of the two
requests succeed, exactly if the peek succeeds, the poke fails, or the word at the address is what a
failed peek returns. -/
theorem placeBreakpoint_iff {K : Kernel σ} {mem : σ → Mem} {peeks pokes : Bool}
    (hK : K.Answers mem peeks pokes) (li : BreakpointList) (a : Addr) (d : Main σ) :
    (∃ ret li' d', placeBreakpoint K li a d = .ok ((ret, li'), d') ∧
      (PlacedAll li a (mem d.kernel) ret li' (mem d'.kernel) ∨
        PlacedNothing li (mem d.kernel) ret li' (mem d'.kernel))) ↔
      peeks = true ∨ pokes = false ∨ readWord (mem d.kernel) a = -1 := by
  cases pokes with
  | false =>
    obtain ⟨d', hrun, hmem⟩ := hK.placeBreakpoint_fail li a d
    exact iff_of_true ⟨-1, li, d', hrun, Or.inr ⟨rfl, rfl, hmem⟩⟩ (Or.inr (Or.inl rfl))
  | true =>
    obtain ⟨d', hrun, hmem⟩ := hK.placeBreakpoint_poked li a d
    have hword : (if peeks then readWord (mem d.kernel) a else -1) = readWord (mem d.kernel) a ↔
        peeks = true ∨ readWord (mem d.kernel) a = -1 := by
      cases peeks with
      | true => exact iff_of_true rfl (Or.inl rfl)
      | false => simpa using eq_comm
    rw [hrun]
    constructor
    · rintro ⟨ret, li', d₁, hok, hall | hnothing⟩
      · cases hok
        obtain ⟨b, hli, -, -, hdata⟩ := hall.appended
        obtain rfl : _ = b := by simpa [appendElement] using hli
        rcases hword.mp hdata with hpeek | hones
        · exact Or.inl hpeek
        · exact Or.inr (Or.inr hones)
      · cases hok
        cases hnothing.ret
    · intro h
      have heq := hword.mpr (by simpa using h)
      rw [heq, writeWord_setLow] at hmem
      exact ⟨0, _, d', rfl, Or.inl ⟨rfl, ⟨_, rfl, rfl, rfl, heq⟩, hmem⟩⟩

/-- A stopped debuggee whose peeks and pokes succeed if `peeks` and `pokes` say so. -/
def answeringKernel (peeks pokes : Bool) : Kernel Mem :=
  { stoppedKernel with
    peektext := fun _ a m => (if peeks then some (readWord m a) else none, m)
    poketext := fun _ a w m => (pokes, if pokes then writeWord m a w else m) }

theorem answeringKernel_answers (peeks pokes : Bool) :
    (answeringKernel peeks pokes).Answers id peeks pokes where
  peektext _ _ _ := ⟨rfl, rfl⟩
  poketext _ _ _ _ := ⟨rfl, rfl⟩

/-- A poke that fails. -/
theorem nothing_placed : ∃ ret li' d',
    placeBreakpoint (answeringKernel true false) [] 0x1000 (Main.init fun _ => 0x90) =
      .ok ((ret, li'), d') ∧
    (PlacedAll [] 0x1000 (fun _ => 0x90) ret li' d'.kernel ∨
      PlacedNothing [] (fun _ => 0x90) ret li' d'.kernel) :=
  (placeBreakpoint_iff (answeringKernel_answers true false) [] 0x1000
    (Main.init fun _ => 0x90)).mpr (Or.inl rfl)

/-- A peek that fails before a poke that succeeds: the seven bytes behind the trap byte are 0xff
then, and -1 is saved. -/
theorem lost_word_placed :
    ∃ b d', placeBreakpoint (answeringKernel false true) [] 0x1000 (Main.init fun _ => 0x90) =
        .ok ((0, [b]), d') ∧ b.origdata = -1 ∧ d'.kernel 0x1001 = 0xff ∧
      ¬ PlacedAll [] 0x1000 (fun _ => 0x90) 0 [b] d'.kernel ∧
      ¬ PlacedNothing [] (fun _ => 0x90) 0 [b] d'.kernel := by
  have hbyte : writeWord (fun _ => 0x90) 0x1000 0xffffffffffffffcc 0x1001 = 0xff := by decide
  refine ⟨⟨true, 0x1000, -1, 1⟩, _, rfl, rfl, hbyte, ?_, ?_⟩
  · intro hall
    have hframe := congrFun hall.memory 0x1001
    exact absurd (hbyte.symm.trans hframe) (by decide)
  · intro hnothing
    exact absurd hnothing.ret (by decide)

end Zkz.Debugger
