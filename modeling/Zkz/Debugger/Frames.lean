import Zkz.Debugger.Stopped

/-!
# What writing a saved word back changes

`RestoreBreakpoint` and `RemoveElement` set the byte at the address of a breakpoint by writing the
whole word that was saved there at placement. Since then the debuggee and other breakpoints may
have changed the memory in any way. The guard of `RemoveElement` tests the bits of 0xcc, which
other bytes have as well.

* `restoreFrame_iff`: up to its single step a restore changes no byte but the one at the address
  exactly when the seven bytes behind it are those that were saved.
* `removalFrame_iff`: the same for a removal, and for the byte at the address.
* `frames_iff`: both.
-/

namespace Zkz.Debugger

open Zkz.Lib BreakpointList

variable {σ : Type}

/-! ## The memory of the debuggee -/

/-- The requests of a stopped debuggee change its memory `mem` by pokes that succeed only. -/
structure Kernel.Memory (K : Kernel σ) (mem : σ → Mem) : Prop where
  peektext : ∀ p a s, mem (K.peektext p a s).2 = mem s
  poketext : ∀ p a w s, mem (K.poketext p a w s).2 =
    if (K.poketext p a w s).1 = true then writeWord (mem s) a w else mem s
  getregs : ∀ p s, mem (K.getregs p s).2 = mem s
  setregs : ∀ p r s, mem (K.setregs p r s).2 = mem s

theorem Kernel.Memory.poked {K : Kernel σ} {mem : σ → Mem} (hK : K.Memory mem) {p : Int}
    {a : Addr} {w : Word} {s : σ} (h : (K.poketext p a w s).1 = true) :
    mem (K.poketext p a w s).2 = writeWord (mem s) a w :=
  (hK.poketext p a w s).trans (if_pos h)

theorem Kernel.Memory.unpoked {K : Kernel σ} {mem : σ → Mem} (hK : K.Memory mem) {p : Int}
    {a : Addr} {w : Word} {s : σ} (h : ¬ (K.poketext p a w s).1 = true) :
    mem (K.poketext p a w s).2 = mem s :=
  (hK.poketext p a w s).trans (if_neg h)

theorem stoppedKernel_memory : stoppedKernel.Memory id where
  peektext _ _ _ := rfl
  poketext _ _ _ _ := rfl
  getregs _ _ := rfl
  setregs _ _ _ := rfl

/-- Lists and debugger states that breakpoint commands lead to, while the debuggee and everything
behind the kernel may change in any way. -/
inductive Reachable (K : Kernel σ) : BreakpointList → Main σ → Prop where
  | start (d : Main σ) : Reachable K [] d
  | place {li li' : BreakpointList} {d d' : Main σ} {ret : Int} (address : Addr)
      (h : Reachable K li d) (hrun : placeBreakpoint K li address d = .ok ((ret, li'), d')) :
      Reachable K li' d'
  | disable {li li' : BreakpointList} {d d' : Main σ} {ret : Int} (bNumber : Int)
      (h : Reachable K li d) (hrun : disableBreakpoint li bNumber d = .ok ((ret, li'), d')) :
      Reachable K li' d'
  | remove {li li' : BreakpointList} {d d' : Main σ} {ret : Int} (breakpointNumber : Int)
      (h : Reachable K li d)
      (hrun : removeElement K li breakpointNumber d = .ok ((ret, li'), d')) : Reachable K li' d'
  | changed {li : BreakpointList} {d : Main σ} (s : σ) (h : Reachable K li d) :
      Reachable K li { d with kernel := s }

section Frames

variable {K : Kernel σ} {mem : σ → Mem} {li : BreakpointList} {b : Breakpoint} {d : Main σ}

/-! ## Restores -/

/-- Up to its single step a restore of `b` changes no byte but the one at its address. -/
def RestoreFrame (K : Kernel σ) (mem : σ → Mem) (b : Breakpoint) (d : Main σ) : Prop :=
  ∃ o d', restoreToStep K b b.address d = .ok (o, d') ∧
    ∀ x, x ≠ b.address → mem d'.kernel x = mem d.kernel x

/-- The seven bytes behind the address of `b` are those that were saved. -/
def TailSaved (mem : σ → Mem) (b : Breakpoint) (d : Main σ) : Prop :=
  ∀ i < 8, 0 < i → byteAt b.origdata i = mem d.kernel (b.address + BitVec.ofNat 64 i)

/-- The saved word of `b` can be written. -/
def Writable (K : Kernel σ) (b : Breakpoint) (d : Main σ) : Prop :=
  (K.poketext d.debug.pid b.address b.origdata d.kernel).1 = true

/-- What the poke of a restore leaves is what the restore leaves up to its single step. -/
theorem restoreToStep_run (hK : K.Memory mem) (b : Breakpoint) (a : Addr) (d : Main σ) :
    ∃ o d', restoreToStep K b a d = .ok (o, d') ∧
      mem d'.kernel = mem (K.poketext d.debug.pid a b.origdata d.kernel).2 := by
  unfold restoreToStep
  cases hpoke : K.poketext d.debug.pid a b.origdata d.kernel with
  | mk poked s₁ =>
    rw [run_bind_ok (by rfl), run_bind_ok (by simp only [ptrace, hpoke]; rfl)]
    cases poked with
    | false => exact ⟨_, _, rfl, rfl⟩
    | true =>
      simp only [Bool.not_true, Bool.false_eq_true, if_false]
      cases hget : K.getregs d.debug.pid s₁ with
      | mk o s₂ =>
        have hsame : mem s₂ = mem s₁ := by
          have h := hK.getregs d.debug.pid s₁
          rw [hget] at h
          exact h
        rw [run_bind_ok (by simp only [ptrace, hget]; rfl)]
        cases o with
        | none => exact ⟨_, _, rfl, hsame⟩
        | some r =>
          simp only
          rw [run_bind_ok (by rfl), run_bind_ok (by rfl)]
          split
          · exact ⟨_, _, rfl, (hK.setregs _ _ _).trans hsame⟩
          · exact ⟨_, _, rfl, (hK.setregs _ _ _).trans hsame⟩

/-- The bytes of a word behind its first one. -/
theorem tail_same_iff (m : Mem) (a : Addr) (w : Word) :
    (∀ x, x ≠ a → writeWord m a w x = m x) ↔
      ∀ i < 8, 0 < i → byteAt w i = m (a + BitVec.ofNat 64 i) := by
  rw [writeWord_same_iff m a w (· ≠ a)]
  constructor
  · intro h i hi h0
    exact h i hi (add_ofNat_ne_self h0 hi a)
  · intro h i hi hne
    refine h i hi (Nat.pos_of_ne_zero ?_)
    rintro rfl
    exact hne (by simp)

theorem restoreFrame_iff (hK : K.Memory mem) (b : Breakpoint) (d : Main σ) :
    RestoreFrame K mem b d ↔ (Writable K b d → TailSaved mem b d) := by
  obtain ⟨o, d', hrun, hmem⟩ := restoreToStep_run hK b b.address d
  have hframe : RestoreFrame K mem b d ↔
      ∀ x, x ≠ b.address → mem d'.kernel x = mem d.kernel x := by
    constructor
    · rintro ⟨o', d'', hrun', h⟩
      rw [hrun] at hrun'
      cases hrun'
      exact h
    · exact fun h => ⟨o, d', hrun, h⟩
  rw [hframe, hmem]
  by_cases hw : Writable K b d
  · rw [hK.poked hw, tail_same_iff]
    exact ⟨fun h _ => h, fun h => h hw⟩
  · rw [hK.unpoked hw]
    exact ⟨fun _ h => absurd h hw, fun _ _ _ => rfl⟩

/-! ## Removals -/

/-- A removal of the number of `b` changes no byte but the one at its address, and this one only
if it is the trap byte. -/
def RemovalFrame (K : Kernel σ) (mem : σ → Mem) (li : BreakpointList) (b : Breakpoint)
    (d : Main σ) : Prop :=
  ∃ r d', removeElement K li b.breakpointNumber d = .ok (r, d') ∧
    (∀ x, x ≠ b.address → mem d'.kernel x = mem d.kernel x) ∧
    (mem d'.kernel b.address ≠ mem d.kernel b.address → mem d.kernel b.address = trapByte)

/-- The guard of `RemoveElement` lets the saved word of `c` be written, and it can be. -/
def WritesBack (K : Kernel σ) (c : Breakpoint) (d : Main σ) : Prop :=
  (K.peektext d.debug.pid c.address d.kernel).1.getD (-1) &&& 0xcc = 0xcc ∧
    Writable K c { d with kernel := (K.peektext d.debug.pid c.address d.kernel).2 }

/-- Each byte of the saved word of `c` is the byte in its place, unless that is the trap of `b`. -/
def WordSaved (mem : σ → Mem) (b c : Breakpoint) (d : Main σ) : Prop :=
  ∀ i < 8, byteAt c.origdata i = mem d.kernel (c.address + BitVec.ofNat 64 i) ∨
    c.address + BitVec.ofNat 64 i = b.address ∧ mem d.kernel b.address = trapByte

/-- What a removal leaves of the memory. -/
theorem removeElement_writes (hK : K.Memory mem) {n : Int} {i : Nat} {c : Breakpoint}
    (hi : removalIndex li n = some i) (hc : li[i]? = some c) (d : Main σ) :
    ∃ r d', removeElement K li n d = .ok (r, d') ∧
      (WritesBack K c d → mem d'.kernel = writeWord (mem d.kernel) c.address c.origdata) ∧
      (¬ WritesBack K c d → mem d'.kernel = mem d.kernel) := by
  have hpeek := hK.peektext d.debug.pid c.address d.kernel
  unfold removeElement
  simp only [hi, hc]
  rw [run_bind_ok (by rfl)]
  split
  · rename_i hguard
    rw [run_bind_ok (by rfl)]
    split
    · rename_i hfail
      have hnot : ¬ Writable K c
          { d with kernel := (K.peektext d.debug.pid c.address d.kernel).2 } := by
        unfold Writable
        simpa using hfail
      refine ⟨_, _, rfl, fun h => absurd h.2 hnot, fun _ => ?_⟩
      exact (hK.unpoked hnot).trans hpeek
    · rename_i hok
      have hw : Writable K c { d with kernel := (K.peektext d.debug.pid c.address d.kernel).2 } := by
        unfold Writable
        simpa using hok
      refine ⟨_, _, rfl, fun _ => ?_, fun h => absurd ⟨hguard, hw⟩ h⟩
      rw [← hpeek]
      exact hK.poked hw
  · rename_i hguard
    exact ⟨_, _, rfl, fun h => absurd h.1 hguard, fun _ => hpeek⟩

/-- Where the memory may change, and where it does not. -/
theorem spared_iff (m m' : Mem) (a : Addr) :
    ((∀ x, x ≠ a → m' x = m x) ∧ (m' a ≠ m a → m a = trapByte)) ↔
      ∀ x, ¬ (x = a ∧ m a = trapByte) → m' x = m x := by
  constructor
  · rintro ⟨hothers, ha⟩ x hx
    by_cases hxa : x = a
    · subst hxa
      by_contra hne
      exact hx ⟨rfl, ha hne⟩
    · exact hothers x hxa
  · intro h
    refine ⟨fun x hx => h x fun hxa => hx hxa.1, fun hne => ?_⟩
    by_contra htrap
    exact hne (h a fun ha => htrap ha.2)

theorem wordSaved_iff (b c : Breakpoint) (d : Main σ) :
    (∀ x, ¬ (x = b.address ∧ mem d.kernel b.address = trapByte) →
      writeWord (mem d.kernel) c.address c.origdata x = mem d.kernel x) ↔ WordSaved mem b c d := by
  rw [writeWord_same_iff]
  refine forall_congr' fun i => forall_congr' fun _ => ?_
  constructor
  · intro h
    exact or_iff_not_imp_right.mpr h
  · intro h hnot
    exact h.resolve_right hnot

theorem removalFrame_iff (hK : K.Memory mem) (li : BreakpointList) (b : Breakpoint)
    (d : Main σ) : RemovalFrame K mem li b d ↔
      ∀ i c, removalIndex li b.breakpointNumber = some i → li[i]? = some c →
        WritesBack K c d → WordSaved mem b c d := by
  cases hi : removalIndex li b.breakpointNumber with
  | none =>
    have hrun : ∃ r d', removeElement K li b.breakpointNumber d = .ok (r, d') ∧
        mem d'.kernel = mem d.kernel := by
      unfold removeElement
      rw [hi]
      exact ⟨_, _, rfl, rfl⟩
    obtain ⟨r, d', hrun, hmem⟩ := hrun
    refine iff_of_true ⟨r, d', hrun, fun x _ => by rw [hmem], ?_⟩ ?_
    · intro hne
      exact absurd (congrFun hmem _) hne
    · rintro i c ⟨⟩
  | some i =>
    obtain ⟨c, hc⟩ : ∃ c, li[i]? = some c := ⟨_, List.getElem?_eq_getElem (removalIndex_lt hi)⟩
    obtain ⟨r, d', hrun, hwrites, hnot⟩ := removeElement_writes hK hi hc d
    have hframe : RemovalFrame K mem li b d ↔
        ∀ x, ¬ (x = b.address ∧ mem d.kernel b.address = trapByte) →
          mem d'.kernel x = mem d.kernel x := by
      rw [← spared_iff]
      constructor
      · rintro ⟨r', d'', hrun', h⟩
        rw [hrun] at hrun'
        cases hrun'
        exact h
      · exact fun h => ⟨r, d', hrun, h⟩
    rw [hframe]
    by_cases hw : WritesBack K c d
    · rw [hwrites hw, wordSaved_iff]
      constructor
      · intro h j c' hj hcj _
        cases hj
        rw [hc] at hcj
        cases hcj
        exact h
      · exact fun h => h i c rfl hc hw
    · rw [hnot hw]
      constructor
      · intro _ j c' hj hcj hwc
        cases hj
        rw [hc] at hcj
        cases hcj
        exact absurd hwc hw
      · exact fun _ x _ => rfl

/-- **Writing saved words back changes only the trap** exactly when the words written agree with
the memory: the seven bytes behind the address of `b`, for a restore that can write, and for a
removal every byte of the word that it writes but a trap of `b`. -/
theorem frames_iff (hK : K.Memory mem) (li : BreakpointList) (b : Breakpoint) (d : Main σ) :
    (RestoreFrame K mem b d ∧ RemovalFrame K mem li b d) ↔
      (Writable K b d → TailSaved mem b d) ∧
        ∀ i c, removalIndex li b.breakpointNumber = some i → li[i]? = some c →
          WritesBack K c d → WordSaved mem b c d := by
  rw [restoreFrame_iff hK, removalFrame_iff hK]

end Frames

/-! ## Changed memories -/

/-- Nothing was changed but the byte of the trap. -/
theorem frames_unchanged :
    RestoreFrame stoppedKernel id ⟨true, 0x1000, 0, 1⟩
        (Main.init (Function.update (fun _ => 0) 0x1000 trapByte)) ∧
      RemovalFrame stoppedKernel id [⟨true, 0x1000, 0, 1⟩] ⟨true, 0x1000, 0, 1⟩
        (Main.init (Function.update (fun _ => 0) 0x1000 trapByte)) := by
  refine (frames_iff stoppedKernel_memory _ _ _).mpr ⟨fun _ => ?_, ?_⟩
  · unfold TailSaved
    decide
  · rintro i c ⟨⟩ ⟨⟩ _
    unfold WordSaved
    decide

/-- The byte behind a breakpoint is changed after the placement, and the restore and the removal
change it back. -/
theorem neighbour_overwritten :
    ∃ li d b, Reachable stoppedKernel li d ∧ b ∈ li ∧
      ¬ RestoreFrame stoppedKernel id b d ∧ ¬ RemovalFrame stoppedKernel id li b d := by
  have hplaced : Reachable stoppedKernel [⟨true, 0x1000, 0, 1⟩] _ :=
    .place 0x1000 (.start (Main.init fun _ => 0)) (show _ = Except.ok ((0, _), _) from rfl)
  have hchanged := hplaced.changed
    (Function.update (Function.update (fun _ => 0) 0x1000 trapByte) 0x1001 0x90)
  refine ⟨_, _, _, hchanged, List.mem_singleton_self _, ?_, ?_⟩
  · rw [restoreFrame_iff stoppedKernel_memory]
    intro h
    have h₁ := h rfl 1 (by decide) (by decide)
    revert h₁
    decide
  · rw [removalFrame_iff stoppedKernel_memory]
    intro h
    have h₁ := h 0 _ rfl rfl ⟨by decide, rfl⟩ 1 (by decide)
    revert h₁
    decide

end Zkz.Debugger
