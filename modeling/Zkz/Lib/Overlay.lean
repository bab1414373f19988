import Zkz.Lib.Words

/-!
# A map with one value laid over some places

`overlay t S m` is `m` with the value `t` at the places of the list `S`. Only which places
are in `S` matters, not their order or how often they occur; a place where `m` has the
value `t` already may be in `S` or not.

`Overlaid t S m' m` says that `m'` is `m` with `t` laid over some places of `S`. It is kept
by writing back a word each byte of which is the byte of `m` or a `t` at a place of `S`
(`Overlaid.writeWord`).
-/

namespace Zkz.Lib

variable {α β : Type} [DecidableEq α]

def overlay (t : β) (S : List α) (m : α → β) : α → β := fun a => if a ∈ S then t else m a

theorem overlay_of_mem {t : β} {S : List α} {m : α → β} {a : α} (h : a ∈ S) :
    overlay t S m a = t := if_pos h

@[simp] theorem overlay_nil (t : β) (m : α → β) : overlay t [] m = m := by
  funext a
  simp [overlay]

/-- One more place. -/
theorem overlay_snoc (t : β) (S : List α) (m : α → β) (a : α) :
    overlay t (S ++ [a]) m = Function.update (overlay t S m) a t := by
  funext x
  by_cases h : x = a
  · subst h
    rw [overlay_of_mem (by simp), Function.update_self]
  · rw [Function.update_of_ne h]
    simp [overlay, h]

/-- Two overlays agree at a place exactly when both or neither cover it, unless the
underlying value there is the one laid over. -/
theorem overlay_eq_iff {t : β} {S S' : List α} {m : α → β} {a : α} :
    overlay t S m a = overlay t S' m a ↔ (m a ≠ t → (a ∈ S ↔ a ∈ S')) := by
  by_cases h : a ∈ S <;> by_cases h' : a ∈ S' <;> simp [overlay, h, h']
  all_goals exact eq_comm

/-! ## Some places of a list -/

/-- `m'` differs from `m` only by values `t` at places of `S`. -/
def Overlaid (t : β) (S : List α) (m' m : α → β) : Prop :=
  ∀ a, m' a = m a ∨ m' a = t ∧ a ∈ S

section Overlaid

variable {t : β} {S S' : List α} {m' m : α → β}

omit [DecidableEq α] in
theorem Overlaid.refl : Overlaid t S m m := fun _ => Or.inl rfl

omit [DecidableEq α] in
theorem Overlaid.mono (h : Overlaid t S m' m) (hS : ∀ a ∈ S, a ∈ S') : Overlaid t S' m' m :=
  fun a => (h a).imp id fun ha => ⟨ha.1, hS a ha.2⟩

omit [DecidableEq α] in
theorem Overlaid.eq_of_not_mem (h : Overlaid t S m' m) {a : α} (ha : a ∉ S) : m' a = m a :=
  (h a).resolve_right fun hS => ha hS.2

/-- The value laid over one more place of the list. -/
theorem Overlaid.update (h : Overlaid t S m' m) {a : α} (ha : a ∈ S) :
    Overlaid t S (Function.update m' a t) m := by
  intro x
  by_cases hx : x = a
  · subst hx
    exact Or.inr ⟨Function.update_self _ _ _, ha⟩
  · rw [Function.update_of_ne hx]
    exact h x

end Overlaid

/-! ## Words of an overlaid memory -/

/-- Each byte of the word `w` is the byte of `m` there, or `t` at a place of `S`. -/
def OverlaidWord (t : Byte) (S : List Addr) (m : Mem) (a : Addr) (w : Word) : Prop :=
  ∀ i, i < 8 → byteAt w i = m (a + BitVec.ofNat 64 i) ∨
    byteAt w i = t ∧ a + BitVec.ofNat 64 i ∈ S

section Words

variable {t : Byte} {S S' : List Addr} {m' m : Mem} {a : Addr} {w : Word}

theorem OverlaidWord.mono (h : OverlaidWord t S m a w) (hS : ∀ a ∈ S, a ∈ S') :
    OverlaidWord t S' m a w :=
  fun i hi => (h i hi).imp id fun ha => ⟨ha.1, hS _ ha.2⟩

theorem Overlaid.readWord (h : Overlaid t S m' m) (a : Addr) :
    OverlaidWord t S m a (readWord m' a) := by
  intro i hi
  rw [byteAt_readWord hi]
  exact h _

theorem Overlaid.writeWord (h : Overlaid t S m' m) (hw : OverlaidWord t S m a w) :
    Overlaid t S (writeWord m' a w) m := by
  intro x
  by_cases hx : InWord a x
  · obtain ⟨i, hi, rfl⟩ := hx.exists_offset
    rw [writeWord_add hi]
    exact hw i hi
  · rw [writeWord_outside hx]
    exact h x

/-- Writing back a word of an overlaid memory takes the places in that word from there. -/
theorem writeWord_overlay {U : List Addr} (hm : ∀ x, InWord a x → m' x = m x)
    (hU : ∀ x ∈ U, InWord a x) :
    Zkz.Lib.writeWord (overlay t S m) a (Zkz.Lib.readWord (overlay t U m') a) =
      overlay t (S.filter (fun x => !decide (InWord a x)) ++ U) m := by
  funext x
  by_cases hx : InWord a x
  · obtain ⟨i, hi, rfl⟩ := hx.exists_offset
    rw [writeWord_add hi, byteAt_readWord hi]
    simp only [overlay, hm _ hx, List.mem_append, List.mem_filter, hx, decide_true, Bool.not_true,
      Bool.false_eq_true, and_false, false_or]
  · rw [writeWord_outside hx]
    have hxU : x ∉ U := fun h => hx (hU x h)
    simp only [overlay, List.mem_append, List.mem_filter, hx, decide_false, Bool.not_false,
      and_true, hxU, or_false]

end Words

end Zkz.Lib
