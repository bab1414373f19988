import Zkz.Lib.Runs
import Zkz.Debugger.Stopped

/-!
# Traps in the memory of a stopped debuggee

The purpose of `PlaceBreakpoint` and `RemoveElement` is a memory that is the debuggee's own
with a trap byte at the address of every listed breakpoint (`trapped`). Placing keeps this.
Removing writes a saved word back, and the word has traps where breakpoints were listed when
it was saved.

`Placement` is the history of one breakpoint: its number, its address, and the addresses that
were listed when it was placed. It depends on the calls only. `Saved` relates it to the
breakpoint: the saved word is the word of the memory trapped at those addresses. A removal
fits (`RemovalFits`) when, in the eight bytes it writes, the addresses listed at placement
and the addresses listed after the removal are the same.

* `writeBack_trapped_iff`: a write back keeps the memory trapped exactly when it fits.
* `traps_iff_removals_fit`: the memory is trapped after every call of a run exactly when
  every removal of the run fits.
-/

namespace Zkz.Debugger

open Zkz.Lib BreakpointList

variable {σ : Type}

/-- The memory `m` with a trap at the address of every breakpoint of the list. -/
def trapped (li : BreakpointList) (m : Mem) : Mem := overlay trapByte (addresses li) m

inductive Call where
  | place (address : Addr)
  | remove (breakpointNumber : Int)

def call (K : Kernel σ) : Call → BreakpointList → DbgM σ BreakpointList
  | .place a, li => do return (← placeBreakpoint K li a).2
  | .remove n, li => do return (← removeElement K li n).2

/-! ## Histories of placements -/

structure Placement where
  number : Int
  address : Addr
  /-- The addresses listed when the breakpoint was placed. -/
  under : List Addr

/-- The position of the placement that `RemoveElement` removes. -/
def placementIndex (ps : List Placement) (n : Int) : Option Nat :=
  if n > ps.length ∨ n ≤ 0 then none else ps.findIdx? (fun p => p.number == n)

def placements : Call → List Placement → List Placement
  | .place a, ps => ps ++ [⟨ps.length + 1, a, ps.map Placement.address⟩]
  | .remove n, ps => match placementIndex ps n with
    | none => ps
    | some i => ps.eraseIdx i

/-- In the eight bytes from the removed breakpoint on, at every address whose native byte is
not the trap byte, a breakpoint is left exactly when one was listed at placement. -/
def RemovalFits (m : Mem) (ps : List Placement) (n : Int) : Prop :=
  ∀ (i : Nat) (p : Placement), placementIndex ps n = some i → ps[i]? = some p →
    ∀ x, InWord p.address x → m x ≠ trapByte →
      (x ∈ p.under ↔ x ∈ (ps.eraseIdx i).map Placement.address)

def CallFits (m : Mem) : Call → List Placement → Prop
  | .place _, _ => True
  | .remove n, ps => RemovalFits m ps n

/-- Every removal of the calls fits, from the placements `ps` on. -/
def AllFit (m : Mem) : List Call → List Placement → Prop
  | [], _ => True
  | op :: ops, ps => CallFits m op ps ∧ AllFit m ops (placements op ps)

/-- A breakpoint and its history. -/
structure Saved (m : Mem) (p : Placement) (b : Breakpoint) : Prop where
  number : b.breakpointNumber = p.number
  address : b.address = p.address
  origdata : b.origdata = readWord (overlay trapByte p.under m) p.address

theorem addresses_of_saved {m : Mem} {ps : List Placement} {li : BreakpointList}
    (h : List.Forall₂ (Saved m) ps li) : addresses li = ps.map Placement.address := by
  induction h with
  | nil => rfl
  | cons hb _ ih => rw [addresses, List.map_cons, List.map_cons, hb.address, ← addresses, ih]

theorem findIdx?_of_saved {m : Mem} {ps : List Placement} {li : BreakpointList}
    (h : List.Forall₂ (Saved m) ps li) (n : Int) :
    li.findIdx? (fun b => b.breakpointNumber == n) = ps.findIdx? (fun p => p.number == n) := by
  induction h with
  | nil => rfl
  | cons hb _ ih => rw [List.findIdx?_cons, List.findIdx?_cons, hb.number, ih]

theorem removalIndex_of_saved {m : Mem} {ps : List Placement} {li : BreakpointList}
    (h : List.Forall₂ (Saved m) ps li) (n : Int) :
    removalIndex li n = placementIndex ps n := by
  unfold removalIndex placementIndex getNoOfBreakpoints
  rw [h.length_eq, findIdx?_of_saved h]

theorem forall₂_eraseIdx {α β : Type} {R : α → β → Prop} {l₁ : List α} {l₂ : List β}
    (h : List.Forall₂ R l₁ l₂) (i : Nat) : List.Forall₂ R (l₁.eraseIdx i) (l₂.eraseIdx i) := by
  induction h generalizing i with
  | nil => exact List.Forall₂.nil
  | cons hab hrest ih =>
    cases i with
    | zero => exact hrest
    | succ i => exact List.Forall₂.cons hab (ih i)

theorem getElem?_of_saved {m : Mem} {ps : List Placement} {li : BreakpointList}
    (h : List.Forall₂ (Saved m) ps li) {i : Nat} {b : Breakpoint} (hb : li[i]? = some b) :
    ∃ p, ps[i]? = some p ∧ Saved m p b := by
  induction h generalizing i with
  | nil => simp at hb
  | cons hab _ ih =>
    cases i with
    | zero =>
      simp only [List.getElem?_cons_zero, Option.some.injEq] at hb
      subst hb
      exact ⟨_, rfl, hab⟩
    | succ i => exact ih (by simpa using hb)

/-! ## One call -/

theorem mem_addresses_of_getElem? {li : BreakpointList} {i : Nat} {b : Breakpoint}
    (h : li[i]? = some b) : b.address ∈ addresses li :=
  List.mem_map_of_mem (List.mem_of_getElem? h)

/-- An address that is listed before a removal and not after it is the removed one. -/
theorem mem_addresses_eraseIdx {li : BreakpointList} {i : Nat} {b : Breakpoint}
    (hb : li[i]? = some b) {x : Addr} (hx : x ≠ b.address) :
    x ∈ addresses (li.eraseIdx i) ↔ x ∈ addresses li := by
  induction li generalizing i with
  | nil => simp at hb
  | cons c li ih =>
    cases i with
    | zero =>
      simp only [List.getElem?_cons_zero, Option.some.injEq] at hb
      subst hb
      simp [addresses, hx]
    | succ i =>
      have hrest := ih (i := i) (by simpa using hb)
      simp only [addresses, List.eraseIdx_cons_succ, List.map_cons, List.mem_cons] at hrest ⊢
      rw [hrest]

/-- Writing the saved word back leaves the memory trapped at the addresses left exactly when
the removal fits. -/
theorem writeBack_trapped_iff {m : Mem} {li : BreakpointList} {i : Nat} {b : Breakpoint}
    {p : Placement} (hb : li[i]? = some b) (hp : Saved m p b) :
    writeWord (trapped li m) b.address b.origdata = trapped (li.eraseIdx i) m ↔
      ∀ x, InWord p.address x → m x ≠ trapByte →
        (x ∈ p.under ↔ x ∈ addresses (li.eraseIdx i)) := by
  rw [funext_iff]
  refine forall_congr' fun x => ?_
  by_cases hx : InWord p.address x
  · obtain ⟨j, hj, rfl⟩ := hx.exists_offset
    rw [hp.address, writeWord_add hj, hp.origdata, byteAt_readWord hj]
    simp only [hx, true_implies]
    exact overlay_eq_iff
  · have hne : x ≠ b.address := by
      rintro rfl
      exact hx (hp.address ▸ inWord_self _)
    simp only [hx, false_implies, iff_true]
    rw [hp.address, writeWord_outside hx]
    exact overlay_eq_iff.mpr fun _ => (mem_addresses_eraseIdx hb hne).symm

theorem trapped_appendElement (li : BreakpointList) (m : Mem) (a : Addr) (w : Word) :
    trapped (appendElement li a w) m = Function.update (trapped li m) a trapByte := by
  unfold trapped
  rw [addresses_appendElement, overlay_snoc]

/-- One call from a trapped memory: the lists stay related to their histories, and the memory
stays trapped exactly when the call fits. -/
theorem call_run {K : Kernel σ} {mem : σ → Mem} (hK : K.Stopped mem) {m : Mem}
    {ps : List Placement} {li : BreakpointList} (h : List.Forall₂ (Saved m) ps li) {d : Main σ}
    (hmem : mem d.kernel = trapped li m) (op : Call) :
    ∃ li' d', call K op li d = .ok (li', d') ∧ List.Forall₂ (Saved m) (placements op ps) li' ∧
      (mem d'.kernel = trapped li' m ↔ CallFits m op ps) := by
  cases op with
  | place a =>
    obtain ⟨d', hrun, hmem'⟩ := placeBreakpoint_run hK li a d
    refine ⟨appendElement li a (readWord (mem d.kernel) a), d', ?_, ?_, ?_⟩
    · simp only [call]
      rw [run_bind_ok hrun]
      rfl
    · refine List.rel_append h (List.Forall₂.cons ⟨?_, rfl, ?_⟩ List.Forall₂.nil)
      · rw [h.length_eq]
        rfl
      · rw [hmem, trapped, addresses_of_saved h]
    · simp only [CallFits, iff_true]
      rw [hmem', hmem, trapped_appendElement]
  | remove n =>
    have hindex := removalIndex_of_saved h n
    cases hi : removalIndex li n with
    | none =>
      obtain ⟨d', hrun, hmem'⟩ : ∃ d', removeElement K li n d = .ok ((0, li), d') ∧
          mem d'.kernel = mem d.kernel := by
        unfold removeElement
        rw [hi]
        exact ⟨_, rfl, rfl⟩
      refine ⟨li, d', ?_, ?_, ?_⟩
      · simp only [call]
        rw [run_bind_ok hrun]
        rfl
      · rw [placements, ← hindex, hi]
        exact h
      · rw [hmem', hmem]
        simp only [true_iff, CallFits]
        intro i p hp
        rw [← hindex, hi] at hp
        cases hp
    | some i =>
      obtain ⟨b, hb⟩ : ∃ b, li[i]? = some b := ⟨_, List.getElem?_eq_getElem (removalIndex_lt hi)⟩
      obtain ⟨p, hp, hsaved⟩ := getElem?_of_saved h hb
      have htrap : mem d.kernel b.address = trapByte := by
        rw [hmem]
        exact overlay_of_mem (mem_addresses_of_getElem? hb)
      obtain ⟨d', hrun, hmem'⟩ := removeElement_mem hK hi hb htrap
      have herase := forall₂_eraseIdx h i
      refine ⟨li.eraseIdx i, d', ?_, ?_, ?_⟩
      · simp only [call]
        rw [run_bind_ok hrun]
        rfl
      · rw [placements, ← hindex, hi]
        exact herase
      · rw [hmem', hmem, writeBack_trapped_iff hb hsaved, addresses_of_saved herase]
        constructor
        · intro hfit j q hj hq
          rw [← hindex, hi] at hj
          cases hj
          rw [hp] at hq
          cases hq
          exact hfit
        · intro hfit
          exact hfit i p (hindex ▸ hi) hp

/-! ## Runs -/

/-- The memory is trapped after each of the calls. -/
def TrapsHold (K : Kernel σ) (mem : σ → Mem) (m : Mem) (ops : List Call) (li : BreakpointList)
    (d : Main σ) : Prop :=
  ∀ before, before <+: ops → ∀ li' d', runAll (call K) before li d = .ok (li', d') →
    mem d'.kernel = trapped li' m

theorem trapsHold_cons {K : Kernel σ} {mem : σ → Mem} {m : Mem} {op : Call} {ops : List Call}
    {li li₁ : BreakpointList} {d d₁ : Main σ} (hop : call K op li d = .ok (li₁, d₁))
    (hmem : mem d.kernel = trapped li m) :
    TrapsHold K mem m (op :: ops) li d ↔ TrapsHold K mem m ops li₁ d₁ := by
  constructor
  · intro h before hpre li' d' hrun
    exact h (op :: before) (List.cons_prefix_cons.mpr ⟨rfl, hpre⟩) li' d'
      (runAll_cons_eq_ok.mpr ⟨li₁, d₁, hop, hrun⟩)
  · intro h before hpre li' d' hrun
    cases before with
    | nil => cases hrun; exact hmem
    | cons op' before =>
      obtain ⟨rfl, hbefore⟩ := List.cons_prefix_cons.mp hpre
      obtain ⟨li₂, d₂, hop', hrest⟩ := runAll_cons_eq_ok.mp hrun
      rw [hop] at hop'
      cases hop'
      exact h before hbefore li' d' hrest

theorem trapsHold_iff {K : Kernel σ} {mem : σ → Mem} (hK : K.Stopped mem) {m : Mem}
    (ops : List Call) {ps : List Placement} {li : BreakpointList}
    (h : List.Forall₂ (Saved m) ps li) {d : Main σ} (hmem : mem d.kernel = trapped li m) :
    TrapsHold K mem m ops li d ↔ AllFit m ops ps := by
  induction ops generalizing ps li d with
  | nil =>
    simp only [AllFit, iff_true]
    intro before hpre li' d' hrun
    rw [List.prefix_nil.mp hpre] at hrun
    cases hrun
    exact hmem
  | cons op ops ih =>
    obtain ⟨li₁, d₁, hop, hsaved, hfit⟩ := call_run hK h hmem op
    rw [trapsHold_cons hop hmem, AllFit, ← hfit]
    constructor
    · intro hall
      have hmem₁ : mem d₁.kernel = trapped li₁ m := hall [] (List.nil_prefix) li₁ d₁ rfl
      exact ⟨hmem₁, (ih hsaved hmem₁).mp hall⟩
    · rintro ⟨hmem₁, hrest⟩
      exact (ih hsaved hmem₁).mpr hrest

theorem calls_run {K : Kernel σ} {mem : σ → Mem} (hK : K.Stopped mem) (ops : List Call)
    (li : BreakpointList) (d : Main σ) : ∃ li' d', runAll (call K) ops li d = .ok (li', d') := by
  induction ops generalizing li d with
  | nil => exact ⟨li, d, rfl⟩
  | cons op ops ih =>
    obtain ⟨li₁, d₁, hop⟩ : ∃ li₁ d₁, call K op li d = .ok (li₁, d₁) := by
      cases op with
      | place a =>
        obtain ⟨d₁, hrun, -⟩ := placeBreakpoint_run hK li a d
        exact ⟨_, d₁, (run_bind_ok hrun).trans rfl⟩
      | remove n =>
        obtain ⟨d₁, hrun⟩ := removeElement_run hK.peekPoke li n d
        exact ⟨_, d₁, (run_bind_ok hrun).trans rfl⟩
    obtain ⟨li', d', hrest⟩ := ih li₁ d₁
    exact ⟨li', d', runAll_cons_eq_ok.mpr ⟨li₁, d₁, hop, hrest⟩⟩

/-- **Traps are exactly at the listed breakpoints** after every call of a run from the empty
list exactly when every removal of the run fits. -/
theorem traps_iff_removals_fit {K : Kernel σ} {mem : σ → Mem} (hK : K.Stopped mem)
    (ops : List Call) (d : Main σ) :
    (∃ li d', runAll (call K) ops [] d = .ok (li, d')) ∧
      (TrapsHold K mem (mem d.kernel) ops [] d ↔ AllFit (mem d.kernel) ops []) :=
  ⟨calls_run hK ops [] d, trapsHold_iff hK ops List.Forall₂.nil (by simp [trapped, addresses])⟩

/-- Two breakpoints nine bytes apart, removed in the order of placement. -/
theorem traps_hold_apart :
    TrapsHold stoppedKernel id (fun _ => 0x90) [.place 0x1000, .place 0x1009, .remove 1] []
      (Main.init fun _ => 0x90) := by
  refine (traps_iff_removals_fit stoppedKernel_stopped _ _).2.mpr ⟨trivial, trivial, ?_, trivial⟩
  rintro i p ⟨⟩ ⟨⟩ x hx -
  obtain ⟨j, hj, rfl⟩ := hx.exists_offset
  revert j
  decide

/-- Of two breakpoints at neighbouring addresses the first is removed: its saved word takes
the trap of the second one away. -/
theorem trap_lost_by_neighbour :
    ∃ li d', runAll (call stoppedKernel) [.place 0x1000, .place 0x1001, .remove 1] []
        (Main.init fun _ => 0x90) = .ok (li, d') ∧
      addresses li = [0x1001] ∧ d'.kernel 0x1001 = 0x90 ∧
      d'.kernel ≠ trapped li (fun _ => 0x90) := by
  have hobs : ((runAll (call stoppedKernel) [.place 0x1000, .place 0x1001, .remove 1] []
      (Main.init fun _ => 0x90)).toOption.map fun r => (addresses r.1, r.2.kernel 0x1001)) =
        some ([0x1001], 0x90) := by decide +kernel
  obtain ⟨li, d', hrun, hlist⟩ := exists_ok_of_observed hobs
  obtain ⟨hli, hbyte⟩ := Prod.mk.inj hlist
  refine ⟨li, d', hrun, hli, hbyte, ?_⟩
  intro h
  rw [h, trapped, hli, overlay_of_mem (by simp)] at hbyte
  revert hbyte
  decide

end Zkz.Debugger
