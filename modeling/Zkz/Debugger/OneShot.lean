import Mathlib.Data.List.Count
import Zkz.Debugger.Code
import Zkz.Debugger.Processes
import Zkz.Debugger.Transparency

/-!
# One-shot breakpoints

A restore writes the saved word back and nothing puts the trap in again: a breakpoint stays in
the list, enabled, but its trap is gone once it was hit. Until the word is written back the trap
stays where it was placed.

* `Spared`: a turn that writes no saved word over a byte.
* `mainTurn_trapped`: such a turn keeps a trap and sets the traps that it places.
* `listed_breakpoint_trapped`: a listed breakpoint whose byte was spared since it was placed has
  its trap.
-/

namespace Zkz.Debugger

open Zkz.Lib BreakpointList

variable {σ : Type}

/-! ## Turns -/

/-- The message of `RestoreBreakpoint`. -/
def restoreLine (x : Addr) : LogLine := ⟨.debug, "restore address %x\n", [.hex x]⟩

/-- Between two states no restore writes over the byte at `a`. -/
def NotRestored (a : Addr) (d d' : Main σ) : Prop :=
  ∀ x, restoreLine x ∈ d'.out.drop d.out.length → ¬ InWord x a

/-- A turn that writes no saved word over the byte at `a`: no restore covers it, no breakpoint
whose word covers it is deleted, and it is not a restart. -/
structure Spared (a : Addr) (p : Prompt) (d : Main σ) (p' : Prompt) (d' : Main σ) : Prop where
  restored : NotRestored a d d'
  deleted : ∀ x, InWord x a → (addresses p.li).count x ≤ (addresses p'.li).count x
  restarted : d.debug.isRunning = true ∨ d.debug.pathname = none

/-- A turn that places a breakpoint at `a`. -/
def Places (a : Addr) (p p' : Prompt) : Prop :=
  (addresses p.li).count a < (addresses p'.li).count a

/-- In a turn that began with `li₀` and `d₀`: a trap at `a` is kept, and it is there once it is
placed, as long as no restore writes over it. -/
structure TrapKept (mem : σ → Int → Option Mem) (a : Addr) (li₀ : BreakpointList) (d₀ : Main σ)
    (li : BreakpointList) (d : Main σ) : Prop where
  out : d₀.out <+: d.out
  trapped : NotRestored a d₀ d →
    Trapped mem a d₀ ∨ (addresses li₀).count a < (addresses li).count a → Trapped mem a d

/-- In a `delete`: a trap at `a` is kept as long as no breakpoint whose word covers it goes. -/
structure TrapLeft (mem : σ → Int → Option Mem) (a : Addr) (li₀ : BreakpointList) (d₀ : Main σ)
    (li : BreakpointList) (d : Main σ) : Prop where
  fewer : ∀ x, (addresses li).count x ≤ (addresses li₀).count x
  trapped : (∀ x, InWord x a → (addresses li₀).count x ≤ (addresses li).count x) →
    Trapped mem a d₀ → Trapped mem a d

section Turns

variable {K : Kernel σ} {mem : σ → Int → Option Mem} {code : Set Addr} {a : Addr}
  {li₀ li : BreakpointList} {d₀ d d' : Main σ}

theorem NotRestored.of_prefix (h : NotRestored a d₀ d') (hout : d.out <+: d'.out) :
    NotRestored a d₀ d := by
  intro x hx
  have hdrop : d.out.drop d₀.out.length <+: d'.out.drop d₀.out.length := hout.drop _
  exact h x (hdrop.subset hx)

theorem TrapKept.still (h : TrapKept mem a li₀ d₀ li d) (hs : Still mem a d d') :
    TrapKept mem a li₀ d₀ li d' := by
  refine ⟨h.out.trans hs.out, ?_⟩
  intro hnot hplaced
  exact hs.trapped (h.trapped (hnot.of_prefix hs.out) hplaced)

theorem TrapLeft.still (h : TrapLeft mem a li₀ d₀ li d) (hs : Still mem a d d') :
    TrapLeft mem a li₀ d₀ li d' :=
  ⟨h.fewer, fun hleft htrap => hs.trapped (h.trapped hleft htrap)⟩

/-- A restore writes over the byte and has said so, or it does not reach it. -/
theorem restoreBreakpoint_trapKept (hK : K.Code mem code) (ha : a ∈ code) (b : Breakpoint)
    (x : Addr) (h : TrapKept mem a li₀ d₀ li d) :
    Post (restoreBreakpoint K b x) d fun _ d' => TrapKept mem a li₀ d₀ li d' := by
  have hspoke : Spoke d { d with out := d.out ++ [restoreLine x] } :=
    ⟨rfl, rfl, List.prefix_append _ _⟩
  by_cases hx : InWord x a
  · -- what has been said stays said
    have hsaid : d₀.out <+: d.out ++ [restoreLine x] ∧
        restoreLine x ∈ (d.out ++ [restoreLine x]).drop d₀.out.length := by
      refine ⟨h.out.trans hspoke.out, ?_⟩
      rw [List.drop_append_of_le_length h.out.length_le]
      exact List.mem_append_right _ (List.mem_singleton_self _)
    have hreq : KeepsRequests K
        (fun d => d₀.out <+: d.out ∧ restoreLine x ∈ d.out.drop d₀.out.length)
        (fun d => d₀.out <+: d.out ∧ restoreLine x ∈ d.out.drop d₀.out.length) := by
      refine hK.keepsRequests ha ?_
      intro d₁ d₂ h₁ hs
      exact ⟨h₁.1.trans hs.out, (hs.out.drop _).subset h₁.2⟩
    refine post_mono (hreq.restoreBreakpoint hsaid (fun _ h => h) fun _ _ h => h) ?_
    intro _ d' h'
    exact ⟨h'.1, fun hnot => absurd hx (hnot x h'.2)⟩
  · have hreq : KeepsRequests K (TrapKept mem a li₀ d₀ li) (TrapKept mem a li₀ d₀ li) :=
      hK.keepsRequests ha fun _ _ h hs => h.still hs
    refine hreq.restoreBreakpoint (h.still hspoke.still) ?_ ?_
    · intro d₁ h₁
      exact h₁.still (hK.poke_still hx _ d₁)
    · intro r d₁ h₁
      exact h₁.still (CodeKept.still ha rfl (List.prefix_refl _) (hK.setregs _ _ _))

theorem trapKept_rounds (hK : K.Code mem code) (ha : a ∈ code) (li : BreakpointList) :
    KeepsRounds K (TrapKept mem a li₀ d₀ li) (TrapKept mem a li₀ d₀ li) where
  toKeepsRequests := hK.keepsRequests ha fun _ _ h hs => h.still hs
  syscallState _ _ h := h.still ⟨List.prefix_refl _, id⟩
  restore b x _ h := restoreBreakpoint_trapKept hK ha b x h

/-- A peek, as the start of a placement or a removal. -/
theorem Kernel.Code.peek_still (hK : K.Code mem code) (x : Addr) (d : Main σ) :
    Still mem a d { d with kernel := (K.peektext d.debug.pid x d.kernel).2 } := by
  refine ⟨List.prefix_refl _, ?_⟩
  unfold Trapped
  rw [(hK.peektext d.debug.pid x d.kernel).1]
  exact id

/-- A placement that succeeds sets the byte at its address and no other. -/
theorem Kernel.Code.placed_mem (hK : K.Code mem code) {x : Addr} {d : Main σ}
    (hpoke : (K.poketext d.debug.pid x
      (setLow ((K.peektext d.debug.pid x d.kernel).1.getD (-1)) trapByte)
      (K.peektext d.debug.pid x d.kernel).2).1 = true) :
    mem (K.poketext d.debug.pid x
      (setLow ((K.peektext d.debug.pid x d.kernel).1.getD (-1)) trapByte)
      (K.peektext d.debug.pid x d.kernel).2).2 d.debug.pid =
        (mem d.kernel d.debug.pid).map (Function.update · x trapByte) := by
  rw [hK.poketext, if_pos hpoke]
  obtain ⟨hsame, hread⟩ := hK.peektext d.debug.pid x d.kernel
  rw [hsame]
  cases hpeek : (K.peektext d.debug.pid x d.kernel).1 with
  | none =>
    rw [hK.unmapped _ _ _ _ hpeek] at hpoke
    cases hpoke
  | some w =>
    refine Option.map_congr ?_
    intro m hm
    rw [Option.getD_some, hread w m hpeek hm, writeWord_setLow]

/-- A poke that fails changes nothing. -/
theorem Kernel.Code.unpoked_still (hK : K.Code mem code) {x : Addr} {w : Word} {d : Main σ}
    (hfail : ¬ (K.poketext d.debug.pid x w d.kernel).1 = true) :
    Still mem a d (d.requested fun pid => K.poketext pid x w) := by
  have hpoke := hK.poketext d.debug.pid x w d.kernel
  rw [if_neg hfail] at hpoke
  refine ⟨List.prefix_refl _, ?_⟩
  intro htrap m hm
  exact htrap m (hpoke.symm.trans hm)

theorem placeBreakpoint_trapKept (hK : K.Code mem code) (x : Addr)
    (h : TrapKept mem a li₀ d₀ li d) :
    Post (placeBreakpoint K li x) d fun r d' => TrapKept mem a li₀ d₀ r.2 d' := by
  refine post_bind_ok (by rfl) (post_bind_ok (by rfl) (post_ite (fun hfail => ?_) fun hok => ?_))
  · have hstill := (hK.peek_still (a := a) x d).trans (hK.unpoked_still (by simpa using hfail))
    refine post_bind (log_spoke .pError _ _) ?_
    intro _ d' hs
    exact post_pure (h.still (hstill.trans hs.still))
  · have hpoke := Bool.not_eq_eq_eq_not.mp (Bool.eq_false_of_not_eq_true hok)
    have hmem := hK.placed_mem (x := x) (d := d) hpoke
    refine post_bind (log_spoke .print _ _) ?_
    intro _ d' hs
    refine post_pure ⟨h.out.trans hs.out, ?_⟩
    intro hnot hplaced m' hm'
    rw [hs.kernel, hs.debug] at hm'
    obtain ⟨m, hm, rfl⟩ := Option.map_eq_some_iff.mp (hmem.symm.trans hm')
    by_cases hxa : a = x
    · rw [hxa, Function.update_self]
    · rw [Function.update_of_ne hxa]
      have hcount : (addresses (appendElement li x
          ((K.peektext d.debug.pid x d.kernel).1.getD (-1)))).count a = (addresses li).count a := by
        rw [addresses_appendElement, List.count_append, List.count_singleton,
          if_neg (by simpa using Ne.symm hxa), Nat.add_zero]
      rw [hcount] at hplaced
      exact h.trapped (hnot.of_prefix hs.out) hplaced m hm

theorem trapKept_keeps (hK : K.Code mem code) (ha : a ∈ code) (atStart : Debug)
    (hstart : atStart.isRunning = true ∨ atStart.pathname = none) :
    Keeps K atStart (TrapKept mem a li₀ d₀) (TrapKept mem a li₀ d₀) where
  rounds := trapKept_rounds hK ha
  place _ x _ h := placeBreakpoint_trapKept hK x h
  disable li i _ h := ⟨h.out, fun hnot hplaced => h.trapped hnot (by simpa using hplaced)⟩
  setregsByValue _ r _ h :=
    h.still (CodeKept.still ha rfl (List.prefix_refl _) (hK.setregsByValue _ _ _))
  startProcess _ d _ _ hrun hpath := by
    rcases hstart with hstart | hstart
    · rw [hrun] at hstart
      cases hstart
    · rw [hstart] at hpath
      cases hpath

/-! ## Removals -/

/-- A removal takes one breakpoint from its address and none from the others. -/
theorem count_eraseIdx {i : Nat} {b : Breakpoint} (hb : li[i]? = some b) (x : Addr) :
    (addresses li).count x = (addresses (li.eraseIdx i)).count x + [b.address].count x := by
  obtain ⟨hi, rfl⟩ := List.getElem?_eq_some_iff.mp hb
  have hperm : (li[i] :: li.eraseIdx i).Perm li := List.getElem_cons_eraseIdx_perm hi
  have hcount := (hperm.map Breakpoint.address).count_eq x
  rw [List.map_cons, List.count_cons] at hcount
  unfold addresses
  rw [← hcount, List.count_singleton]

theorem TrapLeft.removed (h : TrapLeft mem a li₀ d₀ li d) {i : Nat} {b : Breakpoint}
    (hb : li[i]? = some b) (hs : ¬ InWord b.address a → Still mem a d d') :
    TrapLeft mem a li₀ d₀ (li.eraseIdx i) d' := by
  have hcount := count_eraseIdx hb
  refine ⟨fun x => ?_, ?_⟩
  · have hx := h.fewer x
    rw [hcount x] at hx
    omega
  · intro hleft htrap
    have hone : [b.address].count b.address = 1 := List.count_singleton_self
    have hout : ¬ InWord b.address a := by
      intro hin
      have h₁ := hleft b.address hin
      have h₂ := h.fewer b.address
      rw [hcount b.address, hone] at h₂
      omega
    refine (hs hout).trapped (h.trapped ?_ htrap)
    intro x hx
    have hle := hleft x hx
    have hx' := hcount x
    omega

theorem removeElement_trapLeft (hK : K.Code mem code) (k : Int)
    (h : TrapLeft mem a li₀ d₀ li d) :
    Post (removeElement K li k) d fun r d' => TrapLeft mem a li₀ d₀ r.2 d' := by
  unfold removeElement
  split
  · exact post_bind (log_spoke .error _ _) fun _ _ hs => post_pure (h.still hs.still)
  · split
    · exact post_throw _
    · rename_i i _ b hb
      have hpeek := hK.peek_still (a := a) b.address d
      refine post_bind_ok (by rfl) (post_ite (fun _ => post_bind_ok (by rfl) ?_) fun _ => ?_)
      · refine post_ite (fun hfail => ?_) fun _ => ?_
        · have hstill := hpeek.trans (hK.unpoked_still (by simpa using hfail))
          exact post_bind (log_spoke .pError _ _)
            fun _ _ hs => post_pure (h.still (hstill.trans hs.still))
        · refine post_bind (log_spoke .print _ _) ?_
          intro _ d' hs
          refine post_pure (h.removed hb ?_)
          intro hout
          exact hpeek.trans ((hK.poke_still hout _ _).trans hs.still)
      · exact post_bind (log_spoke .print _ _)
          fun _ _ hs => post_pure (h.removed hb fun _ => hpeek.trans hs.still)

/-- A turn that spares the byte at `a` keeps the trap there, and sets the one that it places. -/
theorem mainTurn_trapped (hK : K.Code mem code) (ha : a ∈ code) {env : Loaded σ} {n : Nat}
    {p p' : Prompt} (hrun : mainTurn K env n p d = .ok (.prompt p', d'))
    (hs : Spared a p d p' d') (h : Trapped mem a d ∨ Places a p p') : Trapped mem a d' := by
  have hkept : TrapKept mem a p.li d p.li d :=
    ⟨List.prefix_refl _, fun _ h => h.elim id fun hlt => absurd hlt (Nat.lt_irrefl _)⟩
  have hleft : TrapLeft mem a p.li d p.li d := ⟨fun _ => Nat.le_refl _, fun _ htrap => htrap⟩
  have hJ : KeepsRemovals K (TrapLeft mem a p.li d) :=
    ⟨fun _ _ _ h hs => h.still hs.still, fun _ k _ h => removeElement_trapLeft hK k h⟩
  have hend := mainTurn_keeps (trapKept_keeps hK ha d.debug hs.restarted) hJ env rfl hkept hleft
    _ _ hrun
  rcases hend with hend | hend
  · exact hend.trapped hs.restored h
  · refine hend.trapped hs.deleted (h.resolve_right ?_)
    exact Nat.not_lt.mpr (hend.fewer a)

end Turns

/-! ## Sessions -/

/-- A prompt of the main loop, `k` turns after its start. -/
def AtPrompt (K : Kernel σ) (env : Loaded σ) (n : Nat) (input : List Line) (d₀ : Main σ) (k : Nat)
    (p : Prompt) (d : Main σ) : Prop :=
  mainLoop K env n k input d₀ = .ok (.prompt p, d)

/-- Turn `k` places a breakpoint at `a`. -/
def PlacesAt (K : Kernel σ) (env : Loaded σ) (n : Nat) (input : List Line) (d₀ : Main σ) (a : Addr)
    (k : Nat) : Prop :=
  ∃ p d p' d', AtPrompt K env n input d₀ k p d ∧ AtPrompt K env n input d₀ (k + 1) p' d' ∧
    Places a p p'

/-- Turn `k` spares the byte at `a`. -/
def SparedAt (K : Kernel σ) (env : Loaded σ) (n : Nat) (input : List Line) (d₀ : Main σ) (a : Addr)
    (k : Nat) : Prop :=
  ∀ p d p' d', AtPrompt K env n input d₀ k p d → AtPrompt K env n input d₀ (k + 1) p' d' →
    Spared a p d p' d'

section Sessions

variable {K : Kernel σ} {mem : σ → Int → Option Mem} {code : Set Addr} {env : Loaded σ} {n : Nat}
  {input : List Line} {d₀ d d' : Main σ} {a : Addr} {k m : Nat} {p p' : Prompt}

/-- The last of some turns follows the others. -/
theorem mainTurns_succ (m : Nat) (p : Prompt) (d : Main σ) :
    mainTurns K env n (m + 1) p d = .ok (.prompt p', d') ↔
      ∃ q e, mainTurns K env n m p d = .ok (.prompt q, e) ∧
        mainTurn K env n q e = .ok (.prompt p', d') := by
  induction m generalizing p d with
  | zero =>
    constructor
    · intro h
      obtain ⟨t, e, hturn, hrest⟩ := run_bind_eq_ok.mp h
      cases t with
      | returned code => cases hrest
      | prompt q =>
        cases hrest
        exact ⟨p, d, rfl, hturn⟩
    · rintro ⟨q, e, hstart, hturn⟩
      cases hstart
      exact run_bind_eq_ok.mpr ⟨_, _, hturn, rfl⟩
  | succ m ih =>
    constructor
    · intro h
      obtain ⟨t, e, hturn, hrest⟩ := run_bind_eq_ok.mp h
      cases t with
      | returned code => cases hrest
      | prompt q =>
        obtain ⟨q', e', hmany, hlast⟩ := (ih q e).mp hrest
        exact ⟨q', e', run_bind_eq_ok.mpr ⟨_, _, hturn, hmany⟩, hlast⟩
    · rintro ⟨q, e, hmany, hlast⟩
      obtain ⟨t, e', hturn, hrest⟩ := run_bind_eq_ok.mp hmany
      cases t with
      | returned code => cases hrest
      | prompt q' =>
        exact run_bind_eq_ok.mpr ⟨_, _, hturn, (ih q' e').mpr ⟨q, e, hrest, hlast⟩⟩

theorem atPrompt_succ : AtPrompt K env n input d₀ (k + 1) p' d' ↔
    ∃ p d, AtPrompt K env n input d₀ k p d ∧ mainTurn K env n p d = .ok (.prompt p', d') :=
  mainTurns_succ k _ d₀

theorem AtPrompt.unique (h : AtPrompt K env n input d₀ k p d)
    (h' : AtPrompt K env n input d₀ k p' d') : p = p' ∧ d = d' := by
  cases h.symm.trans h'
  exact ⟨rfl, rfl⟩

/-- What is listed was placed. -/
theorem exists_placesAt (h : AtPrompt K env n input d₀ m p d) (ha : 0 < (addresses p.li).count a) :
    ∃ k < m, PlacesAt K env n input d₀ a k := by
  induction m generalizing p d with
  | zero =>
    cases h
    exact absurd ha (Nat.lt_irrefl 0)
  | succ m ih =>
    obtain ⟨q, e, hq, -⟩ := atPrompt_succ.mp h
    by_cases hplaces : Places a q p
    · exact ⟨m, Nat.lt_succ_self m, q, e, p, d, hq, h, hplaces⟩
    · have hle : (addresses p.li).count a ≤ (addresses q.li).count a := Nat.le_of_not_lt hplaces
      obtain ⟨k, hk, hat⟩ := ih hq (Nat.lt_of_lt_of_le ha hle)
      exact ⟨k, Nat.lt_succ_of_lt hk, hat⟩

/-- A trap that was placed stays while its byte is spared. -/
theorem trapped_since (hK : K.Code mem code) (ha : a ∈ code)
    (hplaces : PlacesAt K env n input d₀ a k) (hkm : k < m)
    (hspared : ∀ j, k ≤ j → j < m → SparedAt K env n input d₀ a j)
    (h : AtPrompt K env n input d₀ m p d) : Trapped mem a d := by
  induction m generalizing p d with
  | zero => omega
  | succ m ih =>
    obtain ⟨q, e, hq, hturn⟩ := atPrompt_succ.mp h
    have hs : Spared a q e p d := hspared m (by omega) (by omega) q e p d hq h
    refine mainTurn_trapped hK ha hturn hs ?_
    by_cases hkm' : k = m
    · obtain ⟨q', e', p', d', hq', hp', hplaced⟩ := hplaces
      rw [hkm'] at hq' hp'
      obtain ⟨rfl, -⟩ := hq.unique hq'
      obtain ⟨rfl, -⟩ := h.unique hp'
      exact Or.inr hplaced
    · refine Or.inl (ih (by omega) ?_ hq)
      intro j hkj hjm
      exact hspared j hkj (by omega)

end Sessions

/-- At every prompt, every listed breakpoint was placed by some turn, and it has its trap if that
turn and those since then have spared the byte at its address. -/
theorem listed_breakpoint_trapped {K : Kernel σ} {mem : σ → Int → Option Mem} {code : Set Addr}
    (hK : K.Code mem code) (env : Loaded σ) (n m : Nat) (input : List Line) (d₀ : Main σ)
    (p : Prompt) (d : Main σ) (hprompt : AtPrompt K env n input d₀ m p d) (b : Breakpoint)
    (hb : b ∈ p.li) (hcode : b.address ∈ code) :
    (∃ k < m, PlacesAt K env n input d₀ b.address k) ∧
      ∀ k < m, PlacesAt K env n input d₀ b.address k →
        (∀ j, k ≤ j → j < m → SparedAt K env n input d₀ b.address j) →
          Trapped mem b.address d := by
  have hlisted : b.address ∈ addresses p.li := List.mem_map_of_mem hb
  refine ⟨exists_placesAt hprompt (List.count_pos_iff.mpr hlisted), ?_⟩
  intro k hk hplaces hspared
  exact trapped_since hK hcode hplaces hk hspared hprompt

/-! ## A program that is started -/

/-- The kernel of the program of one-byte instructions, which is started by the first fork. -/
def nopKernel : Kernel (Proc Unit) :=
  { cpuKernel nopCpu 8 with
    fork := fun s => (some 1, s)
    waitpid := fun p s =>
      if p = 0 then some (some (stopStatus sigtrap), s) else (cpuKernel nopCpu 8).waitpid p s }

theorem nop_leavesCode : nopCpu.LeavesCode Set.univ where
  exec _ _ _ := rfl
  enter _ _ h := by cases h
  leave _ _ _ := rfl

theorem nopKernel_code : nopKernel.Code (fun s _ => Proc.mem? s) Set.univ := by
  have h := cpuKernel_code nop_leavesCode 8
  refine { h with waitpid := ?_, resume := h.resume }
  intro p s w s' hw
  simp only [nopKernel] at hw
  split at hw
  · cases hw
    exact codeKept_of_eq p rfl
  · exact h.waitpid p s w s' hw

/-- A breakpoint that was hit is still listed and enabled, and its trap is gone. -/
theorem trap_gone_after_hit :
    ∃ p d b, debugger nopKernel (nothingLoaded _) 4 3
        ["b 1002".toList, "c".toList, "s".toList] (Main.forProgram (Proc.init nopStart)) =
          .ok (.prompt p, d) ∧
      d.kernel.phase = .stopped ∧ d.kernel.machine.rip = 0x1004 ∧
      b ∈ p.li ∧ b.isEnabled = true ∧ b.address = 0x1002 ∧
      d.kernel.machine.mem b.address ≠ trapByte := by
  have hobs : ((debugger nopKernel (nothingLoaded _) 4 3
      ["b 1002".toList, "c".toList, "s".toList] (Main.forProgram (Proc.init nopStart))).toOption.map
        fun r => r.1.elim ([], false, 0, 0) fun p =>
          (p.li.map fun b => (b.isEnabled, b.address), decide (r.2.kernel.phase = .stopped),
            r.2.kernel.machine.rip, r.2.kernel.machine.mem 0x1002)) =
      some ([(true, 0x1002)], true, 0x1004, 0x90) := by decide +kernel
  obtain ⟨t, d, hrun, hv⟩ := exists_ok_of_observed hobs
  cases t with
  | returned code => cases hv
  | prompt p =>
    simp only [Turn.elim, Prod.mk.injEq, decide_eq_true_eq] at hv
    obtain ⟨hli, hstop, hrip, hbyte⟩ := hv
    have hmem : (true, (0x1002 : Addr)) ∈ p.li.map fun b => (b.isEnabled, b.address) := by
      rw [hli]
      exact List.mem_singleton_self _
    obtain ⟨b, hb, hpair⟩ := List.mem_map.mp hmem
    obtain ⟨henabled, haddr⟩ := Prod.mk.inj hpair
    refine ⟨p, d, b, hrun, hstop, hrip, hb, henabled, haddr, ?_⟩
    rw [haddr, hbyte]
    exact nop_ne_trap

/-- The debugger once the program is started. -/
def nopStarted : Main (Proc Unit) :=
  { Main.forProgram (Proc.init nopStart) with
    debug := { (Main.forProgram (Proc.init nopStart)).debug with pid := 1, isRunning := true } }

/-- A breakpoint that is placed and not reached. -/
theorem trap_kept_before_hit :
    ∃ p d b, AtPrompt nopKernel (nothingLoaded _) 4 ["b 1002".toList, "s".toList] nopStarted 2 p d ∧
      b ∈ p.li ∧ b.address = 0x1002 ∧ Trapped (fun s _ => Proc.mem? s) b.address d := by
  have hobs : ∀ k : Fin 3, ((mainLoop nopKernel (nothingLoaded _) 4 k.val
      ["b 1002".toList, "s".toList] nopStarted).toOption.map fun r =>
        r.1.elim ([], false, false) fun p =>
          (addresses p.li, r.2.out.all (fun l => l.msg ≠ "restore address %x\n"),
            r.2.debug.isRunning)) =
      some (if k.val = 0 then [] else [0x1002], true, true) := by decide +kernel
  have hprompt : ∀ k < 3, ∀ p d, AtPrompt nopKernel (nothingLoaded _) 4
      ["b 1002".toList, "s".toList] nopStarted k p d →
        addresses p.li = (if k = 0 then [] else [0x1002]) ∧ d.debug.isRunning = true ∧
          ∀ x, restoreLine x ∉ d.out := by
    intro k hk p d hp
    have hv := hobs ⟨k, hk⟩
    simp only at hv
    rw [show mainLoop nopKernel (nothingLoaded _) 4 k ["b 1002".toList, "s".toList] nopStarted =
      .ok (.prompt p, d) from hp] at hv
    simp only [Except.toOption, Option.map_some, Turn.elim, Option.some.injEq, Prod.mk.injEq,
      List.all_eq_true, decide_eq_true_eq] at hv
    exact ⟨hv.1, hv.2.2, fun x hx => hv.2.1 _ hx rfl⟩
  have hspared : ∀ j, 0 ≤ j → j < 2 → SparedAt nopKernel (nothingLoaded _) 4
      ["b 1002".toList, "s".toList] nopStarted 0x1002 j := by
    intro j _ hj p d p' d' hp hp'
    obtain ⟨hli, hrunning, -⟩ := hprompt j (by omega) p d hp
    obtain ⟨hli', -, hnot⟩ := hprompt (j + 1) (by omega) p' d' hp'
    refine ⟨fun x hx => absurd (List.mem_of_mem_drop hx) (hnot x), ?_, Or.inl hrunning⟩
    intro x _
    rw [hli, hli', if_neg (Nat.succ_ne_zero j)]
    split
    · exact Nat.zero_le _
    · exact Nat.le_refl _
  obtain ⟨t, d, hrun, hv⟩ := exists_ok_of_observed (hobs 2)
  cases t with
  | returned code => cases hv
  | prompt p =>
    have hp : AtPrompt nopKernel (nothingLoaded _) 4 ["b 1002".toList, "s".toList] nopStarted 2 p d :=
      hrun
    have hmem : (0x1002 : Addr) ∈ addresses p.li := by
      rw [(hprompt 2 (by omega) p d hp).1]
      exact List.mem_singleton_self _
    obtain ⟨b, hb, haddr⟩ := List.mem_map.mp hmem
    refine ⟨p, d, b, hp, hb, haddr, ?_⟩
    obtain ⟨⟨k, hk, hplaces⟩, hsince⟩ := listed_breakpoint_trapped nopKernel_code (nothingLoaded _) 4 2
      ["b 1002".toList, "s".toList] nopStarted p d hp b hb (Set.mem_univ _)
    refine hsince k hk hplaces ?_
    intro j hkj hj
    rw [haddr]
    exact hspared j (Nat.zero_le j) hj

end Zkz.Debugger
