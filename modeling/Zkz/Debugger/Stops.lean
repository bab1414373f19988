import Zkz.Lib.Runs
import Zkz.Debugger.Rounds

/-!
# Which stop a continue returns at

`ContinueExecution` over any finite or infinite sequence of stops, with systrace off and
requests that succeed. It looks a stop up by `GetElementByAddress`, which takes the first
entry at an address.

* `returnsZeroAt_iff`: it returns 0 at the first stop whose first entry is enabled.
* `returns_at_enabled_iff`: that is the first stop with any enabled entry exactly when no
  disabled entry stands before the enabled one there.
-/

namespace Zkz.Debugger

open Zkz.Lib BreakpointList

/-! ## Sequences of stops -/

/-- What a wait for a resumed debuggee reports: a stop by a signal, another status, or
nothing. -/
inductive Stop where
  | stop (r : UserRegs) (sig : BitVec 8)
  | other (w : Wstatus) (h : wifstopped w = false)
  | never

/-- The stops that `ContinueExecution` observes, and what the single steps inside
`RestoreBreakpoint` report. -/
structure Script where
  stop : Nat → Stop
  inner : Nat → Wstatus × UserRegs

/-- A position in a script. -/
structure Tape where
  /-- The number of stops observed so far. -/
  next : Nat
  steps : Nat
  stepping : Bool
  regs : UserRegs

/-- The kernel that plays a script. Its requests succeed. -/
def scriptKernel (S : Script) : Kernel Tape where
  peektext _ _ t := (some 0, t)
  poketext _ _ _ t := (true, t)
  getregs _ t := (some t.regs, t)
  setregs _ r t := (true, { t with regs := r })
  setregsByValue _ r t := (true, { t with regs := r })
  singlestep _ t := (true, { t with stepping := true })
  cont _ t := (true, { t with stepping := false })
  syscall _ t := (true, { t with stepping := false })
  attach _ t := (true, t)
  fork t := (none, t)
  waitpid _ t :=
    if t.stepping then
      some (some (S.inner t.steps).1,
        { t with steps := t.steps + 1, regs := (S.inner t.steps).2 })
    else match S.stop t.next with
      | .stop r sig => some (some (stopStatus sig), { t with next := t.next + 1, regs := r })
      | .other w _ => some (some w, { t with next := t.next + 1 })
      | .never => none

/-- The address that is looked up after a stop. -/
def Script.hit (S : Script) (n : Nat) : Option Addr :=
  match S.stop n with
  | .stop r _ => some (r.rip - 1)
  | _ => none

/-- From position `k` on, number `n` is the first stop at an address in `E`, and only stops
come before it. -/
def Script.FirstStop (S : Script) (E : Addr → Prop) (k n : Nat) : Prop :=
  k ≤ n ∧ (∃ a, S.hit n = some a ∧ E a) ∧ ∀ m, k ≤ m → m < n → ∃ a, S.hit m = some a ∧ ¬ E a

section FirstStop

variable {S : Script} {E F : Addr → Prop} {k n : Nat}

theorem firstStop_self {a : Addr} (h : S.hit k = some a) (hE : E a) : S.FirstStop E k k := by
  refine ⟨le_refl k, ⟨a, h, hE⟩, ?_⟩
  intro m hkm hmk
  omega

theorem firstStop_succ {a : Addr} (h : S.hit k = some a) (hE : ¬ E a)
    (hn : S.FirstStop E (k + 1) n) : S.FirstStop E k n := by
  obtain ⟨hle, hhit, hbefore⟩ := hn
  refine ⟨by omega, hhit, ?_⟩
  intro m hkm hmn
  by_cases hmk : m = k
  · exact ⟨a, hmk ▸ h, hE⟩
  · exact hbefore m (by omega) hmn

/-- A later first stop is a first stop from the next position on. -/
theorem Script.FirstStop.tail (h : S.FirstStop E k n) (hne : n ≠ k) : S.FirstStop E (k + 1) n := by
  obtain ⟨hle, hhit, hbefore⟩ := h
  exact ⟨by omega, hhit, fun m hm hmn => hbefore m (by omega) hmn⟩

/-- The first stop in a smaller set is the first stop in a larger one if every first stop
in the larger set is in the smaller one. -/
theorem firstStop_congr (hsub : ∀ a, E a → F a)
    (hfirst : ∀ n a, S.FirstStop F 0 n → S.hit n = some a → E a) (n : Nat) :
    S.FirstStop E 0 n ↔ S.FirstStop F 0 n := by
  constructor
  · intro hE
    obtain ⟨hle, ⟨a, ha, hEa⟩, hbefore⟩ := hE
    refine ⟨hle, ⟨a, ha, hsub a hEa⟩, ?_⟩
    -- a stop before it in the larger set would make an earlier first stop
    intro m
    induction m using Nat.strong_induction_on with
    | _ m ih =>
      intro hm hmn
      obtain ⟨c, hc, hEc⟩ := hbefore m hm hmn
      refine ⟨c, hc, fun hFc => hEc ?_⟩
      exact hfirst m c ⟨hm, ⟨c, hc, hFc⟩, fun i hi him => ih i him hi (by omega)⟩ hc
  · intro hF
    have hE : ∀ a, S.hit n = some a → E a := fun a => hfirst n a hF
    obtain ⟨hle, ⟨a, ha, hFa⟩, hbefore⟩ := hF
    refine ⟨hle, ⟨a, ha, hE a ha⟩, ?_⟩
    intro m hm hmn
    obtain ⟨c, hc, hFc⟩ := hbefore m hm hmn
    exact ⟨c, hc, fun hEc => hFc (hsub c hEc)⟩

end FirstStop

/-! ## One round of the recursion -/

variable {S : Script} {li : BreakpointList}

theorem restore_script (b : Breakpoint) (a : Addr) (d : Main Tape) :
    ∃ ret d', restoreBreakpoint (scriptKernel S) b a d = .ok (ret, d') ∧ ¬ ret < -1 ∧
      d'.kernel.next = d.kernel.next ∧ d'.debug.isSystrace = d.debug.isSystrace := by
  obtain ⟨out, h⟩ := restoreBreakpoint_run (K := scriptKernel S) (b := b) (a := a) (d := d)
    rfl rfl rfl rfl (by simp only [scriptKernel, if_true]; rfl)
  exact ⟨_, _, h, restoreResult_nonneg _, rfl, afterWait_isSystrace _ _⟩

theorem waitpid_resumed {t : Tape} {p : Int} (ht : t.stepping = false) :
    (scriptKernel S).waitpid p t = match S.stop t.next with
      | .stop r sig => some (some (stopStatus sig), { t with next := t.next + 1, regs := r })
      | .other w _ => some (some w, { t with next := t.next + 1 })
      | .never => none := by
  simp only [scriptKernel, ht]
  rfl

/-- A round that observes no stop does not return 0. -/
theorem round_other {d : Main Tape} (hsys : d.debug.isSystrace = false)
    (h : S.hit d.kernel.next = none) {o : Option Int} {d' : Main Tape}
    (hrun : continueRound (scriptKernel S) li d = .ok (o, d')) :
    o = some 1 ∨ o = some (-1) := by
  have hreq : resumeRequest (scriptKernel S) d.debug.isSystrace d.debug.pid d.kernel =
      (true, { d.kernel with stepping := false }) := by rw [hsys]; rfl
  obtain ⟨out, hres⟩ := continueRound_resume li hreq
  rw [hres] at hrun
  have hwait := waitpid_resumed (S := S) (p := d.debug.pid)
    (t := { d.kernel with stepping := false }) rfl
  unfold Script.hit at h
  cases hstop : S.stop d.kernel.next with
  | stop r sig => rw [hstop] at h; cases h
  | other w hw =>
    simp only [hstop] at hwait
    obtain ⟨ret', d₁, hret, -, -, hend⟩ := continueFromWait_ended (w := some w) li
      (d := ⟨resumed d.debug, d.regs, { d.kernel with stepping := false }, out⟩) hwait hw
    rw [hend] at hrun
    cases hrun
    exact hret.imp (congrArg some) (congrArg some)
  | never =>
    simp only [hstop] at hwait
    have hnever := continueFromWait_never li
      (d := ⟨resumed d.debug, d.regs, { d.kernel with stepping := false }, out⟩) hwait
    rw [hnever] at hrun
    cases hrun

/-- A round that observes a stop looks its address up. -/
theorem round_stop (li : BreakpointList) {d : Main Tape} {a : Addr}
    (hsys : d.debug.isSystrace = false) (h : S.hit d.kernel.next = some a) :
    ∃ (r : UserRegs) (d₁ : Main Tape), r.rip - 1 = a ∧ d₁.kernel.regs = r ∧
      d₁.kernel.next = d.kernel.next + 1 ∧ d₁.debug.isSystrace = false ∧
      continueRound (scriptKernel S) li d = continueAtStop (scriptKernel S) li r d₁ := by
  have hreq : resumeRequest (scriptKernel S) d.debug.isSystrace d.debug.pid d.kernel =
      (true, { d.kernel with stepping := false }) := by rw [hsys]; rfl
  obtain ⟨out, hres⟩ := continueRound_resume li hreq
  have hwait := waitpid_resumed (S := S) (p := d.debug.pid)
    (t := { d.kernel with stepping := false }) rfl
  unfold Script.hit at h
  cases hstop : S.stop d.kernel.next with
  | other w hw => rw [hstop] at h; cases h
  | never => rw [hstop] at h; cases h
  | stop r sig =>
    rw [hstop] at h
    cases h
    simp only [hstop] at hwait
    obtain ⟨out', hround⟩ := continueFromWait_stop (K := scriptKernel S) li
      (d := ⟨resumed d.debug, d.regs, { d.kernel with stepping := false }, out⟩) (r := r)
      hwait (wifstopped_stopStatus sig) rfl
    exact ⟨r, ⟨resumed d.debug, d.regs, ⟨d.kernel.next + 1, d.kernel.steps, false, r⟩, out'⟩,
      rfl, rfl, rfl, hsys, hres.trans hround⟩

/-- A round whose first entry is enabled returns 0. -/
theorem round_enabled {d : Main Tape} {a : Addr} (hsys : d.debug.isSystrace = false)
    (h : S.hit d.kernel.next = some a) (he : FirstEntryEnabled li a) :
    ∃ d', d'.kernel.next = d.kernel.next + 1 ∧
      continueRound (scriptKernel S) li d = .ok (some 0, d') := by
  obtain ⟨r, d₁, rfl, hregs, hnext, -, hround⟩ := round_stop li hsys h
  obtain ⟨b, hb, hen⟩ := he
  obtain ⟨out, hat⟩ := continueAtStop_enabled (K := scriptKernel S) (d := d₁) hb hen
    (by rw [← hregs]; rfl)
  obtain ⟨ret, d₂, hrest, hret, hnext₂, -⟩ := restore_script (S := S) b (r.rip - 1)
    ⟨d₁.debug, r, d₁.kernel, out⟩
  refine ⟨d₂, hnext₂.trans hnext, ?_⟩
  rw [hround, hat, run_bind_ok hrest, if_neg hret]
  rfl

/-- A round whose first entry is not enabled, or which finds none, goes round again. -/
theorem round_again {d : Main Tape} {a : Addr} (hsys : d.debug.isSystrace = false)
    (h : S.hit d.kernel.next = some a) (he : ¬ FirstEntryEnabled li a) :
    ∃ d₁ : Main Tape, d₁.kernel.next = d.kernel.next + 1 ∧ d₁.debug.isSystrace = false ∧
      continueRound (scriptKernel S) li d = .ok (none, d₁) := by
  obtain ⟨r, d₁, rfl, hregs, hnext, hsys₁, hround⟩ := round_stop li hsys h
  cases hb : getElementByAddress li (r.rip - 1) with
  | none =>
    obtain ⟨out, hat⟩ := continueAtStop_unlisted (K := scriptKernel S) hsys₁ hb
    exact ⟨⟨d₁.debug, r, d₁.kernel, out⟩, hnext, hsys₁, hround.trans hat⟩
  | some b =>
    have hdis : b.isEnabled = false := by
      by_contra hen
      exact he ⟨b, hb, by simpa using hen⟩
    obtain ⟨out, hat⟩ := continueAtStop_disabled (K := scriptKernel S) (d := d₁) hb hdis
    obtain ⟨ret, d₂, hrest, hret, hnext₂, hsys₂⟩ := restore_script (S := S) b (r.rip - 1)
      ⟨d₁.debug, r, d₁.kernel, out⟩
    refine ⟨d₂, hnext₂.trans hnext, hsys₂.trans hsys₁, ?_⟩
    rw [hround, hat, run_bind_ok hrest, if_neg hret]
    rfl

/-! ## Whole runs -/

/-- `ContinueExecution` returns 0, having observed stop `n` last. -/
def ReturnsZeroAt (S : Script) (li : BreakpointList) (d : Main Tape) (n : Nat) : Prop :=
  ∃ fuel d', continueExecution (scriptKernel S) li fuel d = .ok (0, d') ∧ d'.kernel.next = n + 1

/-- The results of `ContinueExecution`, and where it returns 0. -/
theorem continueExecution_result (fuel : Nat) {d d' : Main Tape} {ret : Int}
    (hsys : d.debug.isSystrace = false)
    (h : continueExecution (scriptKernel S) li fuel d = .ok (ret, d')) :
    ret = 1 ∨ ret = -1 ∨
      ret = 0 ∧ ∃ n, d'.kernel.next = n + 1 ∧
        S.FirstStop (FirstEntryEnabled li) d.kernel.next n := by
  induction fuel generalizing d d' ret with
  | zero => cases h
  | succ fuel ih =>
    cases hhit : S.hit d.kernel.next with
    | none =>
      rw [continueExecution] at h
      obtain ⟨o, d₁, hround, h⟩ := run_bind_eq_ok.mp h
      rcases round_other hsys hhit hround with rfl | rfl
      · cases h
        exact Or.inl rfl
      · cases h
        exact Or.inr (Or.inl rfl)
    | some a =>
      by_cases he : FirstEntryEnabled li a
      · obtain ⟨d₁, hnext, hround⟩ := round_enabled hsys hhit he
        rw [continueExecution_some hround] at h
        cases h
        exact Or.inr (Or.inr ⟨rfl, _, hnext, firstStop_self hhit he⟩)
      · obtain ⟨d₁, hnext, hsys₁, hround⟩ := round_again hsys hhit he
        rw [continueExecution_none hround] at h
        obtain ⟨ret', d₂, hinner, hpass⟩ := run_bind_eq_ok.mp h
        cases hpass
        rcases ih hsys₁ hinner with rfl | rfl | ⟨rfl, n, hn, hfirst⟩
        · exact Or.inl rfl
        · exact Or.inr (Or.inl rfl)
        · rw [hnext] at hfirst
          exact Or.inr (Or.inr ⟨rfl, n, hn, firstStop_succ hhit he hfirst⟩)

/-- Enough fuel reaches the first stop whose first entry is enabled. -/
theorem continueExecution_returns {n : Nat} {d : Main Tape} (hsys : d.debug.isSystrace = false)
    (h : S.FirstStop (FirstEntryEnabled li) d.kernel.next n) : ReturnsZeroAt S li d n := by
  obtain ⟨j, hj⟩ : ∃ j, n = d.kernel.next + j := ⟨n - d.kernel.next, by have := h.1; omega⟩
  induction j generalizing d with
  | zero =>
    obtain ⟨-, ⟨a, hhit, he⟩, -⟩ := h
    rw [Nat.add_zero] at hj
    rw [hj] at hhit
    obtain ⟨d₁, hnext, hround⟩ := round_enabled hsys hhit he
    exact ⟨1, d₁, continueExecution_some hround 0, by rw [hnext, hj]⟩
  | succ j ih =>
    obtain ⟨a, hhit, he⟩ := h.2.2 d.kernel.next (le_refl _) (by omega)
    obtain ⟨d₁, hnext, hsys₁, hround⟩ := round_again hsys hhit he
    have htail : S.FirstStop (FirstEntryEnabled li) d₁.kernel.next n := by
      rw [hnext]
      exact h.tail (by omega)
    obtain ⟨fuel, d', hrun, hn⟩ := ih hsys₁ htail (by omega)
    refine ⟨fuel + 1, d', ?_, hn⟩
    rw [continueExecution_none hround, run_bind_ok hrun]
    rfl

/-- A continue returns 0 at the first stop whose first entry is enabled. -/
theorem returnsZeroAt_iff {n : Nat} {d : Main Tape} (hsys : d.debug.isSystrace = false) :
    ReturnsZeroAt S li d n ↔ S.FirstStop (FirstEntryEnabled li) d.kernel.next n := by
  constructor
  · intro h
    obtain ⟨fuel, d', hrun, hn⟩ := h
    rcases continueExecution_result fuel hsys hrun with hret | hret | ⟨-, m, hm, hfirst⟩
    · cases hret
    · cases hret
    · have hmn : m = n := by omega
      rw [← hmn]
      exact hfirst
  · exact continueExecution_returns hsys

/-- A continue returns 0 exactly at the first stop at an enabled breakpoint if and only if
at that stop, if there is one, the first breakpoint listed at its address is enabled. -/
theorem returns_at_enabled_iff (S : Script) (li : BreakpointList) (d : Main Tape)
    (hsys : d.debug.isSystrace = false) (hnext : d.kernel.next = 0) :
    (∀ n, ReturnsZeroAt S li d n ↔ S.FirstStop (EnabledAt li) 0 n) ↔
      ∀ n a, S.FirstStop (EnabledAt li) 0 n → S.hit n = some a → FirstEntryEnabled li a := by
  have hzero : ∀ n, ReturnsZeroAt S li d n ↔ S.FirstStop (FirstEntryEnabled li) 0 n := by
    intro n
    rw [returnsZeroAt_iff hsys, hnext]
  simp only [hzero]
  constructor
  · intro h n a hn ha
    obtain ⟨-, ⟨c, hc, he⟩, -⟩ := (h n).mpr hn
    rw [ha] at hc
    cases hc
    exact he
  · intro h
    exact firstStop_congr (fun a => FirstEntryEnabled.enabledAt) h

/-! ## Lists built by placing and disabling -/

inductive ListEdit where
  | place (address : Addr)
  | disable (bNumber : Int)

def listEdit {σ : Type} (K : Kernel σ) : ListEdit → BreakpointList → DbgM σ BreakpointList
  | .place address, li => do return (← placeBreakpoint K li address).2
  | .disable bNumber, li => do return (← disableBreakpoint li bNumber).2

/-- One stop behind the address 0x1000, and then an exit. -/
def hitOnce : Script where
  stop
    | 0 => .stop { rip := 0x1001 } sigtrap
    | _ => .other (exitStatus 0) rfl
  inner _ := (stopStatus sigtrap, {})

theorem hitOnce_hit : hitOnce.hit 0 = some 0x1000 := rfl

theorem returns_at_hitOnce :
    ReturnsZeroAt hitOnce [⟨true, 0x1000, 0, 1⟩] (Main.init ⟨0, 0, false, {}⟩) 0 := by
  have hen : FirstEntryEnabled [⟨true, 0x1000, 0, 1⟩] 0x1000 := ⟨_, rfl, rfl⟩
  refine ((returns_at_enabled_iff hitOnce _ _ rfl rfl).mpr ?_ 0).mpr
    (firstStop_self hitOnce_hit hen.enabledAt)
  intro n a hn ha
  rcases Nat.eq_zero_or_pos n with rfl | hpos
  · cases ha
    exact hen
  · obtain ⟨c, hc, hne⟩ := hn.2.2 0 (le_refl 0) hpos
    cases hc
    exact absurd hen.enabledAt hne

/-- Placed, disabled and placed again: the stop at the enabled breakpoint is passed over. -/
theorem enabled_breakpoint_passed_over :
    ∃ li d, runAll (listEdit (scriptKernel hitOnce)) [.place 0x1000, .disable 1, .place 0x1000]
        [] (Main.init ⟨0, 0, false, {}⟩) = .ok (li, d) ∧
      ¬ ∀ n, ReturnsZeroAt hitOnce li d n ↔ hitOnce.FirstStop (EnabledAt li) 0 n := by
  have hobs : ((runAll (listEdit (scriptKernel hitOnce)) [.place 0x1000, .disable 1,
      .place 0x1000] [] (Main.init ⟨0, 0, false, {}⟩)).toOption.map fun r =>
        (r.1, r.2.debug.isSystrace)) =
      some ([⟨false, 0x1000, 0, 1⟩, ⟨true, 0x1000, 0, 2⟩], false) := by decide +kernel
  obtain ⟨li, d, hrun, hv⟩ := exists_ok_of_observed hobs
  simp only [Prod.mk.injEq] at hv
  obtain ⟨hli, hsys⟩ := hv
  refine ⟨li, d, hrun, ?_⟩
  intro h
  have hen : EnabledAt li 0x1000 := by
    rw [hli]
    exact ⟨⟨true, 0x1000, 0, 2⟩, by simp, rfl, rfl⟩
  obtain ⟨-, ⟨a, ha, b, hb, he⟩, -⟩ :=
    (returnsZeroAt_iff hsys).mp ((h 0).mpr (firstStop_self hitOnce_hit hen))
  cases ha
  rw [hli] at hb
  cases hb
  cases he

end Zkz.Debugger
