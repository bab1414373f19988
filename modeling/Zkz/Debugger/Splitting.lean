import Zkz.Debugger.Sessions

/-!
# Commands one after the other

How the commands compose that run the program. As long as the first one executes all instructions
that it is told to, a `step` and what is typed behind it are one longer command; if it stops before
that, a longer `step` and a `continue` stop there too.

* `Ideal.glide`: some instructions at none of which a command returns.
* `stepX_split`: a `step` is two shorter ones.
* `continue_split`: a `continue` is a `step` and a `continue`.
-/

namespace Zkz.Debugger

open Zkz.Lib BreakpointList

variable {ε : Type}

/-! ## Instructions -/

namespace Ideal

/-- The program after some instructions, if a command goes on behind each of them. -/
def glide (C : Cpu ε) : Nat → Ideal ε → Option (Ideal ε)
  | 0, s => some s
  | k + 1, s => match s.turn C with
    | (some _, _) => none
    | (none, t) => glide C k t

variable {C : Cpu ε} {s t : Ideal ε} {ret : Int} {m : Nat}

/-- The first instruction, and the others. -/
theorem glide_succ (h : s.turn C = (none, t)) (m : Nat) : s.glide C (m + 1) = t.glide C m := by
  rw [glide, h]

theorem glide_returned (h : s.turn C = (some ret, t)) (m : Nat) : s.glide C (m + 1) = none := by
  rw [glide, h]

theorem stepX_turn (h : s.turn C = (none, t)) (m : Nat) : s.stepX C (m + 1) = t.stepX C m := by
  rw [stepX, h]

theorem stepX_returned (h : s.turn C = (some ret, t)) (m : Nat) :
    s.stepX C (m + 1) = (ret, t) := by
  rw [stepX, h]

theorem glide_marks (h : s.glide C m = some t) : t.traps.marks = s.traps.marks := by
  induction m generalizing s with
  | zero =>
    cases h
    rfl
  | succ m ih =>
    have hmarks := turn_marks C s
    cases hturn : s.turn C with
    | mk o s₁ =>
      cases o with
      | some ret =>
        rw [glide_returned hturn] at h
        cases h
      | none =>
        rw [glide_succ hturn] at h
        rw [hturn] at hmarks
        exact (ih h).trans hmarks

/-- As many instructions as are executed in full, and some more. -/
theorem stepX_add (h : s.glide C m = some t) (k : Nat) : s.stepX C (m + k) = t.stepX C k := by
  induction m generalizing s with
  | zero =>
    cases h
    rw [Nat.zero_add]
  | succ m ih =>
    cases hturn : s.turn C with
    | mk o s₁ =>
      cases o with
      | some ret =>
        rw [glide_returned hturn] at h
        cases h
      | none =>
        rw [glide_succ hturn] at h
        rw [Nat.add_right_comm, stepX_turn hturn]
        exact ih h

theorem stepX_glide (h : s.glide C m = some t) : s.stepX C m = (0, t) := stepX_add h 0

/-- More instructions are not executed behind one at which the command returns. -/
theorem stepX_stuck (h : s.glide C m = none) (k : Nat) : s.stepX C (m + k) = s.stepX C m := by
  induction m generalizing s with
  | zero => cases h
  | succ m ih =>
    rw [Nat.add_right_comm]
    cases hturn : s.turn C with
    | mk o s₁ =>
      cases o with
      | some ret => rw [stepX_returned hturn, stepX_returned hturn]
      | none =>
        rw [glide_succ hturn] at h
        rw [stepX_turn hturn, stepX_turn hturn]
        exact ih h

theorem run_add (h : s.glide C m = some t) (k : Nat) : s.run C (m + k) = t.run C k := by
  induction m generalizing s with
  | zero =>
    cases h
    rw [Nat.zero_add]
  | succ m ih =>
    rw [Nat.add_right_comm, run_succ]
    cases hturn : s.turn C with
    | mk o s₁ =>
      cases o with
      | some ret =>
        rw [glide_returned hturn] at h
        cases h
      | none =>
        rw [glide_succ hturn] at h
        exact ih h

/-- A run ends where the instructions end that are not executed in full. -/
theorem run_stuck (h : s.glide C m = none) : s.run C m = some (s.stepX C m) := by
  induction m generalizing s with
  | zero => cases h
  | succ m ih =>
    rw [run_succ]
    cases hturn : s.turn C with
    | mk o s₁ =>
      cases o with
      | some ret => rw [stepX_returned hturn]; rfl
      | none =>
        rw [glide_succ hturn] at h
        rw [stepX_turn hturn]
        exact ih h

end Ideal

/-! ## Commands -/

section Commands

variable {C : Cpu ε} {code : Set Addr} {s₀ : Machine ε} {s t : Ideal ε} {li : BreakpointList}
  {d d₁ : Main (Proc ε)}

/-- **A `step` is two shorter ones**: from any stopped state, the second one goes on where the first
one has executed all its instructions, and otherwise the long one stops where the first one does. -/
theorem stepX_split (C : Cpu ε) (code : Set Addr) (s₀ : Machine ε) (h : C.Tame code s₀)
    (s : Ideal ε) (li : BreakpointList) (d : Main (Proc ε)) (hs : Shows C code s₀ s li d.kernel)
    (hsolid : ∀ e ∈ s.traps.marks, C.Solid s₀ e.address)
    (hen : ∀ e ∈ s.traps.marks, e.isEnabled = true) (fuel m k : Nat) :
    ∃ ret d₁ ret' d', stepX (cpuKernel C fuel) li m d = .ok (ret, d₁) ∧
      stepX (cpuKernel C fuel) li (m + k : Nat) d = .ok (ret', d') ∧
      (s.glide C m = none → ret' = ret ∧ Alike d'.kernel d₁.kernel) ∧
      ∀ t, s.glide C m = some t → ret = 0 ∧
        ∃ d₂, stepX (cpuKernel C fuel) li k d₁ = .ok (ret', d₂) ∧ Alike d'.kernel d₂.kernel := by
  obtain ⟨d₁, hfirst, hshows₁⟩ := stepX_ideal C code s₀ h s li d hs hsolid hen fuel m
  obtain ⟨d', hboth, hshows'⟩ := stepX_ideal C code s₀ h s li d hs hsolid hen fuel (m + k : Nat)
  rw [Int.toNat_natCast] at hfirst hshows₁ hboth hshows'
  refine ⟨_, d₁, _, d', hfirst, hboth, ?_, ?_⟩
  · intro hglide
    rw [Ideal.stepX_stuck hglide] at hshows' ⊢
    exact ⟨rfl, hshows'.alike hshows₁⟩
  · intro t hglide
    rw [Ideal.stepX_glide hglide] at hshows₁ ⊢
    rw [Ideal.stepX_add hglide] at hshows' ⊢
    have hmarks := Ideal.glide_marks hglide
    obtain ⟨d₂, hsecond, hshows₂⟩ := stepX_ideal C code s₀ h t li d₁ hshows₁
      (hmarks ▸ hsolid) (hmarks ▸ hen) fuel k
    rw [Int.toNat_natCast] at hsecond hshows₂
    exact ⟨rfl, d₂, hsecond, hshows'.alike hshows₂⟩

/-- The first instruction is not the one with the trap. -/
theorem pair_glide : ∃ t, ((Ideal.start nopStart).place 0x1004).2.glide pairCpu 1 = some t := by
  have hobs : (((Ideal.start nopStart).place 0x1004).2.glide pairCpu 1).map
      (fun t => t.machine.rip) = some 0x1002 := by decide +kernel
  obtain ⟨t, hglide, -⟩ := Option.map_eq_some_iff.mp hobs
  exact ⟨t, hglide⟩

theorem stepX_split_pair :
    ∃ li d d₁ ret d' d₂, stepX (cpuKernel pairCpu 0) li 1 d = .ok (0, d₁) ∧
      stepX (cpuKernel pairCpu 0) li 3 d = .ok (ret, d') ∧
      stepX (cpuKernel pairCpu 0) li 2 d₁ = .ok (ret, d₂) ∧ Alike d'.kernel d₂.kernel := by
  obtain ⟨li, d, hshows, -⟩ := pair_placed
  obtain ⟨t, hglide⟩ := pair_glide
  obtain ⟨ret, d₁, ret', d', hfirst, hboth, -, hsplit⟩ := stepX_split pairCpu Set.univ nopStart
    pair_tame _ li d hshows (fun e he => by rw [(pair_marks he).1]; exact pair_solid)
    (fun e he => (pair_marks he).2) 0 1 2
  obtain ⟨rfl, d₂, hsecond, halike⟩ := hsplit t hglide
  exact ⟨li, d, d₁, ret', d', d₂, hfirst, hboth, hsecond, halike⟩

/-- What a `continue` does, given enough time. -/
def Continues (C : Cpu ε) (li : BreakpointList) (d : Main (Proc ε)) (ret : Int)
    (d' : Main (Proc ε)) : Prop :=
  ∃ fuel n, continueExecution (cpuKernel C fuel) li n d = .ok (ret, d')

/-- It is what the ideal debugger does until it stops. -/
theorem Continues.run {ret : Int} {d' : Main (Proc ε)} (h : C.Tame code s₀)
    (hs : Shows C code s₀ s li d.kernel) (hquiet : ∀ e ∈ s.traps.marks, C.Quiet s₀ e.address)
    (hsys : d.debug.isSystrace = false) (hcont : Continues C li d ret d') :
    ∃ k t, s.run C k = some (ret, t) ∧ Shows C code s₀ t li d'.kernel := by
  obtain ⟨fuel, n, hrun⟩ := hcont
  exact continueExecution_sound fuel h hs hquiet hsys n ret d' hrun

theorem continues_of_run {ret : Int} {k : Nat} (h : C.Tame code s₀)
    (hs : Shows C code s₀ s li d.kernel) (hquiet : ∀ e ∈ s.traps.marks, C.Quiet s₀ e.address)
    (hsys : d.debug.isSystrace = false) (hrun : s.run C k = some (ret, t)) :
    ∃ d', Continues C li d ret d' ∧ Shows C code s₀ t li d'.kernel := by
  obtain ⟨d', hcont, hshows⟩ :=
    continueExecution_total k h hs hquiet hsys hrun (Nat.le_succ k) le_rfl
  exact ⟨d', ⟨k, k, hcont⟩, hshows⟩

/-- **A `continue` is a `step` and a `continue`**: from any stopped state, it does what a `continue`
does behind any number of steps that are all made, and what the steps do if they are not. -/
theorem continue_split (C : Cpu ε) (code : Set Addr) (s₀ : Machine ε) (h : C.Tame code s₀)
    (s : Ideal ε) (li : BreakpointList) (d : Main (Proc ε)) (hs : Shows C code s₀ s li d.kernel)
    (hsolid : ∀ e ∈ s.traps.marks, C.Solid s₀ e.address)
    (hen : ∀ e ∈ s.traps.marks, e.isEnabled = true) (hsys : d.debug.isSystrace = false)
    (fuel m : Nat) :
    ∃ ret d₁, stepX (cpuKernel C fuel) li m d = .ok (ret, d₁) ∧
      (s.glide C m = none → (∃ d', Continues C li d ret d') ∧
        ∀ ret' d', Continues C li d ret' d' → ret' = ret ∧ Alike d'.kernel d₁.kernel) ∧
      ∀ t, s.glide C m = some t → ∀ ret',
        ((∃ d', Continues C li d ret' d') ↔ ∃ d₂, Continues C li d₁ ret' d₂) ∧
          ∀ d' d₂, Continues C li d ret' d' → Continues C li d₁ ret' d₂ →
            Alike d'.kernel d₂.kernel := by
  obtain ⟨d₁, hstep, hshows₁⟩ := stepX_ideal C code s₀ h s li d hs hsolid hen fuel m
  rw [Int.toNat_natCast] at hstep hshows₁
  have hquiet : ∀ e ∈ s.traps.marks, C.Quiet s₀ e.address := fun e he => (hsolid e he).quiet h
  have hsys₁ : d₁.debug.isSystrace = false :=
    (systrace_rounds (cpuKernel C fuel) false).stepX m hsys _ _ hstep
  refine ⟨_, d₁, hstep, ?_, ?_⟩
  · intro hglide
    have hrun := Ideal.run_stuck hglide
    obtain ⟨d', hcont, -⟩ := continues_of_run h hs hquiet hsys hrun
    refine ⟨⟨d', hcont⟩, ?_⟩
    intro ret' d' hcont'
    obtain ⟨k, t, hrun', hshows'⟩ := hcont'.run h hs hquiet hsys
    have hsame := Ideal.run_unique hrun' hrun
    rw [← hsame] at hshows₁ ⊢
    exact ⟨rfl, hshows'.alike hshows₁⟩
  · intro t hglide ret'
    have hquiet' : ∀ e ∈ t.traps.marks, C.Quiet s₀ e.address :=
      Ideal.glide_marks hglide ▸ hquiet
    rw [Ideal.stepX_glide hglide] at hshows₁
    refine ⟨⟨?_, ?_⟩, ?_⟩
    · rintro ⟨d', hcont⟩
      obtain ⟨k, t', hrun, -⟩ := hcont.run h hs hquiet hsys
      -- the run is longer than the steps, at none of which it has ended
      have hrun' : t.run C k = some (ret', t') := by
        rw [← Ideal.run_add hglide, Nat.add_comm]
        exact Ideal.run_mono hrun m
      obtain ⟨d₂, hcont₂, -⟩ := continues_of_run h hshows₁ hquiet' hsys₁ hrun'
      exact ⟨d₂, hcont₂⟩
    · rintro ⟨d₂, hcont₂⟩
      obtain ⟨k, t', hrun, -⟩ := hcont₂.run h hshows₁ hquiet' hsys₁
      obtain ⟨d', hcont, -⟩ := continues_of_run h hs hquiet hsys
        ((Ideal.run_add hglide k).trans hrun)
      exact ⟨d', hcont⟩
    · intro d' d₂ hcont hcont₂
      obtain ⟨k, t', hrun, hshows'⟩ := hcont.run h hs hquiet hsys
      obtain ⟨k₂, t₂, hrun₂, hshows₂⟩ := hcont₂.run h hshows₁ hquiet' hsys₁
      cases Ideal.run_unique hrun ((Ideal.run_add hglide k₂).trans hrun₂)
      exact hshows'.alike hshows₂

theorem continue_split_pair :
    ∃ li d ret d₁ d' d₂, stepX (cpuKernel pairCpu 0) li 1 d = .ok (ret, d₁) ∧
      Continues pairCpu li d 0 d' ∧ Continues pairCpu li d₁ 0 d₂ ∧ Alike d'.kernel d₂.kernel := by
  obtain ⟨li, d, hshows, hsys⟩ := pair_placed
  obtain ⟨t, hglide⟩ := pair_glide
  obtain ⟨t', hrun, -⟩ := pair_run
  obtain ⟨ret, d₁, hstep, -, hsplit⟩ := continue_split pairCpu Set.univ nopStart pair_tame _ li d
    hshows (fun e he => by rw [(pair_marks he).1]; exact pair_solid)
    (fun e he => (pair_marks he).2) hsys 0 1
  obtain ⟨hiff, halike⟩ := hsplit t hglide 0
  obtain ⟨d', hcont, -⟩ := continues_of_run pair_tame hshows (fun e _ => pair_quiet e.address) hsys
    hrun
  obtain ⟨d₂, hcont₂⟩ := hiff.mp ⟨d', hcont⟩
  exact ⟨li, d, ret, d₁, d', d₂, hstep, hcont, hcont₂, halike d' d₂ hcont hcont₂⟩

end Commands

end Zkz.Debugger
