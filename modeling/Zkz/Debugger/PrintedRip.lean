import Zkz.Debugger.AutoReturns
import Zkz.Debugger.Failures

/-!
# The values behind `---> rip:`

`StepAuto` and `StepX` print `rip` from the cached registers. `StepAuto` does so between a single
step and the read of the registers after it; `StepX` does so after its loop, which may have ended
with the single step of a restore.

* `Silent`: what prints no `rip`, and its rules.
* `stepAuto_prints`, `stepX_prints`: the values in the output are those cached in the states in
  which the commands print.
* `restoreBreakpoint_cached`: the `rip` in the cache after a restore.
* `stepXRound_goesOn`: how a round of `StepX` goes on.
* `printed_rip`: the values printed are the debuggee's exactly if each step of `StepAuto` leaves the
  debuggee at the cached `rip`, and the last round of `StepX` does where it does not read it.
-/

namespace Zkz.Debugger

open Zkz.Lib BreakpointList

variable {σ : Type}

/-! ## Output -/

/-- The value that a line of output gives for `rip`. -/
def LogLine.ripValue (l : LogLine) : Option Addr :=
  if l.level = .print ∧ l.msg = "---> rip: %x\n" then
    match l.args with
    | [.hex x] => some x
    | _ => none
  else none

/-- The values printed so far. -/
def printedRips (d : Main σ) : List Addr := d.out.filterMap LogLine.ripValue

/-- A run of `x` prints the values `vs` for `rip`, in this order. -/
def Prints {α : Type} (x : DbgM σ α) (d : Main σ) (vs : List Addr) : Prop :=
  Post x d fun _ d' => printedRips d' = printedRips d ++ vs

/-- No run of `x` prints a value for `rip`. -/
def Silent {α : Type} (x : DbgM σ α) : Prop := ∀ d, Prints x d []

section Rules

variable {α β : Type} {x : DbgM σ α} {f : α → DbgM σ β} {d : Main σ} {vs ws : List Addr}

theorem Prints.bind (hx : Prints x d vs) (hf : ∀ a d', x d = .ok (a, d') → Prints (f a) d' ws) :
    Prints (x >>= f) d (vs ++ ws) := by
  intro b d₂ h
  obtain ⟨a, d₁, hrun, hrest⟩ := run_bind_eq_ok.mp h
  rw [hf a d₁ hrun b d₂ hrest, hx a d₁ hrun, List.append_assoc]

theorem Silent.bind (hx : Silent x) (hf : ∀ a, Silent (f a)) : Silent (x >>= f) :=
  fun d => (hx d).bind fun a d' _ => hf a d'

theorem silent_pure (a : α) : Silent (pure a : DbgM σ α) :=
  fun _ => post_pure (List.append_nil _).symm

theorem silent_ite {c : Prop} [Decidable c] {y : DbgM σ α} (hx : Silent x) (hy : Silent y) :
    Silent (if c then x else y) := by
  split
  · exact hx
  · exact hy

/-- What leaves the output as it is. -/
theorem silent_of_out (h : ∀ d, Post x d fun _ d' => d'.out = d.out) : Silent x := by
  intro d
  refine post_mono (h d) fun _ d' hout => ?_
  unfold printedRips
  rw [hout, List.append_nil]

theorem silent_get : Silent (get : DbgM σ (Main σ)) := silent_of_out fun _ => post_ok rfl rfl

theorem silent_ptrace (req : Int → σ → α × σ) : Silent (ptrace req) :=
  silent_of_out fun _ => post_ok rfl rfl

theorem silent_setRegs (r : UserRegs) : Silent (setRegs r : DbgM σ Unit) :=
  silent_of_out fun _ => post_ok rfl rfl

theorem silent_setProgramState (state : Bool) : Silent (setProgramState state : DbgM σ Unit) :=
  silent_of_out fun _ => post_ok rfl rfl

theorem silent_waitpid (K : Kernel σ) : Silent (waitpid K) := by
  refine silent_of_out fun d a d' h => ?_
  unfold waitpid at h
  split at h
  · cases h
  · cases h
    rfl

theorem silent_log {level : Level} {msg : String} {args : List LogArg}
    (h : LogLine.ripValue ⟨level, msg, args⟩ = none) : Silent (log level msg args : DbgM σ Unit) := by
  refine fun d => post_ok rfl ?_
  unfold printedRips
  rw [List.filterMap_append, List.filterMap_cons_none h, List.filterMap_nil]

end Rules

/-! ## What is silent -/

section Silence

variable {K : Kernel σ} {li : BreakpointList}

/-- Only `Print` prints. -/
theorem silent_other {level : Level} (h : level ≠ .print) (msg : String) (args : List LogArg) :
    Silent (log level msg args : DbgM σ Unit) :=
  silent_log (if_neg fun hprint => h hprint.1)

/-- A message, and what the function returns. -/
theorem silent_said {α : Type} {level : Level} (h : level ≠ .print) (msg : String)
    (args : List LogArg) (a : α) :
    Silent (do
      log level msg args
      return a : DbgM σ α) :=
  (silent_other h msg args).bind fun _ => silent_pure a

theorem silent_waitForProcess (K : Kernel σ) : Silent (waitForProcess K) := by
  refine (silent_waitpid K).bind fun w => silent_ite ?_ (silent_ite (silent_pure _) (silent_ite ?_ ?_))
  · exact (silent_other (by decide) _ _).bind fun _ =>
      (silent_setProgramState false).bind fun _ => silent_pure _
  · exact silent_said (by decide) _ _ _
  · exact silent_pure _

theorem silent_infoRegistersAll (K : Kernel σ) : Silent (infoRegistersAll K) := by
  refine (silent_ptrace K.getregs).bind fun o => ?_
  cases o with
  | none => exact silent_pure _
  | some r =>
    refine (silent_setRegs r).bind fun _ => Silent.bind (silent_log (if_neg ?_)) fun _ => silent_pure _
    rintro ⟨-, hmsg⟩
    exact absurd (show (registersLine {}).msg = "---> rip: %x\n" from hmsg) (by decide)

theorem silent_restoreBreakpoint (K : Kernel σ) (b : Breakpoint) (a : Addr) :
    Silent (restoreBreakpoint K b a) := by
  refine (silent_other (by decide) _ _).bind fun _ => (silent_ptrace _).bind fun _ => ?_
  refine silent_ite (silent_said (by decide) _ _ _) ((silent_ptrace _).bind fun o => ?_)
  cases o with
  | none => exact silent_said (by decide) _ _ _
  | some r =>
    refine (silent_setRegs _).bind fun _ => (silent_ptrace _).bind fun _ => ?_
    refine silent_ite (silent_said (by decide) _ _ _) ((silent_ptrace _).bind fun _ => ?_)
    refine silent_ite (silent_said (by decide) _ _ _) ((silent_other (by decide) _ _).bind fun _ => ?_)
    refine (silent_waitForProcess K).bind fun _ => silent_ite (silent_pure _) ?_
    exact silent_said (by decide) _ _ _

theorem silent_stepAutoAtStop (r : UserRegs) : Silent (stepAutoAtStop K li r) := by
  refine (silent_setRegs r).bind fun _ => ?_
  cases getElementByAddress li (r.rip - 1) with
  | none => exact silent_pure _
  | some b =>
    refine silent_ite ((silent_other (by decide) _ _).bind fun _ => ?_) ?_
    · exact (silent_restoreBreakpoint K b _).bind fun _ => silent_pure _
    · exact (silent_restoreBreakpoint K b _).bind fun _ => silent_pure _

theorem silent_stepXAtStop (i : Nat) (r : UserRegs) : Silent (stepXAtStop K li i r) := by
  have hrestore : ∀ b a (o : Option Int), Silent (do
      if (← restoreBreakpoint K b a) < -1 then
        return some (-1)
      return o : DbgM σ (Option Int)) := fun b a o =>
    (silent_restoreBreakpoint K b a).bind fun _ => silent_ite (silent_pure _) (silent_pure _)
  refine (silent_setRegs r).bind fun _ => ?_
  cases getElementByAddress li (r.rip - 1) with
  | none => exact silent_pure _
  | some b =>
    exact silent_ite ((silent_other (by decide) _ _).bind fun _ => hrestore b _ _) (hrestore b _ _)

/-- What `stopRegs` does behind the dump. -/
theorem silent_getregs (K : Kernel σ) : Silent (do
    let some r ← ptrace K.getregs | do
      log .pError "Ptrace error" []
      return none
    return some r : DbgM σ (Option UserRegs)) := by
  refine (silent_ptrace K.getregs).bind fun o => ?_
  cases o with
  | none => exact silent_said (by decide) _ _ _
  | some r => exact silent_pure _

theorem silent_stopRegs (K : Kernel σ) : Silent (stopRegs K) := by
  refine silent_get.bind fun d => ?_
  exact silent_ite ((silent_infoRegistersAll K).bind fun _ => silent_getregs K) (silent_getregs K)

/-- What a round of `StepAuto` does behind its line of output. -/
theorem silent_autoRest (K : Kernel σ) (li : BreakpointList) : Silent (do
    match ← stopRegs K with
    | none => return some (-1)
    | some r => stepAutoAtStop K li r : DbgM σ (Option Int)) := by
  refine (silent_stopRegs K).bind fun o => ?_
  cases o with
  | none => exact silent_pure _
  | some r => exact silent_stepAutoAtStop r

theorem silent_stepAndWait (K : Kernel σ) (msg : String) : Silent (stepAndWait K msg) := by
  refine (silent_ptrace K.singlestep).bind fun _ => silent_ite (silent_said (by decide) _ _ _) ?_
  exact (silent_waitForProcess K).bind fun _ => silent_pure _

/-- The rounds of `StepX` print nothing. -/
theorem silent_stepXRound (i : Nat) : Silent (stepXRound K li i) := by
  rw [stepXRound_eq]
  refine (silent_stepAndWait K "Ptrace error").bind fun stepped => ?_
  cases stepped with
  | none => exact silent_pure _
  | some ret =>
    refine silent_ite (silent_pure _) (silent_ite ?_ (silent_pure _))
    refine (silent_stopRegs K).bind fun o => ?_
    cases o with
    | none => exact silent_pure _
    | some r => exact silent_stepXAtStop i r

end Silence

/-! ## Where the commands print -/

/-- The state in which a round of `StepAuto` prints, if it does. -/
def autoPrint (K : Kernel σ) (d : Main σ) : Option (Main σ) :=
  match stepAndWait K "Ptrace eror" d with
  | .ok (some ret, d') => if ret = stoppedStatusRet ∨ ret = signaledStatusRet then some d' else none
  | _ => none

/-- The states in which at most `n` rounds of `StepAuto` print. -/
def autoPrints (K : Kernel σ) (li : BreakpointList) : Nat → Main σ → List (Main σ)
  | 0, _ => []
  | n + 1, d => (autoPrint K d).toList ++
    match stepAutoRound K li d with
    | .ok (none, d') => autoPrints K li n d'
    | _ => []

/-- The state in which `StepX` prints, if it does. -/
def xPrint (K : Kernel σ) (li : BreakpointList) (numberOfSteps : Int) (d : Main σ) :
    Option (Main σ) :=
  match rounds (stepXRound K li) 0 numberOfSteps.toNat d with
  | .ok (none, d') => some d'
  | _ => none

/-- The values cached in the states of a list. -/
def cachedRips (prints : List (Main σ)) : List Addr := prints.map fun p => p.regs.rip

section Prints

variable {K : Kernel σ} {li : BreakpointList} {d : Main σ}

/-- The print of a value. -/
theorem prints_rip (d : Main σ) :
    Prints (log .print "---> rip: %x\n" [.hex d.regs.rip]) d [d.regs.rip] := by
  refine post_ok rfl ?_
  unfold printedRips
  rw [List.filterMap_append]
  rfl

/-- A round prints what is cached behind its single step. -/
theorem stepAutoRound_prints (K : Kernel σ) (li : BreakpointList) (d : Main σ) :
    Prints (stepAutoRound K li) d (cachedRips (autoPrint K d).toList) := by
  rw [stepAutoRound_eq]
  refine (silent_stepAndWait K "Ptrace eror" d).bind fun stepped d₁ hstep => ?_
  unfold autoPrint
  rw [hstep]
  cases stepped with
  | none => exact silent_pure _ d₁
  | some ret =>
    by_cases hexit : ret = exitStatusRet
    · simp only [hexit]
      exact silent_pure _ d₁
    · simp only [if_neg hexit]
      unfold autoRegs
      by_cases hstop : ret = stoppedStatusRet ∨ ret = signaledStatusRet
      · simp only [hstop, if_true, bind_assoc]
        refine Prints.bind (silent_get d₁) fun s d₂ hs => ?_
        cases hs
        exact (prints_rip d₁).bind fun _ d₂ _ => silent_autoRest K li d₂
      · simp only [hstop, if_false]
        exact silent_autoRest K li d₁

theorem rounds_print (K : Kernel σ) (li : BreakpointList) (i n : Nat) (d : Main σ) :
    Prints (rounds (fun _ => stepAutoRound K li) i n) d (cachedRips (autoPrints K li n d)) := by
  induction n generalizing i d with
  | zero => exact silent_pure _ d
  | succ n ih =>
    unfold autoPrints cachedRips
    rw [List.map_append]
    refine (stepAutoRound_prints K li d).bind fun o d₁ hround => ?_
    rw [hround]
    cases o with
    | some v => exact silent_pure _ d₁
    | none => exact ih (i + 1) d₁

theorem stepAuto_prints (K : Kernel σ) (li : BreakpointList) (ret : Int) (n : Nat) (d : Main σ) :
    Prints (stepAuto K li ret n) d (cachedRips (autoPrints K li (stepAutoRounds ret n) d)) :=
  post_stepAuto (Q := fun _ d' => printedRips d' = printedRips d ++ _) (fun _ h => h) ret n d
    (rounds_print K li 0 (stepAutoRounds ret n) d)

theorem silent_stepXRounds (K : Kernel σ) (li : BreakpointList) (i n : Nat) :
    Silent (rounds (stepXRound K li) i n) := by
  induction n generalizing i with
  | zero => exact silent_pure _
  | succ n ih =>
    refine (silent_stepXRound i).bind fun o => ?_
    cases o with
    | some v => exact silent_pure _
    | none => exact ih (i + 1)

/-- The loop prints what is cached behind its last round. -/
theorem stepX_prints (K : Kernel σ) (li : BreakpointList) (k : Int) (d : Main σ) :
    Prints (stepX K li k) d (cachedRips (xPrint K li k d).toList) := by
  have hrounds : Post (rounds (stepXRound K li) 0 k.toNat) d fun o d' =>
      (o = none → xPrint K li k d = some d' ∧ printedRips d' = printedRips d) ∧
        ∀ v, o = some v → printedRips d' = printedRips d ++ cachedRips (xPrint K li k d).toList := by
    intro o d' hrun
    have hsame : printedRips d' = printedRips d := by
      simpa using silent_stepXRounds K li 0 k.toNat d o d' hrun
    unfold xPrint
    rw [hrun]
    refine ⟨?_, ?_⟩
    · rintro rfl
      exact ⟨rfl, hsame⟩
    · rintro v rfl
      exact hsame.trans (List.append_nil _).symm
  refine post_mono (post_of_rounds (stepXLoop K li) id (stepXLoop_succ K li) ?_ (fun _ _ h => h)
    k.toNat 0 d hrounds) fun ret d' h => h.2 ret rfl
  intro _ d' h
  obtain ⟨hprint, hsame⟩ := h.1 rfl
  refine post_get_bind (post_bind (prints_rip d') fun _ d₂ h₂ => post_pure ⟨by simp, ?_⟩)
  rintro _ -
  rw [h₂, hsame, hprint]
  rfl

end Prints

/-! ## What is printed and what is so -/

/-- The value of `rip` that the kernel gives for the debuggee. -/
def debuggeeRip (K : Kernel σ) (d : Main σ) (s : σ) : Option Addr :=
  (K.getregs d.debug.pid s).1.map UserRegs.rip

/-- The cached `rip` is the debuggee's. -/
def RipCached (K : Kernel σ) (d : Main σ) : Prop := debuggeeRip K d d.kernel = some d.regs.rip

/-- A command that prints in the states of a list prints the debuggee's `rip` each time. -/
structure PrintsRip (K : Kernel σ) (x : DbgM σ Int) (prints : List (Main σ)) (d : Main σ) :
    Prop where
  printed : Prints x d (cachedRips prints)
  cached : ∀ p ∈ prints, RipCached K p

/-- What is printed is, in order, what the kernel gives. -/
theorem PrintsRip.debuggee {K : Kernel σ} {x : DbgM σ Int} {prints : List (Main σ)} {d : Main σ}
    (h : PrintsRip K x prints d) :
    prints.map (fun p => debuggeeRip K p p.kernel) = (cachedRips prints).map some := by
  unfold cachedRips
  rw [List.map_map]
  exact List.map_congr_left h.cached

/-- A single step from `d` and the wait for it come to `s`, and `WaitForProcess` returns `v`. -/
def StepReturns (K : Kernel σ) (d : Main σ) (v : Int) (s : σ) : Prop :=
  ∃ s₁ w, K.singlestep d.debug.pid d.kernel = (true, s₁) ∧
    K.waitpid d.debug.pid s₁ = some (w, s) ∧ waitResult (w.getD 0) = v

/-- A single step that stops the debuggee leaves it at the cached `rip`. -/
def StepsToCache (K : Kernel σ) (d : Main σ) : Prop :=
  ∀ v s, StepReturns K d v s → v = stoppedStatusRet ∨ v = signaledStatusRet →
    debuggeeRip K d s = some d.regs.rip

section Steps

variable {K : Kernel σ} {li : BreakpointList} {d d' : Main σ}

/-- The step and the wait leave the cached registers alone. -/
theorem stepAndWait_some {msg : String} {v : Int} :
    stepAndWait K msg d = .ok (some v, d') →
      StepReturns K d v d'.kernel ∧ d'.debug.pid = d.debug.pid ∧ d'.regs = d.regs := by
  intro h
  obtain ⟨stepped, d₁, hstep, hrest⟩ := run_bind_eq_ok.mp h
  cases hstep
  cases hok : (K.singlestep d.debug.pid d.kernel).1 with
  | false =>
    obtain ⟨out, hrun⟩ := stepAndWait_fail msg (Prod.ext hok rfl)
    rw [hrun] at h
    cases h
  | true =>
    cases hw : K.waitpid d.debug.pid (K.singlestep d.debug.pid d.kernel).2 with
    | none =>
      rw [hok] at hrest
      obtain ⟨ret, d₂, hret, -⟩ := run_bind_eq_ok.mp hrest
      rw [waitForProcess_never (by exact hw)] at hret
      cases hret
    | some ws =>
      obtain ⟨out, hrun⟩ := stepAndWait_run msg (Prod.ext hok rfl) hw
      rw [hrun] at h
      cases h
      exact ⟨⟨_, ws.1, Prod.ext hok rfl, hw, rfl⟩, afterWait_pid _ _, rfl⟩

/-- Every step and wait that return are those of a round. -/
theorem StepReturns.stepAndWait {v : Int} {s : σ} (h : StepReturns K d v s) (msg : String) :
    ∃ d', stepAndWait K msg d = .ok (some v, d') ∧ d'.kernel = s := by
  obtain ⟨s₁, w, hstep, hw, rfl⟩ := h
  obtain ⟨out, hrun⟩ := stepAndWait_run msg hstep hw
  exact ⟨_, hrun, rfl⟩

theorem StepReturns.eq_neg_one {v : Int} {s : σ} (h : StepReturns K d v s)
    (hexit : v ≠ exitStatusRet) (hstop : ¬ (v = stoppedStatusRet ∨ v = signaledStatusRet)) :
    v = -1 := by
  obtain ⟨s₁, w, -, -, rfl⟩ := h
  unfold waitResult at hexit hstop ⊢
  split_ifs at hexit hstop ⊢ with hex hst hsig
  · exact absurd rfl hexit
  · exact absurd (Or.inl rfl) hstop
  · exact absurd (Or.inr rfl) hstop
  · rfl

/-- What a round prints is so if and only if its step leaves the debuggee where it was. -/
theorem autoPrint_cached_iff : (∀ p ∈ (autoPrint K d).toList, RipCached K p) ↔ StepsToCache K d := by
  constructor
  · intro h v s hreturns hstop
    obtain ⟨d', hrun, rfl⟩ := hreturns.stepAndWait "Ptrace eror"
    obtain ⟨-, hpid, hregs⟩ := stepAndWait_some hrun
    have hcached : RipCached K d' := by
      apply h
      unfold autoPrint
      rw [hrun]
      simp [hstop]
    unfold RipCached debuggeeRip at hcached
    rw [hpid, hregs] at hcached
    exact hcached
  · intro h p hp
    unfold autoPrint at hp
    split at hp
    · rename_i v d' hrun
      obtain ⟨hreturns, hpid, hregs⟩ := stepAndWait_some hrun
      split at hp
      · rename_i hstop
        obtain rfl : p = d' := by simpa using hp
        have hrip := h v p.kernel hreturns hstop
        unfold RipCached debuggeeRip
        rw [hpid, hregs]
        exact hrip
      · cases hp
    · cases hp

/-- What the rounds print is so if and only if each of their steps leaves the debuggee where it
was. -/
theorem autoPrints_cached_iff (i n : Nat) :
    (∀ p ∈ autoPrints K li n d, RipCached K p) ↔
      AllRounds (fun _ => stepAutoRound K li) (fun _ d => StepsToCache K d) i n d := by
  induction n generalizing i d with
  | zero => exact iff_of_true (fun _ hp => by cases hp) trivial
  | succ n ih =>
    unfold autoPrints AllRounds
    simp only [List.mem_append, or_imp, forall_and]
    refine and_congr autoPrint_cached_iff ?_
    split
    · rename_i d' hround
      rw [ih (i + 1), hround]
      simp
    · rename_i hround
      refine iff_of_true (fun _ hp => by cases hp) ?_
      intro d' hnone
      exact absurd hnone (hround d')

end Steps

/-! ## The last round of `StepX` -/

/-- The `rip` that a restore at `a` leaves in the cache where it was `x`: the restore's address once
it has the registers. -/
def restoreRip (K : Kernel σ) (b : Breakpoint) (a : Addr) (pid : Int) (s : σ) (x : Addr) : Addr :=
  if (K.poketext pid a b.origdata s).1 = true ∧
    (K.getregs pid (K.poketext pid a b.origdata s).2).1.isSome = true then a else x

/-- A round of `StepX` at index `i` that restores a disabled breakpoint, or whose step reports
neither a stop nor an end, leaves the debuggee at the `rip` in the cache. -/
structure KeepsCache (K : Kernel σ) (li : BreakpointList) (i : Nat) (d : Main σ) : Prop where
  restored : ∀ v s r b, StepReturns K d v s → v = stoppedStatusRet ∨ v = signaledStatusRet →
    (K.getregs d.debug.pid s).1 = some r → getElementByAddress li (r.rip - 1) = some b →
    b.isEnabled = false →
    ∀ o s', RestoreAnswers K b (r.rip - BitVec.ofNat 64 i) d.debug.pid s o s' →
      debuggeeRip K d s' =
        some (restoreRip K b (r.rip - BitVec.ofNat 64 i) d.debug.pid s r.rip)
  unreported : ∀ s, StepReturns K d (-1) s → debuggeeRip K d s = some d.regs.rip

/-- The last of `k` rounds of `StepX` does so; if there is no round, the cached `rip` is the
debuggee's. -/
structure LastKeepsCache (K : Kernel σ) (li : BreakpointList) (k : Int) (d : Main σ) : Prop where
  noRound : k ≤ 0 → RipCached K d
  last : ∀ (n : Nat) d', k = n + 1 → rounds (stepXRound K li) 0 n d = .ok (none, d') →
    KeepsCache K li n d'

section LastRound

variable {K : Kernel σ} {li : BreakpointList} {d d' : Main σ} {r : UserRegs} {b : Breakpoint}

/-- A restore that is answered returns. -/
theorem RestoreAnswers.run {a : Addr} {o : Option (Option Wstatus)} {s' : σ}
    (h : RestoreAnswers K b a d.debug.pid d.kernel o s') :
    ∃ res d', restoreBreakpoint K b a d = .ok (res, d') ∧ d'.kernel = s' ∧
      d'.regs.rip = restoreRip K b a d.debug.pid d.kernel d.regs.rip := by
  unfold restoreRip
  cases h with
  | poke hpoke =>
    unfold restoreBreakpoint
    rw [run_bind_ok (by rfl), run_bind_ok (by rfl)]
    simp only [hpoke, Bool.not_false, if_true]
    exact ⟨_, _, rfl, rfl, rfl⟩
  | get hpoke hget =>
    unfold restoreBreakpoint
    rw [run_bind_ok (by rfl), run_bind_ok (by rfl)]
    simp only [hpoke, Bool.not_true, Bool.false_eq_true, if_false]
    rw [run_bind_ok (by simp only [ptrace, hget]; rfl)]
    simp only [hget, Option.isSome_none, Bool.false_eq_true, and_false, if_false]
    exact ⟨_, _, rfl, rfl, rfl⟩
  | set r s₂ hpoke hget hset =>
    unfold restoreBreakpoint
    rw [run_bind_ok (by rfl), run_bind_ok (by rfl)]
    simp only [hpoke, Bool.not_true, Bool.false_eq_true, if_false]
    rw [run_bind_ok (by simp only [ptrace, hget]; rfl)]
    simp only [hget, Option.isSome_some, and_true, if_true]
    rw [run_bind_ok (by rfl), run_bind_ok (by rfl)]
    simp only [hset, Bool.not_false, if_true]
    exact ⟨_, _, rfl, rfl, rfl⟩
  | step r s₂ hpoke hget hset hstep =>
    obtain ⟨out, hrun⟩ := restoreToStep_answered (Prod.ext hpoke rfl) hget (Prod.ext hset rfl)
    rw [restoreBreakpoint_stepped hrun]
    unfold stepRestored
    rw [run_bind_ok (by rfl)]
    simp only [hstep, Bool.not_false, if_true]
    refine ⟨_, _, rfl, rfl, ?_⟩
    rw [if_pos ⟨hpoke, by rw [hget]; rfl⟩]
  | wait r s₂ w s' hpoke hget hset hstep hwait =>
    obtain ⟨out, hrun⟩ := restoreBreakpoint_run (Prod.ext hpoke rfl) hget (Prod.ext hset rfl)
      (Prod.ext hstep rfl) hwait
    refine ⟨_, _, hrun, rfl, ?_⟩
    rw [if_pos ⟨hpoke, by rw [hget]; rfl⟩]

/-- The `rip` in the cache after a restore that returns. -/
theorem restoreBreakpoint_cached {a : Addr} {res : Int}
    (h : restoreBreakpoint K b a d = .ok (res, d')) :
    d'.debug.pid = d.debug.pid ∧
      d'.regs.rip = restoreRip K b a d.debug.pid d.kernel d.regs.rip ∧
      ∃ o, RestoreAnswers K b a d.debug.pid d.kernel o d'.kernel := by
  obtain ⟨o, -, hdebug, hanswers⟩ := restoreBreakpoint_post b a d res d' h
  obtain ⟨res', d'', hrun, -, hrip⟩ := hanswers.run
  rw [h] at hrun
  cases hrun
  refine ⟨?_, hrip, o, hanswers⟩
  rw [hdebug]
  unfold afterRestore
  split
  · rfl
  · exact afterWait_pid _ _

/-- The registers of a stop are the debuggee's. -/
theorem stopRegs_some (hread : ∀ p s, (K.getregs p s).2 = s)
    (h : stopRegs K d = .ok (some r, d')) : (K.getregs d.debug.pid d.kernel).1 = some r ∧
      d'.kernel = d.kernel ∧ d'.debug.pid = d.debug.pid := by
  cases hget : (K.getregs d.debug.pid d.kernel).1 with
  | none =>
    obtain ⟨d₁, -, hrun⟩ := stopRegs_gone (Prod.ext hget (hread _ _))
    rw [hrun] at h
    cases h
  | some r₁ =>
    obtain ⟨regs, out, hrun⟩ := stopRegs_run (Prod.ext hget (hread _ _))
    rw [hrun] at h
    cases h
    exact ⟨rfl, rfl, rfl⟩

/-- A round that comes to a disabled breakpoint leaves what the restore leaves. -/
theorem stepXRound_disabled (hread : ∀ p s, (K.getregs p s).2 = s) {i : Nat} {v : Int} {s : σ}
    (hreturns : StepReturns K d v s) (hstop : v = stoppedStatusRet ∨ v = signaledStatusRet)
    (hr : (K.getregs d.debug.pid s).1 = some r)
    (hb : getElementByAddress li (r.rip - 1) = some b) (he : b.isEnabled = false) :
    ∃ d₁ : Main σ, d₁.debug.pid = d.debug.pid ∧ d₁.kernel = s ∧ d₁.regs = r ∧
      stepXRound K li i d = (do
        if (← restoreBreakpoint K b (r.rip - BitVec.ofNat 64 i)) < -1 then
          return some (-1)
        return none : DbgM σ (Option Int)) d₁ := by
  obtain ⟨d₀, hstep, rfl⟩ := hreturns.stepAndWait "Ptrace error"
  obtain ⟨-, hpid, -⟩ := stepAndWait_some hstep
  rw [← hpid] at hr
  obtain ⟨regs, out, hregs⟩ := stopRegs_run (Prod.ext hr (hread _ _))
  have hexit : v ≠ exitStatusRet := by
    rcases hstop with rfl | rfl <;> decide
  refine ⟨⟨d₀.debug, r, d₀.kernel, out⟩, hpid, rfl, rfl, ?_⟩
  rw [stepXRound_eq, run_bind_ok hstep]
  simp only [hexit, hstop, if_true, if_false]
  rw [run_bind_ok hregs]
  exact stepXAtStop_disabled hb he

theorem ripCached_of_pid (hpid : d'.debug.pid = d.debug.pid) :
    RipCached K d' ↔ debuggeeRip K d d'.kernel = some d'.regs.rip := by
  unfold RipCached debuggeeRip
  rw [hpid]

/-- How a round of `StepX` goes on: at a stop that is not behind a breakpoint, at a disabled one, or
where its step reports neither a stop nor an end. -/
inductive XGoesOn (K : Kernel σ) (li : BreakpointList) (d d' : Main σ) : Prop where
  | unlisted (hpid : d'.debug.pid = d.debug.pid)
    (hr : (K.getregs d.debug.pid d'.kernel).1 = some d'.regs)
  | disabled {v : Int} {s : σ} {r : UserRegs} {b : Breakpoint} (hreturns : StepReturns K d v s)
    (hstop : v = stoppedStatusRet ∨ v = signaledStatusRet)
    (hr : (K.getregs d.debug.pid s).1 = some r)
    (hb : getElementByAddress li (r.rip - 1) = some b) (he : b.isEnabled = false)
  | unreported (hpid : d'.debug.pid = d.debug.pid) (hreturns : StepReturns K d (-1) d'.kernel)
    (hregs : d'.regs = d.regs)

theorem stepXRound_goesOn (hread : ∀ p s, (K.getregs p s).2 = s) {i : Nat}
    (h : stepXRound K li i d = .ok (none, d')) : XGoesOn K li d d' := by
  rw [stepXRound_eq] at h
  obtain ⟨stepped, d₁, hstep, h⟩ := run_bind_eq_ok.mp h
  cases stepped with
  | none => cases h
  | some ret =>
    obtain ⟨hreturns, hpid, hregs⟩ := stepAndWait_some hstep
    by_cases hexit : ret = exitStatusRet
    · simp only [hexit, if_true] at h
      cases h
    by_cases hstop : ret = stoppedStatusRet ∨ ret = signaledStatusRet
    · simp only [hexit, hstop, if_true, if_false] at h
      obtain ⟨o, d₂, ho, h⟩ := run_bind_eq_ok.mp h
      cases o with
      | none => cases h
      | some r =>
        obtain ⟨hr, hkernel, hpid₂⟩ := stopRegs_some hread ho
        rw [hpid] at hr hpid₂
        cases hb : getElementByAddress li (r.rip - 1) with
        | none =>
          simp only [stepXAtStop_unlisted hb] at h
          cases h
          exact .unlisted hpid₂ (hkernel ▸ hr)
        | some b =>
          cases he : b.isEnabled with
          | true =>
            obtain ⟨out, heq⟩ := stepXAtStop_enabled (K := K) (i := i) (d := d₂) hb he
            simp only [heq] at h
            obtain ⟨res, d₃, -, h⟩ := run_bind_eq_ok.mp h
            split at h
            · cases h
            · cases h
          | false => exact .disabled hreturns hstop hr hb he
    · simp only [hexit, hstop, if_false] at h
      cases h
      exact .unreported hpid (hreturns.eq_neg_one hexit hstop ▸ hreturns) hregs

/-- A round goes on with the debuggee's `rip` in the cache exactly under the condition. -/
theorem stepXRound_cached_iff (hread : ∀ p s, (K.getregs p s).2 = s) (i : Nat) :
    (∀ d', stepXRound K li i d = .ok (none, d') → RipCached K d') ↔ KeepsCache K li i d := by
  constructor
  · intro h
    constructor
    · intro v s r b hreturns hstop hr hb he o s' hanswers
      obtain ⟨d₁, hpid, rfl, rfl, hround⟩ :=
        stepXRound_disabled (i := i) hread hreturns hstop hr hb he
      rw [← hpid] at hanswers
      obtain ⟨res, d₂, hrun, rfl, hrip⟩ := hanswers.run
      obtain ⟨hpid₂, -, -⟩ := restoreBreakpoint_cached hrun
      obtain ⟨-, hres, -, -⟩ := restoreBreakpoint_post b _ d₁ res d₂ hrun
      rw [run_bind_ok hrun, if_neg hres] at hround
      have hcached := (ripCached_of_pid (hpid₂.trans hpid)).mp (h d₂ hround)
      rw [hcached, hrip, hpid]
    · intro s hreturns
      obtain ⟨d₁, hstep, rfl⟩ := hreturns.stepAndWait "Ptrace error"
      obtain ⟨-, hpid, hregs⟩ := stepAndWait_some hstep
      have hround : stepXRound K li i d = .ok (none, d₁) := by
        rw [stepXRound_eq, run_bind_ok hstep]
        rfl
      rw [(ripCached_of_pid hpid).mp (h d₁ hround), hregs]
  · intro h d' hround
    cases stepXRound_goesOn hread hround with
    | unlisted hpid hr =>
      rw [ripCached_of_pid hpid]
      simp only [debuggeeRip, hr, Option.map_some]
    | @disabled v s r b hreturns hstop hr hb he =>
      obtain ⟨d₁, hpid, hs, rfl, heq⟩ :=
        stepXRound_disabled (i := i) hread hreturns hstop hr hb he
      rw [heq] at hround
      obtain ⟨res, d₂, hrestore, hround⟩ := run_bind_eq_ok.mp hround
      obtain ⟨hpid₂, hrip, o, hanswers⟩ := restoreBreakpoint_cached hrestore
      split at hround
      · cases hround
      · cases hround
        rw [ripCached_of_pid (hpid₂.trans hpid), hrip]
        rw [hpid, hs] at hanswers ⊢
        exact h.restored v _ _ b hreturns hstop hr hb he o _ hanswers
    | unreported hpid hreturns hregs =>
      rw [ripCached_of_pid hpid, hregs]
      exact h.unreported d'.kernel hreturns

/-- What `StepX` prints is so if and only if its last round keeps the cache. -/
theorem xPrint_cached_iff (hread : ∀ p s, (K.getregs p s).2 = s) (k : Int) :
    (∀ p ∈ (xPrint K li k d).toList, RipCached K p) ↔ LastKeepsCache K li k d := by
  have hprint : ∀ p, p ∈ (xPrint K li k d).toList ↔
      rounds (stepXRound K li) 0 k.toNat d = .ok (none, p) := by
    intro p
    unfold xPrint
    split
    · rename_i d' hrun
      simp [hrun, eq_comm]
    · rename_i hrun
      refine iff_of_false (by simp) ?_
      exact hrun p
  simp only [hprint]
  constructor
  · intro h
    constructor
    · intro hk
      apply h
      rw [Int.toNat_of_nonpos hk]
      rfl
    · intro n d' hk hbefore
      rw [← stepXRound_cached_iff hread]
      intro d₁ hround
      apply h
      rw [show k.toNat = n + 1 by omega, rounds_succ_eq_none]
      exact ⟨d', hbefore, (Nat.zero_add n).symm ▸ hround⟩
  · intro h p hrun
    cases hn : k.toNat with
    | zero =>
      rw [hn] at hrun
      cases hrun
      exact h.noRound (by omega)
    | succ n =>
      rw [hn] at hrun
      obtain ⟨d₀, hbefore, hlast⟩ := rounds_succ_eq_none.mp hrun
      rw [Nat.zero_add] at hlast
      exact (stepXRound_cached_iff hread n).mpr (h.last n d₀ (by omega) hbefore) p hlast

end LastRound

/-- **The values printed for `rip`**, for every debuggee and list of breakpoints. Those that
`StepAuto` prints are, in order, the debuggee's after each of its single steps, exactly if each of
these leaves the debuggee at the `rip` that was cached before it. The one that `StepX` prints is the
debuggee's exactly if its last round leaves the debuggee at the `rip` in the cache where it restores
a breakpoint or its wait reports no stop. -/
theorem printed_rip (K : Kernel σ) (hread : ∀ p s, (K.getregs p s).2 = s) (li : BreakpointList)
    (d : Main σ) :
    (∀ ret n, PrintsRip K (stepAuto K li ret n) (autoPrints K li (stepAutoRounds ret n) d) d ↔
      AllRounds (fun _ => stepAutoRound K li) (fun _ d => StepsToCache K d) 0
        (stepAutoRounds ret n) d) ∧
      ∀ k, PrintsRip K (stepX K li k) (xPrint K li k d).toList d ↔ LastKeepsCache K li k d := by
  refine ⟨?_, ?_⟩
  · intro ret n
    rw [← autoPrints_cached_iff]
    exact ⟨fun h => h.cached, fun h => ⟨stepAuto_prints K li ret n d, h⟩⟩
  · intro k
    rw [← xPrint_cached_iff hread]
    exact ⟨fun h => h.cached, fun h => ⟨stepX_prints K li k d, h⟩⟩

/-! ## Runs on fixed inputs -/

/-- The debugger before the first step of `oneByteSteps`; nothing is cached yet. -/
def beforeSteps : Main Tape := Main.init ⟨0, 0, false, { rip := 0x1000 }⟩

/-- One step without breakpoints shows where it has come to. -/
theorem step_printed :
    (∃ d', stepX (scriptKernel oneByteSteps) [] 1 beforeSteps = .ok (0, d') ∧
      printedRips d' = [0x1001]) ∧
      PrintsRip (scriptKernel oneByteSteps) (stepX (scriptKernel oneByteSteps) [] 1)
        (xPrint (scriptKernel oneByteSteps) [] 1 beforeSteps).toList beforeSteps := by
  refine ⟨?_, ?_⟩
  · have hobs : ((stepX (scriptKernel oneByteSteps) [] 1 beforeSteps).toOption.map
        fun r => (r.1, printedRips r.2)) = some (0, [0x1001]) := by decide +kernel
    obtain ⟨ret, d', hrun, hv⟩ := exists_ok_of_observed hobs
    simp only [Prod.mk.injEq] at hv
    obtain ⟨rfl, hprinted⟩ := hv
    exact ⟨d', hrun, hprinted⟩
  · refine ((printed_rip (scriptKernel oneByteSteps) (fun _ _ => rfl) [] beforeSteps).2 1).mpr
      ⟨fun h => absurd h (by decide), ?_⟩
    intro n d' hn hrun
    obtain rfl : n = 0 := by omega
    cases hrun
    constructor
    · intro v s r b _ _ _ hb
      cases hb
    · rintro s ⟨s₁, w, hstep, hwait, hresult⟩
      cases hstep
      cases hwait
      exact absurd hresult (by decide)

/-- `StepAuto` comes to 0x1001, where a breakpoint was hit, and prints 0. `StepX` prints the address
of a restore, when the step after it has left it. -/
theorem stale_printed :
    ((∃ d', stepAuto (scriptKernel oneByteSteps) [⟨true, 0x1000, 0, 1⟩] 0 1 beforeSteps =
        .ok (0, d') ∧ printedRips d' = [0]) ∧
      ¬ PrintsRip (scriptKernel oneByteSteps)
        (stepAuto (scriptKernel oneByteSteps) [⟨true, 0x1000, 0, 1⟩] 0 1)
        (autoPrints (scriptKernel oneByteSteps) [⟨true, 0x1000, 0, 1⟩] (stepAutoRounds 0 1)
          beforeSteps) beforeSteps) ∧
      ¬ PrintsRip (scriptKernel oneByteSteps)
        (stepX (scriptKernel oneByteSteps) [⟨false, 0x1000, 0, 1⟩] 1)
        (xPrint (scriptKernel oneByteSteps) [⟨false, 0x1000, 0, 1⟩] 1 beforeSteps).toList
        beforeSteps := by
  refine ⟨⟨?_, fun h => absurd h.debuggee (by decide +kernel)⟩,
    fun h => absurd h.debuggee (by decide +kernel)⟩
  have hobs : ((stepAuto (scriptKernel oneByteSteps) [⟨true, 0x1000, 0, 1⟩] 0 1
      beforeSteps).toOption.map fun r => (r.1, printedRips r.2)) = some (0, [0]) := by
    decide +kernel
  obtain ⟨ret, d', hrun, hv⟩ := exists_ok_of_observed hobs
  simp only [Prod.mk.injEq] at hv
  obtain ⟨rfl, hprinted⟩ := hv
  exact ⟨d', hrun, hprinted⟩

end Zkz.Debugger
