import Mathlib.Data.List.TakeWhile
import Zkz.Debugger.History
import Zkz.Debugger.Rounds

/-!
# Failed calls and exits

A command returns -1 for a `ptrace` call that fails and `EXIT_STATUS` when the debuggee exits, but
for two kinds of calls it does not look at the answer: the comparison of the result of
`RestoreBreakpoint` with -1 is strict, so that no failure in it counts and no exit, and the result
of `InfoRegistersAll` is not used.

* `restoreBreakpoint_smooth`: what a restore leaves in the history.
* `continueRound_reported`, `stepXRound_reported`, `stepAutoRound_reported`: one round.
* `failures_reported_iff`: failures and exits are reported exactly when every restore and every dump
  of the registers succeeds.
-/

namespace Zkz.Debugger

open Zkz.Lib BreakpointList

variable {σ : Type}

/-! ## Histories -/

def Event.isRequest : Event → Bool
  | .request _ => true
  | .setRegister _ _ _ => true
  | _ => false

def Event.isFailure : Event → Bool
  | .request ok => !ok
  | .setRegister _ _ ok => !ok
  | _ => false

/-- A wait that reports the exit of the debuggee. A wait that fails stores no status. -/
def Event.isExit : Event → Bool
  | .waited (some w) => wifexited w
  | _ => false

/-- A `ptrace` call has failed. -/
def Failed (es : List Event) : Prop := ∃ e ∈ es, e.isFailure = true

/-- The debuggee has exited. -/
def Exited (es : List Event) : Prop := ∃ e ∈ es, e.isExit = true

/-- A request was made to the debuggee after its exit. -/
def LateRequest (es : List Event) : Prop :=
  ∃ e ∈ es.dropWhile fun e => !e.isExit, e.isRequest = true

instance (es : List Event) : Decidable (Failed es) :=
  inferInstanceAs (Decidable (∃ e ∈ es, _))

instance (es : List Event) : Decidable (Exited es) :=
  inferInstanceAs (Decidable (∃ e ∈ es, _))

instance (es : List Event) : Decidable (LateRequest es) :=
  inferInstanceAs (Decidable (∃ e ∈ es.dropWhile _, _))

/-- What a command has returned so far, if it has, is -1 for a failed call and `EXIT_STATUS` for an
exit, and the debuggee is left alone after its exit. -/
structure Reported (o : Option Int) (es : List Event) : Prop where
  failed : Failed es → o = some (-1)
  exited : Exited es → o = some exitStatusRet
  late : ¬ LateRequest es

/-- Nothing has failed, and the debuggee has not exited. -/
def Smooth (es : List Event) : Prop := ∀ e ∈ es, e.isFailure = false ∧ e.isExit = false

section Histories

variable {es : List Event} {e : Event} {o : Option Int}

@[simp] theorem smooth_append : Smooth (es ++ [e]) ↔
    Smooth es ∧ e.isFailure = false ∧ e.isExit = false := by
  unfold Smooth
  constructor
  · intro h
    exact ⟨fun e' he' => h e' (List.mem_append_left _ he'), h e (by simp)⟩
  · rintro ⟨hes, he⟩ e' he'
    rcases List.mem_append.mp he' with hmem | hmem
    · exact hes e' hmem
    · rw [List.mem_singleton.mp hmem]
      exact he

theorem smooth_request {ok : Bool} : Smooth (es ++ [.request ok]) ↔ Smooth es ∧ ok = true := by
  simp [Event.isFailure, Event.isExit]

theorem smooth_waited {w : Option Wstatus} : Smooth (es ++ [.waited w]) ↔
    Smooth es ∧ ∀ w', w = some w' → wifexited w' = false := by
  cases w <;> simp [Event.isFailure, Event.isExit]

theorem smooth_iff : Smooth es ↔ ¬ Failed es ∧ ¬ Exited es := by
  unfold Smooth Failed Exited
  constructor
  · intro h
    refine ⟨?_, ?_⟩
    · rintro ⟨e, he, hfail⟩
      simp [(h e he).1] at hfail
    · rintro ⟨e, he, hexit⟩
      simp [(h e he).2] at hexit
  · rintro ⟨hfail, hexit⟩ e he
    exact ⟨by simpa using fun h => hfail ⟨e, he, h⟩, by simpa using fun h => hexit ⟨e, he, h⟩⟩

theorem not_late_of_not_exited (h : ¬ Exited es) : ¬ LateRequest es := by
  have hnil : es.dropWhile (fun e => !e.isExit) = [] := by
    rw [List.dropWhile_eq_nil_iff]
    intro e he
    simpa using fun hexit => h ⟨e, he, hexit⟩
  unfold LateRequest
  rw [hnil]
  simp

theorem Smooth.reported (h : Smooth es) (o : Option Int) : Reported o es := by
  obtain ⟨hfail, hexit⟩ := smooth_iff.mp h
  exact ⟨fun hf => absurd hf hfail, fun he => absurd he hexit, not_late_of_not_exited hexit⟩

/-- Other results report nothing. -/
theorem reported_iff_smooth (hfail : o ≠ some (-1)) (hexit : o ≠ some exitStatusRet) :
    Reported o es ↔ Smooth es :=
  ⟨fun h => smooth_iff.mpr ⟨fun hf => hfail (h.failed hf), fun he => hexit (h.exited he)⟩,
    fun h => h.reported o⟩

theorem reported_none : Reported none es ↔ Smooth es :=
  reported_iff_smooth (Option.some_ne_none _).symm (Option.some_ne_none _).symm

theorem reported_zero : Reported (some 0) es ↔ Smooth es :=
  reported_iff_smooth (by decide) (by decide)

/-- The result -1 is right unless the debuggee has exited. -/
theorem reported_failure (h : ¬ Exited es) : Reported (some (-1)) es :=
  ⟨fun _ => rfl, fun he => absurd he h, not_late_of_not_exited h⟩

theorem Smooth.failure (h : Smooth es) (he : e.isExit = false) : Reported (some (-1)) (es ++ [e]) := by
  apply reported_failure
  rintro ⟨e', he', hexit⟩
  rcases List.mem_append.mp he' with hmem | hmem
  · exact (smooth_iff.mp h).2 ⟨e', hmem, hexit⟩
  · rw [List.mem_singleton.mp hmem, he] at hexit
    cases hexit

/-- The wait that ends a command. -/
theorem Smooth.exit (h : Smooth es) (w : Option Wstatus) :
    Reported (some exitStatusRet) (es ++ [.waited w]) := by
  refine ⟨?_, fun _ => rfl, ?_⟩
  · rintro ⟨e, he, hfail⟩
    rcases List.mem_append.mp he with hmem | hmem
    · exact absurd ⟨e, hmem, hfail⟩ (smooth_iff.mp h).1
    · rw [List.mem_singleton.mp hmem] at hfail
      cases hfail
  · unfold LateRequest
    rw [List.dropWhile_append_of_pos fun e he => by simp [(h e he).2]]
    rintro ⟨e, he, hreq⟩
    have hmem := (List.dropWhile_sublist _).mem he
    rw [List.mem_singleton.mp hmem] at hreq
    cases hreq

end Histories

/-! ## Restores and dumps -/

/-- A restore steps over the instruction: its requests succeed, and the debuggee does not exit in
its single step. -/
def RestoreClean (K : Kernel σ) (b : Breakpoint) (a : Addr) (pid : Int) (s : σ) : Prop :=
  RestoreSteps K b a pid s ∧ ∀ w s', RestoreAnswers K b a pid s (some (some w)) s' →
    wifexited w = false

/-- The dump of the registers that `isInforeg` asks for succeeds. -/
def DumpClean (K : Kernel σ) (debug : Debug) (s : σ) : Prop :=
  debug.isInforeg = true → (K.getregs debug.pid s).1.isSome = true

/-- The registers that are kept and the kernel state, after the dump that `isInforeg` asks for. -/
def dumped (K : Kernel σ) (debug : Debug) (regs : UserRegs) (s : σ) : UserRegs × σ :=
  if debug.isInforeg then ((K.getregs debug.pid s).1.getD regs, (K.getregs debug.pid s).2)
  else (regs, s)

section Restores

variable {K : Kernel σ} {b : Breakpoint} {a : Addr} {pid : Int} {s s' : σ × List Event}
  {o : Option (Option Wstatus)}

/-- What a restore leaves in the history. -/
theorem RestoreAnswers.smooth (h : RestoreAnswers K.noted b a pid s o s') :
    Smooth s'.2 ↔ Smooth s.2 ∧ RestoreClean K.noted b a pid s := by
  cases h with
  | poke h => exact iff_of_false (fun hq => h (smooth_request.mp hq).2) fun hc => h hc.2.1.1
  | get hpoke h =>
    refine iff_of_false (fun hq => ?_) ?_
    · have hok : (K.noted.getregs pid _).1.isSome = true := (smooth_request.mp hq).2
      rw [h] at hok
      cases hok
    · rintro ⟨-, ⟨-, r, s₂, hget, -⟩, -⟩
      rw [hget] at h
      cases h
  | set r s₂ hpoke hget h =>
    refine iff_of_false (fun hq => h (smooth_request.mp hq).2) ?_
    rintro ⟨-, ⟨-, r', s₃, hget', hset, -⟩, -⟩
    cases hget.symm.trans hget'
    exact h hset
  | step r s₂ hpoke hget hset h =>
    refine iff_of_false (fun hq => h (smooth_request.mp hq).2) ?_
    rintro ⟨-, ⟨-, r', s₃, hget', -, hstep⟩, -⟩
    cases hget.symm.trans hget'
    exact h hstep
  | wait r s₂ w s' hpoke hget hset hstep h =>
    have hsteps : RestoreSteps K.noted b a pid s := ⟨hpoke, r, s₂, hget, hset, hstep⟩
    have hs₂ : s₂.2 = (K.noted.poketext pid a b.origdata s).2.2 ++ [.request true] := by
      have hs := congrArg (fun x => x.2.2) hget
      have hr : (K.noted.getregs pid (K.noted.poketext pid a b.origdata s).2).1.isSome = true := by
        rw [hget]
        rfl
      rw [← hr]
      exact hs.symm
    have hsmooth : Smooth (K.noted.singlestep pid (K.noted.setregs pid { r with rip := a } s₂).2).2.2 ↔
        Smooth s.2 := by
      refine smooth_request.trans ((and_iff_left hstep).trans (smooth_request.trans
        ((and_iff_left hset).trans ?_)))
      rw [hs₂]
      exact smooth_request.trans ((and_iff_left rfl).trans (smooth_request.trans (and_iff_left hpoke)))
    rw [noted_waitpid h, smooth_waited, hsmooth]
    refine and_congr_right fun _ => ⟨fun hw => ⟨hsteps, ?_⟩, fun hclean w' hw => ?_⟩
    · intro w' s₆ hanswers
      cases hanswers with
      | wait r' s₃ _ _ _ hget' _ _ h' =>
        cases hget.symm.trans hget'
        cases h.symm.trans h'
        exact hw w' rfl
    · subst hw
      exact hclean.2 w' s' (.wait r s₂ _ s' hpoke hget hset hstep h)

theorem restoreBreakpoint_smooth (d : Main (σ × List Event)) :
    Post (restoreBreakpoint K.noted b a) d fun ret d' => ¬ ret < -1 ∧
      (Smooth d'.kernel.2 ↔
        Smooth d.kernel.2 ∧ RestoreClean K.noted b a d.debug.pid d.kernel) := by
  refine post_mono (restoreBreakpoint_post b a d) ?_
  rintro ret d' ⟨o, hret, -, hanswers⟩
  exact ⟨hret, hanswers.smooth⟩

/-- No result of a restore ends a command. -/
theorem restoreThen_reported {ret : Option Int} (hret : ∀ es, Reported ret es ↔ Smooth es)
    (d : Main (σ × List Event)) : Post (do
      if (← restoreBreakpoint K.noted b a) < -1 then
        return some (-1)
      return ret : DbgM (σ × List Event) (Option Int)) d fun o d' => Reported o d'.kernel.2 ↔
        Smooth d.kernel.2 ∧ RestoreClean K.noted b a d.debug.pid d.kernel := by
  refine post_bind (restoreBreakpoint_smooth d) ?_
  rintro ret d' ⟨hge, hsmooth⟩
  exact post_ite (fun hlt => absurd hlt hge) fun _ => post_pure ((hret _).trans hsmooth)

/-- A restore whose result is not looked at. -/
theorem restoreAnd_reported {ret : Option Int} (hret : ∀ es, Reported ret es ↔ Smooth es)
    (d : Main (σ × List Event)) : Post (do
      let _ ← restoreBreakpoint K.noted b a
      return ret : DbgM (σ × List Event) (Option Int)) d fun o d' => Reported o d'.kernel.2 ↔
        Smooth d.kernel.2 ∧ RestoreClean K.noted b a d.debug.pid d.kernel := by
  refine post_bind (restoreBreakpoint_smooth d) ?_
  rintro _ d' ⟨-, hsmooth⟩
  exact post_pure ((hret _).trans hsmooth)

/-- What follows the dump of the registers. -/
theorem informed_post {α : Type} {Q : α → Main σ → Prop} {next : DbgM σ α} {d : Main σ}
    (h : ∀ out, Post next ⟨d.debug, (dumped K d.debug d.regs d.kernel).1,
      (dumped K d.debug d.regs d.kernel).2, out⟩ Q) :
    Post (do
      if d.debug.isInforeg then
        let _ ← infoRegistersAll K
      next) d Q := by
  unfold dumped at h
  refine post_ite (fun hinfo => ?_) fun hinfo => ?_
  · simp only [if_pos hinfo] at h
    cases hr : (K.getregs d.debug.pid d.kernel).1 with
    | none =>
      rw [hr] at h
      exact post_bind_ok (infoRegistersAll_fail (Prod.ext hr rfl)) (h d.out)
    | some r =>
      rw [hr] at h
      obtain ⟨out, hrun⟩ := infoRegistersAll_run (K := K) (d := d) (Prod.ext hr rfl)
      exact post_bind_ok hrun (h out)
  · simp only [if_neg hinfo] at h
    exact h d.out

theorem infoRegistersAll_smooth (d : Main (σ × List Event)) :
    Post (infoRegistersAll K.noted) d fun _ d' => Smooth d'.kernel.2 ↔
      Smooth d.kernel.2 ∧ (K.noted.getregs d.debug.pid d.kernel).1.isSome = true := by
  refine post_bind_ok (by rfl) ?_
  split
  · exact post_bind_ok rfl (post_bind_ok rfl (post_pure smooth_request))
  · exact post_pure smooth_request

theorem smooth_dumped (debug : Debug) (regs : UserRegs) :
    Smooth (dumped K.noted debug regs s).2.2 ↔ Smooth s.2 ∧ DumpClean K.noted debug s := by
  unfold dumped DumpClean
  cases debug.isInforeg with
  | false => simp
  | true =>
    refine smooth_request.trans (and_congr_right fun _ => ?_)
    exact ⟨fun h _ => h, fun h => h rfl⟩

theorem exited_request {es : List Event} {ok : Bool} :
    Exited (es ++ [.request ok]) ↔ Exited es := by
  unfold Exited
  constructor
  · rintro ⟨e, he, hexit⟩
    rcases List.mem_append.mp he with hmem | hmem
    · exact ⟨e, hmem, hexit⟩
    · rw [List.mem_singleton.mp hmem] at hexit
      cases hexit
  · rintro ⟨e, he, hexit⟩
    exact ⟨e, List.mem_append_left _ he, hexit⟩

theorem exited_dumped (debug : Debug) (regs : UserRegs) :
    Exited (dumped K.noted debug regs s).2.2 ↔ Exited s.2 := by
  unfold dumped
  cases debug.isInforeg with
  | false => exact Iff.rfl
  | true => exact exited_request

end Restores

/-! ## Rounds of `ContinueExecution` -/

/-- What a continue does at a stop with registers `r` succeeds. -/
def ContinueStopClean (K : Kernel σ) (li : BreakpointList) (r : UserRegs) (debug : Debug) (s : σ) :
    Prop :=
  match getElementByAddress li (r.rip - 1) with
  | none => debug.isSystrace = true → DumpClean K debug s
  | some b =>
    if b.isEnabled then
      DumpClean K debug s ∧
        RestoreClean K b ((dumped K debug r s).1.rip - 1) debug.pid (dumped K debug r s).2
    else RestoreClean K b (r.rip - 1) debug.pid s

/-- If a round of a continue comes to a stop whose registers it reads, then what it does there
succeeds. -/
def ContinueClean (K : Kernel σ) (li : BreakpointList) (d : Main σ) : Prop :=
  ∀ s₁ w s₂ r s₃, resumeRequest K d.debug.isSystrace d.debug.pid d.kernel = (true, s₁) →
    K.waitpid d.debug.pid s₁ = some (w, s₂) → wifstopped (w.getD 0) = true →
    K.getregs d.debug.pid s₂ = (some r, s₃) → ContinueStopClean K li r d.debug s₃

section Continue

variable {K : Kernel σ} {li : BreakpointList} {r : UserRegs} {d : Main (σ × List Event)}

theorem continueAtStop_reported (hd : Smooth d.kernel.2) :
    Post (continueAtStop K.noted li r) d fun o d' =>
      Reported o d'.kernel.2 ↔ ContinueStopClean K.noted li r d.debug d.kernel := by
  unfold ContinueStopClean
  refine post_bind_ok (by rfl) (post_bind_ok (by rfl) ?_)
  cases hb : getElementByAddress li (r.rip - 1) with
  | none =>
    refine post_get_bind (post_ite (fun hsys => ?_) fun hsys => ?_)
    · have hsys : d.debug.isSystrace = true := hsys
      refine post_bind_ok (by rfl) (post_bind_ok (by rfl) (post_get_bind ?_))
      refine post_ite (fun hinfo => post_bind_ok (by rfl) ?_) fun hinfo => ?_
      · refine post_bind (infoRegistersAll_smooth _) ?_
        intro _ d' hsmooth
        refine post_pure (reported_zero.trans (hsmooth.trans ((and_iff_right hd).trans ?_)))
        exact ⟨fun h _ _ => h, fun h => h hsys hinfo⟩
      · exact post_pure (iff_of_true (hd.reported _) fun _ h => absurd h hinfo)
    · exact post_pure (iff_of_true (hd.reported _) fun h => absurd h hsys)
  | some b =>
    simp only
    refine post_bind_ok (by rfl) (post_ite (fun he => ?_) fun he => ?_)
    · rw [if_pos he]
      refine post_bind_ok (by rfl) (post_get_bind (informed_post fun out => ?_))
      refine post_bind_ok (by rfl) (post_get_bind ?_)
      refine post_mono (restoreThen_reported (fun _ => reported_zero) _) ?_
      intro o d' h
      exact h.trans (and_congr_left' ((smooth_dumped _ _).trans (and_iff_right hd)))
    · rw [if_neg he]
      refine post_bind_ok (by rfl) (post_mono (restoreThen_reported (fun _ => reported_none) _) ?_)
      intro o d' h
      exact h.trans (and_iff_right hd)

/-- A wait that a round makes. -/
theorem waitForProcess_noted (d : Main (σ × List Event)) :
    Post (waitForProcess K.noted) d fun ret d' => ∃ w s,
      K.noted.waitpid d.debug.pid d.kernel = some (w, s) ∧ ret = waitResult (w.getD 0) ∧
      d'.kernel = s ∧ d'.regs = d.regs ∧ s.2 = d.kernel.2 ++ [.waited w] ∧
      (wifexited (w.getD 0) = false → d'.debug = d.debug) := by
  refine post_mono (waitForProcess_post d) ?_
  rintro ret d' ⟨w, s, hwait, hret, -, hd'⟩
  refine ⟨w, s, hwait, hret, by rw [hd'], by rw [hd'], noted_waitpid hwait, ?_⟩
  intro hexit
  rw [hd']
  exact if_neg (Bool.eq_false_iff.mp hexit)

theorem continueFromWait_reported (hd : Smooth d.kernel.2) :
    Post (continueFromWait K.noted li) d fun o d' => Reported o d'.kernel.2 ↔
      ∀ w s₂ r s₃, K.noted.waitpid d.debug.pid d.kernel = some (w, s₂) →
        wifstopped (w.getD 0) = true → K.noted.getregs d.debug.pid s₂ = (some r, s₃) →
        ContinueStopClean K.noted li r d.debug s₃ := by
  refine post_bind (waitForProcess_noted d) ?_
  rintro ret d₁ ⟨w, s, hwait, rfl, rfl, -, hes, hdebug⟩
  refine post_ite (fun hexit => ?_) fun hexit => post_ite (fun hstop => ?_) fun hstop => ?_
  · refine post_pure (iff_of_true ?_ ?_)
    · rw [hes]
      exact hd.exit w
    · intro w' s₂ r s₃ hwait' hstop
      cases hwait.symm.trans hwait'
      exact absurd hexit (waitResult_ne_exit_of_wifstopped hstop)
  · have hstop := waitResult_eq_stopped.mp hstop
    have hlive := wifexited_of_wifstopped hstop
    have hsmooth : Smooth d₁.kernel.2 := by
      rw [hes, smooth_waited]
      exact ⟨hd, fun w' hw' => by rw [hw'] at hlive; exact hlive⟩
    refine post_bind_ok (by rfl) ?_
    rw [hdebug hlive]
    split
    · rename_i r hr
      have hget : K.noted.getregs d.debug.pid d₁.kernel =
          (some r, (K.noted.getregs d.debug.pid d₁.kernel).2) := Prod.ext hr rfl
      have hread : Smooth (K.noted.getregs d.debug.pid d₁.kernel).2.2 :=
        smooth_request.mpr ⟨hsmooth, by
          change (K.noted.getregs d.debug.pid d₁.kernel).1.isSome = true
          rw [hget]
          rfl⟩
      refine post_mono (continueAtStop_reported hread) ?_
      intro o d' h
      refine h.trans ⟨fun hc w' s₂ r' s₃ hwait' _ hget' => ?_, fun hc => ?_⟩
      · cases hwait.symm.trans hwait'
        cases hget.symm.trans hget'
        exact hc
      · exact hc w _ r _ hwait hstop hget
    · rename_i hnone
      refine post_bind_ok rfl (post_pure (iff_of_true (hsmooth.failure rfl) ?_))
      intro w' s₂ r s₃ hwait' _ hget
      cases hwait.symm.trans hwait'
      exact absurd (congrArg Prod.fst hget) (hnone r)
  · have hlive : wifexited (w.getD 0) = false := by
      simpa using fun h => hexit (waitResult_exited h)
    refine post_pure (iff_of_true ?_ ?_)
    · rw [hes]
      apply Smooth.failure hd
      cases w with
      | none => cases hlive
      | some w => exact hlive
    · intro w' s₂ r s₃ hwait' hstop' _
      cases hwait.symm.trans hwait'
      exact absurd (waitResult_eq_stopped.mpr hstop') hstop

theorem continueRound_reported (hd : Smooth d.kernel.2) :
    Post (continueRound K.noted li) d fun o d' =>
      Reported o d'.kernel.2 ↔ ContinueClean K.noted li d := by
  obtain ⟨out, hround⟩ := continueRound_request K.noted li d
  have hevents : (resumeRequest K.noted d.debug.isSystrace d.debug.pid d.kernel).2.2 = d.kernel.2 ++
      [.request (resumeRequest K.noted d.debug.isSystrace d.debug.pid d.kernel).1] := by
    unfold resumeRequest
    split <;> rfl
  refine post_of_eq hround (post_bind_ok (by rfl) (post_ite (fun hreq => ?_) fun hreq => ?_))
  · have hreq : (resumeRequest K.noted d.debug.isSystrace d.debug.pid d.kernel).1 = false := by
      simpa [resumed] using hreq
    refine post_bind_ok rfl (post_pure (iff_of_true ?_ ?_))
    · change Reported _ (resumeRequest K.noted d.debug.isSystrace d.debug.pid d.kernel).2.2
      rw [hevents]
      exact hd.failure rfl
    · intro s₁ w s₂ r s₃ hreq'
      rw [hreq'] at hreq
      cases hreq
  · have hreq : (resumeRequest K.noted d.debug.isSystrace d.debug.pid d.kernel).1 = true := by
      simpa [resumed] using hreq
    have hsmooth : Smooth (resumeRequest K.noted d.debug.isSystrace d.debug.pid d.kernel).2.2 := by
      rw [hevents, smooth_request]
      exact ⟨hd, hreq⟩
    refine post_mono (continueFromWait_reported hsmooth) ?_
    intro o d' h
    refine h.trans ⟨fun hw s₁ w s₂ r s₃ hreq' => ?_, fun hc w s₂ r s₃ => hc _ w s₂ r s₃
      (Prod.ext hreq rfl)⟩
    obtain rfl : _ = s₁ := congrArg Prod.snd hreq'
    exact hw w s₂ r s₃

end Continue

/-! ## Rounds of `StepX` and `StepAuto` -/

/-- If the registers are read where a step has stopped, then the dump before that succeeds, and so
does the restore of a listed breakpoint, at the address `back`. -/
def StepStopClean (K : Kernel σ) (li : BreakpointList) (back : UserRegs → Breakpoint → Addr)
    (d : Main σ) : Prop :=
  ∀ r s, K.getregs d.debug.pid (dumped K d.debug d.regs d.kernel).2 = (some r, s) →
    DumpClean K d.debug d.kernel ∧ ∀ b, getElementByAddress li (r.rip - 1) = some b →
      RestoreClean K b (back r b) d.debug.pid s

/-- If a step comes to a stop of a kind `goes`, then what it does there succeeds. -/
def RoundClean (K : Kernel σ) (li : BreakpointList) (goes : Wstatus → Prop)
    (back : UserRegs → Breakpoint → Addr) (d : Main σ) : Prop :=
  ∀ s₁ w s₂, K.singlestep d.debug.pid d.kernel = (true, s₁) →
    K.waitpid d.debug.pid s₁ = some (w, s₂) → goes (w.getD 0) →
    StepStopClean K li back { d with kernel := s₂ }

/-- `StepX` reads the registers after a stop or a signal, and restores a disabled breakpoint at its
index behind the stop. -/
def StepXClean (K : Kernel σ) (li : BreakpointList) (i : Nat) (d : Main σ) : Prop :=
  RoundClean K li (fun w => wifstopped w = true ∨ wifsignaled w = true)
    (fun r b => if b.isEnabled then r.rip - 1 else r.rip - BitVec.ofNat 64 i) d

/-- `StepAuto` reads the registers unless the debuggee has exited. -/
def StepAutoClean (K : Kernel σ) (li : BreakpointList) (d : Main σ) : Prop :=
  RoundClean K li (fun w => wifexited w = false) (fun r _ => r.rip - 1) d

section Steps

variable {K : Kernel σ} {li : BreakpointList} {i : Nat} {r : UserRegs} {d : Main (σ × List Event)}
  {back : UserRegs → Breakpoint → Addr} {goes : Wstatus → Prop}

theorem stepXAtStop_reported (i : Nat) (r : UserRegs) (d : Main (σ × List Event)) :
    Post (stepXAtStop K.noted li i r) d fun o d' => Reported o d'.kernel.2 ↔ Smooth d.kernel.2 ∧
      ∀ b, getElementByAddress li (r.rip - 1) = some b → RestoreClean K.noted b
        (if b.isEnabled then r.rip - 1 else r.rip - BitVec.ofNat 64 i) d.debug.pid d.kernel := by
  refine post_bind_ok (by rfl) ?_
  cases hb : getElementByAddress li (r.rip - 1) with
  | none => exact post_pure (reported_none.trans (iff_self_and.mpr fun _ _ h => by cases h))
  | some b =>
    refine post_ite (fun he => post_bind_ok (by rfl) ?_) fun he => ?_
    · refine post_mono (restoreThen_reported (fun _ => reported_zero) _) fun o d' h => h.trans ?_
      simp [he]
    · refine post_mono (restoreThen_reported (fun _ => reported_none) _) fun o d' h => h.trans ?_
      simp [he]

theorem stepAutoAtStop_reported (r : UserRegs) (d : Main (σ × List Event)) :
    Post (stepAutoAtStop K.noted li r) d fun o d' => Reported o d'.kernel.2 ↔ Smooth d.kernel.2 ∧
      ∀ b, getElementByAddress li (r.rip - 1) = some b →
        RestoreClean K.noted b (r.rip - 1) d.debug.pid d.kernel := by
  refine post_bind_ok (by rfl) ?_
  cases hb : getElementByAddress li (r.rip - 1) with
  | none => exact post_pure (reported_none.trans (iff_self_and.mpr fun _ _ h => by cases h))
  | some b =>
    refine post_ite (fun he => post_bind_ok (by rfl) ?_) fun he => ?_
    · refine post_mono (restoreAnd_reported (fun _ => reported_zero) _) fun o d' h => h.trans ?_
      simp
    · refine post_mono (restoreAnd_reported (fun _ => reported_none) _) fun o d' h => h.trans ?_
      simp

/-- The dump, the registers, and what is done at the stop. -/
theorem stopThen_reported {atStop : UserRegs → DbgM (σ × List Event) (Option Int)}
    (hat : ∀ r d, Post (atStop r) d fun o d' => Reported o d'.kernel.2 ↔ Smooth d.kernel.2 ∧
      ∀ b, getElementByAddress li (r.rip - 1) = some b →
        RestoreClean K.noted b (back r b) d.debug.pid d.kernel) (hd : Smooth d.kernel.2) :
    Post (do
      if d.debug.isInforeg then
        let _ ← infoRegistersAll K.noted
      let some r ← ptrace K.noted.getregs | do
        log .pError "Ptrace error" []
        return some (-1)
      atStop r) d fun o d' => Reported o d'.kernel.2 ↔ StepStopClean K.noted li back d := by
  refine informed_post fun out => post_bind_ok (by rfl) ?_
  split
  · rename_i r hr
    have hget : K.noted.getregs d.debug.pid (dumped K.noted d.debug d.regs d.kernel).2 =
        (some r, (K.noted.getregs d.debug.pid (dumped K.noted d.debug d.regs d.kernel).2).2) :=
      Prod.ext hr rfl
    have hread : Smooth (K.noted.getregs d.debug.pid
        (dumped K.noted d.debug d.regs d.kernel).2).2.2 ↔ DumpClean K.noted d.debug d.kernel := by
      refine smooth_request.trans ((and_iff_left ?_).trans
        ((smooth_dumped _ _).trans (and_iff_right hd)))
      change (K.noted.getregs d.debug.pid (dumped K.noted d.debug d.regs d.kernel).2).1.isSome = true
      rw [hget]
      rfl
    refine post_mono (hat r _) ?_
    intro o d' h
    refine (h.trans (and_congr_left' hread)).trans ⟨fun hc r' s hget' => ?_, fun hc => hc r _ hget⟩
    cases hget.symm.trans hget'
    exact hc
  · rename_i hnone
    refine post_bind_ok rfl (post_pure (iff_of_true (reported_failure ?_) ?_))
    · intro hexit
      exact (smooth_iff.mp hd).2 ((exited_dumped _ _).mp (exited_request.mp hexit))
    · intro r s hget
      exact absurd (congrArg Prod.fst hget) (hnone r)

/-- The request of a step, and its wait. -/
theorem step_reported {msg : String} {f : Int → DbgM (σ × List Event) (Option Int)}
    (hd : Smooth d.kernel.2) (hgoes : ∀ w, goes w → wifexited w = false)
    (hnext : ∀ w d₁, Smooth d₁.kernel.2 → wifexited w = false → Post (f (waitResult w)) d₁ fun o d' =>
      Reported o d'.kernel.2 ↔ (goes w → StepStopClean K.noted li back d₁)) :
    Post (do
      if !(← ptrace K.noted.singlestep) then
        log .pError msg []
        return some (-1)
      let ret ← waitForProcess K.noted
      if ret = exitStatusRet then
        return some exitStatusRet
      f ret) d fun o d' => Reported o d'.kernel.2 ↔ RoundClean K.noted li goes back d := by
  refine post_bind_ok (by rfl) (post_ite (fun hstep => ?_) fun hstep => ?_)
  · refine post_bind_ok rfl (post_pure (iff_of_true (hd.failure rfl) ?_))
    intro s₁ w s₂ hstep'
    rw [hstep'] at hstep
    cases hstep
  · have hstep : (K.noted.singlestep d.debug.pid d.kernel).1 = true := by simpa using hstep
    have hsmooth : Smooth (K.noted.singlestep d.debug.pid d.kernel).2.2 := smooth_request.mpr ⟨hd, hstep⟩
    refine post_bind (waitForProcess_noted _) ?_
    rintro ret d₁ ⟨w, s, hwait, rfl, rfl, hregs, hes, hdebug⟩
    have hclean : RoundClean K.noted li goes back d ↔
        (goes (w.getD 0) → StepStopClean K.noted li back { d with kernel := d₁.kernel }) := by
      constructor
      · exact fun h hgo => h _ w d₁.kernel (Prod.ext hstep rfl) hwait hgo
      · intro h s₁ w' s₂ hstep' hwait'
        obtain rfl : _ = s₁ := congrArg Prod.snd hstep'
        cases hwait.symm.trans hwait'
        exact h
    rw [hclean]
    refine post_ite (fun hexit => ?_) fun hexit => ?_
    · refine post_pure (iff_of_true ?_ fun hgo => ?_)
      · rw [hes]
        exact hsmooth.exit w
      · have hlive := hgoes _ hgo
        rw [waitResult_eq_exit.mp hexit] at hlive
        cases hlive
    · have hlive : wifexited (w.getD 0) = false := by
        simpa using fun h => hexit (waitResult_exited h)
      have hsmooth₁ : Smooth d₁.kernel.2 := by
        rw [hes, smooth_waited]
        exact ⟨hsmooth, fun w' hw' => by rw [hw'] at hlive; exact hlive⟩
      have hnext₁ := hnext (w.getD 0) d₁ hsmooth₁ hlive
      unfold StepStopClean at hnext₁
      rw [hdebug hlive, hregs] at hnext₁
      exact hnext₁

theorem stepXRound_reported (hd : Smooth d.kernel.2) :
    Post (stepXRound K.noted li i) d fun o d' =>
      Reported o d'.kernel.2 ↔ StepXClean K.noted li i d := by
  refine step_reported hd ?_ ?_
  · rintro w (hw | hw)
    · exact wifexited_of_wifstopped hw
    · exact wifexited_of_wifsignaled hw
  · intro w d₁ hsmooth hlive
    refine post_ite (fun hgo => post_get_bind ?_) fun hgo => ?_
    · refine post_mono (stopThen_reported (stepXAtStop_reported i) hsmooth) fun o d' h => h.trans ?_
      exact ⟨fun hc _ => hc, fun hc => hc (hgo.imp waitResult_eq_stopped.mp waitResult_eq_signaled.mp)⟩
    · refine post_pure (iff_of_true (hsmooth.reported none) ?_)
      exact fun h => absurd (h.imp waitResult_eq_stopped.mpr waitResult_eq_signaled.mpr) hgo

theorem stepAutoRound_reported (hd : Smooth d.kernel.2) :
    Post (stepAutoRound K.noted li) d fun o d' =>
      Reported o d'.kernel.2 ↔ StepAutoClean K.noted li d := by
  refine step_reported hd (fun w hw => hw) ?_
  intro w d₁ hsmooth hlive
  have hstop : ∀ out, Post (do
      if d₁.debug.isInforeg then
        let _ ← infoRegistersAll K.noted
      let some r ← ptrace K.noted.getregs | do
        log .pError "Ptrace error" []
        return some (-1)
      stepAutoAtStop K.noted li r) { d₁ with out := out } fun o d' => Reported o d'.kernel.2 ↔
        (wifexited w = false → StepStopClean K.noted li (fun r _ => r.rip - 1) d₁) := by
    intro out
    refine post_mono (stopThen_reported (d := { d₁ with out := out }) stepAutoAtStop_reported
      hsmooth) ?_
    exact fun o d' h => h.trans ⟨fun hc _ => hc, fun hc => hc hlive⟩
  refine post_ite (fun _ => ?_) fun _ => post_get_bind (hstop d₁.out)
  exact post_get_bind (post_bind_ok rfl (post_get_bind
    (hstop (d₁.out ++ [⟨.print, "---> rip: %x\n", [.hex d₁.regs.rip]⟩]))))

end Steps

/-! ## Commands -/

/-- The debugger with a kernel that remembers, before it has been asked anything. -/
def Main.noted (d : Main σ) : Main (σ × List Event) := ⟨d.debug, d.regs, (d.kernel, []), d.out⟩

/-- A command that is made of at most `n` rounds reports failed calls and exits: after any number of
rounds what they have returned is right, and it is what the command returns. -/
structure ReportsFailures (round : Nat → DbgM (σ × List Event) (Option Int))
    (command : DbgM (σ × List Event) Int) (n : Nat) (d : Main (σ × List Event)) : Prop where
  atOnce : ∀ m ≤ n, Post (rounds round 0 m) d fun o d' => Reported o d'.kernel.2
  returns : ∀ ret d', rounds round 0 n d = .ok (some ret, d') → command d = .ok (ret, d')
  returned : Post command d fun ret d' => Reported (some ret) d'.kernel.2

/-- Every round that the command makes, and that comes to its end, meets `C`. -/
def EveryRound (round : Nat → DbgM (σ × List Event) (Option Int))
    (C : Nat → Main (σ × List Event) → Prop) (n : Nat) (d : Main (σ × List Event)) : Prop :=
  AllRounds round (IfEnds round C) 0 n d

section Commands

variable {K : Kernel σ} {li : BreakpointList}

/-- A command whose result is that of its rounds, and right if they are. -/
theorem reportsFailures_iff {round : Nat → DbgM (σ × List Event) (Option Int)}
    {command : DbgM (σ × List Event) Int} {C : Nat → Main (σ × List Event) → Prop} {n : Nat}
    {d : Main σ}
    (hround : ∀ i d, Smooth d.kernel.2 → Post (round i) d fun o d' => Reported o d'.kernel.2 ↔ C i d)
    (hreturns : ∀ ret d', rounds round 0 n d.noted = .ok (some ret, d') →
      command d.noted = .ok (ret, d'))
    (hreturned : Post (rounds round 0 n) d.noted (fun o d' => Reported o d'.kernel.2) →
      Post command d.noted fun ret d' => Reported (some ret) d'.kernel.2) :
    ReportsFailures round command n d.noted ↔ EveryRound round C n d.noted := by
  have hrounds := rounds_iff (C := C) (L := fun o d => Reported o d.kernel.2)
    (fun i d h => hround i d (reported_none.mp h)) n 0 d.noted
    (reported_none.mpr fun e he => by cases he)
  unfold EveryRound
  rw [← hrounds]
  exact ⟨fun h => h.atOnce, fun h => ⟨h, hreturns, hreturned (h n (Nat.le_refl n))⟩⟩

theorem restoreThen_passed {b : Breakpoint} {a : Addr} {ret : Option Int}
    (hret : ∀ v, ret = some v → passResult v = v) (d : Main σ) : Post (do
      if (← restoreBreakpoint K b a) < -1 then
        return some (-1)
      return ret : DbgM σ (Option Int)) d fun o _ => ∀ v, o = some v → passResult v = v := by
  refine post_bind (Q := fun _ _ => True) (fun _ _ _ => trivial) fun _ d' _ => ?_
  exact post_ite (fun _ => post_pure (by rintro v ⟨⟩; rfl)) fun _ => post_pure hret

theorem continueAtStop_passed (r : UserRegs) (d : Main σ) :
    Post (continueAtStop K li r) d fun o _ => ∀ v, o = some v → passResult v = v := by
  have hzero : ∀ v, some (0 : Int) = some v → passResult v = v := by
    rintro v ⟨⟩
    rfl
  have hnone : ∀ v, (none : Option Int) = some v → passResult v = v := fun v h => by cases h
  refine post_bind_ok (by rfl) (post_bind_ok (by rfl) ?_)
  split
  · refine post_get_bind (post_ite (fun _ => ?_) fun _ => post_pure hnone)
    refine post_bind_ok (by rfl) (post_bind_ok (by rfl) (post_get_bind ?_))
    refine post_ite (fun _ => post_bind_ok (by rfl) ?_) fun _ => post_pure hzero
    exact post_bind (Q := fun _ _ => True) (fun _ _ _ => trivial) fun _ _ _ => post_pure hzero
  · refine post_bind_ok (by rfl) (post_ite (fun _ => ?_) fun _ => ?_)
    · refine post_bind_ok (by rfl) (post_get_bind (informed_post fun out => ?_))
      exact post_bind_ok (by rfl) (post_get_bind (restoreThen_passed hzero _))
    · exact post_bind_ok (by rfl) (restoreThen_passed hnone _)

/-- `ContinueExecution` passes on what a round of it returns. -/
theorem continueRound_passed (d : Main σ) :
    Post (continueRound K li) d fun o _ => ∀ v, o = some v → passResult v = v := by
  have hfail : ∀ v, some (-1 : Int) = some v → passResult v = v := by
    rintro v ⟨⟩
    rfl
  obtain ⟨out, hround⟩ := continueRound_request K li d
  refine post_of_eq hround (post_bind_ok (by rfl) (post_ite (fun _ => ?_) fun _ => ?_))
  · exact post_bind_ok rfl (post_pure hfail)
  · refine post_bind (Q := fun _ _ => True) (fun _ _ _ => trivial) fun ret d₁ _ => ?_
    refine post_ite (fun _ => post_pure (by rintro v ⟨⟩; rfl)) fun _ => post_ite (fun _ => ?_)
      fun _ => post_pure hfail
    refine post_bind_ok (by rfl) ?_
    split
    · exact continueAtStop_passed _ _
    · exact post_bind_ok rfl (post_pure hfail)

theorem continueExecution_reported (n : Nat) (d : Main (σ × List Event))
    (h : Post (rounds (fun _ => continueRound K.noted li) 0 n) d fun o d' =>
      Reported o d'.kernel.2) :
    Post (continueExecution K.noted li n) d fun ret d' => Reported (some ret) d'.kernel.2 := by
  refine post_of_rounds (fun _ n => continueExecution K.noted li n) passResult
    (Q := fun o d => Reported o d.kernel.2) (fun _ n => continueExecution_succ K.noted li n)
    (fun _ _ _ => post_throw _) ?_ n 0 d h
  intro ret d' h'
  by_cases hexit : ret = exitStatusRet
  · rw [hexit] at h' ⊢
    exact h'
  · by_cases hfail : ret = -1
    · rw [hfail] at h' ⊢
      exact h'
    · have hsmooth := (reported_iff_smooth (by simpa using hfail) (by simpa using hexit)).mp h'
      exact hsmooth.reported _

theorem stepX_reported (k : Int) (d : Main (σ × List Event))
    (h : Post (rounds (stepXRound K.noted li) 0 k.toNat) d fun o d' => Reported o d'.kernel.2) :
    Post (stepX K.noted li k) d fun ret d' => Reported (some ret) d'.kernel.2 := by
  refine post_of_rounds (stepXLoop K.noted li) id (Q := fun o d => Reported o d.kernel.2)
    (stepXLoop_succ K.noted li) ?_ (fun _ _ h => h) k.toNat 0 d h
  intro _ d' h'
  exact post_get_bind (post_bind_ok rfl (post_pure ((reported_none.mp h').reported _)))

/-- The rounds of `StepAuto`: one if the variable that its loop condition reads holds the exit
status. -/
def stepAutoRounds (ret : Int) (n : Nat) : Nat := if ret = exitStatusRet then min n 1 else n

/-- What `StepAuto` leaves, from what its rounds leave. -/
theorem post_stepAuto {σ : Type} {K : Kernel σ} {li : BreakpointList} {Q : Option Int → Main σ → Prop}
    (hnone : ∀ d, Q none d → Q (some 0) d) (ret : Int) (n : Nat) (d : Main σ)
    (h : Post (rounds (fun _ => stepAutoRound K li) 0 (stepAutoRounds ret n)) d Q) :
    Post (stepAuto K li ret n) d fun ret d' => Q (some ret) d' := by
  unfold stepAutoRounds at h
  by_cases hret : ret = exitStatusRet
  · rw [if_pos hret] at h
    rw [hret]
    cases n with
    | zero => exact post_throw _
    | succ n =>
      rw [stepAuto_once]
      rw [Nat.min_eq_right (by omega)] at h
      refine post_bind (Q := fun o d' => stepAutoRound K li d = .ok (o, d')) (fun o d' ho => ho) ?_
      intro o d₁ ho
      have hrun : rounds (fun _ => stepAutoRound K li) 0 1 d = .ok (o, d₁) := by
        rw [rounds, run_bind_ok ho]
        cases o with
        | some a => rfl
        | none => rfl
      have h₁ := h o d₁ hrun
      cases o with
      | some a => exact post_pure h₁
      | none => exact post_pure (hnone d₁ h₁)
  · rw [if_neg hret] at h
    exact post_of_rounds (fun _ n => stepAuto K li ret n) id (fun _ n => stepAuto_succ K li hret n)
      (fun _ _ _ => post_throw _) (fun _ _ h => h) n 0 d h

theorem stepAuto_reported (ret : Int) (n : Nat) (d : Main (σ × List Event))
    (h : Post (rounds (fun _ => stepAutoRound K.noted li) 0 (stepAutoRounds ret n)) d fun o d' =>
      Reported o d'.kernel.2) :
    Post (stepAuto K.noted li ret n) d fun ret d' => Reported (some ret) d'.kernel.2 :=
  post_stepAuto (Q := fun o d => Reported o d.kernel.2)
    (fun _ h' => (reported_none.mp h').reported _) ret n d h

theorem stepAuto_returns (ret : Int) (n : Nat) (d : Main (σ × List Event)) (v : Int)
    (d' : Main (σ × List Event))
    (h : rounds (fun _ => stepAutoRound K.noted li) 0 (stepAutoRounds ret n) d = .ok (some v, d')) :
    stepAuto K.noted li ret n d = .ok (v, d') := by
  unfold stepAutoRounds at h
  by_cases hret : ret = exitStatusRet
  · rw [if_pos hret] at h
    rw [hret]
    cases n with
    | zero => cases h
    | succ n =>
      rw [Nat.min_eq_right (by omega)] at h
      obtain ⟨o, d₁, ho, hrest⟩ := run_bind_eq_ok.mp h
      rw [stepAuto_once, roundThen, run_bind_ok ho]
      cases o with
      | some a =>
        cases hrest
        rfl
      | none => cases hrest
  · rw [if_neg hret] at h
    exact loop_of_rounds (fun _ n => stepAuto K.noted li ret n) id
      (fun _ n => stepAuto_succ K.noted li hret n) (fun _ _ _ _ _ _ _ => rfl) h

end Commands

/-- **Failed calls and exits are reported**, by -1 and by `EXIT_STATUS` and with no further request
to the debuggee after its exit, exactly when every restore steps over its instruction and every dump
of the registers succeeds. -/
theorem failures_reported_iff (K : Kernel σ) (li : BreakpointList) (d : Main σ) :
    (∀ n, ReportsFailures (fun _ => continueRound K.noted li) (continueExecution K.noted li n) n
        d.noted ↔
      EveryRound (fun _ => continueRound K.noted li) (fun _ => ContinueClean K.noted li) n d.noted) ∧
    (∀ k : Int, ReportsFailures (stepXRound K.noted li) (stepX K.noted li k) k.toNat d.noted ↔
      EveryRound (stepXRound K.noted li) (StepXClean K.noted li) k.toNat d.noted) ∧
    ∀ ret n, ReportsFailures (fun _ => stepAutoRound K.noted li) (stepAuto K.noted li ret n)
        (stepAutoRounds ret n) d.noted ↔
      EveryRound (fun _ => stepAutoRound K.noted li) (fun _ => StepAutoClean K.noted li)
        (stepAutoRounds ret n) d.noted := by
  refine ⟨fun n => ?_, fun k => ?_, fun ret n => ?_⟩
  · apply reportsFailures_iff
    · exact fun _ _ hd => continueRound_reported hd
    · intro v d' h
      exact loop_of_rounds (fun _ n => continueExecution K.noted li n) passResult
        (fun _ n => continueExecution_succ K.noted li n) (fun _ d => continueRound_passed d) h
    · exact continueExecution_reported n d.noted
  · apply reportsFailures_iff
    · exact fun _ _ hd => stepXRound_reported hd
    · intro v d' h
      exact loop_of_rounds (stepXLoop K.noted li) id (stepXLoop_succ K.noted li)
        (fun _ _ _ _ _ _ _ => rfl) h
    · exact stepX_reported k d.noted
  · apply reportsFailures_iff
    · exact fun _ _ hd => stepAutoRound_reported hd
    · exact stepAuto_returns ret n d.noted
    · exact stepAuto_reported ret n d.noted

/-! ## A debuggee that stops once -/

/-- A debuggee that stops behind its breakpoint and then exits. Its memory can be written or not.
The state is the number of waits so far. -/
def stopOnceKernel (writable : Bool) : Kernel Nat where
  peektext _ _ n := (none, n)
  poketext _ _ _ n := (writable, n)
  getregs _ n := (some { rip := 0x1001 }, n)
  setregs _ _ n := (true, n)
  setregsByValue _ _ n := (true, n)
  singlestep _ n := (true, n)
  cont _ n := (true, n)
  syscall _ n := (true, n)
  attach _ n := (true, n)
  fork n := (none, n)
  waitpid _ n := some (some (if n = 0 then stopStatus sigtrap else exitStatus 0), n + 1)

def stopOnceList : BreakpointList := [⟨true, 0x1000, 0x90, 1⟩]

/-- What a command returns from the start, and whether a call has failed and the debuggee has
exited. -/
def returnedAfter (command : DbgM (Nat × List Event) Int) : Option (Int × Bool × Bool) :=
  (command (Main.init 0).noted).toOption.map fun r =>
    (r.1, decide (Failed r.2.kernel.2), decide (Exited r.2.kernel.2))

theorem not_reportsFailures {round : Nat → DbgM (Nat × List Event) (Option Int)}
    {command : DbgM (Nat × List Event) Int} {n : Nat} {failed exited : Bool}
    (h : returnedAfter command = some (0, failed, exited)) (hbad : failed = true ∨ exited = true) :
    ¬ ReportsFailures round command n (Main.init 0).noted := by
  obtain ⟨ret, d', hrun, hv⟩ := exists_ok_of_observed h
  simp only [Prod.mk.injEq] at hv
  obtain ⟨rfl, rfl, rfl⟩ := hv
  intro hreports
  have hreported := hreports.returned 0 d' hrun
  rcases hbad with hfail | hexit
  · cases hreported.failed (of_decide_eq_true hfail)
  · cases hreported.exited (of_decide_eq_true hexit)

/-- All three commands return 0 although a call has failed or the debuggee has exited. -/
structure Overlooked (writable : Bool) : Prop where
  continues : returnedAfter (continueExecution (stopOnceKernel writable).noted stopOnceList 1) =
    some (0, !writable, writable)
  steps : returnedAfter (stepX (stopOnceKernel writable).noted stopOnceList 1) =
    some (0, !writable, writable)
  auto : returnedAfter (stepAuto (stopOnceKernel writable).noted stopOnceList 0 1) =
    some (0, !writable, writable)
  continueUnreported :
    ¬ ReportsFailures (fun _ => continueRound (stopOnceKernel writable).noted stopOnceList)
      (continueExecution (stopOnceKernel writable).noted stopOnceList 1) 1 (Main.init 0).noted
  stepUnreported : ¬ ReportsFailures (stepXRound (stopOnceKernel writable).noted stopOnceList)
    (stepX (stopOnceKernel writable).noted stopOnceList 1) 1 (Main.init 0).noted
  autoUnreported :
    ¬ ReportsFailures (fun _ => stepAutoRound (stopOnceKernel writable).noted stopOnceList)
      (stepAuto (stopOnceKernel writable).noted stopOnceList 0 1) 1 (Main.init 0).noted

theorem overlooked (writable : Bool) : Overlooked writable := by
  have hbad : (!writable) = true ∨ writable = true := by
    cases writable <;> simp
  have hcontinue : returnedAfter (continueExecution (stopOnceKernel writable).noted stopOnceList 1) =
      some (0, !writable, writable) := by
    cases writable <;> decide +kernel
  have hstep : returnedAfter (stepX (stopOnceKernel writable).noted stopOnceList 1) =
      some (0, !writable, writable) := by
    cases writable <;> decide +kernel
  have hauto : returnedAfter (stepAuto (stopOnceKernel writable).noted stopOnceList 0 1) =
      some (0, !writable, writable) := by
    cases writable <;> decide +kernel
  exact ⟨hcontinue, hstep, hauto, not_reportsFailures hcontinue hbad, not_reportsFailures hstep hbad,
    not_reportsFailures hauto hbad⟩

/-- A restore whose poke fails, and one in which the debuggee exits. -/
theorem failures_overlooked : Overlooked false ∧ Overlooked true :=
  ⟨overlooked false, overlooked true⟩

end Zkz.Debugger
