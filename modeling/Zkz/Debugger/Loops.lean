import Zkz.Debugger.Rounds

/-!
# What the loops keep

An invariant of the debugger that messages, requests and restores keep is kept by every round of
`ContinueExecution`, `StepX` and `StepAuto`, and so by the three functions.

* `Spoke`: the state differs by messages only.
* `KeepsRequests`, `KeepsRounds`: the parts of a round keep the invariant.
* `KeepsRounds.continueExecution`, `KeepsRounds.stepX`, `KeepsRounds.stepAuto`: so do the
  functions.
* `KeepsPokes.placeBreakpoint`, `KeepsPokes.removeElement`: the same for what edits the list.
-/

namespace Zkz.Debugger

open Zkz.Lib BreakpointList

variable {σ : Type}

/-! ## Messages -/

/-- The state differs by messages and by the registers read only. -/
structure Spoke (d d' : Main σ) : Prop where
  debug : d'.debug = d.debug
  kernel : d'.kernel = d.kernel
  out : d.out <+: d'.out

theorem Spoke.refl (d : Main σ) : Spoke d d := ⟨rfl, rfl, List.prefix_refl _⟩

theorem Spoke.trans {d₁ d₂ d₃ : Main σ} (h₁ : Spoke d₁ d₂) (h₂ : Spoke d₂ d₃) : Spoke d₁ d₃ :=
  ⟨h₂.debug.trans h₁.debug, h₂.kernel.trans h₁.kernel, h₁.out.trans h₂.out⟩

theorem log_spoke (level : Level) {msg : String} (args : List LogArg) (d : Main σ) :
    Post (log level msg args) d fun _ d' => Spoke d d' :=
  post_ok rfl ⟨rfl, rfl, List.prefix_append _ _⟩

theorem setRegs_spoke (r : UserRegs) (d : Main σ) : Post (setRegs r) d fun _ d' => Spoke d d' :=
  post_ok rfl ⟨rfl, rfl, List.prefix_refl _⟩

/-! ## Edits of the list -/

/-- Messages, peeks and pokes keep `I`. -/
structure KeepsPokes (K : Kernel σ) (I : Main σ → Prop) : Prop where
  spoke : ∀ d d', I d → Spoke d d' → I d'
  peek : ∀ a d, I d → I { d with kernel := (K.peektext d.debug.pid a d.kernel).2 }
  poke : ∀ a w d, I d → I { d with kernel := (K.poketext d.debug.pid a w d.kernel).2 }

section Pokes

variable {K : Kernel σ} {I : Main σ → Prop} {li : BreakpointList} {d : Main σ}

/-- A message, and what the command returns. -/
theorem KeepsPokes.said (h : KeepsPokes K I) (hI : I d) (level : Level) {msg : String}
    {args : List LogArg} (r : Int × BreakpointList) :
    Post (do
      log level msg args
      return r : DbgM σ (Int × BreakpointList)) d fun _ d' => I d' :=
  post_bind (log_spoke level args d) fun _ d' hs => post_pure (h.spoke d d' hI hs)

theorem KeepsPokes.placeBreakpoint (h : KeepsPokes K I) (hI : I d) (a : Addr) :
    Post (placeBreakpoint K li a) d fun _ d' => I d' := by
  refine post_bind_ok (by rfl) (post_bind_ok (by rfl) ?_)
  have hpoked := h.poke a (setLow ((K.peektext d.debug.pid a d.kernel).1.getD (-1)) trapByte) _
    (h.peek a d hI)
  exact post_ite (fun _ => h.said hpoked .pError _) fun _ => h.said hpoked .print _

theorem KeepsPokes.removeElement (h : KeepsPokes K I) (hI : I d) (k : Int) :
    Post (removeElement K li k) d fun _ d' => I d' := by
  unfold Debugger.removeElement
  split
  · exact h.said hI .error _
  · split
    · exact post_throw _
    · rename_i b _
      have hpeeked := h.peek b.address d hI
      have hpoked := h.poke b.address b.origdata _ hpeeked
      refine post_bind_ok (by rfl) (post_ite (fun _ => post_bind_ok (by rfl) ?_) fun _ => ?_)
      · exact post_ite (fun _ => h.said hpoked .pError _) fun _ => h.said hpoked .print _
      · exact h.said hpeeked .print _

end Pokes

/-! ## Rounds -/

/-- The requests that resume the debuggee. -/
def Resumes (K : Kernel σ) (req : Int → σ → Bool × σ) : Prop :=
  req = K.singlestep ∨ req = K.cont ∨ req = K.syscall

/-- The state after a request that has no other result. -/
def Main.requested (d : Main σ) (req : Int → σ → Bool × σ) : Main σ :=
  { d with kernel := (req d.debug.pid d.kernel).2 }

/-- Messages, requests and waits keep `I`; `R` holds while the debuggee runs. -/
structure KeepsRequests (K : Kernel σ) (I R : Main σ → Prop) : Prop where
  spoke : ∀ d d', I d → Spoke d d' → I d'
  spokeRunning : ∀ d d', R d → Spoke d d' → R d'
  getregs : ∀ d, I d → I { d with kernel := (K.getregs d.debug.pid d.kernel).2 }
  resume : ∀ req, Resumes K req → ∀ d, I d →
    ((req d.debug.pid d.kernel).1 = true → R (d.requested req)) ∧
      ((req d.debug.pid d.kernel).1 = false → I (d.requested req))
  wait : ∀ d, R d → Post (waitForProcess K) d fun _ d' => I d'

/-- So do the other parts of a round. -/
structure KeepsRounds (K : Kernel σ) (I R : Main σ → Prop) : Prop extends
    KeepsRequests K I R where
  syscallState : ∀ state d, I d → I { d with debug := { d.debug with isSysStopped := state } }
  restore : ∀ b a d, I d → Post (restoreBreakpoint K b a) d fun _ d' => I d'

section Requests

variable {K : Kernel σ} {I R : Main σ → Prop} {li : BreakpointList} {d : Main σ}

theorem KeepsRequests.logged (h : KeepsRequests K I R) (hI : I d) (level : Level) {msg : String}
    (args : List LogArg) : Post (log level msg args) d fun _ d' => I d' :=
  post_mono (log_spoke level args d) fun _ d' hs => h.spoke d d' hI hs

theorem KeepsRequests.setRegs (h : KeepsRequests K I R) (hI : I d) (r : UserRegs) :
    Post (setRegs r) d fun _ d' => I d' :=
  post_mono (setRegs_spoke r d) fun _ d' hs => h.spoke d d' hI hs

/-- The registers are read, and the invariant holds whether that fails or not. -/
theorem KeepsRequests.readRegs {α : Type} {Q : α → Main σ → Prop} (h : KeepsRequests K I R)
    (hI : I d) {onRegs : UserRegs → DbgM σ α} {onFail : DbgM σ α}
    (hregs : ∀ r d', I d' → Post (onRegs r) d' Q) (hfail : ∀ d', I d' → Post onFail d' Q) :
    Post (do
      let some r ← ptrace K.getregs | onFail
      onRegs r) d Q := by
  refine post_bind_ok (by rfl) ?_
  split
  · exact hregs _ _ (h.getregs d hI)
  · exact hfail _ (h.getregs d hI)

/-- The debuggee is resumed, or the invariant still holds. -/
theorem KeepsRequests.request {α : Type} {Q : α → Main σ → Prop} (h : KeepsRequests K I R)
    (hI : I d) {req : Int → σ → Bool × σ} (hreq : Resumes K req) {next fail : DbgM σ α}
    (hnext : ∀ d', R d' → Post next d' Q) (hfail : ∀ d', I d' → Post fail d' Q) :
    Post (do
      if !(← ptrace req) then fail
      else next) d Q := by
  refine post_bind_ok (by rfl) (post_ite (fun hc => ?_) fun hc => ?_)
  · exact hfail _ ((h.resume req hreq d hI).2 (by simpa using hc))
  · exact hnext _ ((h.resume req hreq d hI).1 (by simpa using hc))

theorem KeepsRequests.infoRegistersAll (h : KeepsRequests K I R) (hI : I d) :
    Post (infoRegistersAll K) d fun _ d' => I d' := by
  refine h.readRegs hI ?_ fun d' hd' => post_pure hd'
  intro r d₁ h₁
  refine post_bind (h.setRegs h₁ r) ?_
  intro _ d₂ h₂
  exact post_bind (h.logged h₂ .print _) fun _ _ h₃ => post_pure h₃

/-- A restore, from what holds once it has spoken on. -/
theorem KeepsRequests.restoreBreakpoint (h : KeepsRequests K I R) {b : Breakpoint} {a : Addr}
    (hlog : I { d with out := d.out ++ [⟨.debug, "restore address %x\n", [.hex a]⟩] })
    (hpoke : ∀ d, I d → I (d.requested fun pid => K.poketext pid a b.origdata))
    (hset : ∀ r d, I d → I (d.requested fun pid => K.setregs pid r)) :
    Post (restoreBreakpoint K b a) d fun _ d' => I d' := by
  refine post_bind_ok (by rfl) (post_bind_ok (by rfl) (post_ite (fun _ => ?_) fun _ => ?_))
  · exact post_bind (h.logged (hpoke _ hlog) .pError _) fun _ _ h' => post_pure h'
  · refine h.readRegs (hpoke _ hlog) ?_ ?_
    · intro r d₁ h₁
      refine post_bind (h.setRegs h₁ _) ?_
      intro _ d₂ h₂
      refine post_bind_ok (by rfl) (post_ite (fun _ => ?_) fun _ => ?_)
      · exact post_bind (h.logged (hset _ _ h₂) .pError _) fun _ _ h' => post_pure h'
      · refine h.request (hset _ _ h₂) (Or.inl rfl) ?_ ?_
        · intro d₃ h₃
          refine post_bind (post_mono (log_spoke .debug _ d₃)
            fun _ d' hs => h.spokeRunning d₃ d' h₃ hs) ?_
          intro _ d₄ h₄
          refine post_bind (h.wait d₄ h₄) ?_
          intro ret d₅ h₅
          refine post_ite (fun _ => post_pure h₅) fun _ => ?_
          exact post_bind (h.logged h₅ .debug _) fun _ _ h' => post_pure h'
        · intro d₃ h₃
          exact post_bind (h.logged h₃ .pError _) fun _ _ h' => post_pure h'
    · intro d₁ h₁
      exact post_bind (h.logged h₁ .pError _) fun _ _ h' => post_pure h'

end Requests

section Rounds

variable {K : Kernel σ} {I R : Main σ → Prop} {li : BreakpointList} {d : Main σ}

/-- A failed request is reported and ends the loop. -/
theorem KeepsRounds.reported (h : KeepsRounds K I R) (hI : I d) {msg : String} (ret : Int) :
    Post (do
      log .pError msg []
      return some ret : DbgM σ (Option Int)) d fun _ d' => I d' :=
  post_bind (h.logged hI .pError []) fun _ _ h' => post_pure h'

theorem KeepsRounds.restoreThen (h : KeepsRounds K I R) (hI : I d) (b : Breakpoint) (a : Addr)
    (o : Option Int) : Post (do
      if (← restoreBreakpoint K b a) < -1 then
        return some (-1)
      return o : DbgM σ (Option Int)) d fun _ d' => I d' := by
  refine post_bind (h.restore b a d hI) ?_
  intro ret d' h'
  exact post_ite (fun _ => post_pure h') fun _ => post_pure h'

/-- What follows an `if` without an `else` follows both of its branches. -/
theorem KeepsRounds.informed (h : KeepsRounds K I R) (hI : I d) {c : Prop} [Decidable c]
    {α : Type} {Q : α → Main σ → Prop} {next : DbgM σ α} (hnext : ∀ d', I d' → Post next d' Q) :
    Post (do
      if c then
        let _ ← Debugger.infoRegistersAll K
      next) d Q := by
  split
  · exact post_bind (h.infoRegistersAll hI) fun _ d' h' => hnext d' h'
  · exact hnext d hI

theorem KeepsRounds.continueAtStop (h : KeepsRounds K I R) (hI : I d) (r : UserRegs) :
    Post (continueAtStop K li r) d fun _ d' => I d' := by
  refine post_bind (h.setRegs hI r) ?_
  intro _ d₁ h₁
  refine post_bind (h.logged h₁ .debug _) ?_
  intro _ d₂ h₂
  split
  · refine post_get_bind (post_ite (fun _ => ?_) fun _ => post_pure h₂)
    refine post_bind (h.logged h₂ .info _) ?_
    intro _ d₃ h₃
    refine post_bind_ok (by rfl) ?_
    refine post_get_bind (post_ite (fun _ => ?_) fun _ => ?_)
    · refine post_bind (h.logged (h.syscallState true d₃ h₃) .debug _) ?_
      intro _ d₄ h₄
      exact post_bind (h.infoRegistersAll h₄) fun _ _ h₅ => post_pure h₅
    · exact post_pure (h.syscallState true d₃ h₃)
  · refine post_bind (h.logged h₂ .debug _) ?_
    intro _ d₃ h₃
    refine post_ite (fun _ => ?_) fun _ => ?_
    · refine post_bind (h.logged h₃ .info _) ?_
      intro _ d₄ h₄
      refine post_get_bind (h.informed h₄ ?_)
      intro d₅ h₅
      refine post_bind (h.logged h₅ .debug _) ?_
      intro _ d₆ h₆
      exact post_get_bind (h.restoreThen h₆ _ _ _)
    · refine post_bind (h.logged h₃ .debug _) ?_
      intro _ d₄ h₄
      exact h.restoreThen h₄ _ _ _

theorem KeepsRounds.continueFromWait (h : KeepsRounds K I R) (hR : R d) :
    Post (continueFromWait K li) d fun _ d' => I d' := by
  refine post_bind (h.wait d hR) ?_
  intro ret d₁ h₁
  refine post_ite (fun _ => post_pure h₁) fun _ => post_ite (fun _ => ?_) fun _ => post_pure h₁
  exact h.readRegs h₁ (fun r d₂ h₂ => h.continueAtStop h₂ r)
    fun d₂ h₂ => h.reported h₂ _

theorem KeepsRounds.continueRound (h : KeepsRounds K I R) (hI : I d) :
    Post (continueRound K li) d fun _ d' => I d' := by
  have hrest : ∀ d₁, I d₁ → Post (do
      log .info "Continuing execution...\n" []
      if (← get).debug.isSystrace then
        log .debug "stopping at syscalls\n" []
        if !(← ptrace K.syscall) then
          log .pError "Ptrace error" []
          return some (-1)
      else
        if !(← ptrace K.cont) then
          log .pError "Ptrace error" []
          return some (-1)
      Debugger.continueFromWait K li : DbgM σ (Option Int)) d₁ fun _ d' => I d' := by
    intro d₁ h₁
    refine post_bind (h.logged h₁ .info _) ?_
    intro _ d₂ h₂
    refine post_get_bind (post_ite (fun _ => ?_) fun _ => ?_)
    · refine post_bind (h.logged h₂ .debug _) ?_
      intro _ d₃ h₃
      exact h.request h₃ (Or.inr (Or.inr rfl)) (fun d₄ h₄ => h.continueFromWait h₄)
        fun d₄ h₄ => h.reported h₄ _
    · exact h.request h₂ (Or.inr (Or.inl rfl)) (fun d₃ h₃ => h.continueFromWait h₃)
        fun d₃ h₃ => h.reported h₃ _
  refine post_get_bind (post_ite (fun _ => ?_) fun _ => hrest d hI)
  exact post_bind_ok (by rfl) (hrest _ (h.syscallState false d hI))

theorem KeepsRounds.stepXAtStop (h : KeepsRounds K I R) (hI : I d) (i : Nat) (r : UserRegs) :
    Post (stepXAtStop K li i r) d fun _ d' => I d' := by
  refine post_bind (h.setRegs hI r) ?_
  intro _ d₁ h₁
  split
  · exact post_pure h₁
  · refine post_ite (fun _ => ?_) fun _ => h.restoreThen h₁ _ _ _
    refine post_bind (h.logged h₁ .info _) ?_
    intro _ d₂ h₂
    exact h.restoreThen h₂ _ _ _

theorem KeepsRounds.stepXRound (h : KeepsRounds K I R) (hI : I d) (i : Nat) :
    Post (stepXRound K li i) d fun _ d' => I d' := by
  refine h.request hI (Or.inl rfl) ?_ fun d₁ h₁ => h.reported h₁ _
  intro d₁ h₁
  refine post_bind (h.wait d₁ h₁) ?_
  intro ret d₂ h₂
  refine post_ite (fun _ => post_pure h₂) fun _ => post_ite (fun _ => ?_) fun _ => post_pure h₂
  refine post_get_bind (h.informed h₂ ?_)
  intro d₃ h₃
  exact h.readRegs h₃ (fun r d₄ h₄ => h.stepXAtStop h₄ i r)
    fun d₄ h₄ => h.reported h₄ _

theorem KeepsRounds.stepAutoAtStop (h : KeepsRounds K I R) (hI : I d) (r : UserRegs) :
    Post (stepAutoAtStop K li r) d fun _ d' => I d' := by
  refine post_bind (h.setRegs hI r) ?_
  intro _ d₁ h₁
  split
  · exact post_pure h₁
  · refine post_ite (fun _ => ?_) fun _ => ?_
    · refine post_bind (h.logged h₁ .info _) ?_
      intro _ d₂ h₂
      exact post_bind (h.restore _ _ d₂ h₂) fun _ _ h₃ => post_pure h₃
    · exact post_bind (h.restore _ _ d₁ h₁) fun _ _ h₂ => post_pure h₂

theorem KeepsRounds.stepAutoRound (h : KeepsRounds K I R) (hI : I d) :
    Post (stepAutoRound K li) d fun _ d' => I d' := by
  refine h.request hI (Or.inl rfl) ?_ fun d₁ h₁ => h.reported h₁ _
  intro d₁ h₁
  refine post_bind (h.wait d₁ h₁) ?_
  intro ret d₂ h₂
  refine post_ite (fun _ => post_pure h₂) fun _ => ?_
  have hrest : ∀ d₃, I d₃ → Post (do
      if (← get).debug.isInforeg then
        let _ ← Debugger.infoRegistersAll K
      let some r ← ptrace K.getregs | do
        log .pError "Ptrace error" []
        return some (-1)
      Debugger.stepAutoAtStop K li r : DbgM σ (Option Int)) d₃ fun _ d' => I d' := by
    intro d₃ h₃
    refine post_get_bind (h.informed h₃ ?_)
    intro d₄ h₄
    exact h.readRegs h₄ (fun r d₅ h₅ => h.stepAutoAtStop h₅ r)
      fun d₅ h₅ => h.reported h₅ _
  refine post_ite (fun _ => ?_) fun _ => hrest d₂ h₂
  exact post_get_bind (post_bind (h.logged h₂ .print _) fun _ d₃ h₃ => hrest d₃ h₃)

/-! ## Loops -/

theorem KeepsRounds.continueExecution (h : KeepsRounds K I R) (n : Nat) (hI : I d) :
    Post (continueExecution K li n) d fun _ d' => I d' :=
  post_loop (fun _ => Debugger.continueRound K li) (fun _ n => Debugger.continueExecution K li n)
    passResult (C := fun _ _ => True) (fun _ n => continueExecution_succ K li n)
    (fun _ _ _ => post_throw _) (fun _ _ h' _ => h.continueRound h') n 0 d hI
    (allRounds_of_forall (fun _ _ => trivial) 0 n d)

theorem KeepsRounds.stepX (h : KeepsRounds K I R) (n : Int) (hI : I d) :
    Post (stepX K li n) d fun _ d' => I d' :=
  post_loop (Debugger.stepXRound K li) (stepXLoop K li) id (C := fun _ _ => True)
    (stepXLoop_succ K li) (fun _ _ h' => post_get_bind (post_bind
      (h.logged h' .print _) fun _ _ h₁ => post_pure h₁))
    (fun i _ h' _ => h.stepXRound h' i) n.toNat 0 d hI
    (allRounds_of_forall (fun _ _ => trivial) 0 n.toNat d)

theorem KeepsRounds.stepAuto (h : KeepsRounds K I R) (ret : Int) (n : Nat) (hI : I d) :
    Post (stepAuto K li ret n) d fun _ d' => I d' := by
  by_cases hret : ret = exitStatusRet
  · rw [hret]
    cases n with
    | zero => exact post_throw _
    | succ n =>
      rw [stepAuto_once]
      refine post_bind (h.stepAutoRound hI) ?_
      intro o d₁ h₁
      cases o with
      | some a => exact post_pure h₁
      | none => exact post_pure h₁
  · exact post_loop (fun _ => Debugger.stepAutoRound K li)
      (fun _ n => Debugger.stepAuto K li ret n) id (C := fun _ _ => True)
      (fun _ n => stepAuto_succ K li hret n) (fun _ _ _ => post_throw _)
      (fun _ _ h' _ => h.stepAutoRound h') n 0 d hI
      (allRounds_of_forall (fun _ _ => trivial) 0 n d)

end Rounds

end Zkz.Debugger
