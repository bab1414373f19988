import Zkz.Debugger.Deeds

/-!
# Turns perform their plans

A turn of the main loop does the deeds of its plan, one after the other, and only speaks before,
between and after them. If it comes back to the prompt it has done all of them; it returns before
that because a deed failed, because the debuggee is gone for good, or because a question was left
without an answer.

* `Performs`: what a turn that has some deeds to do has done when it ends.
* `mainTurn_performs`: every turn performs its plan.
* `mainTurns_dialogue`: so any number of turns are a `Dialogue`, and that is a path of deeds.
-/

namespace Zkz.Debugger

open Zkz.Lib BreakpointList

variable {σ : Type}

/-! ## Deeds that are done -/

/-- The list of breakpoints and the debugger. -/
abbrev Scene (σ : Type) := BreakpointList × Main σ

/-- A deed and its result. -/
abbrev Done := Deed × Int

/-- Something was said. -/
def Said (s s' : Scene σ) : Prop := s'.1 = s.1 ∧ Spoke s.2 s'.2

/-- A deed was done. -/
def Does (K : Kernel σ) (env : Loaded σ) (n : Nat) (x : Done) (s s' : Scene σ) : Prop :=
  x.1.run K env n s.1 s.2 = .ok ((x.2, s'.1), s'.2)

/-- Deeds were done, with something said in between. -/
abbrev Did (K : Kernel σ) (env : Loaded σ) (n : Nat) : Scene σ → List Done → Scene σ → Prop :=
  Path Said (Does K env n)

/-- Why the main loop returns at a turn, after the last of its deeds; the turn has asked some
questions, and `lines` is the input that follows its command. -/
inductive Leaves (lines : List Line) (asked : Nat) (d : Main σ) : Option Done → Int → Prop
  | killed : Leaves lines asked d (some (.kill, 0)) 0
  /-- An attached process has ended, so it cannot be started again. -/
  | ended {deed : Deed} (path : d.debug.pathname = none) (pid : d.debug.pid ≠ 0) :
      Leaves lines asked d (some (deed, exitStatusRet)) exitStatusRet
  | failed {deed : Deed} {ret : Int} (h : ret < 0) : Leaves lines asked d (some (deed, ret)) (-1)
  /-- There are fewer lines than questions. -/
  | missing {last : Option Done} (h : lines.length < asked) : Leaves lines asked d last (-1)
  /-- The answer to the last question is empty. -/
  | empty {last : Option Done} {k : Nat} (hk : asked = k + 1) (h : lines[k]? = some []) :
      Leaves lines asked d last (-1)

/-- A missing answer is a reason whatever was done. -/
theorem Leaves.of_none {lines : List Line} {asked : Nat} {d : Main σ} {code : Int}
    (h : Leaves lines asked d none code) (last : Option Done) : Leaves lines asked d last code := by
  cases h with
  | missing h => exact .missing h
  | empty hk h => exact .empty hk h

/-- How a turn ends that has some deeds to do. A prompt finds the input behind the answers. -/
def Ends (deeds : List Deed) (lines : List Line) (asked : Nat) (done : List Done) (s : Scene σ) :
    Turn → Prop
  | .prompt p => done.map Prod.fst = deeds ∧ p.li = s.1 ∧ p.input = lines.drop asked
  | .returned code => done.map Prod.fst <+: deeds ∧ Leaves lines asked s.2 done.getLast? code

theorem Ends.suffix {deeds : List Deed} {lines : List Line} {asked : Nat} {done : List Done}
    {s : Scene σ} {p : Prompt} (h : Ends deeds lines asked done s (.prompt p)) : p.input <:+ lines :=
  h.2.2 ▸ List.drop_suffix asked lines

/-- From `s` a turn that has some deeds to do has done them, or has returned early. -/
def Performs (K : Kernel σ) (env : Loaded σ) (n : Nat) (s : Scene σ) (deeds : List Deed)
    (lines : List Line) (asked : Nat) (t : Turn) (d : Main σ) : Prop :=
  ∃ done li, Did K env n s done (li, d) ∧ Ends deeds lines asked done (li, d) t

section Performs

variable {K : Kernel σ} {env : Loaded σ} {n : Nat} {s s' : Scene σ} {li : BreakpointList}
  {d d' : Main σ} {deed : Deed} {deeds : List Deed} {ret : Int} {lines : List Line} {asked : Nat}
  {p : Prompt} {t : Turn}

theorem Said.spoke (h : Spoke d d') : Said (li, d) (li, d') := ⟨rfl, h⟩

theorem Performs.said (hs : Said s s') (h : Performs K env n s' deeds lines asked t d) :
    Performs K env n s deeds lines asked t d := by
  obtain ⟨done, li, hdid, hends⟩ := h
  exact ⟨done, li, .silent hs hdid, hends⟩

theorem Performs.did (hx : Does K env n (deed, ret) s s')
    (h : Performs K env n s' deeds lines asked t d) :
    Performs K env n s (deed :: deeds) lines asked t d := by
  obtain ⟨done, li, hdid, hends⟩ := h
  refine ⟨(deed, ret) :: done, li, .cons hx hdid, ?_⟩
  cases t with
  | prompt p => exact ⟨congrArg (deed :: ·) hends.1, hends.2⟩
  | returned code =>
    refine ⟨List.cons_prefix_cons.mpr ⟨rfl, hends.1⟩, ?_⟩
    cases done with
    | nil => exact hends.2.of_none _
    | cons x done =>
      rw [List.getLast?_cons_cons]
      exact hends.2

/-- A deed that fails ends the turn. -/
theorem Performs.failed (hx : Does K env n (deed, ret) s s') (hret : ret < 0) :
    Performs K env n s (deed :: deeds) lines asked (.returned (-1)) s'.2 :=
  ⟨[(deed, ret)], s'.1, Path.single hx, List.prefix_append [deed] deeds, .failed hret⟩

theorem performs_prompt (hli : p.li = li) (hinput : p.input = lines.drop asked) :
    Performs K env n (li, d) [] lines asked (.prompt p) d :=
  ⟨[], li, .nil _, rfl, hli, hinput⟩

theorem atPrompt_performs (hli : p.li = li) (hinput : p.input = lines.drop asked) :
    Post (atPrompt p) d (Performs K env n (li, d) [] lines asked) :=
  post_pure (performs_prompt hli hinput)

/-- A question that is left without an answer. -/
theorem unanswered_performs (h : lines.length < asked) :
    Post (returned (-1)) d (Performs K env n (li, d) deeds lines asked) :=
  post_pure ⟨[], li, .nil _, List.nil_prefix, .missing h⟩

/-- Something that only speaks, and what follows it. -/
theorem said_bind {α : Type} {x : DbgM σ α} {f : α → DbgM σ Turn}
    (hx : Post x d fun _ d' => Spoke d d')
    (hf : ∀ a d', d'.debug = d.debug → Post (f a) d' (Performs K env n (li, d') deeds lines asked)) :
    Post (x >>= f) d (Performs K env n (li, d) deeds lines asked) :=
  post_bind hx fun a d' hs => post_mono (hf a d' hs.debug) fun _ _ h => h.said (Said.spoke hs)

/-- A deed, and what follows it. -/
theorem deed_bind (deed : Deed) {f : Int × BreakpointList → DbgM σ Turn}
    (hf : ∀ r d', Does K env n (deed, r.1) (li, d) (r.2, d') →
      Post (f r) d' (Performs K env n (li, d) (deed :: deeds) lines asked)) :
    Post (deed.run K env n li >>= f) d (Performs K env n (li, d) (deed :: deeds) lines asked) :=
  post_bind (Q := fun (r : Int × BreakpointList) d' => Does K env n (deed, r.1) (li, d) (r.2, d'))
    (fun _ _ h => h) hf

/-- A deed that keeps the list, and what follows it. -/
theorem kept_bind (deed : Deed) {x : DbgM σ Int} {f : Int → DbgM σ Turn}
    (hdeed : deed.run K env n li d = keepList li x d)
    (hf : ∀ ret d', Does K env n (deed, ret) (li, d) (li, d') →
      Post (f ret) d' (Performs K env n (li, d) (deed :: deeds) lines asked)) :
    Post (x >>= f) d (Performs K env n (li, d) (deed :: deeds) lines asked) := by
  refine post_bind (Q := fun ret d' => Does K env n (deed, ret) (li, d) (li, d')) ?_ hf
  intro ret d' h
  unfold Does
  rw [hdeed]
  exact run_bind_ok h

/-- Back to the prompt after a deed, the last of the plan. -/
theorem Performs.last (hx : Does K env n (deed, ret) s (li, d)) (hli : p.li = li)
    (hinput : p.input = lines.drop asked) : Performs K env n s [deed] lines asked (.prompt p) d :=
  (performs_prompt hli hinput).did hx

/-- A handler with nothing to do and nothing to ask if the program does not run. -/
theorem whenRunning_performs {msg : String} {x : DbgM σ Turn}
    (hx : d.debug.isRunning = true → Post x d (Performs K env n (p.li, d) deeds p.input asked)) :
    Post (whenRunning msg p x) d (Performs K env n (p.li, d) (if d.debug.isRunning then deeds else [])
      p.input (if d.debug.isRunning then asked else 0)) := by
  refine post_get_bind (post_ite (fun hrun => ?_) fun hrun => ?_)
  · rw [if_pos hrun, if_pos hrun]
    exact hx hrun
  · rw [if_neg hrun, if_neg hrun]
    exact said_bind (log_spoke .print [] d) fun _ _ _ => atPrompt_performs rfl rfl

theorem answer_of_getElem? {k : Nat} {word : Line} (h : lines[k]? = some word) :
    answer lines k = word := by
  rw [answer, List.getD_eq_getElem?_getD, h, Option.getD_some]

theorem answer_drop {k : Nat} {rest : List Line} (h : lines.drop k = rest) :
    answer lines k = rest.headD [] := by
  rw [answer, List.getD_eq_getElem?_getD, ← h, List.headD_eq_head?_getD, List.head?_drop]

/-- A question, answered by the line of the input that it reads. -/
theorem ask_performs {msg ioError : String} {onEmpty : Prompt → DbgM σ Turn}
    {onWord : Line → Prompt → DbgM σ Turn} (k : Nat) (hk : k < asked)
    (hinput : p.input = lines.drop k)
    (hempty : ∀ d', d'.debug = d.debug → lines[k]? = some [] →
      Post (onEmpty { p with input := lines.drop (k + 1) }) d'
        (Performs K env n (li, d') deeds lines asked))
    (hword : ∀ d', d'.debug = d.debug → answer lines k ≠ [] →
      Post (onWord (answer lines k) { p with input := lines.drop (k + 1) }) d'
        (Performs K env n (li, d') deeds lines asked)) :
    Post (ask msg ioError p onEmpty onWord) d (Performs K env n (li, d) deeds lines asked) := by
  refine said_bind (log_spoke .prompt [] d) ?_
  intro _ d₁ hd₁
  have hget := answer_drop hinput.symm
  have hhead : lines[k]? = p.input.head? := by rw [hinput, List.head?_drop]
  have hrest : lines.drop (k + 1) = p.input.tail := by rw [hinput, List.tail_drop]
  rw [hrest, hhead] at hempty
  rw [hrest, hget] at hword
  cases hp : p.input with
  | nil =>
    rw [hinput, List.drop_eq_nil_iff] at hp
    exact said_bind (log_spoke .error [] d₁) fun _ _ _ => unanswered_performs (by omega)
  | cons word rest =>
    rw [hp] at hempty hword
    exact post_ite (fun hw => hempty d₁ hd₁ (congrArg some hw)) fun hw => hword d₁ hd₁ hw

/-- An error message instead of a deed. -/
theorem complain_performs {msg : String} (hli : p.li = li) (hinput : p.input = lines.drop asked) :
    Post (complain msg p) d (Performs K env n (li, d) [] lines asked) :=
  said_bind (log_spoke .error [] d) fun _ _ _ => atPrompt_performs hli hinput

end Performs

/-! ## Running and stepping -/

section Handlers

variable {K : Kernel σ} {env : Loaded σ} {n : Nat} {d : Main σ} {p : Prompt}

/-- What follows a deed that resumes the debuggee. -/
theorem afterResume_performs {msg : String} {deed : Deed} {ret : Int} {s : Scene σ}
    (hx : Does K env n (deed, ret) s (p.li, d)) :
    Post (do
      if ret = exitStatusRet then afterExit msg p
      else if ret = -1 then returned (-1)
      else atPrompt p) d (Performs K env n s [deed] p.input 0) := by
  refine post_ite (fun hret => ?_) fun _ => post_ite (fun hret => ?_) fun _ => ?_
  · refine post_get_bind (post_get_bind (post_ite (fun hgone => ?_) fun _ => ?_))
    · refine post_bind (log_spoke .prompt [] d) ?_
      intro _ d' hs
      rw [← hs.debug] at hgone
      refine post_pure ⟨[(deed, ret)], p.li, .cons hx (.silent (Said.spoke hs) (.nil _)),
        List.prefix_refl _, ?_⟩
      rw [hret]
      exact .ended (by simpa using hgone.1) hgone.2
    · exact post_pure (Performs.last hx rfl rfl)
  · rw [hret] at hx
    exact post_pure (Performs.failed hx (by decide))
  · exact post_pure (Performs.last hx rfl rfl)

theorem handleContinue_performs :
    Post (handleContinue K n p) d (Performs K env n (p.li, d) [.continue] p.input 0) :=
  kept_bind .continue rfl fun _ _ hx => afterResume_performs hx

theorem handleRun_performs :
    Post (handleRun K n p) d (Performs K env n (p.li, d) (planRun d.debug) p.input 0) := by
  unfold planRun
  refine post_get_bind (post_ite (fun hrun => ?_) fun hrun => ?_)
  · refine said_bind (log_spoke .debug [] d) ?_
    intro _ d₁ hd₁
    refine post_get_bind (post_ite (fun hpath => ?_) fun hpath => ?_)
    · rw [hd₁] at hpath
      rw [if_pos (by rw [hrun, hpath]; rfl)]
      refine kept_bind .start rfl fun ret d₂ hx => ?_
      refine post_ite (fun hret => ?_) fun _ => ?_
      · exact post_pure (Performs.failed hx hret)
      · exact post_pure (Performs.last hx rfl rfl)
    · rw [hd₁] at hpath
      rw [if_neg (by simp [hpath])]
      exact handleContinue_performs
  · rw [if_neg (by simp [hrun])]
    exact handleContinue_performs

theorem handleAuto_performs :
    Post (handleAuto K env n p) d (Performs K env n (p.li, d) [.auto] p.input 0) := by
  refine post_get_bind (kept_bind .auto rfl fun ret d' hx => ?_)
  refine post_ite (fun hret => ?_) fun _ => ?_
  · exact post_pure (Performs.failed hx hret)
  · exact post_pure (Performs.last hx rfl rfl)

theorem handleStep_performs (commands : List Line) :
    Post (handleStep K commands p) d
      (Performs K env n (p.li, d) (planStep commands) p.input 0) := by
  have hstep : ∀ k d', Post (stepBy K k p) d' (Performs K env n (p.li, d') [.step k] p.input 0) :=
    fun k d' => kept_bind (.step k) rfl fun _ _ hx => afterResume_performs hx
  unfold planStep Debugger.handleStep
  cases commands[1]? with
  | none => exact hstep 1 d
  | some word =>
    unfold decimalDeed
    simp only
    cases stoi word with
    | error e =>
      exact said_bind (logSto_spoke e d) fun _ _ _ => atPrompt_performs rfl rfl
    | ok k => exact said_bind (log_spoke .debug _ d) fun _ d' _ => hstep k d'

/-! ## Words -/

/-- What a loop over some words has done with one of them, before it goes on with `rest`. -/
def WordDone (K : Kernel σ) (env : Loaded σ) (n : Nat) (s : Scene σ) (deeds : List Deed)
    (rest : BreakpointList → DbgM σ BreakpointList) (li' : BreakpointList) (d' : Main σ) : Prop :=
  ∃ done s', Did K env n s done s' ∧ done.map Prod.fst = deeds ∧ rest s'.1 s'.2 = .ok (li', d')

/-- A word of which something is said. -/
theorem word_said {li : BreakpointList} {x : DbgM σ Unit}
    {rest : BreakpointList → DbgM σ BreakpointList} (hx : Post x d fun _ d' => Spoke d d') :
    Post (do
      x
      rest li) d (WordDone K env n (li, d) [] rest) := by
  intro li' d' hrun
  obtain ⟨_, d₁, hsaid, hrest⟩ := run_bind_eq_ok.mp hrun
  exact ⟨[], (li, d₁), .silent (Said.spoke (hx _ _ hsaid)) (.nil _), rfl, hrest⟩

/-- A word that stands for a deed. -/
theorem word_did (deed : Deed) {li : BreakpointList}
    {rest : BreakpointList → DbgM σ BreakpointList} :
    Post (do
      let r ← deed.run K env n li
      rest r.2) d (WordDone K env n (li, d) [deed] rest) := by
  intro li' d' hrun
  obtain ⟨r, d₁, hx, hrest⟩ := run_bind_eq_ok.mp hrun
  exact ⟨[(deed, r.1)], (r.2, d₁), Path.single hx, rfl, hrest⟩

/-- A loop over some words, each with the deeds that it stands for. -/
theorem words_did {deeds : Line → List Deed}
    {loop : List Line → BreakpointList → DbgM σ BreakpointList}
    (hnil : ∀ li, loop [] li = pure li)
    (hcons : ∀ word words li d,
      Post (loop (word :: words) li) d (WordDone K env n (li, d) (deeds word) (loop words)))
    (words : List Line) (li : BreakpointList) (d : Main σ) :
    Post (loop words li) d fun li' d' =>
      ∃ done, Did K env n (li, d) done (li', d') ∧ done.map Prod.fst = words.flatMap deeds := by
  induction words generalizing li d with
  | nil =>
    rw [hnil]
    exact post_pure ⟨[], .nil _, rfl⟩
  | cons word words ih =>
    intro li' d' hrun
    obtain ⟨done, s, hword, hdone, hrest⟩ := hcons word words li d li' d' hrun
    obtain ⟨done', hwords, hdone'⟩ := ih s.1 s.2 li' d' hrest
    refine ⟨done ++ done', hword.append hwords, ?_⟩
    rw [List.map_append, hdone, hdone', List.flatMap_cons]

/-- Back to the prompt after such a loop. -/
theorem words_performs {deeds : List Deed} {loop : DbgM σ BreakpointList}
    (hloop : Post loop d fun li' d' => ∃ done, Did K env n (p.li, d) done (li', d') ∧
      done.map Prod.fst = deeds) :
    Post (do
      let li ← loop
      atPrompt { p with li := li }) d (Performs K env n (p.li, d) deeds p.input 0) := by
  refine post_bind hloop ?_
  intro li d' h
  obtain ⟨done, hdid, hdone⟩ := h
  exact post_pure ⟨done, li, hdid, hdone, rfl, rfl⟩

/-! ## Breakpoints -/

theorem operands_answer {commands : List Line} (h : commands.length < 2) (lines : List Line)
    (f : Line → List Deed) : (operands commands lines).flatMap f = f (answer lines 0) := by
  unfold operands
  rw [if_pos h, List.flatMap_singleton]

theorem operands_tail {commands : List Line} (h : ¬ commands.length < 2) (lines : List Line) :
    operands commands lines = commands.tail := if_neg h

theorem questions_answer {commands : List Line} (h : commands.length < 2) :
    questionsOperand commands = 1 := if_pos h

theorem questions_tail {commands : List Line} (h : ¬ commands.length < 2) :
    questionsOperand commands = 0 := if_neg h

theorem placeAt_performs (a : Addr) {lines : List Line} {asked : Nat}
    (hinput : p.input = lines.drop asked) :
    Post (placeAt K a p) d (Performs K env n (p.li, d) [.place a] lines asked) :=
  deed_bind (.place a) fun _ _ hx => post_pure (Performs.last hx rfl hinput)

theorem placeWords_did (words : List Line) (li : BreakpointList) (d : Main σ) :
    Post (placeWords K words li) d fun li' d' => ∃ done, Did K env n (li, d) done (li', d') ∧
      done.map Prod.fst = words.flatMap (hexDeed .place) := by
  refine words_did (fun _ => rfl) ?_ words li d
  intro word words li d
  unfold hexDeed Debugger.placeWords
  cases stoll word with
  | error e => exact word_said (logSto_spoke e d)
  | ok v => exact word_did (.place (BitVec.ofInt 64 v))

theorem handleBreak_performs (commands : List Line) :
    Post (handleBreak K commands p) d
      (Performs K env n (p.li, d) (planBreak d.debug commands p.input) p.input
        (questionsBreak d.debug commands)) := by
  refine whenRunning_performs fun _ => ?_
  refine post_ite (fun hlen => ?_) fun hlen => ?_
  · rw [operands_answer (by omega), questions_answer (by omega)]
    refine ask_performs 0 (by omega) rfl ?_ ?_
    · intro d' _ hempty
      rw [answer_of_getElem? hempty]
      exact complain_performs rfl rfl
    · intro d' _ _
      unfold hexDeed
      cases stoll (answer p.input 0) with
      | error e =>
        exact said_bind (logSto_spoke e d') fun _ _ _ => atPrompt_performs rfl rfl
      | ok v =>
        exact placeAt_performs (p := { p with input := p.input.drop 1 }) _ rfl
  · rw [operands_tail (by omega), questions_tail (by omega)]
    exact words_performs (placeWords_did commands.tail p.li d)

/-- A placement at a line, and what follows it. -/
theorem placeLine_bind {li : BreakpointList} {deeds : List Deed} {lines : List Line} {asked : Nat}
    (unit l : Int)
    {f : Int × BreakpointList → DbgM σ Turn}
    (hf : ∀ r d', Does K env n (.placeLine unit l, r.1) (li, d) (r.2, d') →
      Post (f r) d' (Performs K env n (li, d) (.placeLine unit l :: deeds) lines asked)) :
    Post (do
      let address ← addressOfLine env unit l
      let r ← placeBreakpoint K li address
      f r) d (Performs K env n (li, d) (.placeLine unit l :: deeds) lines asked) := by
  intro t d' hrun
  obtain ⟨a, d₁, ha, hrest⟩ := run_bind_eq_ok.mp hrun
  obtain ⟨r, d₂, hr, hrest⟩ := run_bind_eq_ok.mp hrest
  exact hf r d₂ ((run_bind_ok ha).trans hr) t d' hrest

theorem placeLines_did (unit : Int) (words : List Line) (li : BreakpointList) (d : Main σ) :
    Post (placeLines K env unit words li) d fun li' d' =>
      ∃ done, Did K env n (li, d) done (li', d') ∧
        done.map Prod.fst = words.flatMap (decimalDeed (.placeLine unit)) := by
  refine words_did (fun _ => rfl) ?_ words li d
  intro word words li d
  unfold decimalDeed Debugger.placeLines
  cases stoi word with
  | error e => exact word_said (logSto_spoke e d)
  | ok l =>
    intro li' d' hrun
    obtain ⟨a, d₁, ha, hrest⟩ := run_bind_eq_ok.mp hrun
    obtain ⟨r, d₂, hr, hrest⟩ := run_bind_eq_ok.mp hrest
    exact ⟨[(.placeLine unit l, r.1)], (r.2, d₂), Path.single ((run_bind_ok ha).trans hr), rfl,
      hrest⟩

theorem handleBreakl_performs (commands : List Line) :
    Post (handleBreakl K env commands p) d (Performs K env n (p.li, d)
      (planBreakl d.debug p.defaultCompilationUnit commands p.input) p.input
        (questionsLines d.debug commands)) := by
  unfold planBreakl questionsLines
  refine whenRunning_performs fun _ => ?_
  refine post_get_bind (post_ite (fun hdwarf => ?_) fun hdwarf => ?_)
  · rw [if_pos hdwarf, if_pos hdwarf]
    refine said_bind (log_spoke .debug [] d) ?_
    intro _ d₁ _
    refine post_ite (fun hlen => ?_) fun hlen => ?_
    · rw [operands_answer hlen, questions_answer hlen]
      refine ask_performs 0 (by omega) rfl ?_ ?_
      · intro d' _ hempty
        rw [answer_of_getElem? hempty]
        exact complain_performs rfl rfl
      · intro d' _ _
        unfold decimalDeed
        cases stoi (answer p.input 0) with
        | error e =>
          exact said_bind (logSto_spoke e d') fun _ _ _ => atPrompt_performs rfl rfl
        | ok l =>
          exact placeLine_bind _ l fun _ _ hx => post_pure (Performs.last hx rfl rfl)
    · rw [operands_tail hlen, questions_tail hlen]
      exact words_performs (placeLines_did _ commands.tail p.li d₁)
  · rw [if_neg hdwarf, if_neg hdwarf]
    exact said_bind (log_spoke .print [] d) fun _ _ _ => atPrompt_performs rfl rfl

theorem disableWords_did (words : List Line) (li : BreakpointList) (d : Main σ) :
    Post (disableWords words li) d fun li' d' => ∃ done, Did K env n (li, d) done (li', d') ∧
      done.map Prod.fst = words.flatMap (decimalDeed .disable) := by
  refine words_did (fun _ => rfl) ?_ words li d
  intro word words li d
  unfold decimalDeed Debugger.disableWords
  cases stoi word with
  | error e => exact word_said (logSto_spoke e d)
  | ok k => exact word_did (.disable k)

/-- An answer that is empty where a number is needed. -/
theorem refuse_performs {li : BreakpointList} {deeds : List Deed} {lines : List Line} {msg : String}
    (h : lines[0]? = some []) :
    Post (do
      log .error msg []
      returned (-1)) d (Performs K env n (li, d) deeds lines 1) :=
  said_bind (log_spoke .error [] d) fun _ _ _ =>
    post_pure ⟨[], li, .nil _, List.nil_prefix, .empty rfl h⟩

theorem handleDisable_performs (commands : List Line) :
    Post (handleDisable commands p) d
      (Performs K env n (p.li, d) (planDisable commands p.input) p.input
        (questionsOperand commands)) := by
  unfold planDisable
  refine post_ite (fun hlen => ?_) fun hlen => ?_
  · rw [operands_answer hlen, questions_answer hlen]
    refine ask_performs 0 (by omega) rfl (fun d' _ hempty => refuse_performs hempty) ?_
    intro d' _ _
    unfold decimalDeed
    cases stoi (answer p.input 0) with
    | error e => exact post_throw _
    | ok k =>
      exact deed_bind (.disable k) fun _ _ hx => post_pure (Performs.last hx rfl rfl)
  · rw [operands_tail hlen, questions_tail hlen]
    exact words_performs (disableWords_did commands.tail p.li d)

/-- One removal for each word that is a number, until one fails. -/
theorem deleteWords_performs {lines : List Line} {asked : Nat} (words : List Line) (p : Prompt)
    (d : Main σ) (hinput : p.input = lines.drop asked) :
    Post (deleteWords K words p) d
      (Performs K env n (p.li, d) (words.flatMap (decimalDeed .remove)) lines asked) := by
  induction words generalizing p d with
  | nil => exact atPrompt_performs rfl hinput
  | cons word words ih =>
    rw [List.flatMap_cons]
    unfold decimalDeed Debugger.deleteWords
    cases stoi word with
    | error e => exact said_bind (logSto_spoke e d) fun _ d' _ => ih p d' hinput
    | ok k =>
      refine deed_bind (.remove k) fun r d' hx => ?_
      refine post_ite (fun hret => post_pure (Performs.failed hx hret)) fun _ => ?_
      exact post_mono (ih { p with li := r.2 } d' hinput) fun _ _ h => h.did hx

/-- The first argument is there if its test returns. -/
theorem emptyArgument_bind_word {commands : List Line} {f : Bool → DbgM σ Turn}
    {R : Turn → Main σ → Prop}
    (hf : ∀ word, commands[1]? = some word → Post (f (decide (word = []))) d R) :
    Post (emptyArgument commands >>= f) d R := by
  unfold emptyArgument
  cases h : commands[1]? with
  | none => exact post_bind (post_throw (P := fun _ _ => False) _) fun _ _ h => h.elim
  | some word => exact post_bind_ok rfl (hf word h)

theorem handleDelete_performs (commands : List Line) :
    Post (handleDelete K commands p) d
      (Performs K env n (p.li, d) (planDelete d.debug commands p.input) p.input
        (questionsDelete d.debug commands)) := by
  unfold questionsDelete questionsFirst
  refine whenRunning_performs fun _ => emptyArgument_bind_word ?_
  intro word hcommands
  rw [hcommands]
  by_cases hword : word = []
  · rw [if_pos (decide_eq_true hword), if_pos (congrArg some hword), if_pos (congrArg some hword)]
    refine ask_performs 0 (by omega) rfl (fun d' _ hempty => refuse_performs hempty) ?_
    intro d' _ _
    exact deleteWords_performs [answer p.input 0] { p with input := p.input.drop 1 } d' rfl
  · rw [if_neg (by simpa using hword), if_neg (by simpa using hword), if_neg (by simpa using hword)]
    exact deleteWords_performs commands.tail p d rfl

/-! ## Registers -/

theorem handleInfoRegisters_performs :
    Post (handleInfoRegisters K p) d (Performs K env n (p.li, d)
      (if d.debug.isRunning then [.infoRegisters] else []) p.input 0) := by
  rw [← ite_self (c := d.debug.isRunning = true) 0]
  exact whenRunning_performs fun _ =>
    kept_bind .infoRegisters rfl fun _ _ hx => post_pure (Performs.last hx rfl rfl)

theorem infoOf_performs (word : Line) {lines : List Line} {asked : Nat}
    (hinput : p.input = lines.drop asked) :
    Post (infoOf K word p) d (Performs K env n (p.li, d) [.info word] lines asked) :=
  kept_bind (.info word) rfl fun _ _ hx =>
    post_ite (fun hret => post_pure (Performs.failed hx hret))
      fun _ => post_pure (Performs.last hx rfl hinput)

theorem handleInfo_performs (commands : List Line) :
    Post (handleInfo K commands p) d
      (Performs K env n (p.li, d) (planInfo commands p.input) p.input
        (questionsFirst commands)) := by
  refine emptyArgument_bind_word fun word hcommands => ?_
  unfold planInfo questionsFirst
  rw [hcommands]
  by_cases hword : word = []
  · rw [if_pos (decide_eq_true hword), if_pos (congrArg some hword), if_pos (congrArg some hword)]
    refine said_bind (log_spoke .prompt [] d) ?_
    intro _ d' _
    rw [answer_drop rfl, List.drop_zero]
    refine post_ite (fun hempty => ?_) fun hempty => ?_
    · rw [if_pos hempty]
      exact complain_performs rfl List.drop_one.symm
    · rw [if_neg hempty]
      exact infoOf_performs (p := { p with input := p.input.tail }) _ List.drop_one.symm
  · rw [if_neg (by simpa using hword), if_neg (by simpa using hword), if_neg (by simpa using hword)]
    exact infoOf_performs word rfl

theorem setTo_performs (regname word : Line) {invalid : String} (limit : Int) (hlimit : limit ≤ 0)
    {lines : List Line} {asked : Nat} (hinput : p.input = lines.drop asked) :
    Post (setTo K regname word invalid limit p) d
      (Performs K env n (p.li, d) (hexDeed (.set regname) word) lines asked) := by
  unfold hexDeed Debugger.setTo
  cases stoll word with
  | error e => exact said_bind (logSto_spoke e d) fun _ _ _ => atPrompt_performs rfl hinput
  | ok v =>
    refine kept_bind (.set regname (BitVec.ofInt 64 v)) rfl fun _ _ hx => ?_
    refine post_ite (fun hret => post_pure (Performs.failed hx (by omega))) fun _ => ?_
    exact post_pure (Performs.last hx rfl hinput)

theorem handleSet_performs (command : Line) (commands : List Line) :
    Post (handleSet K command commands p) d
      (Performs K env n (p.li, d) (planSet d.debug command commands p.input) p.input
        (questionsSet d.debug commands p.input)) := by
  unfold questionsSet
  refine whenRunning_performs fun _ => ?_
  refine post_ite (fun hlen => ?_) fun hlen => ?_
  · rw [if_pos hlen, if_pos hlen]
    have hasked : 0 < if answer p.input 0 = [] then 1 else 2 := by split <;> decide
    refine ask_performs 0 hasked rfl ?_ ?_
    · intro d' _ hempty
      have hname := answer_of_getElem? hempty
      rw [if_pos hname, if_pos hname]
      exact complain_performs rfl rfl
    · intro d' _ hname
      rw [if_neg hname, if_neg hname]
      refine ask_performs 1 (by omega) rfl ?_ ?_
      · intro d₁ _ hempty
        rw [answer_of_getElem? hempty]
        exact complain_performs rfl rfl
      · intro d₁ _ _
        exact setTo_performs (p := { p with input := p.input.drop 2 }) _ _ _ (by omega) rfl
  · rw [if_neg hlen, if_neg hlen]
    rcases commands with _ | ⟨first, _ | ⟨regname, _ | ⟨word, rest⟩⟩⟩
    · exact post_ite (fun _ => post_throw _) fun hthree => by
        simp only [if_neg hthree]
        exact atPrompt_performs rfl rfl
    · exact absurd rfl hlen
    · refine ask_performs 0 Nat.one_pos rfl ?_ ?_
      · intro d' _ hempty
        rw [answer_of_getElem? hempty]
        exact complain_performs rfl rfl
      · intro d' _ _
        exact setTo_performs (p := { p with input := p.input.drop 1 }) _ _ _ (by omega) rfl
    · refine post_ite (fun hthree => ?_) fun hthree => ?_
      · simp only [if_pos hthree]
        exact setTo_performs regname word 0 (by omega) rfl
      · simp only [if_neg hthree]
        exact atPrompt_performs rfl rfl

/-! ## Tables -/

/-- Something that only speaks, and back to the prompt. -/
theorem spoken_performs {α : Type} {x : DbgM σ α} {q : Prompt} (hli : q.li = p.li)
    {lines : List Line} {asked : Nat} (hinput : q.input = lines.drop asked)
    (hx : Post x d fun _ d' => Spoke d d') :
    Post (do
      let _ ← x
      atPrompt q) d (Performs K env n (p.li, d) [] lines asked) :=
  said_bind hx fun _ _ _ => atPrompt_performs hli hinput

theorem handlePrintb_performs :
    Post (handlePrintb p) d (Performs K env n (p.li, d) [] p.input 0) := by
  rw [← ite_self (c := d.debug.isRunning = true) ([] : List Deed),
    ← ite_self (c := d.debug.isRunning = true) 0]
  exact whenRunning_performs fun _ =>
    spoken_performs rfl rfl (listBreakpoints_spoke p.li d)

theorem listUnit_performs (word : Line) {lines : List Line} {asked : Nat}
    (hinput : p.input = lines.drop asked) :
    Post (listUnit env word p) d (Performs K env n (p.li, d) [] lines asked) := by
  unfold Debugger.listUnit
  cases stoi word with
  | error e => exact spoken_performs rfl hinput (logSto_spoke e d)
  | ok unit => exact spoken_performs rfl hinput (listSrcLines_spoke env.lines unit d)

theorem handleList_performs (commands : List Line) :
    Post (handleList env commands p) d (Performs K env n (p.li, d) [] p.input
      (questionsLines d.debug commands)) := by
  rw [← ite_self (c := d.debug.isRunning = true) ([] : List Deed)]
  unfold questionsLines
  refine whenRunning_performs fun _ => ?_
  refine post_get_bind (post_ite (fun hdwarf => ?_) fun hdwarf => ?_)
  · rw [if_pos hdwarf]
    cases hword : commands[1]? with
    | none =>
      rw [questions_answer (Nat.lt_succ_of_le (List.getElem?_eq_none_iff.mp hword))]
      refine ask_performs 0 (by omega) rfl ?_ ?_
      · intro d' _ _
        exact complain_performs rfl rfl
      · intro d' _ _
        exact listUnit_performs (p := { p with input := p.input.drop 1 }) _ rfl
    | some word =>
      rw [questions_tail (Nat.not_lt.mpr (List.getElem?_eq_some_iff.mp hword).1)]
      exact listUnit_performs word rfl
  · rw [if_neg hdwarf]
    exact spoken_performs rfl rfl (log_spoke .print [] d)

theorem handleListsym_performs (commands : List Line) :
    Post (handleListsym env commands p) d (Performs K env n (p.li, d) [] p.input 0) := by
  have hback : Post (atPrompt p) d (Performs K env n (p.li, d) [] p.input 0) :=
    atPrompt_performs rfl rfl
  refine post_get_bind (post_get_bind (post_ite (fun _ => ?_) fun _ => hback))
  cases commands[1]? with
  | none => exact spoken_performs rfl rfl (listSymsOf_spoke env _ d)
  | some word =>
    refine post_ite (fun _ => hback) fun _ => ?_
    cases stoi word with
    | error e => exact spoken_performs rfl rfl (logSto_spoke e d)
    | ok prange => exact spoken_performs rfl rfl (listSymsOf_spoke env prange d)

theorem handleSelect_performs (commands : List Line) :
    Post (handleSelect env commands p) d (Performs K env n (p.li, d) [] p.input
      (questionsLines d.debug commands)) := by
  rw [← ite_self (c := d.debug.isRunning = true) ([] : List Deed)]
  unfold questionsLines
  refine whenRunning_performs fun _ => ?_
  refine post_get_bind (post_ite (fun hdwarf => ?_) fun hdwarf => ?_)
  · rw [if_pos hdwarf]
    cases hword : commands[1]? with
    | none =>
      rw [questions_answer (Nat.lt_succ_of_le (List.getElem?_eq_none_iff.mp hword))]
      refine ask_performs 0 (by omega) rfl ?_ ?_
      · intro d' _ _
        exact complain_performs rfl rfl
      · intro d' _ _
        simp only
        cases stoi (answer p.input 0) with
        | error e => exact spoken_performs rfl rfl (logSto_spoke e d')
        | ok unit => exact atPrompt_performs rfl rfl
    | some word =>
      rw [questions_tail (Nat.not_lt.mpr (List.getElem?_eq_some_iff.mp hword).1)]
      simp only
      cases stoi word with
      | error e => exact spoken_performs rfl rfl (logSto_spoke e d)
      | ok unit =>
        refine post_ite (fun _ => ?_) fun _ => ?_
        · exact complain_performs rfl rfl
        · exact spoken_performs rfl rfl (log_spoke .print _ d)
  · rw [if_neg hdwarf]
    exact spoken_performs rfl rfl (log_spoke .print [] d)

/-! ## The end -/

theorem handleExit_performs :
    Post (handleExit K p) d (Performs K env n (p.li, d) (planExit p.input) p.input 1) := by
  unfold planExit
  refine ask_performs 0 (by omega) rfl ?_ ?_
  · intro d' _ hempty
    rw [answer_of_getElem? hempty, if_neg (by decide)]
    exact said_bind (log_spoke .print [] d') fun _ _ _ => atPrompt_performs rfl rfl
  · intro d' _ _
    refine post_ite (fun hyes => ?_) fun hyes => ?_
    · rw [if_pos hyes]
      refine post_bind_ok rfl (post_pure ⟨[(.kill, 0)], p.li, Path.single ?_, List.prefix_refl _,
        .killed⟩)
      rfl
    · rw [if_neg hyes]
      exact atPrompt_performs rfl rfl

theorem handleHelp_performs : Post (handleHelp p) d (Performs K env n (p.li, d) [] p.input 0) :=
  spoken_performs rfl rfl (log_spoke .print [] d)

/-! ## Kills -/

/-- None of the deeds is a kill. -/
def Spares (deeds : List Deed) : Prop := Deed.kill ∉ deeds

theorem spares_nil : Spares [] := List.not_mem_nil

theorem spares_single {deed : Deed} (h : deed ≠ .kill) : Spares [deed] :=
  fun hmem => h (List.mem_singleton.mp hmem).symm

theorem spares_ite {c : Prop} [Decidable c] {deeds deeds' : List Deed} (h : Spares deeds)
    (h' : Spares deeds') : Spares (if c then deeds else deeds') := by
  split
  · exact h
  · exact h'

theorem spares_flatMap {f : Line → List Deed} (h : ∀ word, Spares (f word)) (words : List Line) :
    Spares (words.flatMap f) := by
  intro hmem
  obtain ⟨word, -, hword⟩ := List.mem_flatMap.mp hmem
  exact h word hword

theorem spares_decimal (deed : Int → Deed) (h : ∀ v, deed v ≠ .kill) (word : Line) :
    Spares (decimalDeed deed word) := by
  unfold decimalDeed
  split
  · exact spares_single (h _)
  · exact spares_nil

theorem spares_hex (deed : Word → Deed) (h : ∀ v, deed v ≠ .kill) (word : Line) :
    Spares (hexDeed deed word) := by
  unfold hexDeed
  split
  · exact spares_single (h _)
  · exact spares_nil

theorem planSet_spares (debug : Debug) (command : Line) (commands lines : List Line) :
    Spares (planSet debug command commands lines) := by
  have hset : ∀ regname word, Spares (hexDeed (.set regname) word) :=
    fun regname word => spares_hex (.set regname) (fun _ => nofun) word
  unfold planSet
  refine spares_ite (spares_ite (spares_ite spares_nil (hset _ _)) ?_) spares_nil
  split
  · exact hset _ _
  · refine spares_ite ?_ spares_nil
    split
    · exact hset _ _
    · exact spares_nil

theorem planStep_spares (commands : List Line) : Spares (planStep commands) := by
  unfold planStep
  split
  · exact spares_single nofun
  · exact spares_decimal .step (fun _ => nofun) _

/-- A kill is the only deed of its plan, and the loop returns at it. -/
theorem handleExit_kills :
    Spares (planExit p.input) ∨
      planExit p.input = [.kill] ∧ Post (handleExit K p) d fun t _ => t = .returned 0 := by
  by_cases hyes : answer p.input 0 = "yes".toList ∨ answer p.input 0 = "y".toList
  · refine Or.inr ⟨if_pos hyes, post_bind (log_spoke .prompt [] d) fun _ d₁ _ => ?_⟩
    unfold answer at hyes
    cases hinput : p.input with
    | nil =>
      rw [hinput] at hyes
      exact absurd hyes (by decide)
    | cons word lines =>
      rw [hinput] at hyes
      refine post_ite (fun hempty => ?_) fun _ => post_ite (fun _ => ?_) fun hno => absurd hyes hno
      · rw [hempty] at hyes
        exact absurd hyes (show ¬ (([] : Line) = "yes".toList ∨ ([] : Line) = "y".toList) by decide)
      · exact post_bind_ok rfl (post_pure rfl)
  · refine Or.inl ?_
    unfold planExit
    rw [if_neg hyes]
    exact spares_nil

/-- So it is for every command. -/
theorem handle_kills (command : Line) :
    Spares (plan d.debug p.defaultCompilationUnit command p.input) ∨
      plan d.debug p.defaultCompilationUnit command p.input = [.kill] ∧
        Post (handle K env n command p) d fun t _ => t = .returned 0 := by
  have hcase : ∀ {c : Prop} [Decidable c] {x y : DbgM σ Turn} {f g : List Deed}, Spares f →
      (Spares g ∨ g = [.kill] ∧ Post y d fun t _ => t = .returned 0) →
      (Spares (if c then f else g) ∨ (if c then f else g) = [.kill] ∧
        Post (if c then x else y) d fun t _ => t = .returned 0) := by
    intro c _ x y f g hf hg
    split
    · exact Or.inl hf
    · exact hg
  unfold plan handle
  refine hcase (spares_ite (spares_single nofun) (spares_single nofun)) ?_
  refine hcase spares_nil (hcase spares_nil (hcase spares_nil ?_))
  refine hcase (spares_ite (spares_ite (spares_flatMap
    (spares_decimal (.placeLine p.defaultCompilationUnit) fun _ => nofun) _) spares_nil) spares_nil) ?_
  refine hcase (spares_ite (spares_flatMap (spares_hex .place fun _ => nofun) _) spares_nil) ?_
  refine hcase (spares_ite (spares_single nofun) spares_nil) (hcase spares_nil ?_)
  refine hcase (spares_ite (spares_flatMap (spares_decimal .remove fun _ => nofun) _) spares_nil) ?_
  refine hcase (planSet_spares _ _ _ _) ?_
  refine hcase (spares_flatMap (spares_decimal .disable fun _ => nofun) _) ?_
  refine hcase (spares_ite (spares_ite spares_nil (spares_single nofun)) (spares_single nofun)) ?_
  refine hcase (spares_single nofun) (hcase (planStep_spares _) ?_)
  split
  · exact handleExit_kills
  · exact Or.inl spares_nil

/-! ## Turns -/

/-- A command performs its plan. -/
theorem handle_performs (command : Line) :
    Post (handle K env n command p) d (Performs K env n (p.li, d)
      (plan d.debug p.defaultCompilationUnit command p.input) p.input
        (questions d.debug command p.input)) := by
  have hcase : ∀ {c : Prop} [Decidable c] {x y : DbgM σ Turn} {f g : List Deed} {k l : Nat},
      Post x d (Performs K env n (p.li, d) f p.input k) →
      Post y d (Performs K env n (p.li, d) g p.input l) →
      Post (if c then x else y) d
        (Performs K env n (p.li, d) (if c then f else g) p.input (if c then k else l)) := by
    intro c _ x y f g k l hx hy
    split
    · exact hx
    · exact hy
  unfold plan questions handle
  refine hcase handleRun_performs ?_
  refine hcase (handleList_performs _) ?_
  refine hcase (handleListsym_performs _) ?_
  refine hcase (handleSelect_performs _) ?_
  refine hcase (handleBreakl_performs _) ?_
  refine hcase (handleBreak_performs _) ?_
  refine hcase handleInfoRegisters_performs ?_
  refine hcase handlePrintb_performs ?_
  refine hcase (handleDelete_performs _) ?_
  refine hcase (handleSet_performs command _) ?_
  refine hcase (handleDisable_performs _) ?_
  refine hcase (handleInfo_performs _) ?_
  refine hcase handleAuto_performs ?_
  refine hcase (handleStep_performs _) ?_
  refine hcase handleExit_performs ?_
  exact post_ite (fun _ => handleHelp_performs) fun _ => atPrompt_performs rfl rfl

/-- A turn performs its plan, and a turn that comes back to the prompt has read a line. -/
theorem mainTurn_performs (K : Kernel σ) (env : Loaded σ) (n : Nat) (p : Prompt) (d : Main σ) :
    Post (mainTurn K env n p) d fun t d' =>
      Performs K env n (p.li, d) (turnPlan d.debug p) p.input.tail (turnQuestions d.debug p) t d' ∧
        ∀ p', t = .prompt p' → p.input ≠ [] := by
  unfold turnPlan turnQuestions mainTurn
  refine post_bind (log_spoke .prompt [] d) ?_
  intro _ d₁ hs
  rw [← hs.debug]
  have hsaid : ∀ {deeds lines asked t d'}, Performs K env n (p.li, d₁) deeds lines asked t d' →
      Performs K env n (p.li, d) deeds lines asked t d' := fun h => h.said (Said.spoke hs)
  cases p.input with
  | nil =>
    refine post_mono (P := fun t d' => Performs K env n (p.li, d₁) [] [] 1 t d' ∧ t = .returned (-1))
      ?_ fun t d' h => ⟨hsaid h.1, fun p' hp' => ?_⟩
    · refine post_and (said_bind (log_spoke .error [] d₁) fun _ _ _ =>
        unanswered_performs Nat.one_pos) ?_
      exact post_bind (log_spoke .error [] d₁) fun _ _ _ => post_pure rfl
    · rw [h.2] at hp'
      cases hp'
  | cons command lines =>
    simp only [List.tail_cons]
    refine post_ite (fun hempty => ?_) fun hempty => ?_
    · rw [if_pos hempty, if_pos hempty]
      exact post_mono (atPrompt_performs rfl rfl)
        fun t d' h => ⟨hsaid h, fun _ _ => List.cons_ne_nil _ _⟩
    · rw [if_neg hempty, if_neg hempty]
      exact post_mono (handle_performs (p := { p with input := lines }) command)
        fun t d' h => ⟨hsaid h, fun _ _ => List.cons_ne_nil _ _⟩

/-- A turn that kills returns. -/
theorem mainTurn_kills (K : Kernel σ) (env : Loaded σ) (n : Nat) (p : Prompt) (d : Main σ) :
    Spares (turnPlan d.debug p) ∨
      turnPlan d.debug p = [.kill] ∧ Post (mainTurn K env n p) d fun t _ => t = .returned 0 := by
  unfold turnPlan
  cases hinput : p.input with
  | nil => exact Or.inl spares_nil
  | cons command lines =>
    by_cases hempty : command = []
    · exact Or.inl (by simpa only [if_pos hempty] using spares_nil)
    · simp only [if_neg hempty]
      rcases @handle_kills _ K env n { d with out := d.out ++ [⟨.prompt, "[zkz] ", []⟩] }
        { p with input := lines } command with h | ⟨h, hpost⟩
      · exact Or.inl h
      · refine Or.inr ⟨h, ?_⟩
        unfold mainTurn
        refine post_bind_ok rfl ?_
        rw [hinput]
        simp only [if_neg hempty]
        exact hpost

end Handlers

/-! ## Sessions -/

/-- Some number of turns, one after the other, and the deeds that were done in them: all that were
planned in every turn that came back to the prompt, which is not to kill. The next prompt finds the
input behind the answers to the questions. -/
inductive Dialogue (K : Kernel σ) (env : Loaded σ) (n : Nat) :
    Nat → Prompt → Main σ → List Done → Turn → Main σ → Prop
  | pause (p : Prompt) (d : Main σ) : Dialogue K env n 0 p d [] (.prompt p) d
  | turn {m : Nat} {p p₁ : Prompt} {d d₁ d' : Main σ} {done done' : List Done} {t : Turn}
      (run : mainTurn K env n p d = .ok (.prompt p₁, d₁))
      (did : Did K env n (p.li, d) done (p₁.li, d₁))
      (all : done.map Prod.fst = turnPlan d.debug p) (spared : Spares (turnPlan d.debug p))
      (read : p.input ≠ []) (input : p₁.input = p.input.tail.drop (turnQuestions d.debug p))
      (rest : Dialogue K env n m p₁ d₁ done' t d') :
      Dialogue K env n (m + 1) p d (done ++ done') t d'
  | leave {m : Nat} {p : Prompt} {d d' : Main σ} {done : List Done} {li : BreakpointList} {code : Int}
      (run : mainTurn K env n p d = .ok (.returned code, d'))
      (did : Did K env n (p.li, d) done (li, d'))
      (first : done.map Prod.fst <+: turnPlan d.debug p)
      (why : Leaves p.input.tail (turnQuestions d.debug p) d' done.getLast? code) :
      Dialogue K env n (m + 1) p d done (.returned code) d'

section Sessions

variable {K : Kernel σ} {env : Loaded σ} {n m : Nat} {p p' : Prompt} {d d' : Main σ}
  {done : List Done} {t : Turn}

/-- Any number of turns are a dialogue. -/
theorem mainTurns_dialogue (K : Kernel σ) (env : Loaded σ) (n m : Nat) (p : Prompt) (d : Main σ) :
    Post (mainTurns K env n m p) d fun t d' => ∃ done, Dialogue K env n m p d done t d' := by
  induction m generalizing p d with
  | zero => exact post_pure ⟨[], .pause p d⟩
  | succ m ih =>
    have hrun : Post (mainTurn K env n p) d fun t d' => mainTurn K env n p d = .ok (t, d') :=
      fun _ _ h => h
    have hkills : Post (mainTurn K env n p) d fun t _ => Spares (turnPlan d.debug p) ∨
        t = .returned 0 := by
      rcases mainTurn_kills K env n p d with hspares | ⟨-, hkills⟩
      · exact fun _ _ _ => Or.inl hspares
      · exact post_mono hkills fun _ _ => Or.inr
    refine post_bind (post_and hrun (post_and (mainTurn_performs K env n p d) hkills)) ?_
    rintro t d₁ ⟨hturn, ⟨⟨done, li, hdid, hends⟩, hread⟩, hspared⟩
    cases t with
    | prompt p₁ =>
      obtain ⟨hall, rfl, hinput⟩ := hends
      have hspares := hspared.resolve_right (fun h => by cases h)
      refine post_mono (ih p₁ d₁) ?_
      rintro t d' ⟨done', hrest⟩
      exact ⟨done ++ done', .turn hturn hdid hall hspares (hread p₁ rfl) hinput hrest⟩
    | returned code => exact post_pure ⟨done, .leave hturn hdid hends.1 hends.2⟩

theorem mainTurns_turn {p₁ : Prompt} {d₁ : Main σ} (h : mainTurn K env n p d = .ok (.prompt p₁, d₁))
    (m : Nat) : mainTurns K env n (m + 1) p d = mainTurns K env n m p₁ d₁ := run_bind_ok h

/-- Every turn that comes back to the prompt takes a line of the input. -/
theorem Dialogue.shortens (h : Dialogue K env n m p d done (.prompt p') d') :
    p'.input <:+ p.input ∧ p'.input.length + m ≤ p.input.length := by
  generalize ht : Turn.prompt p' = t at h
  induction h with
  | pause p d =>
    cases ht
    exact ⟨List.suffix_refl _, Nat.le_refl _⟩
  | turn _ _ _ _ hread hinput _ ih =>
    obtain ⟨hsuffix, hlen⟩ := ih ht
    have hlines := List.length_pos_iff.mpr hread
    rw [hinput] at hsuffix hlen
    rw [List.length_drop, List.length_tail] at hlen
    exact ⟨(hsuffix.trans (List.drop_suffix _ _)).trans (List.tail_suffix _), by omega⟩
  | leave => cases ht

/-- A dialogue is a path of deeds. -/
theorem Dialogue.did (h : Dialogue K env n m p d done t d') :
    ∃ li, Did K env n (p.li, d) done (li, d') ∧ ∀ p', t = .prompt p' → p'.li = li := by
  induction h with
  | pause p d => exact ⟨p.li, .nil _, fun p' hp' => by cases hp'; rfl⟩
  | turn _ hdid _ _ _ _ _ ih =>
    obtain ⟨li, hrest, hli⟩ := ih
    exact ⟨li, hdid.append hrest, hli⟩
  | leave _ hdid _ _ => exact ⟨_, hdid, fun p' hp' => by cases hp'⟩

/-- A deed of the plan of a prompt that is reached. -/
def Typed (K : Kernel σ) (env : Loaded σ) (n : Nat) (p : Prompt) (d : Main σ) (deed : Deed) : Prop :=
  ∃ j q e, mainTurns K env n j p d = .ok (.prompt q, e) ∧ deed ∈ turnPlan e.debug q

theorem Typed.of_turn {p₁ : Prompt} {d₁ : Main σ} {deed : Deed}
    (hrun : mainTurn K env n p d = .ok (.prompt p₁, d₁)) (h : Typed K env n p₁ d₁ deed) :
    Typed K env n p d deed := by
  obtain ⟨j, q, e, hj, hdeed⟩ := h
  exact ⟨j + 1, q, e, (mainTurns_turn hrun j).trans hj, hdeed⟩

/-- Such a deed is read off lines of the input. -/
theorem Typed.lines {deed : Deed} (h : Typed K env n p d deed) :
    ∃ debug unit command lines, command :: lines <:+ p.input ∧
      deed ∈ plan debug unit command lines := by
  obtain ⟨j, q, e, hrun, hdeed⟩ := h
  obtain ⟨done, hdialogue⟩ := mainTurns_dialogue K env n j p d _ _ hrun
  have hsuffix := hdialogue.shortens.1
  unfold turnPlan at hdeed
  cases hq : q.input with
  | nil =>
    rw [hq] at hdeed
    exact absurd hdeed List.not_mem_nil
  | cons command lines =>
    rw [hq] at hdeed hsuffix
    simp only at hdeed
    split at hdeed
    · exact absurd hdeed List.not_mem_nil
    · exact ⟨_, _, command, lines, hsuffix, hdeed⟩

/-- Every deed of a dialogue was typed. -/
theorem Dialogue.typed (h : Dialogue K env n m p d done t d') :
    ∀ x ∈ done, Typed K env n p d x.1 := by
  induction h with
  | pause => exact fun x hx => absurd hx List.not_mem_nil
  | @turn m p p₁ d d₁ _ _ _ _ hrun _ hall _ _ _ _ ih =>
    intro x hx
    rcases List.mem_append.mp hx with hx | hx
    · exact ⟨0, p, d, rfl, hall ▸ List.mem_map_of_mem hx⟩
    · exact (ih x hx).of_turn hrun
  | @leave m p d _ _ _ _ _ _ hfirst _ =>
    exact fun x hx => ⟨0, p, d, rfl, hfirst.subset (List.mem_map_of_mem hx)⟩

/-- A dialogue that returns has a last prompt, and there a reason in the last deed, or in an answer
that is missing or empty. -/
theorem Dialogue.leaves {code : Int} (h : Dialogue K env n m p d done (.returned code) d') :
    ∃ j q e last li, j < m ∧ mainTurns K env n j p d = .ok (.prompt q, e) ∧
      mainTurn K env n q e = .ok (.returned code, d') ∧ Did K env n (q.li, e) last (li, d') ∧
        last.map Prod.fst <+: turnPlan e.debug q ∧
          Leaves q.input.tail (turnQuestions e.debug q) d' last.getLast? code := by
  generalize ht : Turn.returned code = t at h
  induction h with
  | pause => cases ht
  | turn hrun _ _ _ _ _ _ ih =>
    obtain ⟨j, q, e, last, li, hj, hturns, hlast⟩ := ih ht
    exact ⟨j + 1, q, e, last, li, Nat.succ_lt_succ hj, (mainTurns_turn hrun j).trans hturns, hlast⟩
  | @leave m p d _ last li _ hrun hdid hfirst hwhy =>
    cases ht
    exact ⟨0, p, d, last, li, Nat.succ_pos m, rfl, hrun, hdid, hfirst, hwhy⟩

end Sessions

end Zkz.Debugger
