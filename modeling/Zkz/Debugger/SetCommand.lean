import Zkz.Debugger.History
import Zkz.Debugger.Registers
import Zkz.Debugger.Select

/-!
# The three shapes of `set`

`set` takes a register and a value from its line, or asks for the value, or asks for both. The
handler tells the shapes apart by the number of words, but for the third one it compares the length
of the line. So a line with a register and a value is ignored, and the two other shapes differ in
what they do when `SetRegister` fails.

* `typed_line`, `mainTurn_value`, `mainTurn_both`: what each shape does.
* `set_shapes_agree_iff`: the shapes agree exactly when the value is a text that is no number.
-/

namespace Zkz.Debugger

open Zkz.Lib BreakpointList

variable {σ : Type}

/-! ## Words of a line -/

/-- The names of the registers are words without punctuation. -/
theorem regname_word {x : Reg} (hx : x ∈ registers) : ' ' ∉ x.regname.toList ∧
    (x.regname.toList.filter fun c => !ispunct c) = x.regname.toList ∧
    tokenize x.regname.toList = [x.regname.toList] ∧ x.regname.toList ≠ [] := by
  have hnames : ∀ name ∈ registers.map (·.regname.toList), ' ' ∉ name ∧
      (name.filter fun c => !ispunct c) = name ∧ tokenize name = [name] ∧ name ≠ [] := by decide
  exact hnames _ (List.mem_map_of_mem hx)

/-! ## The shapes -/

/-- `set R T`. -/
def setLine (regname value : Line) : Line := "set".toList ++ ' ' :: (regname ++ ' ' :: value)

/-- `set R`, and T at the question. -/
def setAsking (regname : Line) : Line := "set".toList ++ ' ' :: regname

/-- What a turn makes of some lines of input: how it ends, and the debugger and the debuggee after
it, messages apart. -/
def typed (K : Kernel σ) (env : Loaded σ) (n : Nat) (p : Prompt) (d : Main σ) (input : List Line) :
    Except Fault (Turn × Debug × UserRegs × σ) :=
  (mainTurn K env n { p with input := input } d).map fun r =>
    (r.1, r.2.debug, r.2.regs, r.2.kernel)

/-- The three shapes agree on a register and a value, with the same lines to follow: the calls of
`SetRegister` and their results are among the events of the kernel. -/
def ShapesAgree (K : Kernel σ) (env : Loaded (σ × List Event)) (n : Nat) (p : Prompt)
    (d : Main (σ × List Event)) (regname value : Line) (rest : List Line) : Prop :=
  typed K.noted env n p d (setLine regname value :: rest) =
      typed K.noted env n p d (setAsking regname :: value :: rest) ∧
    typed K.noted env n p d (setAsking regname :: value :: rest) =
      typed K.noted env n p d ("set".toList :: regname :: value :: rest)

section Shapes

variable {K : Kernel σ} {env : Loaded σ} {n : Nat} {p : Prompt} {d : Main σ} {command : Line}
  {value : Line} {rest : List Line} {x : Reg}

theorem handle_set (h : (tokenize command).headD [] = "set".toList) :
    handle K env n command p = handleSet K command (tokenize command) p := by
  have hfirst : isOneOf ["set"] (firstWord command) = true := by
    rw [firstWord, h]
    decide
  obtain ⟨hrun, hinfo, hprintb⟩ := none_whole (P := fun _ => True) trivial hfirst (by decide)
  unfold handle
  rw [hrun, hinfo, hprintb]
  simp only [h]
  rfl

variable (K env n p d rest) in
/-- A turn that begins with a `set` while the program runs. -/
theorem mainTurn_set (hne : command ≠ []) (h : (tokenize command).headD [] = "set".toList) :
    mainTurn K env n { p with input := command :: rest } d =
      handleSet K command (tokenize command) { p with input := rest }
        { d with out := d.out ++ [⟨.prompt, "[zkz] ", []⟩] } := by
  rw [mainTurn_command K env n p d hne, handle_set h]

theorem typed_of_run {input : List Line} {t : Turn} {d' : Main σ}
    (h : mainTurn K env n { p with input := input } d = .ok (t, d')) :
    typed K env n p d input = .ok (t, d'.debug, d'.regs, d'.kernel) := by
  unfold typed
  rw [h]
  rfl

/-- A value that is no number is refused. -/
theorem setTo_refused {e : StoError} (h : stoll value = .error e) (regname : Line)
    (invalid : String) (limit : Int) (q : Prompt) (d : Main σ) :
    ∃ out, setTo K regname value invalid limit q d = .ok (.prompt q, { d with out := out }) := by
  unfold setTo
  rw [h]
  cases e with
  | outOfRange => exact ⟨_, rfl⟩
  | invalidArgument => exact ⟨_, rfl⟩

/-- A value that is a number is set, and `limit` decides whether a failure ends the loop. -/
theorem setTo_run {v : Int} (h : stoll value = .ok v) (hx : x ∈ registers) (invalid : String)
    (limit : Int) (q : Prompt) (d : Main σ) :
    ∃ out, setTo K x.regname.toList value invalid limit q d =
      .ok (if (if (written K (x.set d.regs (BitVec.ofInt 64 v)) d).1 = true then 0 else -1) < limit
          then .returned (-1) else .prompt q,
        ⟨d.debug, x.set d.regs (BitVec.ofInt 64 v),
          (written K (x.set d.regs (BitVec.ofInt 64 v)) d).2, out⟩) := by
  obtain ⟨out, hrun⟩ := setRegister_run (K := K) hx (BitVec.ofInt 64 v) d
  refine ⟨out, ?_⟩
  unfold setTo
  rw [h]
  simp only [String.ofList_toList]
  rw [run_bind_ok hrun]
  by_cases hends :
      (if (written K (x.set d.regs (BitVec.ofInt 64 v)) d).1 = true then (0 : Int) else -1) < limit
  · rw [if_pos hends, if_pos hends]
    rfl
  · rw [if_neg hends, if_neg hends]
    rfl

/-- The words of the three shapes. -/
theorem tokenize_setAsking (hx : x ∈ registers) :
    tokenize (setAsking x.regname.toList) = ["set".toList, x.regname.toList] := by
  unfold setAsking
  rw [tokenize_append (by decide), (regname_word hx).2.2.1]
  rfl

theorem tokenize_setLine (hx : x ∈ registers) (value : Line) :
    tokenize (setLine x.regname.toList value) =
      "set".toList :: x.regname.toList :: tokenize value := by
  obtain ⟨hblank, hpunct, -⟩ := regname_word hx
  unfold setLine
  rw [tokenize_append (by decide), tokenize_append hblank, hpunct]
  rfl

/-- A line with a value is ignored: it has more than three characters. -/
theorem typed_line (hrunning : d.debug.isRunning = true) (hx : x ∈ registers) (hvalue : value ≠ []) :
    typed K env n p d (setLine x.regname.toList value :: rest) =
      .ok (.prompt { p with input := rest }, d.debug, d.regs, d.kernel) := by
  have htokens := tokenize_setLine hx value
  have hset : (tokenize (setLine x.regname.toList value)).headD [] = "set".toList := by
    rw [htokens]
    rfl
  obtain ⟨word, words, hwords⟩ := List.exists_cons_of_ne_nil (tokenize_ne_nil hvalue)
  have hlength : (setLine x.regname.toList value).length ≠ 3 :=
    length_ne_three hset (by rw [htokens, hwords]; simp)
  have hturn := mainTurn_set K env n p d rest (by simp [setLine]) hset
  rw [htokens, hwords] at hturn
  unfold handleSet whenRunning at hturn
  rw [run_bind_ok (by rfl), if_pos (by exact hrunning)] at hturn
  simp only [List.length_cons, Nat.add_eq_right, Nat.add_eq_zero_iff, List.length_eq_zero_iff,
    one_ne_zero, and_false, if_false, if_neg hlength] at hturn
  rw [typed_of_run hturn]

variable (K env n p rest) in
/-- A line without a value asks for it. -/
theorem mainTurn_asks (hrunning : d.debug.isRunning = true) {regname : Line}
    (htokens : tokenize command = ["set".toList, regname]) (hne : command ≠ []) :
    ∃ out, mainTurn K env n { p with input := command :: rest } d =
      ask "Enter value" "IO error" { p with input := rest } (complain "Invalid value")
        (fun word p => setTo K regname word "Invalid value :%s\n" 0 p) { d with out := out } := by
  refine ⟨d.out ++ [⟨.prompt, "[zkz] ", []⟩], ?_⟩
  rw [mainTurn_set K env n p d rest hne (by rw [htokens]; rfl), htokens]
  unfold handleSet whenRunning
  rw [run_bind_ok (by rfl), if_pos (by exact hrunning)]
  rfl

variable (K env n p rest) in
theorem mainTurn_value (hrunning : d.debug.isRunning = true) (hx : x ∈ registers)
    (hvalue : value ≠ []) :
    ∃ out, mainTurn K env n { p with input := setAsking x.regname.toList :: value :: rest } d =
      setTo K x.regname.toList value "Invalid value :%s\n" 0 { p with input := rest }
        { d with out := out } := by
  obtain ⟨out, hturn⟩ := mainTurn_asks K env n p (value :: rest) hrunning
    (tokenize_setAsking hx) (by simp [setAsking])
  refine ⟨out ++ [⟨.prompt, "Enter value", []⟩], ?_⟩
  unfold ask at hturn
  rw [hturn, run_bind_ok (by rfl)]
  simp only
  rw [if_neg hvalue]

variable (K env n p rest) in
theorem mainTurn_both (hrunning : d.debug.isRunning = true) (hx : x ∈ registers)
    (hvalue : value ≠ []) :
    ∃ out, mainTurn K env n
        { p with input := "set".toList :: x.regname.toList :: value :: rest } d =
      setTo K x.regname.toList value "Invalid value :%s\n" (-1) { p with input := rest }
        { d with out := out } := by
  refine ⟨d.out ++ [⟨.prompt, "[zkz] ", []⟩] ++ [⟨.prompt, "Enter register name", []⟩] ++
    [⟨.prompt, "Enter value", []⟩], ?_⟩
  rw [mainTurn_set K env n p d _ (by decide) (by decide)]
  unfold handleSet whenRunning
  rw [run_bind_ok (by rfl), if_pos (by exact hrunning), if_pos (by decide)]
  unfold ask
  rw [run_bind_ok (by rfl)]
  simp only
  rw [if_neg (regname_word hx).2.2.2, run_bind_ok (by rfl)]
  simp only
  rw [if_neg hvalue]

/-- What a shape that ends with the conversion of the value does. -/
theorem typed_of_setTo (hx : x ∈ registers) {input : List Line} {invalid : String} {limit : Int}
    {out : List LogLine}
    (h : mainTurn K env n { p with input := input } d =
      setTo K x.regname.toList value invalid limit { p with input := rest } { d with out := out }) :
    typed K env n p d input = match stoll value with
      | .error _ => .ok (.prompt { p with input := rest }, d.debug, d.regs, d.kernel)
      | .ok v => .ok (if (if (written K (x.set d.regs (BitVec.ofInt 64 v)) d).1 = true
            then 0 else -1) < limit then .returned (-1) else .prompt { p with input := rest },
          d.debug, x.set d.regs (BitVec.ofInt 64 v),
          (written K (x.set d.regs (BitVec.ofInt 64 v)) d).2) := by
  cases hv : stoll value with
  | error e =>
    obtain ⟨out', hrun⟩ := setTo_refused (K := K) hv x.regname.toList invalid limit
      { p with input := rest } { d with out := out }
    rw [typed_of_run (h.trans hrun)]
  | ok v =>
    obtain ⟨out', hrun⟩ := setTo_run (K := K) hv hx invalid limit { p with input := rest }
      { d with out := out }
    exact typed_of_run (h.trans hrun)

/-- An empty answer is refused, in both shapes that ask for the value. -/
theorem typed_value_empty (hrunning : d.debug.isRunning = true) (hx : x ∈ registers) :
    typed K env n p d (setAsking x.regname.toList :: [] :: rest) =
      .ok (.prompt { p with input := rest }, d.debug, d.regs, d.kernel) := by
  obtain ⟨out, hturn⟩ := mainTurn_asks K env n p ([] :: rest) hrunning
    (tokenize_setAsking hx) (by simp [setAsking])
  unfold ask at hturn
  rw [run_bind_ok (by rfl)] at hturn
  rw [typed_of_run hturn]

/-- A line that ends with a blank asks for the value, and the answer is one of the lines to
follow. -/
theorem typed_line_empty (hrunning : d.debug.isRunning = true) (hx : x ∈ registers) :
    typed K env n p d (setLine x.regname.toList [] :: rest) ≠
      .ok (.prompt { p with input := rest }, d.debug, d.regs, d.kernel) := by
  obtain ⟨out, hturn⟩ := mainTurn_asks K env n p rest hrunning (tokenize_setLine hx [])
    (by simp [setLine])
  unfold ask at hturn
  rw [run_bind_ok (by rfl)] at hturn
  cases rest with
  | nil =>
    rw [typed_of_run hturn]
    simp
  | cons word rest =>
    by_cases hword : word = []
    · simp only [if_pos hword] at hturn
      rw [typed_of_run hturn]
      simp
    · simp only [if_neg hword] at hturn
      rw [typed_of_setTo hx hturn]
      split
      · simp
      · split
        · split
          · simp
          · simp
        · split
          · simp
          · simp

/-- **The three shapes of `set` agree** on a register and a value exactly when the value is a text
that is no number: then none of them calls `SetRegister`. -/
theorem set_shapes_agree_iff (K : Kernel σ) (env : Loaded (σ × List Event)) (n : Nat) (p : Prompt)
    (d : Main (σ × List Event)) (hrunning : d.debug.isRunning = true) (x : Reg) (hx : x ∈ registers)
    (value : Line) (rest : List Line) :
    ShapesAgree K env n p d x.regname.toList value rest ↔
      value ≠ [] ∧ ∃ e, stoll value = .error e := by
  unfold ShapesAgree
  by_cases hvalue : value = []
  · rw [hvalue, typed_value_empty hrunning hx]
    exact iff_of_false (fun h => typed_line_empty hrunning hx h.1) fun h => h.1 rfl
  · obtain ⟨out, hasked⟩ := mainTurn_value K.noted env n p rest hrunning hx hvalue
    obtain ⟨out', hboth⟩ := mainTurn_both K.noted env n p rest hrunning hx hvalue
    rw [typed_line hrunning hx hvalue, typed_of_setTo hx hasked, typed_of_setTo hx hboth]
    cases hv : stoll value with
    | error e => exact iff_of_true ⟨rfl, rfl⟩ ⟨hvalue, e, rfl⟩
    | ok v =>
      refine iff_of_false (fun h => ?_) fun h => ?_
      · -- the call is noted
        have hkernel := (Prod.mk.inj (Prod.mk.inj (Prod.mk.inj (Except.ok.inj h.1)).2).2).2
        have hevents := congrArg (fun s : σ × List Event => s.2.length) hkernel
        simp [written, Kernel.noted, noteAnswer] at hevents
      · obtain ⟨-, e, he⟩ := h
        cases he

end Shapes

/-! ## A value of each kind -/

/-- The debugger of a stopped debuggee, with no events so far. -/
def notedMain : Main (Mem × List Event) :=
  { Main.init ((fun _ => 0 : Mem), []) with debug := { Debug.init with isRunning := true } }

/-- A value that is no number. -/
theorem shapes_agree_zz : ShapesAgree stoppedKernel (nothingLoaded _) 0 ⟨[], 0, []⟩ notedMain
    "rax".toList "zz".toList [] :=
  (set_shapes_agree_iff stoppedKernel (nothingLoaded _) 0 ⟨[], 0, []⟩ notedMain rfl
    ⟨"rax", UserRegs.rax, fun r v => { r with rax := v }⟩ List.mem_cons_self "zz".toList []).mpr
      ⟨by decide, .invalidArgument, rfl⟩

/-- Is the loop at its prompt, and how many requests were made. -/
def promptAndRequests (o : Except Fault (Turn × Debug × UserRegs × (Mem × List Event))) :
    Option (Bool × Nat) :=
  o.toOption.map fun r => (match r.1 with
    | .prompt _ => true
    | .returned _ => false, r.2.2.2.2.length)

/-- A number that the kernel refuses to set: the first shape does not call `SetRegister`, the second
ends the main loop, and the third comes back to the prompt. -/
theorem shapes_differ_five :
    promptAndRequests (typed stoppedKernel.noted (nothingLoaded _) 0 ⟨[], 0, []⟩ notedMain
        ["set rax 5".toList]) = some (true, 0) ∧
      promptAndRequests (typed stoppedKernel.noted (nothingLoaded _) 0 ⟨[], 0, []⟩ notedMain
        ["set rax".toList, "5".toList]) = some (false, 1) ∧
      promptAndRequests (typed stoppedKernel.noted (nothingLoaded _) 0 ⟨[], 0, []⟩ notedMain
        ["set".toList, "rax".toList, "5".toList]) = some (true, 1) ∧
      ¬ ShapesAgree stoppedKernel (nothingLoaded _) 0 ⟨[], 0, []⟩ notedMain "rax".toList "5".toList
        [] := by
  have hline : promptAndRequests (typed stoppedKernel.noted (nothingLoaded _) 0 ⟨[], 0, []⟩ notedMain
      ["set rax 5".toList]) = some (true, 0) := by decide +kernel
  have hvalue : promptAndRequests (typed stoppedKernel.noted (nothingLoaded _) 0 ⟨[], 0, []⟩
      notedMain ["set rax".toList, "5".toList]) = some (false, 1) := by decide +kernel
  refine ⟨hline, hvalue, by decide +kernel, ?_⟩
  intro hagree
  have hsame := congrArg promptAndRequests hagree.1
  rw [show setLine "rax".toList "5".toList = "set rax 5".toList from rfl, hline,
    show setAsking "rax".toList = "set rax".toList from rfl, hvalue] at hsame
  cases hsame

end Zkz.Debugger
