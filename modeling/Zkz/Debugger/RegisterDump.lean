import Zkz.Debugger.Answers
import Zkz.Debugger.Log
import Zkz.Debugger.Numerals
import Zkz.Debugger.Stopped
import Zkz.Debugger.Tables

/-!
# Registers as they are printed

`InfoRegistersAll` and the handlers of `InfoRegister` give `Log::Print` directives with a length,
`%llx` and `%lx`, which it does not know: it prints the letters behind the first one and takes no
argument. So four of the sixteen registers are printed without a value, and each of the others with
the value of the register four places before it.

`InfoRegister` does not even return: its loop over the table has no bound.

* `registersLine_text`: what `InfoRegistersAll` prints.
* `infoRegistersAll_never`: it never is what it is to print.
* `infoHandler_text`: what `InfoRegister` prints for a name of the table.
* `infoRegister_never`: it reads beyond the table for every name.
-/

namespace Zkz.Debugger

open Zkz.Lib

variable {σ : Type}

/-! ## Printed texts -/

/-- The text of a call of `log`, with buffers that have room for it. -/
def LogLine.text (l : LogLine) : Except LogFault Line :=
  Log.static.call fullText l.level l.msg.toList l.args

/-- The text of several calls. -/
def textOf : List LogLine → Except LogFault Line
  | [] => return []
  | l :: lines => do
    let text ← l.text
    let rest ← textOf lines
    return text ++ rest

/-- What was printed between two states. -/
def PrintedText (d d' : Main σ) (text : Line) : Prop :=
  ∃ lines, d'.out = d.out ++ lines ∧ textOf lines = .ok text

/-- Some line of the text has, behind its tabs, a name and next to it a value in hexadecimal. -/
def ShowsRegister (text name : Line) (value : Word) : Prop :=
  ∃ line ∈ text.splitOn '\n', ∃ numeral, line.dropWhile (· = '\t') = name ++ ": ".toList ++ numeral ∧
    hexNumeral numeral = some value.toNat

example : ShowsRegister "\tRAX: 0x2A\n".toList "RAX".toList 0x2a :=
  ⟨"\tRAX: 0x2A".toList, by decide, "0x2A".toList, by decide, by decide⟩

/-- The name of a register in capitals. -/
def Reg.capitals (x : Reg) : Line := x.regname.toList.map Char.toUpper

/-- The lines that `InfoRegistersAll` prints. -/
def dumpLines (r : UserRegs) : List Line :=
  ["Info registers :".toList, "\tRAX: ".toList ++ ['l', 'x'], "\tRCX: ".toList ++ ['l', 'x'],
    "\tRDX: ".toList ++ ['l', 'x'], "\tRBX: ".toList ++ ['l', 'x'],
    "\tRSP: ".toList ++ '0' :: 'x' :: upperHex r.rax,
    "\tRBP: ".toList ++ '0' :: 'x' :: upperHex r.rcx,
    "\tRSI: ".toList ++ '0' :: 'x' :: upperHex r.rdx,
    "\tRDI: ".toList ++ '0' :: 'x' :: upperHex r.rbx,
    "\tR8: ".toList ++ '0' :: 'x' :: upperHex r.rsp,
    "\tR9: ".toList ++ '0' :: 'x' :: upperHex r.rbp,
    "\tR10: ".toList ++ '0' :: 'x' :: upperHex r.rsi,
    "\tR11: ".toList ++ '0' :: 'x' :: upperHex r.rdi,
    "\tR12: ".toList ++ '0' :: 'x' :: upperHex r.r8,
    "\tR13: ".toList ++ '0' :: 'x' :: upperHex r.r9,
    "\tR14: ".toList ++ '0' :: 'x' :: upperHex r.r10,
    "R15: ".toList ++ '0' :: 'x' :: upperHex r.r11]

/-! ## Expansions -/

theorem expand_append {plain : Line} (h : '%' ∉ plain) (fmt : Line) (args : List LogArg) :
    expand (plain ++ fmt) args = plain ++ expand fmt args := by
  induction plain with
  | nil => rfl
  | cons c plain ih =>
    obtain ⟨hc, hrest⟩ := not_or.mp (List.mem_cons.not.mp h)
    rw [List.cons_append, expand_char (Ne.symm hc), ih hrest, List.cons_append]

theorem expand_hex (x : Word) (fmt : Line) (args : List LogArg) :
    expand ('%' :: 'x' :: fmt) (.hex x :: args) = '0' :: 'x' :: (upperHex x ++ expand fmt args) :=
  rfl

/-- A directive with a length loses it and takes no argument. -/
theorem expand_long (fmt : Line) (args : List LogArg) :
    expand ('%' :: 'l' :: fmt) args = expand fmt args := by
  rw [expand]
  rfl

/-- The format of `InfoRegistersAll`, by its directives. -/
theorem registersLine_msg (r : UserRegs) : (registersLine r).msg.toList =
    "Info registers :".toList ++ '\n' ::
      ("\tRAX: ".toList ++ '%' :: 'l' :: 'l' :: 'x' :: '\n' ::
      ("\tRCX: ".toList ++ '%' :: 'l' :: 'l' :: 'x' :: '\n' ::
      ("\tRDX: ".toList ++ '%' :: 'l' :: 'l' :: 'x' :: '\n' ::
      ("\tRBX: ".toList ++ '%' :: 'l' :: 'l' :: 'x' :: '\n' ::
      ("\tRSP: ".toList ++ '%' :: 'x' :: '\n' :: ("\tRBP: ".toList ++ '%' :: 'x' :: '\n' ::
      ("\tRSI: ".toList ++ '%' :: 'x' :: '\n' :: ("\tRDI: ".toList ++ '%' :: 'x' :: '\n' ::
      ("\tR8: ".toList ++ '%' :: 'x' :: '\n' :: ("\tR9: ".toList ++ '%' :: 'x' :: '\n' ::
      ("\tR10: ".toList ++ '%' :: 'x' :: '\n' :: ("\tR11: ".toList ++ '%' :: 'x' :: '\n' ::
      ("\tR12: ".toList ++ '%' :: 'x' :: '\n' :: ("\tR13: ".toList ++ '%' :: 'x' :: '\n' ::
      ("\tR14: ".toList ++ '%' :: 'x' :: '\n' ::
      ("R15: ".toList ++ ['%', 'x', '\n'])))))))))))))))) := by
  show (registersLine {}).msg.toList = _
  decide +kernel

theorem expand_registers (r : UserRegs) :
    expand (registersLine r).msg.toList (registersLine r).args =
      (dumpLines r).flatMap fun line => line ++ ['\n'] := by
  rw [registersLine_msg]
  unfold registersLine dumpLines
  simp (disch := decide) only [expand_append, expand_long, expand_hex, expand_char]
  simp only [List.flatMap_cons, List.flatMap_nil, List.append_assoc, List.cons_append, List.nil_append]
  rfl

/-- A format whose directives are supplied is printed, if it is short and prints no string. -/
theorem print_expanded {fmt : Line} {args : List LogArg} (hargs : Supplies fmt args)
    (hshort : 's' ∉ directives fmt) (hend : 0 + endIndex fmt < 2 ^ 31) :
    Log.static.call fullText .print fmt args = .ok (expand fmt args) := by
  have hstate : Log.static.checkState Level.print.state ≠ 0 := by decide
  exact (call_enabled rfl hstate hargs).1 ⟨hend, shortStrings_of_not_mem hshort args⟩

/-- The twelve directives of the format that are known. -/
theorem registersLine_directives (r : UserRegs) :
    directives (registersLine r).msg.toList = List.replicate 12 'x' ∧
      0 + endIndex (registersLine r).msg.toList < 2 ^ 31 := by
  show directives (registersLine {}).msg.toList = List.replicate 12 'x' ∧
    0 + endIndex (registersLine {}).msg.toList < 2 ^ 31
  decide +kernel

theorem registersLine_text (r : UserRegs) :
    (registersLine r).text = .ok ((dumpLines r).flatMap fun line => line ++ ['\n']) := by
  obtain ⟨hdirectives, hend⟩ := registersLine_directives r
  have hshort : 's' ∉ directives (registersLine r).msg.toList := by
    rw [hdirectives]
    decide
  have hargs : Supplies (registersLine r).msg.toList (registersLine r).args := by
    refine ⟨(registersLine r).args.take 12, (registersLine r).args.drop 12, rfl, ?_⟩
    rw [hdirectives]
    simp [registersLine, List.replicate, Takes]
  rw [← expand_registers]
  exact print_expanded hargs hshort hend

/-! ## Lines -/

theorem splitOn_lines {lines : List Line} (h : ∀ line ∈ lines, '\n' ∉ line) :
    (lines.flatMap fun line => line ++ ['\n']).splitOn '\n' = lines ++ [[]] := by
  induction lines with
  | nil => rfl
  | cons line lines ih =>
    obtain ⟨hline, hlines⟩ := List.forall_mem_cons.mp h
    rw [List.flatMap_cons, List.append_assoc, List.singleton_append,
      List.splitOn_append_cons_self_of_not_mem hline, ih hlines]
    rfl

/-- The digits that %X prints are digits. -/
theorem digit_of_mem_upperHex {v : Word} {c : Char} (hc : c ∈ upperHex v) :
    (digit 16 c).isSome := by
  have hchar : ∀ d : Fin 16, (digit 16 (d.val.digitChar.toUpper)).isSome := by decide
  have hdigits : ∀ n : Nat, ∀ c ∈ Nat.toDigits 16 n, (digit 16 c.toUpper).isSome := by
    intro n
    induction n using Nat.strong_induction_on with
    | _ n ih =>
      intro c hc
      by_cases hsmall : n < 16
      · rw [Nat.toDigits_of_lt_base hsmall, List.mem_singleton] at hc
        rw [hc]
        exact hchar ⟨n, hsmall⟩
      · rw [Nat.toDigits_of_base_le (by decide) (by omega), List.mem_append,
          List.mem_singleton] at hc
        rcases hc with hc | hc
        · exact ih (n / 16) (by omega) c hc
        · rw [hc]
          exact hchar ⟨n % 16, by omega⟩
  obtain ⟨c', hc', rfl⟩ := List.mem_map.mp hc
  exact hdigits v.toNat c' hc'

theorem newline_not_mem_dumpLines (r : UserRegs) : ∀ line ∈ dumpLines r, '\n' ∉ line := by
  have hlabel : ∀ (label : Line) (v : Word), '\n' ∉ label →
      '\n' ∉ label ++ '0' :: 'x' :: upperHex v := by
    intro label v h hmem
    rcases List.mem_append.mp hmem with hmem | hmem
    · exact h hmem
    · simp only [List.mem_cons, Char.reduceEq, false_or] at hmem
      exact absurd (digit_of_mem_upperHex hmem) (by decide)
  unfold dumpLines
  simp only [List.forall_mem_cons, List.not_mem_nil, false_imp_iff, implies_true, and_true]
  refine ⟨by decide, by decide, by decide, by decide, by decide, ?_⟩
  refine ⟨?_, ?_, ?_, ?_, ?_, ?_, ?_, ?_, ?_, ?_, ?_, ?_⟩
  all_goals exact hlabel _ _ (by decide)

/-- The only line for RAX. -/
theorem rax_line (r : UserRegs) :
    ((dumpLines r).filter fun line => (line.dropWhile (· = '\t')).take 4 = "RAX:".toList) =
      ["\tRAX: ".toList ++ ['l', 'x']] := by
  rfl

/-- Next to RAX there is no number. -/
theorem not_showsRegister_rax (r : UserRegs) (value : Word) :
    ¬ ShowsRegister ((dumpLines r).flatMap fun line => line ++ ['\n']) "RAX".toList value := by
  rintro ⟨line, hline, numeral, hname, hvalue⟩
  rw [splitOn_lines (newline_not_mem_dumpLines r), List.mem_append, List.mem_singleton] at hline
  rcases hline with hline | rfl
  · have hrax : line ∈ (dumpLines r).filter fun line =>
        (line.dropWhile (· = '\t')).take 4 = "RAX:".toList := by
      refine List.mem_filter.mpr ⟨hline, ?_⟩
      rw [hname]
      rfl
    rw [rax_line, List.mem_singleton] at hrax
    rw [hrax] at hname
    have hnumeral : ['l', 'x'] = numeral := by
      have hboth : "RAX: ".toList ++ ['l', 'x'] = "RAX: ".toList ++ numeral := hname
      exact List.append_cancel_left hboth
    have hnone : hexNumeral ['l', 'x'] = none := by decide
    rw [← hnumeral, hnone] at hvalue
    cases hvalue
  · cases hname

/-! ## `InfoRegistersAll` -/

section Never

variable {K : Kernel σ} {d : Main σ} {r : UserRegs} {s₁ : σ}

theorem infoRegistersAll_printed (hget : K.getregs d.debug.pid d.kernel = (some r, s₁)) :
    ∃ d', infoRegistersAll K d = .ok (0, d') ∧ d'.out = d.out ++ [registersLine r] := by
  unfold infoRegistersAll
  rw [run_bind_ok (by simp only [ptrace, hget]; rfl)]
  exact ⟨_, rfl, rfl⟩

/-- All that is printed are the lines of the dump. -/
theorem printedText_dump {d' : Main σ} {text : Line} (hout : d'.out = d.out ++ [registersLine r]) :
    PrintedText d d' text ↔ text = (dumpLines r).flatMap fun line => line ++ ['\n'] := by
  have hdump : textOf [registersLine r] =
      .ok ((dumpLines r).flatMap fun line => line ++ ['\n']) := by
    unfold textOf
    rw [registersLine_text]
    simp [textOf, bind, Except.bind, pure, Except.pure]
  constructor
  · rintro ⟨lines, hlines, htext⟩
    rw [hout, List.append_cancel_left_eq] at hlines
    rw [← hlines, hdump] at htext
    cases htext
    rfl
  · rintro rfl
    exact ⟨[registersLine r], hout, hdump⟩

/-- **`InfoRegistersAll` never prints the values next to the names of their registers**, whatever
the kernel and the registers are. -/
theorem infoRegistersAll_never (hget : K.getregs d.debug.pid d.kernel = (some r, s₁)) :
    ¬ ∃ d' text, infoRegistersAll K d = .ok (0, d') ∧ PrintedText d d' text ∧
      ∀ x ∈ registers, ShowsRegister text x.capitals (x.info r) := by
  rintro ⟨d', text, hrun, htext, hshows⟩
  obtain ⟨d₁, hrun₁, hout⟩ := infoRegistersAll_printed hget
  rw [hrun₁] at hrun
  cases hrun
  rw [(printedText_dump hout).mp htext] at hshows
  exact not_showsRegister_rax r r.rax (hshows _ (List.mem_cons_self ..))

/-- The dump of a debuggee whose registers are 0. -/
theorem dump_wrong : ¬ ∃ d' text,
    infoRegistersAll stoppedKernel (Main.init fun _ => 0) = .ok (0, d') ∧
      PrintedText (Main.init fun _ => (0 : Byte)) d' text ∧
      ∀ x ∈ registers, ShowsRegister text x.capitals (x.info {}) :=
  infoRegistersAll_never rfl

/-- A register that is 0 is printed as the letters lx. -/
theorem rax_not_shown : ∃ d' text,
    infoRegistersAll stoppedKernel (Main.init fun _ => 0) = .ok (0, d') ∧
      PrintedText (Main.init fun _ => (0 : Byte)) d' text ∧
      ¬ ShowsRegister text "RAX".toList 0 := by
  obtain ⟨d', hrun, hout⟩ := infoRegistersAll_printed (K := stoppedKernel) (r := {})
    (d := Main.init fun _ => 0) rfl
  exact ⟨d', _, hrun, (printedText_dump hout).mpr rfl, not_showsRegister_rax {} 0⟩

/-! ## `InfoRegister` -/

/-- One line with the name and the value, if the table has the name, and otherwise nothing. -/
def RightLine (reg : String) (r : UserRegs) (text : Line) : Prop :=
  match registers.find? (·.regname = reg) with
  | none => text = []
  | some x => ∃ numeral, text = reg.toList ++ " : ".toList ++ numeral ++ ['\n'] ∧
      hexNumeral numeral = some (x.info r).toNat

/-- The loop reads on behind the table, whether it has found the name or not. -/
theorem infoRegister_overruns (hget : K.getregs d.debug.pid d.kernel = (some r, s₁))
    (reg : String) : infoRegister K reg d = .error .tableOverrun := by
  obtain ⟨d', hprint⟩ := printEach_run "%s : %lx\n"
    (fun x : Reg => [.str x.regname, .hex (x.info r)]) (registers.filter (·.regname = reg))
    { d with kernel := s₁, regs := r }
  unfold infoRegister
  rw [run_bind_ok (by simp only [ptrace, hget]; rfl)]
  simp only
  rw [run_bind_ok (by rfl), run_bind_ok hprint]
  rfl

/-- The name is printed before that, without the value. -/
theorem infoHandler_text {x : Reg} (hx : x ∈ registers) (value : Word) :
    LogLine.text ⟨.print, "%s : %lx\n", [.str x.regname, .hex value]⟩ =
      .ok (x.regname.toList ++ " : x\n".toList) := by
  have hnames : ∀ name ∈ registers.map (·.regname.toList), name.length < 2 ^ 31 := by decide
  have hmsg : "%s : %lx\n".toList = ['%', 's', ' ', ':', ' ', '%', 'l', 'x', '\n'] := by decide
  have hargs : Supplies ['%', 's', ' ', ':', ' ', '%', 'l', 'x', '\n']
      [.str x.regname, .hex value] := ⟨[.str x.regname], [.hex value], rfl, .cons trivial .nil⟩
  have hcount : Countable 0 ['%', 's', ' ', ':', ' ', '%', 'l', 'x', '\n']
      [.str x.regname, .hex value] := ⟨by decide, hnames _ (List.mem_map_of_mem hx), trivial, trivial⟩
  have hstate : Log.static.checkState Level.print.state ≠ 0 := by decide
  unfold LogLine.text
  rw [hmsg, (call_enabled rfl hstate hargs).1 hcount]
  rfl

/-- **`InfoRegister` never returns**, so that it never does what it is to do: neither for a name of
the table nor for any other. -/
theorem infoRegister_never (hget : K.getregs d.debug.pid d.kernel = (some r, s₁)) (reg : String) :
    ¬ ∃ d' text, infoRegister K reg d = .ok (0, d') ∧ PrintedText d d' text ∧
      RightLine reg r text := by
  rintro ⟨d', text, hrun, -⟩
  rw [infoRegister_overruns hget reg] at hrun
  cases hrun

theorem infoRegister_wrong : ¬ ∃ d' text,
    infoRegister stoppedKernel "rax" (Main.init fun _ => 0) = .ok (0, d') ∧
      PrintedText (Main.init fun _ => (0 : Byte)) d' text ∧ RightLine "rax" {} text :=
  infoRegister_never rfl "rax"

/-- A name of the table and one that is not. -/
theorem table_overrun :
    infoRegister stoppedKernel "rax" (Main.init fun _ => 0) = .error .tableOverrun ∧
      infoRegister stoppedKernel "rip" (Main.init fun _ => 0) = .error .tableOverrun :=
  ⟨infoRegister_overruns rfl "rax", infoRegister_overruns rfl "rip"⟩

end Never

end Zkz.Debugger
