import Zkz.Debugger.PrintedNumbers

/-!
# Lists of breakpoints as they are printed

`printb` prints a line for each breakpoint, with its address, its number and its state between tabs.
The text has everything that was printed: read with the debugger's own conversions, it gives the
values back.

* `printLoop_bounded`: texts of numbers that fit the local buffers are printed in full.
* `shown_listing`: the text of a list.
* `readRows_listing`: what is read from it.
-/

namespace Zkz.Debugger

open Zkz.Lib BreakpointList

variable {σ : Type}

/-! ## Buffers -/

/-- The text of the argument fits the buffer of its directive. -/
def LogArg.Fits : LogArg → Prop
  | .int d => (decimal d).length < 10
  | .hex v => (upperHex v).length < 16
  | .str _ => True

/-- Arguments that fit are printed as with any buffers. -/
theorem directive_bounded {args : List LogArg} (h : ∀ a ∈ args, a.Fits) (c : Char) :
    directive bounded c args = directive fullText c args := by
  unfold directive
  split
  · split
    · rename_i d args
      rw [bounded_eq_ok_iff.mpr (h (.int d) (List.mem_cons_self ..))]
      rfl
    · rfl
  · rfl
  · split
    · rename_i v args
      rw [bounded_eq_ok_iff.mpr (h (.hex v) (List.mem_cons_self ..))]
      rfl
    · rfl
  · rfl

/-- The arguments that a directive leaves are some of those it was given. -/
theorem directive_args {c : Char} {args : List LogArg} {r : Line × List LogArg}
    (h : directive fullText c args = .ok r) : r.2 <:+ args := by
  unfold directive at h
  split at h
  · split at h
    · cases h
      exact List.suffix_cons ..
    · cases h
  · split at h
    · rename_i s args
      cases hput : putLoop s.toList 0 with
      | error e =>
        rw [hput] at h
        cases h
      | ok text =>
        rw [hput] at h
        cases h
        exact List.suffix_cons ..
    · cases h
  · split at h
    · rename_i v args
      simp only [fullText, bind, Except.bind, putLoop_upperHex] at h
      cases h
      exact List.suffix_cons ..
    · cases h
  · cases h
    exact List.suffix_refl _

/-- Numbers that fit are printed as if the buffers had room for any. -/
theorem printLoop_bounded {msg : Line} {i : Nat} {args : List LogArg} (h : ∀ a ∈ args, a.Fits) :
    printLoop bounded msg i args = printLoop fullText msg i args := by
  induction i, args using printLoop.induct msg with
  | case1 i args hi hover =>
    rw [printLoop, dif_pos hi, if_pos hover, printLoop, dif_pos hi, if_pos hover]
  | case2 i args hi hover hpercent ih =>
    rw [printLoop, dif_pos hi, if_neg hover, if_pos hpercent, directive_bounded h]
    conv_rhs => rw [printLoop, dif_pos hi, if_neg hover, if_pos hpercent]
    cases hrun : directive fullText (msg.getD (i + 1) (Char.ofNat 0)) args with
    | error e => rfl
    | ok r =>
      have hrest := ih r.2 fun a ha => h a ((directive_args hrun).subset ha)
      simp only [bind, Except.bind, hrest]
  | case3 i args hi hover hpercent ih =>
    rw [printLoop, dif_pos hi, if_neg hover, if_neg hpercent, ih h]
    conv_rhs => rw [printLoop, dif_pos hi, if_neg hover, if_neg hpercent]
  | case4 i args hi => rw [printLoop, dif_neg hi, printLoop, dif_neg hi]

/-- So are the texts with a header. -/
theorem call_bounded {L : Log} {level : Level} {header : Line} (hlevel : level.header = some header)
    {fmt : Line} {args : List LogArg} (h : ∀ a ∈ args, a.Fits) :
    L.call bounded level fmt args = L.call fullText level fmt args := by
  rw [call_eq_format hlevel, call_eq_format hlevel]
  unfold Log.format
  rw [printLoop_bounded h]

/-! ## The text -/

/-- What `printb` shows of a breakpoint. -/
abbrev Listed := Addr × Int × Bool

def Breakpoint.listed (b : Breakpoint) : Listed := (b.address, b.breakpointNumber, b.isEnabled)

/-- The calls of `log` by `ListBreakpoints`. -/
def listingLines (es : List Listed) : List LogLine :=
  ⟨.print, "\taddress\t\tnumber\t\tstate\n", []⟩ :: es.map fun e =>
    ⟨.print, "\t%x\t%d\t\t%s\n",
      [.hex e.1, .int e.2.1, .str (if e.2.2 then "enabled" else "disabled")]⟩

/-- The text that calls of `log` print, with the buffers as they are. -/
def shown : List LogLine → Except LogFault Line
  | [] => return []
  | l :: lines => do
    let text ← Log.static.call bounded l.level l.msg.toList l.args
    let rest ← shown lines
    return text ++ rest

def Listed.state (e : Listed) : Line := if e.2.2 then "enabled".toList else "disabled".toList

/-- A line of the listing. -/
def Listed.row (e : Listed) : Line :=
  '\t' :: '0' :: 'x' :: (upperHex e.1 ++ '\t' :: (decimal e.2.1 ++ '\t' :: '\t' :: e.state))

def heading : Line := "\taddress\t\tnumber\t\tstate".toList

/-- The text of a listing. -/
def listing (es : List Listed) : Line := (heading :: es.map Listed.row).flatMap fun line => line ++ ['\n']

theorem printEach_lines {α : Type} (msg : String) (args : α → List LogArg) (xs : List α)
    (d : Main σ) : printEach msg args xs d =
      .ok ((), { d with out := d.out ++ xs.map fun x => ⟨.print, msg, args x⟩ }) := by
  induction xs generalizing d with
  | nil =>
    rw [List.map_nil, List.append_nil]
    rfl
  | cons x xs ih =>
    rw [printEach, run_bind_ok (by rfl), ih]
    simp only [List.append_assoc, List.map_cons, List.singleton_append]

/-- All that `ListBreakpoints` does is to print the list. -/
theorem listBreakpoints_lines (li : BreakpointList) (d : Main σ) :
    listBreakpoints li d =
      .ok ((), { d with out := d.out ++ listingLines (li.map Breakpoint.listed) }) := by
  unfold listBreakpoints listingLines
  rw [run_bind_ok (by rfl), printEach_lines]
  simp only [List.append_assoc, List.map_map, List.singleton_append]
  rfl

/-- The address and the number have room in their buffers. -/
def Listed.Fits (e : Listed) : Prop := e.1.toNat < 2 ^ 60 ∧ -99999999 ≤ e.2.1 ∧ e.2.1 ≤ 999999999

theorem print_heading :
    Log.static.call bounded .print "\taddress\t\tnumber\t\tstate\n".toList [] =
      .ok (heading ++ ['\n']) := by
  have hmsg : "\taddress\t\tnumber\t\tstate\n".toList = heading ++ ['\n'] := by decide
  have hplain : '%' ∉ heading ++ ['\n'] := by decide
  have hstate : Log.static.checkState Level.print.state ≠ 0 := by decide
  obtain ⟨hargs, hend⟩ := plain_format hplain []
  have hnone : ∀ a ∈ ([] : List LogArg), a.Fits := nofun
  rw [hmsg, call_bounded rfl hnone]
  rw [(call_enabled rfl hstate hargs).1 ⟨by rw [hend]; decide, shortStrings_of_not_mem (by decide) []⟩]
  exact congrArg Except.ok (by decide)

/-- The format of a line, with a value for each of its directives. -/
theorem print_row {e : Listed} (h : e.Fits) :
    Log.static.call bounded .print "\t%x\t%d\t\t%s\n".toList
      [.hex e.1, .int e.2.1, .str (if e.2.2 then "enabled" else "disabled")] =
        .ok (e.row ++ ['\n']) := by
  obtain ⟨haddress, hnumber⟩ := h
  have hmsg : "\t%x\t%d\t\t%s\n".toList =
      ['\t', '%', 'x', '\t', '%', 'd', '\t', '\t', '%', 's', '\n'] := by decide
  have hargs : Supplies ['\t', '%', 'x', '\t', '%', 'd', '\t', '\t', '%', 's', '\n']
      [.hex e.1, .int e.2.1, .str (if e.2.2 then "enabled" else "disabled")] :=
    ⟨_, [], (List.append_nil _).symm, .cons trivial (.cons trivial (.cons trivial .nil))⟩
  have hstate : Log.static.checkState Level.print.state ≠ 0 := by decide
  have hshort : (if e.2.2 then "enabled" else "disabled" : String).toList.length < 2 ^ 31 := by
    split
    · decide
    · decide
  rw [hmsg, call_bounded rfl]
  · rw [(call_enabled rfl hstate hargs).1 ⟨by decide, trivial, trivial, hshort, trivial⟩]
    have hstate : (if e.2.2 then "enabled" else "disabled" : String).toList = e.state := by
      unfold Listed.state
      split
      · rfl
      · rfl
    unfold Listed.row
    simp only [← hstate, List.cons_append, List.append_assoc]
    rfl
  · simp only [List.forall_mem_cons, List.not_mem_nil, false_imp_iff, implies_true, and_true]
    exact ⟨(upperHex_length_lt_iff e.1).mpr haddress, (decimal_length_lt_iff e.2.1).mpr hnumber, trivial⟩

theorem shown_listing {es : List Listed} (h : ∀ e ∈ es, e.Fits) :
    shown (listingLines es) = .ok (listing es) := by
  have hrows : shown (es.map fun e => ⟨.print, "\t%x\t%d\t\t%s\n",
      [.hex e.1, .int e.2.1, .str (if e.2.2 then "enabled" else "disabled")]⟩) =
        .ok ((es.map Listed.row).flatMap fun line => line ++ ['\n']) := by
    induction es with
    | nil => rfl
    | cons e es ih =>
      obtain ⟨he, hes⟩ := List.forall_mem_cons.mp h
      rw [List.map_cons, shown, print_row he, ih hes]
      rfl
  unfold listingLines listing
  rw [shown, print_heading, hrows]
  rfl

/-! ## Reading -/

/-- The lines of a text behind its first, each up to a newline, by their fields. -/
def rowsOf (text : Line) : List (List Line) :=
  ((text.splitOn '\n').tail.dropLast).map fun line => line.splitOn '\t'

/-- A line is read with the conversions of the debugger's own commands. -/
def readRow (fields : List Line) : Except StoError Listed := do
  let address ← stoll (fields.getD 1 [])
  let number ← stoi (fields.getD 2 [])
  return (BitVec.ofInt 64 address, number, fields.getD 4 [] = "enabled".toList)

theorem Listed.solid_state (e : Listed) : Solid e.state := by
  unfold Listed.state
  split
  · exact solid_of_all (by decide)
  · exact solid_of_all (by decide)

/-- The fields of a line. -/
theorem splitOn_row (e : Listed) : e.row.splitOn '\t' =
    [[], '0' :: 'x' :: upperHex e.1, decimal e.2.1, [], e.state] := by
  have haddress := (solid_upperHex e.1).not_mem (c := '\t') rfl
  have hnumber := (solid_decimal e.2.1).not_mem (c := '\t') rfl
  have hstate := e.solid_state.not_mem (c := '\t') rfl
  show ([] ++ '\t' :: ('0' :: 'x' :: upperHex e.1 ++ '\t' ::
    (decimal e.2.1 ++ '\t' :: ([] ++ '\t' :: e.state)))).splitOn '\t' = _
  rw [List.splitOn_append_cons_self_of_not_mem List.not_mem_nil,
    List.splitOn_append_cons_self_of_not_mem haddress,
    List.splitOn_append_cons_self_of_not_mem hnumber,
    List.splitOn_append_cons_self_of_not_mem List.not_mem_nil, List.splitOn_eq_singleton hstate]

theorem newline_not_mem_row (e : Listed) : '\n' ∉ e.row := by
  have haddress := (solid_upperHex e.1).not_mem (c := '\n') rfl
  have hnumber := (solid_decimal e.2.1).not_mem (c := '\n') rfl
  have hstate := e.solid_state.not_mem (c := '\n') rfl
  unfold Listed.row
  simp only [List.mem_cons, List.mem_append, not_or] at haddress ⊢
  exact ⟨by decide, haddress.1, haddress.2.1, haddress.2.2, by decide, hnumber, by decide, by decide,
    hstate⟩

theorem rowsOf_listing (es : List Listed) : rowsOf (listing es) = es.map fun e =>
    [[], '0' :: 'x' :: upperHex e.1, decimal e.2.1, [], e.state] := by
  have hlines : ∀ line ∈ heading :: es.map Listed.row, '\n' ∉ line := by
    intro line hline
    rcases List.mem_cons.mp hline with rfl | hline
    · decide
    · obtain ⟨e, -, rfl⟩ := List.mem_map.mp hline
      exact newline_not_mem_row e
  unfold rowsOf listing
  rw [splitOn_lines hlines, List.cons_append, List.tail_cons, List.dropLast_concat, List.map_map]
  exact List.map_congr_left fun e _ => splitOn_row e

/-- **The listing reads back as the list.** -/
theorem readRows_listing {es : List Listed} (h : ∀ e ∈ es, e.Fits) :
    (rowsOf (listing es)).map readRow = es.map .ok := by
  rw [rowsOf_listing, List.map_map]
  refine List.map_congr_left fun e he => ?_
  obtain ⟨haddress, hlow, hhigh⟩ := h e he
  have hstate : decide (e.state = "enabled".toList) = e.2.2 := by
    unfold Listed.state
    cases e.2.2 with
    | true => decide
    | false => decide
  show readRow [[], '0' :: 'x' :: upperHex e.1, decimal e.2.1, [], e.state] = _
  unfold readRow
  simp only [List.getD_cons_succ, List.getD_cons_zero, hstate]
  rw [stoll_upperHex (by omega), stoi_decimal (by omega) (by omega)]
  simp [bind, Except.bind, pure, Except.pure]

end Zkz.Debugger
