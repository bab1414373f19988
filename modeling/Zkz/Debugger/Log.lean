import Zkz.Debugger.Kernel
import Zkz.Debugger.Text

/-!
# What the log prints

`Log::Print` and its four copies are a formatter of their own. It knows the directives `%d`, `%s` and
`%x`, and prints nothing for a `%` before any other character. The texts of numbers go through a
local buffer, and the index of the loop is an `int`.

* `expand`: the text that a format stands for with its arguments.
* `printLoop_run`: the loop from an index on.
* `call_iff`: what is printed is the expansion exactly if the indices fit an `int`.
* `buffers_fit_iff`: the texts that the local buffers have room for.
-/

namespace Zkz.Debugger

open Zkz.Lib

/-! ## Formats -/

/-- `%d` of `printf`. -/
def decimal (d : Int) : Line :=
  if d < 0 then '-' :: Nat.toDigits 10 d.natAbs else Nat.toDigits 10 d.natAbs

/-- `%lX` of `printf`. -/
def upperHex (v : Word) : Line := (Nat.toDigits 16 v.toNat).map Char.toUpper

/-- What a directive prints, and the arguments behind the one it consumes. -/
def expandDirective : Char → List LogArg → Line × List LogArg
  | 'd', .int d :: args => (decimal d, args)
  | 's', .str s :: args => (s.toList, args)
  | 'x', .hex x :: args => ('0' :: 'x' :: upperHex x, args)
  | _, args => ([], args)

/-- The text that a format stands for. -/
def expand : Line → List LogArg → Line
  | [], _ => []
  | ['%'], _ => []
  | '%' :: c :: fmt, args =>
    (expandDirective c args).1 ++ expand fmt (expandDirective c args).2
  | c :: fmt, args => c :: expand fmt args

/-- The characters of the directives that take an argument, in order. -/
def directives : Line → List Char
  | [] => []
  | ['%'] => []
  | '%' :: c :: fmt => if c = 'd' ∨ c = 's' ∨ c = 'x' then c :: directives fmt else directives fmt
  | _ :: fmt => directives fmt

/-- The argument has the type that the directive takes. -/
def Takes : Char → LogArg → Prop
  | 'd', .int _ => True
  | 's', .str _ => True
  | 'x', .hex _ => True
  | _, _ => False

/-- The arguments supply each directive with one of its type. There may be more of them. -/
def Supplies (fmt : Line) (args : List LogArg) : Prop :=
  ∃ given more, args = given ++ more ∧ List.Forall₂ Takes (directives fmt) given

example : expand "%s at %x: %d%".toList [.str "rip", .hex 0x40ab, .int (-1)] =
    "rip at 0x40AB: -1".toList := by decide

/-! ## The functions of `Log` -/

inductive LogFault where
  /-- A text is longer than the local buffer. -/
  | bufferOverrun
  /-- A signed integer overflows. -/
  | overflow
  /-- An argument is missing, or of another type. -/
  | badArgument
deriving DecidableEq

/-- `sprintf` into a buffer of a size: the text, or a fault if it does not fit. -/
abbrev Sprintf := Nat → Line → Except LogFault Line

/-- A `sprintf` whose buffer always has room. -/
def fullText : Sprintf := fun _ text => .ok text

/-- The buffer as it is, with the NUL that ends the text. -/
def bounded : Sprintf := fun size text =>
  if text.length + 1 ≤ size then .ok text else .error .bufferOverrun

/-- The loop that puts the characters of a string one by one, from index `j` on. -/
def putLoop (s : Line) (j : Nat) : Except LogFault Line :=
  if h : j < s.length then
    if 2 ^ 31 ≤ j + 1 then .error .overflow
    else do
      let rest ← putLoop s (j + 1)
      return s[j] :: rest
  else return []
termination_by s.length - j

/-- The branch for a `%`: what it prints, and the arguments that are left. -/
def directive (sprintf : Sprintf) (c : Char) (args : List LogArg) :
    Except LogFault (Line × List LogArg) :=
  match c with
  | 'd' => match args with
    | .int d :: args => do
      let number ← sprintf 10 (decimal d)
      return (number, args)
    | _ => .error .badArgument
  | 's' => match args with
    | .str s :: args => do
      let text ← putLoop s.toList 0
      return (text, args)
    | _ => .error .badArgument
  | 'x' => match args with
    | .hex p :: args => do
      let hexStr ← sprintf 16 (upperHex p)
      let text ← putLoop hexStr 0
      return ('0' :: 'x' :: text, args)
    | _ => .error .badArgument
  | _ => return ([], args)

/-- The loop over the format, from index `i` on. -/
def printLoop (sprintf : Sprintf) (msg : Line) (i : Nat) (args : List LogArg) :
    Except LogFault Line :=
  if h : i < msg.length then
    if 2 ^ 31 ≤ i + 1 then .error .overflow
    else if msg[i] = '%' then do
      -- the character behind the last one is the NUL
      let (text, args) ← directive sprintf (msg.getD (i + 1) (Char.ofNat 0)) args
      if 2 ^ 31 ≤ i + 2 then .error .overflow
      else do
        let rest ← printLoop sprintf msg (i + 2) args
        return text ++ rest
    else do
      let rest ← printLoop sprintf msg (i + 1) args
      return msg[i] :: rest
  else return []
termination_by msg.length - i

/-- The bit of the state that enables a function. -/
def Level.state : Level → BitVec 8
  | .print => 1 <<< 0
  | .error => 1 <<< 1
  | .pError => 1 <<< 2
  | .warn => 1 <<< 3
  | .info => 1 <<< 4
  | .debug => 1 <<< 5
  | .prompt => 1 <<< 6

/-- What the functions with a format print before it. -/
def Level.header : Level → Option Line
  | .print => some []
  | .error => some "[ERROR]".toList
  | .warn => some "[WARNING] ".toList
  | .info => some "[INFO] ".toList
  | .debug => some "[DEBUG] ".toList
  | .pError | .prompt => none

structure Log where
  mState : BitVec 8

/-- The object `log`. -/
def Log.static : Log where
  mState := Level.debug.state ||| Level.print.state ||| Level.prompt.state ||| Level.error.state |||
    Level.info.state ||| Level.pError.state

def Log.checkState (L : Log) (state : BitVec 8) : BitVec 8 := L.mState &&& state

/-- The body of the functions with a format. -/
def Log.format (sprintf : Sprintf) (L : Log) (level : Level) (header msg : Line)
    (args : List LogArg) : Except LogFault Line :=
  if L.checkState level.state ≠ 0 then do
    let text ← printLoop sprintf msg 0 args
    return header ++ text
  else return []

def Log.print (sprintf : Sprintf) (L : Log) (msg : Line) (args : List LogArg) :
    Except LogFault Line := L.format sprintf .print [] msg args

def Log.error (sprintf : Sprintf) (L : Log) (error : Line) (args : List LogArg) :
    Except LogFault Line := L.format sprintf .error "[ERROR]".toList error args

def Log.warn (sprintf : Sprintf) (L : Log) (warning : Line) (args : List LogArg) :
    Except LogFault Line := L.format sprintf .warn "[WARNING] ".toList warning args

def Log.info (sprintf : Sprintf) (L : Log) (info : Line) (args : List LogArg) :
    Except LogFault Line := L.format sprintf .info "[INFO] ".toList info args

def Log.debug (sprintf : Sprintf) (L : Log) (debug : Line) (args : List LogArg) :
    Except LogFault Line := L.format sprintf .debug "[DEBUG] ".toList debug args

/-- The text for `perror`. -/
def Log.pError (sprintf : Sprintf) (L : Log) (perror : Line) : Except LogFault Line :=
  if L.checkState Level.pError.state ≠ 0 then
    sprintf (perror.length + 8) ("[ERROR]".toList ++ ' ' :: perror)
  else return []

def Log.prompt (L : Log) (prompt : Line) : Line :=
  if L.checkState Level.prompt.state ≠ 0 then prompt ++ "> ".toList else []

/-- The function of a level. -/
def Log.call (sprintf : Sprintf) (L : Log) (level : Level) (msg : Line) (args : List LogArg) :
    Except LogFault Line :=
  match level with
  | .print => L.print sprintf msg args
  | .error => L.error sprintf msg args
  | .pError => L.pError sprintf msg
  | .warn => L.warn sprintf msg args
  | .info => L.info sprintf msg args
  | .debug => L.debug sprintf msg args
  | .prompt => return L.prompt msg

/-! ## The loops -/

/-- The index behind the loop: a `%` at the end steps onto the NUL, and over it. -/
def endIndex : Line → Nat
  | [] => 0
  | ['%'] => 2
  | '%' :: _ :: fmt => endIndex fmt + 2
  | _ :: fmt => endIndex fmt + 1

/-- The index of a string that the directive prints fits an `int`. -/
def ShortString : Char → List LogArg → Prop
  | 's', .str s :: _ => s.toList.length < 2 ^ 31
  | _, _ => True

/-- The same for all strings that are printed. -/
def ShortStrings : Line → List LogArg → Prop
  | [], _ => True
  | ['%'], _ => True
  | '%' :: c :: fmt, args => ShortString c args ∧ ShortStrings fmt (expandDirective c args).2
  | _ :: fmt, args => ShortStrings fmt args

/-- No index overflows in the loop over the format, from the index `i` on. -/
def Countable (i : Nat) (fmt : Line) (args : List LogArg) : Prop :=
  i + endIndex fmt < 2 ^ 31 ∧ ShortStrings fmt args

section Loops

variable {sprintf : Sprintf} {msg fmt : Line} {args : List LogArg} {c : Char}

/-- The characters from an index on are put, if the index fits to the end. -/
theorem putLoop_run {s : Line} {j : Nat} (hj : j ≤ s.length) (hfits : j < 2 ^ 31) :
    putLoop s j = if s.length < 2 ^ 31 then .ok (s.drop j) else .error .overflow := by
  induction hn : s.length - j generalizing j with
  | zero =>
    have hend : j = s.length := by omega
    rw [putLoop, dif_neg (by omega), if_pos (by omega), hend, List.drop_length]
    rfl
  | succ n ih =>
    have hlt : j < s.length := by omega
    rw [putLoop, dif_pos hlt]
    by_cases hnext : j + 1 < 2 ^ 31
    · rw [if_neg (by omega), ih (by omega) hnext (by omega), List.drop_eq_getElem_cons hlt]
      split
      · rfl
      · rfl
    · rw [if_pos (by omega), if_neg (by omega)]

theorem upperHex_length (v : Word) : (upperHex v).length ≤ 16 := by
  unfold upperHex
  rw [List.length_map, Nat.length_toDigits_le_iff (by decide) (by decide)]
  exact v.isLt

/-- The loop at a character of the format. -/
theorem printLoop_cons {i : Nat} (h : msg.drop i = c :: fmt) :
    printLoop sprintf msg i args =
      if 2 ^ 31 ≤ i + 1 then .error .overflow
      else if c = '%' then do
        let (text, args) ← directive sprintf (fmt.headD (Char.ofNat 0)) args
        if 2 ^ 31 ≤ i + 2 then .error .overflow
        else do
          let rest ← printLoop sprintf msg (i + 2) args
          return text ++ rest
      else do
        let rest ← printLoop sprintf msg (i + 1) args
        return c :: rest := by
  have hlt : i < msg.length := by
    by_contra hge
    rw [List.drop_eq_nil_of_le (by omega)] at h
    cases h
  rw [List.drop_eq_getElem_cons hlt] at h
  obtain ⟨hc, hrest⟩ := List.cons.inj h
  have hnext : msg.getD (i + 1) (Char.ofNat 0) = fmt.headD (Char.ofNat 0) := by
    rw [← hrest, List.getD_eq_getElem?_getD, List.headD_eq_head?_getD, List.head?_drop]
  rw [printLoop, dif_pos hlt, hc, hnext]

theorem printLoop_nil {i : Nat} (h : msg.drop i = []) : printLoop sprintf msg i args = .ok [] := by
  rw [printLoop, dif_neg (by simpa using h)]
  rfl

/-- The loop at an ordinary character. -/
theorem printLoop_char {i : Nat} (h : msg.drop i = c :: fmt) (hc : c ≠ '%') :
    printLoop sprintf msg i args =
      if i + 1 < 2 ^ 31 then (printLoop sprintf msg (i + 1) args).map (c :: ·)
      else .error .overflow := by
  rw [printLoop_cons h, if_neg hc]
  by_cases hfits : i + 1 < 2 ^ 31
  · rw [if_neg (by omega), if_pos hfits]
    rfl
  · rw [if_pos (by omega), if_neg hfits]

/-- The loop at a directive that succeeds. -/
theorem printLoop_directive {i : Nat} {r : Line × List LogArg} (h : msg.drop i = '%' :: fmt)
    (hrun : directive sprintf (fmt.headD (Char.ofNat 0)) args = .ok r) :
    printLoop sprintf msg i args =
      if i + 2 < 2 ^ 31 then (printLoop sprintf msg (i + 2) r.2).map (r.1 ++ ·)
      else .error .overflow := by
  rw [printLoop_cons h, if_pos rfl, hrun]
  simp only [bind, Except.bind]
  by_cases hfits : i + 2 < 2 ^ 31
  · rw [if_neg (by omega), if_neg (by omega), if_pos hfits]
    rfl
  · rw [if_neg hfits]
    split
    · rfl
    · rw [if_pos (by omega)]

theorem printLoop_fault {i : Nat} (h : msg.drop i = '%' :: fmt)
    (hrun : directive sprintf (fmt.headD (Char.ofNat 0)) args = .error .overflow) :
    printLoop sprintf msg i args = .error .overflow := by
  rw [printLoop_cons h, if_pos rfl, hrun]
  split
  · rfl
  · rfl

/-- A directive that takes an argument finds one of its type. -/
theorem supplies_directive (h : Supplies ('%' :: c :: fmt) args) :
    (∃ d rest, c = 'd' ∧ args = .int d :: rest ∧ Supplies fmt rest) ∨
      (∃ s rest, c = 's' ∧ args = .str s :: rest ∧ Supplies fmt rest) ∨
      (∃ x rest, c = 'x' ∧ args = .hex x :: rest ∧ Supplies fmt rest) ∨
      (c ≠ 'd' ∧ c ≠ 's' ∧ c ≠ 'x') ∧ Supplies fmt args := by
  obtain ⟨given, more, rfl, htakes⟩ := h
  rw [directives] at htakes
  split at htakes
  · rename_i hc
    cases htakes with
    | @cons _ arg _ given hfirst hrest =>
      have hsupplies : Supplies fmt (given ++ more) := ⟨given, more, rfl, hrest⟩
      rcases hc with rfl | rfl | rfl
      · cases arg with
        | int d => exact Or.inl ⟨d, _, rfl, rfl, hsupplies⟩
        | hex x => cases hfirst
        | str s => cases hfirst
      · cases arg with
        | str s => exact Or.inr (Or.inl ⟨s, _, rfl, rfl, hsupplies⟩)
        | int d => cases hfirst
        | hex x => cases hfirst
      · cases arg with
        | hex x => exact Or.inr (Or.inr (Or.inl ⟨x, _, rfl, rfl, hsupplies⟩))
        | int d => cases hfirst
        | str s => cases hfirst
  · rename_i hc
    simp only [not_or] at hc
    exact Or.inr (Or.inr (Or.inr ⟨hc, given, more, rfl, htakes⟩))

theorem directive_int_eq (sprintf : Sprintf) (d : Int) (args : List LogArg) :
    directive sprintf 'd' (.int d :: args) = (do
      let number ← sprintf 10 (decimal d)
      return (number, args)) := rfl

theorem directive_hex_eq (sprintf : Sprintf) (x : Word) (args : List LogArg) :
    directive sprintf 'x' (.hex x :: args) = (do
      let hexStr ← sprintf 16 (upperHex x)
      let text ← putLoop hexStr 0
      return ('0' :: 'x' :: text, args)) := rfl

/-- The text of a number is put in full. -/
theorem putLoop_upperHex (v : Word) : putLoop (upperHex v) 0 = .ok (upperHex v) := by
  have hlen := upperHex_length v
  rw [putLoop_run (Nat.zero_le _) (by decide), if_pos (by omega), List.drop_zero]

theorem directive_str (sprintf : Sprintf) (s : String) (args : List LogArg) :
    directive sprintf 's' (.str s :: args) =
      if s.toList.length < 2 ^ 31 then .ok (s.toList, args) else .error .overflow := by
  have hput := putLoop_run (s := s.toList) (Nat.zero_le _) (by decide)
  unfold directive
  simp only [hput]
  split
  · rfl
  · rfl

theorem directive_hex (x : Word) (args : List LogArg) :
    directive fullText 'x' (.hex x :: args) = .ok ('0' :: 'x' :: upperHex x, args) := by
  have hput := putLoop_upperHex x
  rw [directive_hex_eq]
  simp only [fullText, bind, Except.bind, hput]
  rfl

/-- Any other character prints nothing. -/
theorem directive_other (hc : c ≠ 'd' ∧ c ≠ 's' ∧ c ≠ 'x') (sprintf : Sprintf)
    (args : List LogArg) : directive sprintf c args = .ok ([], args) ∧
      expandDirective c args = ([], args) ∧ ShortString c args := by
  obtain ⟨hd, hs, hx⟩ := hc
  refine ⟨?_, ?_, ?_⟩
  · unfold directive
    split
    · exact absurd rfl hd
    · exact absurd rfl hs
    · exact absurd rfl hx
    · rfl
  · unfold expandDirective
    split
    · exact absurd rfl hd
    · exact absurd rfl hs
    · exact absurd rfl hx
    · rfl
  · unfold ShortString
    split
    · exact absurd rfl hs
    · trivial

/-- What a directive does with arguments that supply it. -/
theorem directive_run (h : Supplies ('%' :: c :: fmt) args) :
    (ShortString c args → directive fullText c args = .ok (expandDirective c args)) ∧
      (¬ ShortString c args → directive fullText c args = .error .overflow) ∧
      Supplies fmt (expandDirective c args).2 := by
  rcases supplies_directive h with ⟨d, rest, rfl, rfl, hrest⟩ | ⟨s, rest, rfl, rfl, hrest⟩ |
    ⟨x, rest, rfl, rfl, hrest⟩ | ⟨hc, hrest⟩
  · exact ⟨fun _ => rfl, fun h => absurd trivial h, hrest⟩
  · exact ⟨fun h => (directive_str fullText s rest).trans (if_pos h),
      fun h => (directive_str fullText s rest).trans (if_neg h), hrest⟩
  · exact ⟨fun _ => directive_hex x rest, fun h => absurd trivial h, hrest⟩
  · obtain ⟨hrun, hexpand, hshort⟩ := directive_other hc fullText args
    rw [hexpand]
    exact ⟨fun _ => hrun, fun h => absurd hshort h, hrest⟩

/-! An ordinary character stands for itself, and takes no argument. -/

theorem expand_char (hc : c ≠ '%') (fmt : Line) (args : List LogArg) :
    expand (c :: fmt) args = c :: expand fmt args := by
  rw [expand]
  · simp [hc]
  · simp [hc]

theorem directives_char (hc : c ≠ '%') (fmt : Line) : directives (c :: fmt) = directives fmt := by
  rw [directives]
  · simp [hc]
  · simp [hc]

theorem shortStrings_char (hc : c ≠ '%') :
    ShortStrings (c :: fmt) args ↔ ShortStrings fmt args := by
  rw [ShortStrings]
  · simp [hc]
  · simp [hc]

theorem endIndex_char (hc : c ≠ '%') (fmt : Line) : endIndex (c :: fmt) = endIndex fmt + 1 := by
  rw [endIndex]
  · simp [hc]
  · simp [hc]

theorem supplies_char (hc : c ≠ '%') : Supplies (c :: fmt) args ↔ Supplies fmt args := by
  unfold Supplies
  rw [directives_char hc]

theorem countable_char {i : Nat} (hc : c ≠ '%') :
    Countable i (c :: fmt) args ↔ Countable (i + 1) fmt args := by
  unfold Countable
  rw [endIndex_char hc, shortStrings_char hc, Nat.add_right_comm, Nat.add_assoc]

/-- A format that begins otherwise than with a directive. -/
theorem ordinary (hend : c = '%' → fmt = [] → False)
    (hmore : ∀ b rest, c = '%' → fmt = b :: rest → False) : c ≠ '%' := by
  intro hc
  cases fmt with
  | nil => exact hend hc rfl
  | cons b rest => exact hmore b rest hc rfl

theorem countable_directive {i : Nat} : Countable i ('%' :: c :: fmt) args ↔
    ShortString c args ∧ Countable (i + 2) fmt (expandDirective c args).2 := by
  unfold Countable
  rw [endIndex, ShortStrings, Nat.add_right_comm, Nat.add_assoc]
  exact and_left_comm

theorem Countable.lt {i : Nat} (h : Countable i fmt args) : i < 2 ^ 31 :=
  Nat.lt_of_le_of_lt (Nat.le_add_right _ _) h.1

theorem drop_succ_of_cons {i : Nat} (h : msg.drop i = c :: fmt) : msg.drop (i + 1) = fmt := by
  rw [← List.drop_drop, h]
  rfl

/-- The loop prints the expansion of what is left of the format, or an index overflows. -/
theorem printLoop_run {i : Nat} (h : msg.drop i = fmt) (hi : i < 2 ^ 31)
    (hargs : Supplies fmt args) :
    (Countable i fmt args → printLoop fullText msg i args = .ok (expand fmt args)) ∧
      (¬ Countable i fmt args → printLoop fullText msg i args = .error .overflow) := by
  induction fmt, args using expand.induct generalizing i with
  | case1 args =>
    rw [printLoop_nil h]
    exact ⟨fun _ => rfl, fun hnot => absurd ⟨hi, trivial⟩ hnot⟩
  | case2 args =>
    rw [printLoop_directive h rfl]
    by_cases hend : i + 2 < 2 ^ 31
    · rw [if_pos hend, printLoop_nil (by rw [← List.drop_drop, h]; rfl)]
      exact ⟨fun _ => rfl, fun hnot => absurd ⟨hend, trivial⟩ hnot⟩
    · rw [if_neg hend]
      exact ⟨fun hcount => absurd hcount.1 hend, fun _ => rfl⟩
  | case3 c fmt args ih =>
    obtain ⟨hok, hfault, hrest⟩ := directive_run hargs
    rw [countable_directive]
    by_cases hshort : ShortString c args
    · rw [printLoop_directive h (hok hshort), expand]
      by_cases hnext : i + 2 < 2 ^ 31
      · obtain ⟨hexpand, hover⟩ := ih (i := i + 2) (drop_succ_of_cons (drop_succ_of_cons h)) hnext
          hrest
        rw [if_pos hnext]
        constructor
        · intro hcount
          rw [hexpand hcount.2]
          rfl
        · intro hnot
          rw [hover fun hcount => hnot ⟨hshort, hcount⟩]
          rfl
      · rw [if_neg hnext]
        exact ⟨fun hcount => absurd hcount.2.lt hnext, fun _ => rfl⟩
    · rw [printLoop_fault h (hfault hshort)]
      exact ⟨fun hcount => absurd hcount.1 hshort, fun _ => rfl⟩
  | case4 c fmt args hend hmore ih =>
    have hc := ordinary hend hmore
    rw [printLoop_char h hc, expand_char hc, countable_char hc]
    by_cases hnext : i + 1 < 2 ^ 31
    · obtain ⟨hexpand, hover⟩ := ih (drop_succ_of_cons h) hnext ((supplies_char hc).mp hargs)
      rw [if_pos hnext]
      constructor
      · intro hcount
        rw [hexpand hcount]
        rfl
      · intro hnot
        rw [hover hnot]
        rfl
    · rw [if_neg hnext]
      exact ⟨fun hcount => absurd hcount.lt hnext, fun _ => rfl⟩

/-- A format without %s prints no string. -/
theorem shortStrings_of_not_mem (h : 's' ∉ directives fmt) (args : List LogArg) :
    ShortStrings fmt args := by
  induction fmt, args using expand.induct with
  | case1 args => trivial
  | case2 args => trivial
  | case3 c fmt args ih =>
    rw [directives] at h
    have hs : c ≠ 's' := by
      rintro rfl
      exact h (by simp)
    have hrest : 's' ∉ directives fmt := by
      split at h
      · exact fun hmem => h (List.mem_cons_of_mem _ hmem)
      · exact h
    refine ⟨?_, ih hrest⟩
    unfold ShortString
    split
    · exact absurd rfl hs
    · trivial
  | case4 c fmt args hend hmore ih =>
    have hc := ordinary hend hmore
    rw [directives_char hc] at h
    exact (shortStrings_char hc).mpr (ih h)

/-- A format without directives needs no argument, and its index goes up to its length. -/
theorem plain_format (h : '%' ∉ fmt) (args : List LogArg) :
    Supplies fmt args ∧ endIndex fmt = fmt.length := by
  induction fmt with
  | nil => exact ⟨⟨[], args, rfl, List.Forall₂.nil⟩, rfl⟩
  | cons c fmt ih =>
    obtain ⟨hc, hrest⟩ := not_or.mp (List.mem_cons.not.mp h)
    obtain ⟨hargs, hend⟩ := ih hrest
    refine ⟨(supplies_char (Ne.symm hc)).mpr hargs, ?_⟩
    rw [endIndex_char (Ne.symm hc), hend]
    rfl

end Loops

/-! ## The functions -/

/-- The copies differ in the bit and the header. -/
theorem call_eq_format {level : Level} {header : Line} (hlevel : level.header = some header)
    (sprintf : Sprintf) (L : Log) (msg : Line) (args : List LogArg) :
    L.call sprintf level msg args = L.format sprintf level header msg args := by
  cases level with
  | print => cases hlevel; rfl
  | error => cases hlevel; rfl
  | warn => cases hlevel; rfl
  | info => cases hlevel; rfl
  | debug => cases hlevel; rfl
  | pError => cases hlevel
  | prompt => cases hlevel

/-- What an enabled function prints. -/
theorem call_enabled {L : Log} {level : Level} {header fmt : Line} {args : List LogArg}
    (hlevel : level.header = some header) (hstate : L.checkState level.state ≠ 0)
    (hargs : Supplies fmt args) :
    (Countable 0 fmt args → L.call fullText level fmt args = .ok (header ++ expand fmt args)) ∧
      (¬ Countable 0 fmt args → L.call fullText level fmt args = .error .overflow) := by
  obtain ⟨hexpand, hover⟩ := printLoop_run (i := 0) (List.drop_zero (l := fmt)) (by decide) hargs
  rw [call_eq_format hlevel]
  unfold Log.format
  rw [if_pos hstate]
  constructor
  · intro hcount
    rw [hexpand hcount]
    rfl
  · intro hnot
    rw [hover hnot]
    rfl

/-- **The functions print their header and the expansion of the format**, for every state of the log,
format and arguments that supply it, exactly if they are disabled or no index overflows. -/
theorem call_iff (L : Log) {level : Level} {header : Line} (hlevel : level.header = some header)
    {fmt : Line} {args : List LogArg} (hargs : Supplies fmt args) :
    L.call fullText level fmt args =
        .ok (if L.checkState level.state ≠ 0 then header ++ expand fmt args else []) ↔
      (L.checkState level.state ≠ 0 → Countable 0 fmt args) := by
  by_cases hstate : L.checkState level.state ≠ 0
  · obtain ⟨hexpand, hover⟩ := call_enabled hlevel hstate hargs
    rw [if_pos hstate]
    by_cases hcount : Countable 0 fmt args
    · exact iff_of_true (hexpand hcount) fun _ => hcount
    · rw [hover hcount]
      exact iff_of_false (fun h => by cases h) fun h => hcount (h hstate)
  · rw [if_neg hstate, call_eq_format hlevel]
    unfold Log.format
    rw [if_neg hstate]
    exact iff_of_true rfl fun h => absurd h hstate

/-- A warning with a directive of each kind, from a log that prints warnings. -/
theorem warning_expanded :
    Log.call fullText ⟨0xff⟩ .warn ['%', 'd', '%', 's', '%', 'x', '%']
        [.int (-7), .str "at", .hex 0xc0] =
      .ok (if Log.checkState ⟨0xff⟩ Level.warn.state ≠ 0 then "[WARNING] ".toList ++
        expand ['%', 'd', '%', 's', '%', 'x', '%'] [.int (-7), .str "at", .hex 0xc0] else []) :=
  (call_iff ⟨0xff⟩ rfl ⟨[.int (-7), .str "at", .hex 0xc0], [], rfl,
      .cons trivial (.cons trivial (.cons trivial .nil))⟩).mpr
    fun _ => ⟨by decide, trivial, show "at".toList.length < 2 ^ 31 by decide, trivial, trivial⟩

/-- The index overflows before the last character of a format of 2^31 + 1. -/
theorem long_format_overflows :
    Log.static.call fullText .print (List.replicate (2 ^ 31 + 1) 'a') [] = .error .overflow ∧
      Supplies (List.replicate (2 ^ 31 + 1) 'a') [] := by
  have hplain : '%' ∉ List.replicate (2 ^ 31 + 1) 'a' := by
    intro hmem
    exact absurd (List.eq_of_mem_replicate hmem) (by decide)
  obtain ⟨hargs, hend⟩ := plain_format hplain []
  refine ⟨(call_enabled rfl (by decide) hargs).2 ?_, hargs⟩
  intro hcount
  have hlt := hcount.1
  rw [hend, List.length_replicate] at hlt
  omega

/-! ## The local buffers -/

theorem bounded_eq_ok_iff {size : Nat} {text : Line} :
    bounded size text = .ok text ↔ text.length < size := by
  unfold bounded
  split
  · rename_i hfits
    exact iff_of_true rfl hfits
  · rename_i hfits
    exact iff_of_false (fun h => by cases h) hfits

theorem bounded_error {size : Nat} {text : Line} (h : ¬ text.length < size) :
    bounded size text = .error .bufferOverrun := if_neg h

/-- The sign takes one of the characters. -/
theorem decimal_length_lt_iff (d : Int) :
    (decimal d).length < 10 ↔ -99999999 ≤ d ∧ d ≤ 999999999 := by
  unfold decimal
  split
  · have hdigits := Nat.length_toDigits_le_iff (b := 10) (n := d.natAbs) (k := 8) (by decide)
      (by decide)
    rw [List.length_cons]
    omega
  · have hdigits := Nat.length_toDigits_le_iff (b := 10) (n := d.natAbs) (k := 9) (by decide)
      (by decide)
    omega

theorem upperHex_length_lt_iff (v : Word) : (upperHex v).length < 16 ↔ v.toNat < 2 ^ 60 := by
  unfold upperHex
  rw [List.length_map, Nat.lt_succ_iff, Nat.length_toDigits_le_iff (by decide) (by decide)]
  exact Iff.rfl

theorem directive_int_fits (d : Int) (args : List LogArg) :
    (∃ r, directive bounded 'd' (.int d :: args) = .ok r) ↔ (decimal d).length < 10 := by
  rw [directive_int_eq]
  by_cases hfits : (decimal d).length < 10
  · rw [bounded_eq_ok_iff.mpr hfits]
    exact iff_of_true ⟨_, rfl⟩ hfits
  · rw [bounded_error hfits]
    exact iff_of_false (fun ⟨_, h⟩ => by cases h) hfits

theorem directive_hex_fits (v : Word) (args : List LogArg) :
    (∃ r, directive bounded 'x' (.hex v :: args) = .ok r) ↔ (upperHex v).length < 16 := by
  rw [directive_hex_eq]
  by_cases hfits : (upperHex v).length < 16
  · have hput := putLoop_upperHex v
    simp only [bounded_eq_ok_iff.mpr hfits, bind, Except.bind, hput]
    exact iff_of_true ⟨_, rfl⟩ hfits
  · rw [bounded_error hfits]
    exact iff_of_false (fun ⟨_, h⟩ => by cases h) hfits

/-- **The texts fit the local buffers**, for every number, message and state of the log, exactly if
`%d` prints no more than nine characters, `%x` a value below 2^60, and `PError` is disabled: its
buffer has no room for any message. -/
theorem buffers_fit_iff (d : BitVec 32) (v : Word) (args : List LogArg) (L : Log) (msg : Line) :
    ((∃ r, directive bounded 'd' (.int d.toInt :: args) = .ok r) ↔
        -99999999 ≤ d.toInt ∧ d.toInt ≤ 999999999) ∧
      ((∃ r, directive bounded 'x' (.hex v :: args) = .ok r) ↔ v.toNat < 2 ^ 60) ∧
      ((∃ text, L.pError bounded msg = .ok text) ↔ L.checkState Level.pError.state = 0) := by
  refine ⟨(directive_int_fits _ args).trans (decimal_length_lt_iff _),
    (directive_hex_fits v args).trans (upperHex_length_lt_iff v), ?_⟩
  unfold Log.pError
  by_cases hstate : L.checkState Level.pError.state = 0
  · rw [if_neg (not_not.mpr hstate)]
    exact iff_of_true ⟨_, rfl⟩ hstate
  · rw [if_pos hstate, bounded_error]
    · exact iff_of_false (fun ⟨_, h⟩ => by cases h) hstate
    · have hheader : "[ERROR]".toList.length = 7 := by decide
      rw [List.length_append, List.length_cons]
      omega

/-- The largest `int`, the first value of sixteen digits and the empty message. -/
theorem buffers_overrun :
    directive bounded 'd' [.int 2147483647] = .error .bufferOverrun ∧
      directive bounded 'x' [.hex 0x1000000000000000] = .error .bufferOverrun ∧
      Log.static.pError bounded [] = .error .bufferOverrun := by decide

end Zkz.Debugger
