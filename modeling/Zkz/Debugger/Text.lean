import Mathlib.Algebra.Group.Int.Defs
import Mathlib.Data.List.Basic

/-!
# Lines typed at the prompt

The tokeniser of `MainLoop` and the conversions of the standard library that it uses.
-/

namespace Zkz.Debugger

/-- A line, or a word of one. -/
abbrev Line := List Char

/-! ## Words -/

/-- `ispunct` in the C locale. -/
def ispunct (c : Char) : Bool :=
  33 ≤ c.toNat && c.toNat ≤ 47 || 58 ≤ c.toNat && c.toNat ≤ 64 ||
    91 ≤ c.toNat && c.toNat ≤ 96 || 123 ≤ c.toNat && c.toNat ≤ 126

/-- `isspace` in the C locale. -/
def isspace (c : Char) : Bool := c.toNat = 32 || 9 ≤ c.toNat && c.toNat ≤ 13

/-- What `getline` with the delimiter ' ' reads until it fails: the pieces between blanks. An
empty piece at the end of the line is none. -/
def pieces (line : Line) : List Line :=
  if (line.splitOn ' ').getLast? = some [] then (line.splitOn ' ').dropLast
  else line.splitOn ' '

/-- The words of a command, without their punctuation. -/
def tokenize (command : Line) : List Line :=
  (pieces command).map fun word => word.filter fun c => !ispunct c

example : tokenize "b  0x1000 -1 ".toList = ["b".toList, [], "0x1000".toList, "1".toList] := by
  decide

theorem splitOn_cons (c : Char) (line : Line) : (c :: line).splitOn ' ' =
    if c = ' ' then [] :: line.splitOn ' ' else (line.splitOn ' ').modifyHead (c :: ·) := by
  rw [List.splitOn_cons_eq_if_modifyHead]
  simp only [beq_iff_eq]

/-- The first piece of several is shorter than the line. -/
theorem head_length_of_two {line : Line} (h : 2 ≤ (line.splitOn ' ').length) :
    ((line.splitOn ' ').headD []).length < line.length := by
  induction line with
  | nil => simp [List.splitOn_nil] at h
  | cons c line ih =>
    rw [splitOn_cons] at h ⊢
    split
    · simp
    · rename_i hc
      rw [if_neg hc, List.length_modifyHead] at h
      have hlt := ih h
      cases hs : line.splitOn ' ' with
      | nil => exact absurd hs (List.splitOn_ne_nil _ line)
      | cons first rest =>
        rw [hs] at hlt
        simp only [List.modifyHead_cons, List.headD_cons, List.length_cons] at hlt ⊢
        omega

theorem splitOn_eq_nil_singleton {line : Line} (h : line.splitOn ' ' = [[]]) : line = [] := by
  cases line with
  | nil => rfl
  | cons c line =>
    rw [splitOn_cons] at h
    split at h
    · simp at h
    · cases hs : line.splitOn ' ' with
      | nil => exact absurd hs (List.splitOn_ne_nil _ line)
      | cons first rest => rw [hs] at h; cases h

/-- The pieces of a line are its words by blanks, or all but the last one. -/
theorem pieces_prefix (line : Line) : pieces line <+: line.splitOn ' ' := by
  unfold pieces
  split
  · exact List.dropLast_prefix _
  · exact List.prefix_refl _

theorem not_mem_splitOn (line : Line) : ∀ word ∈ line.splitOn ' ', ' ' ∉ word := by
  induction line with
  | nil => simp
  | cons c line ih =>
    rw [splitOn_cons]
    split
    · intro word hword
      rcases List.mem_cons.mp hword with rfl | hword
      · exact List.not_mem_nil
      · exact ih word hword
    · rename_i hc
      intro word hword
      cases hs : line.splitOn ' ' with
      | nil => exact absurd hs (List.splitOn_ne_nil _ line)
      | cons first others =>
        rw [hs, List.modifyHead_cons] at hword
        rw [hs] at ih
        rcases List.mem_cons.mp hword with rfl | hword
        · rw [List.mem_cons, not_or]
          exact ⟨Ne.symm hc, ih first (List.mem_cons_self ..)⟩
        · exact ih word (List.mem_cons_of_mem _ hword)

/-- No piece has a blank. -/
theorem not_mem_pieces (text : Line) : ∀ word ∈ pieces text, ' ' ∉ word := by
  intro word hword
  have hsub := pieces_prefix text
  exact not_mem_splitOn text word (hsub.subset hword)

theorem pieces_append {word : Line} (hword : ' ' ∉ word) (line : Line) :
    pieces (word ++ ' ' :: line) = word :: pieces line := by
  unfold pieces
  rw [List.splitOn_append_cons_self_of_not_mem hword]
  have hne := List.splitOn_ne_nil ' ' line
  rw [List.getLast?_cons_of_ne_nil hne, List.dropLast_cons_of_ne_nil hne]
  split
  · rfl
  · rfl

theorem tokenize_append {word : Line} (hword : ' ' ∉ word) (line : Line) :
    tokenize (word ++ ' ' :: line) = (word.filter fun c => !ispunct c) :: tokenize line := by
  unfold tokenize
  rw [pieces_append hword, List.map_cons]

/-- A line that is not empty has a word. -/
theorem tokenize_ne_nil {command : Line} (h : command ≠ []) : tokenize command ≠ [] := by
  unfold tokenize pieces
  intro hnil
  rw [List.map_eq_nil_iff] at hnil
  split at hnil
  · rename_i hlast
    cases hs : command.splitOn ' ' with
    | nil => exact List.splitOn_ne_nil _ command hs
    | cons first rest =>
      rw [hs] at hnil hlast
      cases rest with
      | nil =>
        cases hlast
        exact h (splitOn_eq_nil_singleton hs)
      | cons second rest => cases hnil
  · exact List.splitOn_ne_nil _ command hnil

/-- The first word of several is shorter than the line. -/
theorem tokenize_head_length {command : Line} (h : 2 ≤ (tokenize command).length) :
    ((tokenize command).headD []).length < command.length := by
  unfold tokenize at h ⊢
  rw [List.length_map] at h
  obtain ⟨rest, hrest⟩ := pieces_prefix command
  have hlen : 2 ≤ (command.splitOn ' ').length := by
    rw [← hrest, List.length_append]
    omega
  have hlt := head_length_of_two hlen
  cases hp : pieces command with
  | nil => rw [hp] at h; simp at h
  | cons first others =>
    rw [hp] at hrest
    rw [← hrest] at hlt
    simp only [List.cons_append, List.headD_cons, List.map_cons] at hlt ⊢
    exact Nat.lt_of_le_of_lt (List.length_filter_le _ _) hlt

/-! ## Numbers -/

/-- The exceptions of `std::stoi` and `std::stoll`. -/
inductive StoError where
  | invalidArgument
  | outOfRange
deriving DecidableEq

def digit (base : Nat) (c : Char) : Option Nat :=
  let n := c.toNat
  let d := if 48 ≤ n ∧ n ≤ 57 then some (n - 48)
    else if 97 ≤ n ∧ n ≤ 122 then some (n - 87)
    else if 65 ≤ n ∧ n ≤ 90 then some (n - 55)
    else none
  d.filter (· < base)

/-- The digits at the start of a word. -/
def leadingDigits (base : Nat) : Line → List Nat
  | [] => []
  | c :: cs => match digit base c with
    | some d => d :: leadingDigits base cs
    | none => []

def splitSign : Line → Bool × Line
  | '-' :: cs => (true, cs)
  | '+' :: cs => (false, cs)
  | cs => (false, cs)

/-- In base 16 a prefix 0x in front of a digit is skipped. -/
def dropHexPrefix : Line → Line
  | '0' :: x :: c :: cs =>
    if (x = 'x' ∨ x = 'X') ∧ (digit 16 c).isSome then c :: cs else '0' :: x :: c :: cs
  | cs => cs

/-- `strtol`: white space, a sign and digits; `none` when there is no digit. -/
def strto (base : Nat) (word : Line) : Option Int :=
  let signed := splitSign (word.dropWhile isspace)
  let ds := leadingDigits base (if base = 16 then dropHexPrefix signed.2 else signed.2)
  let value : Nat := ds.foldl (fun v d => v * base + d) 0
  if ds = [] then none else some (if signed.1 then -value else value)

/-- `std::stoi(word, nullptr, 10)`. -/
def stoi (word : Line) : Except StoError Int :=
  match strto 10 word with
  | none => .error .invalidArgument
  | some v => if -2 ^ 31 ≤ v ∧ v < 2 ^ 31 then .ok v else .error .outOfRange

/-- `std::stoll(word, nullptr, 16)`. -/
def stoll (word : Line) : Except StoError Int :=
  match strto 16 word with
  | none => .error .invalidArgument
  | some v => if -2 ^ 63 ≤ v ∧ v < 2 ^ 63 then .ok v else .error .outOfRange

example : (stoi " 42z".toList).toOption = some 42 := by decide

example : (stoll "0x10".toList).toOption = some 16 := by decide

end Zkz.Debugger
