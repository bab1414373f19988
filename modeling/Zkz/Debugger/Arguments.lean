import Mathlib.Data.List.TakeWhile
import Zkz.Debugger.Kernel
import Zkz.Debugger.Text
import Zkz.Lib.Post

/-!
# The arguments of the process

`ParseString` splits the command line of the debuggee at its spaces with `strtok` and puts a copy of
each word in an array that grows with each word, with room for the null pointer at its end. Without a
word there is no array, and the null pointer is written all the same.

* `argv_strtok`: `strtok` finds the words one after the other.
* `parseLoop_run`: what the loop leaves, by the words that are left.
* `parseString_iff`: the words are what is returned exactly if there is one, and not too many for the
  counter.
-/

namespace Zkz.Debugger

open Zkz.Lib

/-! ## Words -/

/-- The longest parts without spaces, from left to right. -/
def argv (s : Line) : List Line := (s.splitOn ' ').filter (· ≠ [])

/-- `strtok` with the delimiter ' ': a word, and the text behind the space that ends it. -/
def strtok (rest : Line) : Option (Line × Line) :=
  match rest.dropWhile (· = ' ') with
  | [] => none
  | c :: cs => some ((c :: cs).takeWhile (· ≠ ' '), ((c :: cs).dropWhile (· ≠ ' ')).drop 1)

theorem strtok_length {rest str rest' : Line} (h : strtok rest = some (str, rest')) :
    rest'.length < rest.length := by
  unfold strtok at h
  split at h
  · cases h
  · rename_i c cs hskip
    cases h
    have hskipped := (List.dropWhile_sublist (· = ' ') (l := rest)).length_le
    have hword : ((c :: cs).dropWhile (· ≠ ' ')).length ≤ (c :: cs).length :=
      (List.dropWhile_sublist _).length_le
    rw [hskip] at hskipped
    simp only [List.length_drop, List.length_cons] at hword hskipped ⊢
    omega

theorem argv_cons_space (rest : Line) : argv (' ' :: rest) = argv rest := by
  unfold argv
  rw [splitOn_cons, if_pos rfl, List.filter_cons_of_neg (by simp)]

theorem argv_dropWhile (rest : Line) : argv (rest.dropWhile (· = ' ')) = argv rest := by
  induction rest with
  | nil => rfl
  | cons c rest ih =>
    by_cases hc : c = ' '
    · rw [List.dropWhile_cons_of_pos (by simpa using hc), ih, hc, argv_cons_space]
    · rw [List.dropWhile_cons_of_neg (by simpa using hc)]

/-- A text is its first word, and what is behind the space that ends it. -/
theorem argv_word {word : Line} (hne : word ≠ []) (hword : ' ' ∉ word) (rest : Line) :
    argv (word ++ ' ' :: rest) = word :: argv rest ∧ argv word = [word] := by
  unfold argv
  constructor
  · rw [List.splitOn_append_cons_self_of_not_mem hword,
      List.filter_cons_of_pos (by simpa using hne)]
  · rw [List.splitOn_eq_singleton hword, List.filter_cons_of_pos (by simpa using hne),
      List.filter_nil]

/-- The words of a text are the one that `strtok` finds and those of the rest. -/
theorem argv_strtok (rest : Line) : argv rest = match strtok rest with
    | none => []
    | some (str, rest') => str :: argv rest' := by
  rw [← argv_dropWhile]
  unfold strtok
  cases hskip : rest.dropWhile (· = ' ') with
  | nil => rfl
  | cons c cs =>
    have hc : c ≠ ' ' := by
      have hhead := List.head?_dropWhile_not (· = ' ') rest
      rw [hskip] at hhead
      simpa using hhead
    have hne : (c :: cs).takeWhile (· ≠ ' ') ≠ [] := by
      rw [List.takeWhile_cons_of_pos (by simpa using hc)]
      exact List.cons_ne_nil _ _
    have hword : ' ' ∉ (c :: cs).takeWhile (· ≠ ' ') := by
      intro hmem
      simpa using List.mem_takeWhile_imp hmem
    have hsplit := List.takeWhile_append_dropWhile (p := (· ≠ ' ')) (l := c :: cs)
    simp only
    cases hrest : (c :: cs).dropWhile (· ≠ ' ') with
    | nil =>
      rw [hrest, List.append_nil] at hsplit
      conv => lhs; rw [← hsplit]
      rw [(argv_word hne hword []).2]
      rfl
    | cons b bs =>
      have hb : b = ' ' := by
        have hhead := List.head?_dropWhile_not (· ≠ ' ') (c :: cs)
        rw [hrest] at hhead
        simpa using hhead
      rw [hrest, hb] at hsplit
      conv => lhs; rw [← hsplit]
      rw [(argv_word hne hword bs).1]
      rfl

/-! ## `ParseString` -/

/-- What an entry of the array holds: what was there before, the null pointer, or the copy of a
word. -/
inductive Entry where
  | unset
  | null
  | copy (str : Line)
deriving DecidableEq

inductive ArgFault where
  /-- An entry is written or read through a null pointer. -/
  | nullPointer
  /-- An entry is written or read outside the array. -/
  | outOfBounds
  /-- A signed integer overflows. -/
  | overflow
deriving DecidableEq

/-- Computations with the calls of `log` so far. -/
abbrev ArgM := StateT (List LogLine) (Except ArgFault)

/-- Which calls of `realloc` and `strdup` succeed, by the count of words. -/
structure Allocations where
  realloc : Nat → Bool
  strdup : Nat → Bool

def Allocations.succeed : Allocations where
  realloc _ := true
  strdup _ := true

/-- One more, as an `int`. -/
def intSucc (i : Nat) : ArgM Nat := if i + 1 < 2 ^ 31 then return i + 1 else throw .overflow

def readEntry (pathname : Option (List Entry)) (i : Nat) : ArgM Entry :=
  match pathname with
  | none => throw .nullPointer
  | some entries => match entries[i]? with
    | none => throw .outOfBounds
    | some entry => return entry

def writeEntry (pathname : Option (List Entry)) (i : Nat) (entry : Entry) : ArgM (List Entry) :=
  match pathname with
  | none => throw .nullPointer
  | some entries => if i < entries.length then return entries.set i entry else throw .outOfBounds

/-- `realloc` to `size` entries. -/
def reallocEntries (pathname : Option (List Entry)) (size : Nat) : List Entry :=
  (pathname.getD []).take size ++ List.replicate (size - (pathname.getD []).length) .unset

/-- The loop behind `m_failed`, with `n` entries to go: it reads an entry before it frees it. -/
def freeEntries (pathname : Option (List Entry)) : Nat → Nat → ArgM Unit
  | 0, _ => return ()
  | n + 1, i => do
    let _ ← readEntry pathname i
    freeEntries pathname n (i + 1)

/-- The body of the loop: the array with the word `str`, `none` if an allocation fails, and the
count. -/
def addWord (A : Allocations) (pathname : Option (List Entry)) (count : Nat) (str : Line) :
    ArgM (Option (List Entry) × Nat) := do
  let count ← intSucc count
  let size ← intSucc count
  if !A.realloc count then
    freeEntries none count 0
    return (none, count)
  let entries := reallocEntries pathname size
  let entries ← writeEntry (some entries) (count - 1) (if A.strdup count then .copy str else .null)
  if !A.strdup count then
    modify fun out => out ++ [⟨.pError, "Memory allocation failed", []⟩]
    freeEntries (some entries) count 0
    return (none, count)
  return (some entries, count)

/-- The loop over the words, with the text behind the last one. -/
def parseLoop (A : Allocations) (pathname : Option (List Entry)) (count : Nat) (rest : Line) :
    ArgM (Option (List Entry) × Nat) :=
  match _h : strtok rest with
  | none => do
    let entries ← writeEntry pathname count .null
    return (some entries, count)
  | some (str, rest') => do
    match ← addWord A pathname count str with
    | (none, count) => return (none, count)
    | (some entries, count) => parseLoop A (some entries) count rest'
termination_by rest.length
decreasing_by exact strtok_length _h

/-- The array, or the null pointer, and `count`. -/
def parseString (A : Allocations) (s : Line) : ArgM (Option (List Entry) × Nat) :=
  parseLoop A none 0 s

/-- What `ParseString` is to return for the words of a string. -/
def argArray (words : List Line) : Option (List Entry) :=
  if words = [] then none else some (words.map Entry.copy ++ [.null])

/-! ## The loop -/

section Loop

variable {done : List Line} {out : List LogLine}

/-- The array behind the words `done`. -/
def partialArray (done : List Line) : Option (List Entry) :=
  if done = [] then none else some (done.map Entry.copy ++ [.unset])

theorem intSucc_ok {i : Nat} (h : i + 1 < 2 ^ 31) : intSucc i out = .ok (i + 1, out) := by
  unfold intSucc
  rw [if_pos h]
  rfl

theorem intSucc_error {i : Nat} (h : ¬ i + 1 < 2 ^ 31) : intSucc i out = .error .overflow := by
  unfold intSucc
  rw [if_neg h]
  rfl

/-- The array for one word more has two entries behind the words so far. -/
theorem reallocEntries_words (done : List Line) :
    reallocEntries (partialArray done) (done.length + 2) =
      done.map Entry.copy ++ [.unset, .unset] := by
  unfold reallocEntries partialArray
  split
  · rename_i hdone
    rw [hdone]
    rfl
  · have hlen : (done.map Entry.copy ++ [Entry.unset]).length ≤ done.length + 2 := by simp
    simp only [Option.getD_some]
    rw [List.take_of_length_le hlen]
    simp

theorem writeEntry_word (done : List Line) (str : Line) :
    writeEntry (some (reallocEntries (partialArray done) (done.length + 2))) done.length (.copy str)
      out = .ok (done.map Entry.copy ++ [.copy str, .unset], out) := by
  rw [reallocEntries_words]
  unfold writeEntry
  simp
  rfl

/-- The end of the array. -/
theorem writeEntry_null (hdone : done ≠ []) :
    writeEntry (partialArray done) done.length .null out =
      .ok (done.map Entry.copy ++ [.null], out) := by
  unfold writeEntry partialArray
  rw [if_neg hdone]
  simp
  rfl

/-- The array behind one word more. -/
theorem partialArray_append (done : List Line) (str : Line) :
    partialArray (done ++ [str]) = some (done.map Entry.copy ++ [.copy str, .unset]) := by
  unfold partialArray
  rw [if_neg (by simp)]
  simp

/-- The loop at the end of the text. -/
theorem parseLoop_end {A : Allocations} {pathname : Option (List Entry)} {count : Nat} {rest : Line}
    (h : strtok rest = none) : parseLoop A pathname count rest = (do
      let entries ← writeEntry pathname count .null
      return (some entries, count)) := by
  rw [parseLoop]
  split
  · rfl
  · rename_i hsome
    rw [h] at hsome
    cases hsome

theorem parseLoop_word {A : Allocations} {pathname : Option (List Entry)} {count : Nat}
    {str rest rest' : Line} (h : strtok rest = some (str, rest')) :
    parseLoop A pathname count rest = (do
      match ← addWord A pathname count str with
      | (none, count) => return (none, count)
      | (some entries, count) => parseLoop A (some entries) count rest') := by
  rw [parseLoop]
  split
  · rename_i hnone
    rw [h] at hnone
    cases hnone
  · rename_i hsome
    rw [h] at hsome
    cases hsome
    rfl

/-- One word more, unless the counter is at its end. -/
theorem addWord_ok (hfits : done.length + 2 < 2 ^ 31) (str : Line) :
    addWord .succeed (partialArray done) done.length str out =
      .ok ((partialArray (done ++ [str]), (done ++ [str]).length), out) := by
  unfold addWord
  rw [run_bind_ok (intSucc_ok (by omega)), run_bind_ok (intSucc_ok hfits)]
  simp only [Allocations.succeed, Bool.not_true, Bool.false_eq_true, if_false, if_true,
    Nat.add_sub_cancel]
  rw [run_bind_ok (writeEntry_word done str), partialArray_append, List.length_append]
  rfl

theorem addWord_error (hcount : done.length + 1 < 2 ^ 31) (hfits : ¬ done.length + 2 < 2 ^ 31)
    (A : Allocations) (str : Line) :
    addWord A (partialArray done) done.length str out = .error .overflow := by
  unfold addWord
  rw [run_bind_ok (intSucc_ok hcount), run_bind, intSucc_error hfits]

/-- The loop from a word on, by the words that are left. -/
theorem parseLoop_run (done : List Line) (rest : Line) (hcount : done.length + 1 < 2 ^ 31) :
    parseLoop .succeed (partialArray done) done.length rest out =
      if done ++ argv rest = [] then .error .nullPointer
      else if (done ++ argv rest).length + 1 < 2 ^ 31 then
        .ok ((argArray (done ++ argv rest), (done ++ argv rest).length), out)
      else .error .overflow := by
  induction hn : rest.length using Nat.strong_induction_on generalizing done rest with
  | _ n ih =>
    rw [argv_strtok rest]
    cases hnext : strtok rest with
    | none =>
      simp only [List.append_nil]
      rw [parseLoop_end hnext]
      by_cases hdone : done = []
      · rw [if_pos hdone, hdone]
        rfl
      · rw [if_neg hdone, if_pos hcount, run_bind_ok (writeEntry_null hdone)]
        unfold argArray
        rw [if_neg hdone]
        rfl
    | some next =>
      obtain ⟨str, rest'⟩ := next
      have hne : done ++ str :: argv rest' ≠ [] := by simp
      simp only
      rw [parseLoop_word hnext, if_neg hne]
      by_cases hfits : done.length + 2 < 2 ^ 31
      · rw [run_bind_ok (addWord_ok hfits str), partialArray_append]
        have hlen : (done ++ [str]).length + 1 < 2 ^ 31 := by
          rw [List.length_append]
          exact hfits
        have hrest := ih rest'.length (hn ▸ strtok_length hnext) (done ++ [str]) rest' hlen rfl
        rw [partialArray_append, List.append_assoc, List.singleton_append, if_neg hne] at hrest
        exact hrest
      · have hlong : ¬ (done ++ str :: argv rest').length + 1 < 2 ^ 31 := by
          rw [List.length_append, List.length_cons]
          omega
        rw [run_bind, addWord_error hcount hfits, if_neg hlong]

end Loop

/-- **`ParseString` returns the words of a string**, an array that a null pointer ends or the null
pointer if there is none, exactly if there is a word, and no more than an `int` counts with the end of
the array. -/
theorem parseString_iff (s : Line) (out : List LogLine) :
    (∃ out', parseString .succeed s out = .ok ((argArray (argv s), (argv s).length), out')) ↔
      argv s ≠ [] ∧ (argv s).length + 1 < 2 ^ 31 := by
  have hrun : parseString .succeed s out = _ := parseLoop_run [] s (by simp)
  rw [hrun, List.nil_append]
  by_cases hwords : argv s = []
  · rw [if_pos hwords]
    refine iff_of_false ?_ fun h => h.1 hwords
    rintro ⟨out', hout⟩
    cases hout
  · rw [if_neg hwords]
    by_cases hfits : (argv s).length + 1 < 2 ^ 31
    · rw [if_pos hfits]
      exact iff_of_true ⟨out, rfl⟩ ⟨hwords, hfits⟩
    · rw [if_neg hfits]
      refine iff_of_false ?_ fun h => hfits h.2
      rintro ⟨out', hout⟩
      cases hout

example : argv " run  now ".toList = ["run".toList, "now".toList] := by decide

/-- Without a word, the null pointer is written through the null pointer. -/
theorem null_array_written : parseString .succeed [] [] = .error .nullPointer ∧
    ¬ ∃ out', parseString .succeed [] [] = .ok ((argArray (argv []), (argv []).length), out') := by
  have hrun : parseString .succeed [] [] = .error .nullPointer := by
    unfold parseString
    rw [parseLoop_end rfl]
    rfl
  refine ⟨hrun, ?_⟩
  rintro ⟨out', hout⟩
  rw [hrun] at hout
  cases hout

end Zkz.Debugger
