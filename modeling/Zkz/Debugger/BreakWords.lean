import Zkz.Debugger.Numerals
import Zkz.Debugger.Placements
import Zkz.Debugger.Processes
import Zkz.Debugger.Stopped

/-!
# The words of a break command

A break command is to place a breakpoint for each of its words that is a hexadecimal numeral below
2^64, at its value. The tokeniser deletes the punctuation of a word before `std::stoll` reads it,
which is signed and stops at the first character that is no digit. So a word that is no numeral may
become one or be read as far as it is one, and a numeral from 2^63 on is refused.

* `placeWords_run`: the calls of `PlaceBreakpoint` are those of the words, one after the other.
* `calls_eq_iff`: what is to be called and what is called for one word.
* `breakWords_iff`: a command calls what it is to call exactly if all its words are read well.
-/

namespace Zkz.Debugger

open Zkz.Lib

variable {σ : Type}

/-- The addresses `PlaceBreakpoint` is to be called with for a word. -/
def wantedCalls (word : Line) : List Addr :=
  match hexNumeral word with
  | some v => if v < 2 ^ 64 then [BitVec.ofNat 64 v] else []
  | none => []

/-- The addresses it is called with for a token. -/
def tokenCalls (token : Line) : List Addr :=
  match stoll token with
  | .ok v => [BitVec.ofInt 64 v]
  | .error _ => []

/-- A numeral that is not refused, or a word of which `stoll` can read nothing, or too much. -/
def ReadWell (word : Line) : Prop :=
  match hexNumeral word with
  | some v => ¬ (2 ^ 63 ≤ v ∧ v < 2 ^ 64)
  | none => ∃ e, stoll (bare word) = .error e

/-! ## One word -/

section Words

variable {word : Line} {v : Nat}

theorem wantedCalls_hexNumeral (h : hexNumeral word = some v) :
    wantedCalls word = if v < 2 ^ 64 then [BitVec.ofNat 64 v] else [] := by
  unfold wantedCalls
  rw [h]

theorem tokenCalls_hexNumeral (h : hexNumeral word = some v) :
    tokenCalls (bare word) = if v < 2 ^ 63 then [BitVec.ofNat 64 v] else [] := by
  unfold tokenCalls
  rw [bare_hexNumeral h, stoll_hexNumeral h]
  by_cases hfits : v < 2 ^ 63
  · rw [if_pos hfits, if_pos hfits]
    simp only [BitVec.ofInt_natCast]
  · rw [if_neg hfits, if_neg hfits]

theorem tokenCalls_eq_nil_iff (token : Line) :
    tokenCalls token = [] ↔ ∃ e, stoll token = .error e := by
  unfold tokenCalls
  cases h : stoll token with
  | ok v => simp
  | error e => simp

/-- A word is called for as it is to be, if it is read well. -/
theorem calls_eq_iff (word : Line) : wantedCalls word = tokenCalls (bare word) ↔ ReadWell word := by
  unfold ReadWell
  cases h : hexNumeral word with
  | none =>
    unfold wantedCalls
    rw [h]
    exact eq_comm.trans (tokenCalls_eq_nil_iff _)
  | some v =>
    rw [wantedCalls_hexNumeral h, tokenCalls_hexNumeral h]
    simp only
    by_cases hlow : v < 2 ^ 63
    · rw [if_pos (by omega), if_pos hlow]
      exact iff_of_true rfl (by omega)
    · by_cases hfits : v < 2 ^ 64
      · rw [if_pos hfits, if_neg hlow]
        exact iff_of_false (List.cons_ne_nil _ _) (by omega)
      · rw [if_neg hfits, if_neg hlow]
        exact iff_of_true rfl (by omega)

/-- Without a sign a number is not negative. -/
theorem strto_nonneg {base : Nat} {token : Line} {v : Int} (hsign : '-' ∉ token)
    (h : strto base token = some v) : 0 ≤ v := by
  have hpositive : (splitSign (token.dropWhile isspace)).1 = false := by
    unfold splitSign
    split
    · rename_i heq
      have hmem : '-' ∈ token.dropWhile isspace := by
        rw [heq]
        exact List.mem_cons_self ..
      exact absurd ((List.dropWhile_sublist _).subset hmem) hsign
    · rfl
    · rfl
  unfold strto at h
  simp only [hpositive, Bool.false_eq_true, if_false] at h
  generalize leadingDigits base _ = ds at h
  split at h
  · cases h
  · have hv := Option.some.inj h
    omega

/-- Every call is below 2^63. -/
theorem lt_of_mem_tokenCalls {a : Addr} (h : a ∈ tokenCalls (bare word)) : a.toNat < 2 ^ 63 := by
  have hsign : '-' ∉ bare word := by
    intro hmem
    exact absurd (List.mem_filter.mp hmem).2 (by decide)
  unfold tokenCalls stoll at h
  cases hv : strto 16 (bare word) with
  | none => simp [hv] at h
  | some v =>
    have hnonneg := strto_nonneg hsign hv
    rw [hv] at h
    simp only at h
    split at h
    · rename_i v' hok
      split at hok
      · rename_i hfits
        cases hok
        rw [List.mem_singleton.mp h, BitVec.toNat_ofInt]
        omega
      · cases hok
    · cases h

/-- The calls of some words are those that are wanted exactly if all the words are read well. -/
theorem flatMap_calls_iff (words : List Line) :
    words.flatMap wantedCalls = words.flatMap (fun word => tokenCalls (bare word)) ↔
      ∀ word ∈ words, ReadWell word := by
  constructor
  · intro heq
    have hlow : ∀ word ∈ words, ∀ v, hexNumeral word = some v → v < 2 ^ 64 → v < 2 ^ 63 := by
      intro word hword v hv hfits
      have hwanted : BitVec.ofNat 64 v ∈ words.flatMap wantedCalls := by
        refine List.mem_flatMap.mpr ⟨word, hword, ?_⟩
        rw [wantedCalls_hexNumeral hv, if_pos hfits]
        exact List.mem_singleton_self _
      rw [heq] at hwanted
      obtain ⟨word', -, hcall⟩ := List.mem_flatMap.mp hwanted
      have hlt := lt_of_mem_tokenCalls hcall
      rwa [BitVec.toNat_ofNat, Nat.mod_eq_of_lt hfits] at hlt
    have hlen : ∀ word ∈ words, (wantedCalls word).length ≤ (tokenCalls (bare word)).length := by
      intro word hword
      cases hv : hexNumeral word with
      | none => simp [wantedCalls, hv]
      | some v =>
        rw [wantedCalls_hexNumeral hv, tokenCalls_hexNumeral hv]
        by_cases hfits : v < 2 ^ 64
        · rw [if_pos hfits, if_pos (hlow word hword v hv hfits)]
        · rw [if_neg hfits]
          exact Nat.zero_le _
    intro word hword
    exact (calls_eq_iff word).mp ((flatMap_eq_iff hlen).mp heq word hword)
  · exact fun hwell =>
      List.flatMap_congr fun word hword => (calls_eq_iff word).mpr (hwell word hword)

end Words

/-! ## A command -/

/-- The loop over the words notes the calls of each. -/
theorem placeWords_run (K : Kernel σ) (tokens : List Line) (li : BreakpointList)
    (d : Main (σ × List Addr)) : ∃ li' d', placeWords K.peeked tokens li d = .ok (li', d') ∧
      d'.kernel.2 = d.kernel.2 ++ tokens.flatMap tokenCalls := by
  refine words_noted (fun _ _ => rfl) (fun token tokens li d => ?_) tokens li d
  rw [placeWords]
  cases hread : stoll token with
  | error e =>
    have hcalls : tokenCalls token = [] := (tokenCalls_eq_nil_iff token).mpr ⟨e, hread⟩
    rw [hcalls]
    cases e with
    | outOfRange => exact ⟨li, _, rfl, (List.append_nil _).symm⟩
    | invalidArgument => exact ⟨li, _, rfl, (List.append_nil _).symm⟩
  | ok v =>
    have hcalls : tokenCalls token = [BitVec.ofInt 64 v] := by
      unfold tokenCalls
      rw [hread]
    obtain ⟨r, d₁, hplace, hnoted⟩ := placeBreakpoint_peeked K li (BitVec.ofInt 64 v) d
    rw [hcalls]
    exact ⟨r.2, d₁, run_bind_ok hplace, hnoted⟩

theorem handle_break {K : Kernel σ} {env : Loaded σ} {n : Nat} {p : Prompt} {command : Line}
    (h : isOneOf ["break", "b"] (firstWord command) = true) :
    handle K env n command p = handleBreak K (tokenize command) p := by
  obtain ⟨hrun, -, -⟩ := none_whole (P := fun _ => True) trivial h (by decide)
  have hmem := mem_of_isOneOf h
  simp only [List.map_cons, List.map_nil, List.mem_cons, List.not_mem_nil, or_false] at hmem
  unfold handle
  rw [hrun]
  rcases hmem with hfirst | hfirst
  · simp only [hfirst]
    rfl
  · simp only [hfirst]
    rfl

/-- The calls that an inline break command is to make, and that it makes nothing else of the
debuggee. -/
def BreaksRight (K : Kernel σ) (env : Loaded (σ × List Addr)) (n : Nat) (p : Prompt)
    (d : Main (σ × List Addr)) (command : Line) (rest : List Line) : Prop :=
  ∃ li' d', mainTurn K.peeked env n { p with input := command :: rest } d =
      .ok (.prompt { p with li := li', input := rest }, d') ∧
    d'.kernel.2 = d.kernel.2 ++ (pieces command).tail.flatMap wantedCalls

/-- **A break command calls `PlaceBreakpoint` for its hexadecimal numerals**, in order and with their
values, and for no other word, exactly if all of its words are read well. -/
theorem breakWords_iff (K : Kernel σ) (env : Loaded (σ × List Addr)) (n : Nat) (p : Prompt)
    (d : Main (σ × List Addr)) (rest : List Line) {command : Line}
    (hrunning : d.debug.isRunning = true)
    (hfirst : isOneOf ["break", "b"] ((tokenize command).headD []) = true)
    (hinline : (pieces command).tail ≠ []) :
    BreaksRight K env n p d command rest ↔ ∀ word ∈ (pieces command).tail, ReadWell word := by
  have hne : command ≠ [] := by
    rintro rfl
    exact absurd hfirst (by decide)
  have htokens : (tokenize command).tail = (pieces command).tail.map bare :=
    (List.map_tail ..).symm
  have hlen : ¬ (tokenize command).length ≤ 1 := by
    intro hle
    have htail := congrArg List.length htokens
    rw [List.length_tail, List.length_map] at htail
    exact hinline (List.length_eq_zero_iff.mp (by omega))
  obtain ⟨li', d', hwords, hnoted⟩ := placeWords_run K (tokenize command).tail p.li
    { d with out := d.out ++ [⟨.prompt, "[zkz] ", []⟩] }
  have hturn : mainTurn K.peeked env n { p with input := command :: rest } d =
      .ok (.prompt { p with li := li', input := rest }, d') := by
    rw [mainTurn_command K.peeked env n p d hne, handle_break hfirst]
    unfold handleBreak whenRunning
    rw [run_bind_ok (by rfl), if_pos (by exact hrunning), if_neg hlen, run_bind_ok hwords]
    rfl
  rw [htokens, List.flatMap_map] at hnoted
  rw [← flatMap_calls_iff]
  unfold BreaksRight
  rw [hturn]
  constructor
  · rintro ⟨li₁, d₁, hok, hwanted⟩
    cases hok
    rw [hnoted] at hwanted
    exact (List.append_cancel_left hwanted).symm
  · intro hcalls
    exact ⟨li', d', rfl, by rw [hnoted, hcalls]⟩

/-- Two numerals and a word that is none. -/
theorem two_addresses : BreaksRight stoppedKernel (nothingLoaded _) 0 ⟨[], 0, []⟩ unpeekedMain
    "break 1000 zz 0x2000".toList [] :=
  (breakWords_iff stoppedKernel (nothingLoaded _) 0 ⟨[], 0, []⟩ unpeekedMain [] rfl (by decide)
    (by decide)).mpr (by
      have hwords : (pieces "break 1000 zz 0x2000".toList).tail =
          ["1000".toList, "zz".toList, "0x2000".toList] := by decide
      rw [hwords]
      simp only [List.forall_mem_cons, List.not_mem_nil, false_imp_iff, implies_true, and_true]
      exact ⟨show ¬ (2 ^ 63 ≤ 0x1000 ∧ 0x1000 < 2 ^ 64) by decide, ⟨.invalidArgument, rfl⟩,
        show ¬ (2 ^ 63 ≤ 0x2000 ∧ 0x2000 < 2 ^ 64) by decide⟩)

/-- What a command has peeked when it ends. -/
def peekedBy (command : Line) : Option (List Addr) :=
  (mainTurn stoppedKernel.peeked (nothingLoaded _) 0 ⟨[], 0, [command]⟩ unpeekedMain).toOption.map
    fun r => r.2.kernel.2

/-- A breakpoint at the numeral that a word begins with, one at the digits without the sign between
them, and none for the address of a kernel. -/
theorem break_misread : peekedBy "break 12zz 10-00 ffffffff80000000".toList = some [0x12, 0x1000] ∧
    ¬ BreaksRight stoppedKernel (nothingLoaded _) 0 ⟨[], 0, []⟩ unpeekedMain
      "break 12zz 10-00 ffffffff80000000".toList [] := by
  have hpeeked : peekedBy "break 12zz 10-00 ffffffff80000000".toList = some [0x12, 0x1000] := by
    decide +kernel
  refine ⟨hpeeked, ?_⟩
  rintro ⟨li', d', hrun, hwanted⟩
  have hcalls : (pieces "break 12zz 10-00 ffffffff80000000".toList).tail.flatMap wantedCalls =
      [0xffffffff80000000] := by decide +kernel
  unfold peekedBy at hpeeked
  rw [hrun] at hpeeked
  rw [hcalls] at hwanted
  have hboth := (Option.some.inj hpeeked).symm.trans hwanted
  exact absurd hboth (by decide)

end Zkz.Debugger
