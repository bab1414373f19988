import Zkz.Debugger.BreakWords
import Zkz.Debugger.CommandFaults
import Zkz.Debugger.Listings
import Zkz.Debugger.Numbering
import Zkz.Debugger.Select

/-!
# Sessions that restore a listing

What `printb` prints is enough to make the same list again: a `break` with its addresses and a
`disable` with the numbers of what is disabled. The numbers of the new list are 1, …, n, so that it
is the same exactly if those of the old one were.

* `restoreCommands`: the commands, read off the text.
* `break_turn`, `disable_turn`, `printb_turn`: the turns of a session that types them.
* `listing_restored_iff`: such a session prints the same listing.
-/

namespace Zkz.Debugger

open Zkz.Lib BreakpointList

variable {σ : Type}

/-! ## Commands -/

/-- A command with its words on its line; a command without words would ask for one. -/
def inlineCommand (first : Line) (words : List Line) : List Line :=
  if words = [] then [] else [first ++ words.flatMap (' ' :: ·)]

/-- The commands that restore a listing. -/
def restoreCommands (text : Line) : List Line :=
  inlineCommand "break".toList ((rowsOf text).map fun fields => fields.getD 1 []) ++
    inlineCommand "disable".toList
      (((rowsOf text).filter fun fields => fields.getD 4 [] = "disabled".toList).map fun fields =>
        fields.getD 2 [])

example : restoreCommands (listing [(0x401000, 1, true), (0x40ab, 2, false)]) =
    ["break 0x401000 0x40AB".toList, "disable 2".toList] := by decide

/-- The words of a line are those that were put together. -/
theorem tokenize_words {first : Line} (hfirst : Solid first) (hne : first ≠ []) {words : List Line}
    (hwords : ∀ word ∈ words, Solid word ∧ word ≠ []) :
    tokenize (first ++ words.flatMap (' ' :: ·)) = (first :: words).map bare := by
  induction words generalizing first with
  | nil =>
    have hblank : ' ' ∉ first := hfirst.not_mem rfl
    unfold tokenize pieces
    rw [List.flatMap_nil, List.append_nil, List.splitOn_eq_singleton hblank]
    simp [hne, bare]
  | cons word words ih =>
    obtain ⟨⟨hword, hnil⟩, hrest⟩ := List.forall_mem_cons.mp hwords
    rw [List.flatMap_cons, List.cons_append, tokenize_append (hfirst.not_mem rfl),
      ih hword hnil hrest]
    rfl

/-! ## Turns -/

/-- New breakpoints at some addresses, as they are listed behind `k` others. -/
def numbered : Nat → List Addr → List Listed
  | _, [] => []
  | k, a :: as => (a, (k : Int) + 1, true) :: numbered (k + 1) as

section Turns

variable {K : Kernel σ} {env : Loaded σ} {n : Nat} {unit : Int} {rest : List Line}
  {li : BreakpointList} {d : Main σ}

theorem placeWords_numbered (hK : K.PeekPoke) {as : List Addr} (has : ∀ a ∈ as, a.toNat < 2 ^ 63)
    (li : BreakpointList) (d : Main σ) :
    ∃ li' d', placeWords K (as.map fun a => '0' :: 'x' :: upperHex a) li d = .ok (li', d') ∧
      li'.map Breakpoint.listed = li.map Breakpoint.listed ++ numbered li.length as ∧
      d'.debug = d.debug := by
  induction as generalizing li d with
  | nil => exact ⟨li, d, rfl, (List.append_nil _).symm, rfl⟩
  | cons a as ih =>
    obtain ⟨ha, has⟩ := List.forall_mem_cons.mp has
    obtain ⟨w, hw⟩ := Option.isSome_iff_exists.mp (hK.peektext d.debug.pid a d.kernel)
    have hpoke := hK.poketext d.debug.pid a (setLow w trapByte) (K.peektext d.debug.pid a d.kernel).2
    obtain ⟨out, hplace⟩ := placeBreakpoint_ok (K := K) (a := a) (d := d) li (Prod.ext hw rfl)
      (Prod.ext hpoke rfl)
    obtain ⟨li', d', hrun, hli, hdebug⟩ := ih has (appendElement li a w) ⟨d.debug, d.regs, _, out⟩
    refine ⟨li', d', ?_, ?_, hdebug⟩
    · have haddress : BitVec.ofInt 64 (a.toNat : Int) = a := by simp
      rw [List.map_cons, placeWords, stoll_upperHex ha]
      simp only [haddress]
      rw [run_bind_ok hplace]
      exact hrun
    · rw [hli]
      simp [appendElement, numbered, Breakpoint.listed, getNoOfBreakpoints]

theorem inlineCommand_cons {first : Line} {words : List Line} (h : words ≠ []) :
    inlineCommand first words = [first ++ words.flatMap (' ' :: ·)] := if_neg h

/-- The first word of such a command, and how many it has. -/
theorem tokenize_inline {first : Line} (hfirst : Solid first) (hne : first ≠ []) {words : List Line}
    (hwords : ∀ word ∈ words, Solid word ∧ word ≠ []) (hwordless : words ≠ []) :
    firstWord (first ++ words.flatMap (' ' :: ·)) = bare first ∧
      ¬ (tokenize (first ++ words.flatMap (' ' :: ·))).length < 2 ∧
        (tokenize (first ++ words.flatMap (' ' :: ·))).tail = words.map bare := by
  have hlen := List.length_pos_iff.mpr hwordless
  unfold firstWord
  rw [tokenize_words hfirst hne hwords]
  refine ⟨rfl, ?_, rfl⟩
  rw [List.length_map, List.length_cons]
  omega

/-- A turn that types `break` with some addresses. -/
theorem break_turn (hK : K.PeekPoke) (hrunning : d.debug.isRunning = true) {as : List Addr}
    (has : ∀ a ∈ as, a.toNat < 2 ^ 63) (hne : as ≠ []) :
    ∃ li' d', (∀ rest, mainTurn K env n ⟨li, unit, ("break".toList ++
        (as.map fun a => '0' :: 'x' :: upperHex a).flatMap (' ' :: ·)) :: rest⟩ d =
          .ok (.prompt ⟨li', unit, rest⟩, d')) ∧
      li'.map Breakpoint.listed = li.map Breakpoint.listed ++ numbered li.length as ∧
      d'.debug = d.debug := by
  have hwords : ∀ word ∈ as.map fun a => '0' :: 'x' :: upperHex a, Solid word ∧ word ≠ [] := by
    intro word hword
    obtain ⟨a, -, rfl⟩ := List.mem_map.mp hword
    exact ⟨solid_upperHex a, List.cons_ne_nil _ _⟩
  obtain ⟨hfirst, hlen, htail⟩ := @tokenize_inline "break".toList (solid_of_all (by decide))
    (by decide) _ hwords (by simpa using hne)
  have hbare : (as.map fun a => '0' :: 'x' :: upperHex a).map bare =
      as.map fun a => '0' :: 'x' :: upperHex a := by
    rw [List.map_map]
    exact List.map_congr_left fun a _ => bare_hexNumeral (hexNumeral_upperHex a)
  obtain ⟨li', d', hplaced, hli, hdebug⟩ := placeWords_numbered hK has li
    { d with out := d.out ++ [⟨.prompt, "[zkz] ", []⟩] }
  refine ⟨li', d', fun rest => ?_, hli, hdebug⟩
  rw [mainTurn_command K env n ⟨li, unit, []⟩ d (by simp) rest, handle_break (by rw [hfirst]; decide)]
  unfold handleBreak whenRunning
  rw [run_bind_ok (by rfl), if_pos hrunning, if_neg (by omega), htail, hbare, run_bind_ok hplaced]
  rfl

/-- Disabling keeps the numbers, whatever words are typed. -/
theorem disableWords_numbers (words : List Line) (li : BreakpointList) (d : Main σ) :
    Post (disableWords words li) d fun li' d' => numbers li' = numbers li ∧ d'.debug = d.debug := by
  induction words generalizing li d with
  | nil => exact post_pure ⟨rfl, rfl⟩
  | cons word words ih =>
    rw [disableWords]
    cases stoi word with
    | error e =>
      refine post_bind (logSto_spoke e d) fun _ d₁ hs => ?_
      exact post_mono (ih li d₁) fun _ _ h => ⟨h.1, h.2.trans hs.debug⟩
    | ok k =>
      refine post_bind (disableBreakpoint_post li k d) ?_
      rintro r d₁ ⟨i, hr, hdebug, -⟩
      refine post_mono (ih r.2 d₁) fun _ _ h => ⟨?_, h.2.trans hdebug⟩
      rw [h.1, hr, numbers_disableAt]

/-- A breakpoint whose number is one of some is disabled. -/
def disabledBy (ks : List Int) (b : Breakpoint) : Breakpoint :=
  if b.breakpointNumber ∈ ks then { b with isEnabled := false } else b

@[simp] theorem disabledBy_number (ks : List Int) (b : Breakpoint) :
    (disabledBy ks b).breakpointNumber = b.breakpointNumber := by
  unfold disabledBy
  split
  · rfl
  · rfl

theorem disabledBy_cons (k : Int) (ks : List Int) (b : Breakpoint) :
    disabledBy ks (disabledBy [k] b) = disabledBy (k :: ks) b := by
  by_cases hk : b.breakpointNumber = k
  · simp [disabledBy, hk]
  · simp [disabledBy, hk]

theorem consecutive_disabledBy (hli : Consecutive li) (ks : List Int) :
    Consecutive (li.map (disabledBy ks)) := by
  intro i b hb
  rw [List.getElem?_map] at hb
  obtain ⟨b', hb', rfl⟩ := Option.map_eq_some_iff.mp hb
  exact (disabledBy_number ks b').trans (hli i b' hb')

/-- The breakpoint of a number, where they are in order. -/
theorem disableBreakpoint_consecutive (hli : Consecutive li) {k : Int} (hk : 0 < k)
    (hlen : k ≤ li.length) (d : Main σ) :
    ∃ d', disableBreakpoint li k d = .ok ((0, li.map (disabledBy [k])), d') ∧
      d'.debug = d.debug := by
  obtain ⟨i, rfl⟩ : ∃ i : Nat, k = i + 1 := ⟨(k - 1).toNat, by omega⟩
  have hfind : getElementByBreakpointNumber li (i + 1) = some i := by
    unfold getElementByBreakpointNumber getNoOfBreakpoints
    rw [if_neg (by omega)]
    exact findIdx?_consecutive hli (by omega)
  have hlist : disableAt li i = li.map (disabledBy [(i : Int) + 1]) := by
    unfold disableAt
    refine List.ext_getElem? fun j => ?_
    rw [List.getElem?_modify, List.getElem?_map]
    cases hj : li[j]? with
    | none => rfl
    | some b =>
      have hnumber := hli j b hj
      by_cases hij : i = j
      · simp [disabledBy, hnumber, hij]
      · have hne : ¬ (j : Int) = i := by omega
        simp [disabledBy, hnumber, hij, hne]
  unfold disableBreakpoint
  rw [hfind, ← hlist]
  exact ⟨_, rfl, rfl⟩

/-- The numbers of a list in order are all disabled. -/
theorem disableWords_consecutive {ks : List Int} (hli : Consecutive li)
    (hks : ∀ k ∈ ks, 0 < k ∧ k ≤ li.length ∧ k < 2 ^ 31) (d : Main σ) :
    ∃ d', disableWords (ks.map decimal) li d = .ok (li.map (disabledBy ks), d') ∧
      d'.debug = d.debug := by
  induction ks generalizing li d with
  | nil =>
    refine ⟨d, ?_, rfl⟩
    have hid : li.map (disabledBy []) = li := List.map_id'' (fun b => if_neg List.not_mem_nil) li
    rw [hid]
    rfl
  | cons k ks ih =>
    obtain ⟨⟨hk, hlen, hfits⟩, hks⟩ := List.forall_mem_cons.mp hks
    obtain ⟨d₁, hdisable, hdebug₁⟩ := disableBreakpoint_consecutive hli hk hlen d
    obtain ⟨d', hrun, hdebug⟩ := ih (consecutive_disabledBy hli [k])
      (by rw [List.length_map]; exact hks) d₁
    refine ⟨d', ?_, hdebug.trans hdebug₁⟩
    rw [List.map_cons, disableWords, stoi_decimal (by omega) hfits]
    simp only
    rw [run_bind_ok hdisable, hrun, List.map_map]
    exact congrArg (fun f => Except.ok (li.map f, d')) (funext fun b => disabledBy_cons k ks b)

/-- A turn that types `disable` with some words. -/
theorem disable_turn {words : List Line} (hwords : ∀ word ∈ words, Solid word ∧ word ≠ [])
    (hne : words ≠ []) :
    mainTurn K env n ⟨li, unit, ("disable".toList ++ words.flatMap (' ' :: ·)) :: rest⟩ d =
      (do
        let li ← disableWords (words.map bare) li
        atPrompt ⟨li, unit, rest⟩ : DbgM σ Turn)
          { d with out := d.out ++ [⟨.prompt, "[zkz] ", []⟩] } := by
  obtain ⟨hfirst, hlen, htail⟩ := @tokenize_inline "disable".toList
    (solid_of_all (by decide)) (by decide) _ hwords hne
  rw [mainTurn_command K env n ⟨li, unit, []⟩ d (by simp) rest, handle_disable (by rw [hfirst]; decide)]
  unfold handleDisable
  rw [if_neg hlen, htail]

/-- A turn that types `printb`. -/
theorem printb_turn (hrunning : d.debug.isRunning = true) :
    mainTurn K env n ⟨li, unit, "printb".toList :: rest⟩ d =
      .ok (.prompt ⟨li, unit, rest⟩, { d with
        out := d.out ++ [⟨.prompt, "[zkz] ", []⟩] ++ listingLines (li.map Breakpoint.listed) }) := by
  have hhandle : handle K env n "printb".toList ⟨li, unit, rest⟩ = handlePrintb ⟨li, unit, rest⟩ := rfl
  rw [mainTurn_command K env n ⟨li, unit, []⟩ d (by decide) rest, hhandle]
  unfold handlePrintb whenRunning
  rw [run_bind_ok (by rfl), if_pos hrunning, run_bind_ok (listBreakpoints_lines li _)]
  rfl

theorem mainTurns_prompt {m : Nat} {p p' : Prompt} {d' : Main σ}
    (h : mainTurn K env n p d = .ok (.prompt p', d')) :
    mainTurns K env n (m + 1) p d = mainTurns K env n m p' d' := by
  rw [mainTurns, run_bind_ok h]

theorem bare_decimal {k : Int} (hk : 0 ≤ k) : bare (decimal k) = decimal k := by
  unfold bare decimal
  rw [if_neg (by omega), List.filter_eq_self]
  intro c hc
  have hrange := isDigit_range (Nat.isDigit_of_mem_toDigits (by decide) (by decide) hc)
  unfold ispunct
  simp only [Bool.not_eq_true', Bool.or_eq_false_iff, decide_eq_false_iff_not, Bool.and_eq_false_iff]
  omega

theorem decimal_word (k : Int) : Solid (decimal k) ∧ decimal k ≠ [] := by
  refine ⟨solid_decimal k, ?_⟩
  unfold decimal
  split
  · exact List.cons_ne_nil _ _
  · exact Nat.toDigits_ne_nil

/-! ## Commands of a listing -/

/-- The numbers of what is disabled. -/
def offNumbers (es : List Listed) : List Int := (es.filter fun e => !e.2.2).map fun e => e.2.1

theorem restoreCommands_listing (es : List Listed) : restoreCommands (listing es) =
    inlineCommand "break".toList ((es.map Prod.fst).map fun a => '0' :: 'x' :: upperHex a) ++
      inlineCommand "disable".toList ((offNumbers es).map decimal) := by
  have hstate : ∀ e : Listed, decide (e.state = "disabled".toList) = !e.2.2 := by
    intro e
    unfold Listed.state
    cases e.2.2 with
    | true => decide
    | false => decide
  unfold restoreCommands offNumbers
  rw [rowsOf_listing, List.filter_map, List.map_map, List.map_map, List.map_map, List.map_map]
  have hfilter : ((fun fields : List Line => decide (fields.getD 4 [] = "disabled".toList)) ∘
      fun e : Listed => [[], '0' :: 'x' :: upperHex e.1, decimal e.2.1, [], e.state]) =
        fun e => !e.2.2 := funext hstate
  rw [hfilter]
  rfl

/-- The first of the commands, if there is one, places the breakpoints. -/
theorem break_phase (hK : K.PeekPoke) (hrunning : d.debug.isRunning = true) {as : List Addr}
    (has : ∀ a ∈ as, a.toNat < 2 ^ 63) :
    ∃ li d', li.map Breakpoint.listed = numbered 0 as ∧ d'.debug = d.debug ∧ ∀ m rest,
      mainTurns K env n ((inlineCommand "break".toList
        (as.map fun a => '0' :: 'x' :: upperHex a)).length + m)
          ⟨[], unit, inlineCommand "break".toList (as.map fun a => '0' :: 'x' :: upperHex a) ++ rest⟩ d =
            mainTurns K env n m ⟨li, unit, rest⟩ d' := by
  by_cases hne : as = []
  · subst hne
    exact ⟨[], d, rfl, rfl, fun m rest => by rw [Nat.add_comm]; rfl⟩
  · obtain ⟨li, d', hturn, hli, hdebug⟩ :=
      @break_turn σ K env n unit [] d hK hrunning as has hne
    refine ⟨li, d', hli, hdebug, fun m rest => ?_⟩
    rw [inlineCommand_cons (by simpa using hne), List.length_singleton, Nat.add_comm]
    exact mainTurns_prompt (hturn rest)

/-- The second one disables, and keeps the numbers if it comes back to the prompt. -/
theorem disable_phase {words : List Line} (hwords : ∀ word ∈ words, Solid word ∧ word ≠ [])
    {m : Nat} {t : Turn} {d' : Main σ}
    (h : mainTurns K env n ((inlineCommand "disable".toList words).length + m)
      ⟨li, unit, inlineCommand "disable".toList words ++ rest⟩ d = .ok (t, d')) :
    ∃ li₁ d₁, numbers li₁ = numbers li ∧ d₁.debug = d.debug ∧
      mainTurns K env n m ⟨li₁, unit, rest⟩ d₁ = .ok (t, d') := by
  by_cases hne : words = []
  · subst hne
    rw [Nat.add_comm] at h
    exact ⟨li, d, rfl, rfl, h⟩
  · rw [inlineCommand_cons hne, List.length_singleton, Nat.add_comm, mainTurns,
      List.singleton_append] at h
    obtain ⟨t₁, d₁, hturn, hrest⟩ := run_bind_eq_ok.mp h
    rw [disable_turn hwords hne] at hturn
    obtain ⟨li₁, d₂, hdisable, hpure⟩ := run_bind_eq_ok.mp hturn
    cases hpure
    obtain ⟨hnumbers, hdebug⟩ := disableWords_numbers _ _ _ li₁ d₁ hdisable
    exact ⟨li₁, d₁, hnumbers, hdebug, hrest⟩

/-- What it does to a list in order. -/
theorem disable_phase_consecutive (hli : Consecutive li) {ks : List Int}
    (hks : ∀ k ∈ ks, 0 < k ∧ k ≤ li.length ∧ k < 2 ^ 31) (d : Main σ) :
    ∃ d₁, d₁.debug = d.debug ∧ ∀ m rest,
      mainTurns K env n ((inlineCommand "disable".toList (ks.map decimal)).length + m)
        ⟨li, unit, inlineCommand "disable".toList (ks.map decimal) ++ rest⟩ d =
          mainTurns K env n m ⟨li.map (disabledBy ks), unit, rest⟩ d₁ := by
  have hwords : ∀ word ∈ ks.map decimal, Solid word ∧ word ≠ [] := by
    intro word hword
    obtain ⟨k, -, rfl⟩ := List.mem_map.mp hword
    exact decimal_word k
  have hbare : (ks.map decimal).map bare = ks.map decimal := by
    rw [List.map_map]
    exact List.map_congr_left fun k hk => bare_decimal (le_of_lt (hks k hk).1)
  by_cases hne : ks = []
  · subst hne
    have hid : li.map (disabledBy []) = li := List.map_id'' (fun b => if_neg List.not_mem_nil) li
    exact ⟨d, rfl, fun m rest => by rw [hid, Nat.add_comm]; rfl⟩
  · obtain ⟨d₁, hrun, hdebug⟩ := disableWords_consecutive hli hks
      { d with out := d.out ++ [⟨.prompt, "[zkz] ", []⟩] }
    refine ⟨d₁, hdebug, fun m rest => ?_⟩
    have hmap : ks.map decimal ≠ [] := by simpa using hne
    rw [inlineCommand_cons hmap, List.length_singleton, Nat.add_comm]
    refine mainTurns_prompt ?_
    rw [List.singleton_append, disable_turn hwords hmap, hbare, run_bind_ok hrun]
    rfl

end Turns

/-! ## Restored listings -/

theorem numbered_getElem? (k : Nat) (as : List Addr) (i : Nat) :
    (numbered k as)[i]? = as[i]?.map fun a => (a, (k : Int) + i + 1, true) := by
  induction as generalizing k i with
  | nil => rfl
  | cons a as ih =>
    cases i with
    | zero => simp [numbered]
    | succ i =>
      rw [numbered, List.getElem?_cons_succ, List.getElem?_cons_succ, ih]
      congr 1
      funext a
      simp only [Nat.cast_add, Nat.cast_one]
      ring_nf

theorem numbered_length (k : Nat) (as : List Addr) : (numbered k as).length = as.length := by
  induction as generalizing k with
  | nil => rfl
  | cons a as ih => rw [numbered, List.length_cons, ih, List.length_cons]

/-- A list that is placed anew is in order. -/
theorem consecutive_numbered {li : BreakpointList} {as : List Addr}
    (h : li.map Breakpoint.listed = numbered 0 as) : Consecutive li := by
  intro i b hb
  have hlisted : (li.map Breakpoint.listed)[i]? = some b.listed := by rw [List.getElem?_map, hb]; rfl
  rw [h, numbered_getElem?] at hlisted
  obtain ⟨a, -, ha⟩ := Option.map_eq_some_iff.mp hlisted
  have hnumber := congrArg (fun e : Listed => e.2.1) ha
  simp only [Nat.cast_zero, zero_add] at hnumber
  exact hnumber.symm

theorem consecutive_of_numbers {li li' : BreakpointList} (h : numbers li = numbers li')
    (hli : Consecutive li') : Consecutive li := by
  intro i b hb
  have hnumber : (numbers li)[i]? = some b.breakpointNumber := by
    rw [numbers, List.getElem?_map, hb]
    rfl
  rw [h, numbers, List.getElem?_map] at hnumber
  obtain ⟨b', hb', hnumber⟩ := Option.map_eq_some_iff.mp hnumber
  rw [← hnumber]
  exact hli i b' hb'

theorem mem_offNumbers {li : BreakpointList} (hli : Consecutive li) {i : Nat} {b : Breakpoint}
    (hb : li[i]? = some b) :
    (i : Int) + 1 ∈ offNumbers (li.map Breakpoint.listed) ↔ b.isEnabled = false := by
  unfold offNumbers
  simp only [List.mem_map, List.mem_filter, Bool.not_eq_true']
  constructor
  · rintro ⟨_, ⟨⟨b', hmem, rfl⟩, hoff⟩, hnumber⟩
    obtain ⟨j, hj⟩ := List.mem_iff_getElem?.mp hmem
    have hij : j = i := by
      have hb' := hli j b' hj
      have hnumber : b'.breakpointNumber = (i : Int) + 1 := hnumber
      omega
    rw [hij, hb] at hj
    cases hj
    exact hoff
  · exact fun hoff => ⟨b.listed, ⟨⟨b, List.mem_of_getElem? hb, rfl⟩, hoff⟩, hli i b hb⟩

/-- Disabling what was disabled makes a list in order what it was. -/
theorem numbered_disabled {li li' : BreakpointList} (hli : Consecutive li)
    (h : li'.map Breakpoint.listed = numbered 0 (addresses li)) :
    (li'.map (disabledBy (offNumbers (li.map Breakpoint.listed)))).map Breakpoint.listed =
      li.map Breakpoint.listed := by
  refine List.ext_getElem? fun i => ?_
  have hi := congrArg (·[i]?) h
  simp only [List.getElem?_map, numbered_getElem?, addresses] at hi ⊢
  cases hb : li[i]? with
  | none =>
    rw [hb] at hi
    rw [Option.map_eq_none_iff.mp hi]
    rfl
  | some b =>
    rw [hb] at hi
    obtain ⟨b', hb', hlisted⟩ := Option.map_eq_some_iff.mp hi
    have haddress : b'.address = b.address := congrArg Prod.fst hlisted
    have hnumber : b'.breakpointNumber = (i : Int) + 1 :=
      (congrArg (fun e : Listed => e.2.1) hlisted).trans (by simp)
    have henabled : b'.isEnabled = true := congrArg (fun e : Listed => e.2.2) hlisted
    have hoff := mem_offNumbers hli hb
    generalize offNumbers (li.map Breakpoint.listed) = ks at hoff ⊢
    rw [hb', Option.map_some, Option.map_some, Option.map_some, Option.some.injEq]
    unfold Breakpoint.listed disabledBy
    rw [hnumber, hli i b hb, ← haddress]
    cases hstate : b.isEnabled with
    | true =>
      rw [if_neg (by rw [hoff, hstate]; decide), hnumber, henabled]
    | false => rw [if_pos (hoff.mpr hstate)]

theorem listingLines_numbers {es es' : List Listed} (h : listingLines es = listingLines es') :
    es.map (fun e => e.2.1) = es'.map fun e => e.2.1 := by
  have hrows := congrArg (fun lines => lines.map fun l : LogLine => l.args[1]?) (List.cons.inj h).2
  simp only [List.map_map] at hrows
  have hinj : Function.Injective fun k : Int => some (LogArg.int k) := by
    intro k k' hk
    cases hk
    rfl
  refine List.map_injective_iff.mpr hinj ?_
  rw [List.map_map, List.map_map]
  exact hrows

theorem listed_fits {li : BreakpointList} (h : ∀ b ∈ li, b.listed.Fits) :
    ∀ e ∈ li.map Breakpoint.listed, e.Fits := by
  intro e he
  obtain ⟨b, hb, rfl⟩ := List.mem_map.mp he
  exact h b hb

/-- The session that types the commands and `printb` comes back to the prompt with these lines. -/
def Restores (K : Kernel σ) (env : Loaded σ) (n : Nat) (unit : Int) (rest : List Line) (d : Main σ)
    (text : Line) (lines : List LogLine) : Prop :=
  ∃ li' d' before, mainTurns K env n ((restoreCommands text).length + 1)
      ⟨[], unit, restoreCommands text ++ "printb".toList :: rest⟩ d =
        .ok (.prompt ⟨li', unit, rest⟩, d') ∧ d'.out = before ++ lines

/-- **A listing is restored exactly if its numbers are 1, …, n**, in any session with a process that
runs and can be written to. -/
theorem listing_restored_iff {K : Kernel σ} (hK : K.PeekPoke) (env : Loaded σ) (n : Nat) (unit : Int)
    (rest : List Line) {d : Main σ} (hrunning : d.debug.isRunning = true) {li : BreakpointList}
    (hfits : ∀ b ∈ li, b.listed.Fits) :
    ∃ text, shown (listingLines (li.map Breakpoint.listed)) = .ok text ∧
      (Restores K env n unit rest d text (listingLines (li.map Breakpoint.listed)) ↔
        Consecutive li) := by
  have hes := listed_fits hfits
  have has : ∀ a ∈ addresses li, a.toNat < 2 ^ 63 := by
    intro a ha
    obtain ⟨b, hb, rfl⟩ := List.mem_map.mp ha
    have haddress : b.address.toNat < 2 ^ 60 := (hfits b hb).1
    omega
  have hfirst : (li.map Breakpoint.listed).map Prod.fst = addresses li := by
    rw [List.map_map]
    rfl
  refine ⟨listing (li.map Breakpoint.listed), shown_listing hes, ?_⟩
  obtain ⟨li₁, d₁, hli₁, hdebug₁, hbreak⟩ := @break_phase σ K env n unit d hK hrunning _ has
  have hin := consecutive_numbered hli₁
  have hlen₁ : li₁.length = li.length := by
    have hsame := congrArg List.length hli₁
    rw [List.length_map, numbered_length, addresses, List.length_map] at hsame
    exact hsame
  unfold Restores
  rw [restoreCommands_listing, hfirst, List.length_append, Nat.add_assoc]
  simp only [List.append_assoc]
  rw [hbreak]
  constructor
  · rintro ⟨li', d', before, hrun, hout⟩
    have hwords : ∀ word ∈ (offNumbers (li.map Breakpoint.listed)).map decimal,
        Solid word ∧ word ≠ [] := by
      intro word hword
      obtain ⟨k, -, rfl⟩ := List.mem_map.mp hword
      exact decimal_word k
    obtain ⟨li₂, d₂, hnumbers, hdebug₂, hprint⟩ := disable_phase hwords hrun
    have hrunning₂ : d₂.debug.isRunning = true := by rw [hdebug₂, hdebug₁, hrunning]
    rw [mainTurns_prompt (printb_turn hrunning₂)] at hprint
    cases hprint
    have hlen : li'.length = li.length := by
      have hsame := congrArg List.length hnumbers
      rw [numbers, numbers, List.length_map, List.length_map] at hsame
      exact hsame.trans hlen₁
    have hlines := (List.append_inj' hout (by simp [listingLines, hlen])).2
    have hsame : numbers li' = numbers li := by
      have hcolumn := listingLines_numbers hlines
      rw [List.map_map, List.map_map] at hcolumn
      exact hcolumn
    exact consecutive_of_numbers (hsame.symm.trans hnumbers) hin
  · intro hli
    have hks : ∀ k ∈ offNumbers (li.map Breakpoint.listed), 0 < k ∧ k ≤ li₁.length ∧ k < 2 ^ 31 := by
      intro k hk
      unfold offNumbers at hk
      obtain ⟨e, he, rfl⟩ := List.mem_map.mp hk
      obtain ⟨b, hb, rfl⟩ := List.mem_map.mp (List.mem_of_mem_filter he)
      obtain ⟨i, hi⟩ := List.mem_iff_getElem?.mp hb
      have hnumber : b.listed.2.1 = (i : Int) + 1 := hli i b hi
      have hhigh : b.listed.2.1 ≤ 999999999 := (hfits b hb).2.2
      have hlt := (List.getElem?_eq_some_iff.mp hi).1
      omega
    obtain ⟨d₂, hdebug₂, hdisable⟩ :=
      @disable_phase_consecutive σ K env n unit li₁ hin _ hks d₁
    have hrunning₂ : d₂.debug.isRunning = true := by rw [hdebug₂, hdebug₁, hrunning]
    have hturn := @printb_turn σ K env n unit rest
      (li₁.map (disabledBy (offNumbers (li.map Breakpoint.listed)))) d₂ hrunning₂
    rw [numbered_disabled hli hli₁] at hturn
    exact ⟨_, _, _, (hdisable 1 _).trans (mainTurns_prompt hturn), rfl⟩

/-- **`printb` prints all of the list**: its text, read with the conversions of the commands, is the
list, whatever the addresses and numbers are that have room in the buffers. -/
theorem printb_readRows (K : Kernel σ) (env : Loaded σ) (n : Nat) (unit : Int) (rest : List Line)
    {d : Main σ} (hrunning : d.debug.isRunning = true) {li : BreakpointList}
    (hfits : ∀ b ∈ li, b.listed.Fits) :
    ∃ lines text, mainTurn K env n ⟨li, unit, "printb".toList :: rest⟩ d =
        .ok (.prompt ⟨li, unit, rest⟩, { d with out := d.out ++ [⟨.prompt, "[zkz] ", []⟩] ++ lines }) ∧
      shown lines = .ok text ∧
      (rowsOf text).map readRow = li.map fun b => .ok (b.address, b.breakpointNumber, b.isEnabled) := by
  have hes := listed_fits hfits
  refine ⟨_, _, printb_turn hrunning, shown_listing hes, ?_⟩
  rw [readRows_listing hes, List.map_map]
  rfl

/-- Two breakpoints, the second of which is disabled. -/
def twoListed : BreakpointList := [⟨true, 0x401000, 0x90, 1⟩, ⟨false, 0x40ab, 0xc3, 2⟩]

theorem twoListed_fits : ∀ b ∈ twoListed, b.listed.Fits := by
  unfold twoListed Listed.Fits
  decide

theorem two_read : ∃ lines text,
    mainTurn stoppedKernel (nothingLoaded _) 0 ⟨twoListed, 0, ["printb".toList]⟩ stoppedMain =
        .ok (.prompt ⟨twoListed, 0, []⟩,
          { stoppedMain with out := stoppedMain.out ++ [⟨.prompt, "[zkz] ", []⟩] ++ lines }) ∧
      shown lines = .ok text ∧ (rowsOf text).map readRow =
        twoListed.map fun b => .ok (b.address, b.breakpointNumber, b.isEnabled) :=
  printb_readRows stoppedKernel (nothingLoaded _) 0 0 [] rfl twoListed_fits

theorem twoListed_consecutive : Consecutive twoListed := by
  intro i b h
  rcases i with _ | _ | i
  · cases h
    rfl
  · cases h
    rfl
  · cases h

/-- Their listing is restored. -/
theorem two_restored : ∃ text,
    shown (listingLines (twoListed.map Breakpoint.listed)) = .ok text ∧
      Restores stoppedKernel (nothingLoaded _) 0 0 [] stoppedMain text
        (listingLines (twoListed.map Breakpoint.listed)) := by
  obtain ⟨text, hshown, hiff⟩ := listing_restored_iff stoppedKernel_stopped.peekPoke
    (nothingLoaded _) 0 0 [] (show stoppedMain.debug.isRunning = true from rfl) twoListed_fits
  exact ⟨text, hshown, hiff.mpr twoListed_consecutive⟩

end Zkz.Debugger
