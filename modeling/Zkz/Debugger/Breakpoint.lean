import Zkz.Lib.Words

/-!
# The breakpoint list

`Breakpoint` and the list operations of `BreakpointList` that do not touch the debuggee.
`B_List` holds pointers to heap objects, each of which is in the list once: a pointer is
modelled by its position in the list where the caller writes through it
(`getElementByBreakpointNumber`), and by the object it points to where the caller only
reads it (`getElementByAddress`).

`int` counters are integers: a list whose size does not fit an `int` needs more heap
objects than the debugger can allocate.
-/

namespace Zkz.Debugger

open Zkz.Lib

/-- The byte a breakpoint puts at its address. -/
def trapByte : Byte := 0xcc

structure Breakpoint where
  /-- No stop at the breakpoint if this is false. -/
  isEnabled : Bool
  address : Addr
  /-- Original data at the address. -/
  origdata : Word
  breakpointNumber : Int
deriving DecidableEq

abbrev BreakpointList := List Breakpoint

namespace BreakpointList

def getNoOfBreakpoints (li : BreakpointList) : Int := li.length

/-- A new breakpoint is numbered by the size of the list and enabled. -/
def appendElement (li : BreakpointList) (address : Addr) (origdata : Word) : BreakpointList :=
  li ++ [{ isEnabled := true, address := address, origdata := origdata,
           breakpointNumber := getNoOfBreakpoints li + 1 }]

/-- The position of the first breakpoint with a number, after the comparison of the
number with the size of the list. -/
def getElementByBreakpointNumber (li : BreakpointList) (breakpointNumber : Int) : Option Nat :=
  if breakpointNumber > getNoOfBreakpoints li then none
  else li.findIdx? (fun b => b.breakpointNumber == breakpointNumber)

/-- The first breakpoint at an address. -/
def getElementByAddress (li : BreakpointList) (address : Addr) : Option Breakpoint :=
  li.find? (fun b => b.address == address)

/-- The position at which the loop of `RemoveElement` finds its breakpoint, after the two
comparisons that guard it. -/
def removalIndex (li : BreakpointList) (breakpointNumber : Int) : Option Nat :=
  if breakpointNumber > getNoOfBreakpoints li ∨ breakpointNumber ≤ 0 then none
  else li.findIdx? (fun b => b.breakpointNumber == breakpointNumber)

def numbers (li : BreakpointList) : List Int := li.map Breakpoint.breakpointNumber

def addresses (li : BreakpointList) : List Addr := li.map Breakpoint.address

/-! ## Lookups -/

@[simp] theorem addresses_appendElement (li : BreakpointList) (a : Addr) (w : Word) :
    addresses (appendElement li a w) = addresses li ++ [a] := by
  simp [addresses, appendElement]

theorem getElementByAddress_mem {li : BreakpointList} {a : Addr} {b : Breakpoint}
    (h : getElementByAddress li a = some b) : b ∈ li ∧ b.address = a := by
  unfold getElementByAddress at h
  exact ⟨List.mem_of_find?_eq_some h, by simpa using List.find?_some h⟩

theorem getElementByAddress_eq_none {li : BreakpointList} {a : Addr} :
    getElementByAddress li a = none ↔ a ∉ addresses li := by
  simp only [getElementByAddress, List.find?_eq_none, addresses, List.mem_map, beq_iff_eq,
    not_exists, not_and]

theorem getElementByAddress_of_mem {li : BreakpointList} {a : Addr} (h : a ∈ addresses li) :
    ∃ b, getElementByAddress li a = some b := by
  rw [← Option.isSome_iff_exists, Option.isSome_iff_ne_none, Ne, getElementByAddress_eq_none]
  exact not_not.mpr h

/-- A breakpoint appended at an address that is already listed is never looked up by it. -/
theorem getElementByAddress_appendElement (li : BreakpointList) (a x : Addr) (w : Word) :
    getElementByAddress (appendElement li a w) x =
      (getElementByAddress li x).or
        (if a = x then some ⟨true, a, w, getNoOfBreakpoints li + 1⟩ else none) := by
  simp only [getElementByAddress, appendElement, List.find?_append, List.find?_cons,
    List.find?_nil]
  by_cases h : a = x
  · simp [h]
  · simp [h, beq_eq_false_iff_ne.mpr h]

/-- `DisableBreakpoint` on the breakpoint at position `i`. -/
def disableAt (li : BreakpointList) (i : Nat) : BreakpointList :=
  li.modify i fun b => { b with isEnabled := false }

@[simp] theorem addresses_disableAt (li : BreakpointList) (i : Nat) :
    addresses (disableAt li i) = addresses li := by
  induction li generalizing i with
  | nil => simp [addresses, disableAt]
  | cons b li ih =>
    cases i with
    | zero => simp [addresses, disableAt]
    | succ i =>
      have h := ih i
      simp only [addresses, disableAt, List.modify_succ_cons, List.map_cons] at h ⊢
      rw [h]

@[simp] theorem numbers_disableAt (li : BreakpointList) (i : Nat) :
    numbers (disableAt li i) = numbers li := by
  induction li generalizing i with
  | nil => simp [numbers, disableAt]
  | cons b li ih =>
    cases i with
    | zero => simp [numbers, disableAt]
    | succ i =>
      have h := ih i
      simp only [numbers, disableAt, List.modify_succ_cons, List.map_cons] at h ⊢
      rw [h]

/-- The lookup by number depends on the numbers only. -/
theorem getElementByBreakpointNumber_eq (li : BreakpointList) (n : Int) :
    getElementByBreakpointNumber li n =
      if n > (numbers li).length then none else (numbers li).findIdx? (· == n) := by
  unfold getElementByBreakpointNumber getNoOfBreakpoints numbers
  rw [List.length_map, List.findIdx?_map]
  rfl

theorem getElementByBreakpointNumber_disableAt (li : BreakpointList) (i : Nat) (n : Int) :
    getElementByBreakpointNumber (disableAt li i) n = getElementByBreakpointNumber li n := by
  rw [getElementByBreakpointNumber_eq, getElementByBreakpointNumber_eq, numbers_disableAt]

/-- Disabling keeps the address and the saved word of every breakpoint. -/
theorem mem_disableAt {li : BreakpointList} {i : Nat} {b : Breakpoint} (h : b ∈ disableAt li i) :
    ∃ b' ∈ li, b.address = b'.address ∧ b.origdata = b'.origdata := by
  induction li generalizing i with
  | nil => simp [disableAt] at h
  | cons c li ih =>
    cases i with
    | zero =>
      simp only [disableAt, List.modify_zero_cons, List.mem_cons] at h
      rcases h with rfl | h
      · exact ⟨c, List.mem_cons_self .., rfl, rfl⟩
      · exact ⟨b, List.mem_cons_of_mem _ h, rfl, rfl⟩
    | succ i =>
      simp only [disableAt, List.modify_succ_cons, List.mem_cons] at h
      rcases h with rfl | h
      · exact ⟨b, List.mem_cons_self .., rfl, rfl⟩
      · obtain ⟨b', hb', heq⟩ := ih (i := i) h
        exact ⟨b', List.mem_cons_of_mem _ hb', heq⟩

theorem getElementByAddress_cons (b : Breakpoint) (li : BreakpointList) (a : Addr) :
    getElementByAddress (b :: li) a =
      if b.address = a then some b else getElementByAddress li a := by
  by_cases h : b.address = a
  · simp [getElementByAddress, h]
  · simp [getElementByAddress, h]

/-- The first breakpoint at an address after disabling is the first one before, perhaps
disabled. -/
theorem getElementByAddress_disableAt {li : BreakpointList} {i : Nat} {a : Addr}
    {b : Breakpoint} (h : getElementByAddress (disableAt li i) a = some b) :
    ∃ b', getElementByAddress li a = some b' ∧ b.origdata = b'.origdata := by
  induction li generalizing i with
  | nil => simp [disableAt, getElementByAddress] at h
  | cons c li ih =>
    cases i with
    | zero =>
      simp only [disableAt, List.modify_zero_cons, getElementByAddress_cons] at h ⊢
      split at h
      · cases h
        exact ⟨c, if_pos ‹_›, rfl⟩
      · exact ⟨b, by rw [if_neg ‹_›, h], rfl⟩
    | succ i =>
      simp only [disableAt, List.modify_succ_cons, getElementByAddress_cons] at h ⊢
      split at h
      · cases h
        exact ⟨b, if_pos ‹_›, rfl⟩
      · obtain ⟨b', hb', heq⟩ := ih (i := i) h
        exact ⟨b', by rw [if_neg ‹_›, hb'], heq⟩

/-! ## Enabled breakpoints -/

/-- Some enabled breakpoint of the list is at the address. -/
def EnabledAt (li : BreakpointList) (a : Addr) : Prop :=
  ∃ b ∈ li, b.address = a ∧ b.isEnabled = true

/-- The first breakpoint of the list at the address is enabled. -/
def FirstEntryEnabled (li : BreakpointList) (a : Addr) : Prop :=
  ∃ b, getElementByAddress li a = some b ∧ b.isEnabled = true

theorem FirstEntryEnabled.enabledAt {li : BreakpointList} {a : Addr}
    (h : FirstEntryEnabled li a) : EnabledAt li a := by
  obtain ⟨b, hb, he⟩ := h
  exact ⟨b, (getElementByAddress_mem hb).1, (getElementByAddress_mem hb).2, he⟩

end BreakpointList

end Zkz.Debugger
