import Zkz.Symbols.Malformed

/-!
# The base address

What `Debugger()` stores for the lines and the symbols of the program. The base address that
`GetBaseAddress` returns is kept in an `int` of `Main`, and from there it is converted back to 64
bits: for the constructors, and for each line.

* `parseLines_run`: the lines that `ParseLines` appends.
* `stored_addresses_iff`: what is stored is at the base address exactly when that fits an `int`.
-/

namespace Zkz.Symbols

open Zkz.Lib Zkz.Debugger

/-! ## Line tables -/

/-- An entry of a line table. -/
structure LineEntry where
  line : BitVec 32
  address : Addr

/-- The line table of a compilation unit. One that cannot be read to its end throws an exception
after its last entry. -/
structure LineTable where
  entries : List LineEntry
  complete : Bool := true

structure DebugLineInfo where
  baseAddr : Addr
  lines : List Lineinfo

def DebugLineInfo.appendElement (info : DebugLineInfo) (lineNumber : BitVec 32) (address : Addr)
    (unitNumber : Int) : DebugLineInfo :=
  { info with lines := info.lines ++ [⟨lineNumber.toInt, address, unitNumber⟩] }

/-- The fields of `Main` that loading the lines reads or changes, and the calls of `log`. -/
structure LineLoader where
  /-- `m_base_addr`, an `int`. -/
  baseAddr : BitVec 32
  lineInfo : DebugLineInfo
  dwarfState : Bool
  out : List LogLine

abbrev LineM := StateT LineLoader (Except Fault)

def logLoader (level : Level) (msg : String) (args : List LogArg) : LineM Unit :=
  modify fun s => { s with out := s.out ++ [⟨level, msg, args⟩] }

/-- An `int` as it is converted to `uint64_t`. -/
def ofCInt (x : BitVec 32) : Addr := x.signExtend 64

def parseLines (unitNumber : Int) : List LineEntry → LineM Unit
  | [] => return
  | line :: lt => do
    let baseAddr := (← get).baseAddr
    logLoader .debug "line number :%d\t address :%x\n"
      [.int line.line.toInt, .hex (ofCInt baseAddr + line.address)]
    modify fun s => { s with
      lineInfo := s.lineInfo.appendElement line.line (ofCInt baseAddr + line.address) unitNumber }
    parseLines unitNumber lt

/-- The loop over the compilation units, from unit `i` on. It is in no `try` block. -/
def parseUnits : Int → List LineTable → LineM Unit
  | _, [] => return
  | i, lt :: units => do
    parseLines i lt.entries
    if !lt.complete then throw .uncaughtException
    parseUnits (i + 1) units

def setDwarf : LineM Unit := modify fun s => { s with dwarfState := false }

/-- Did `open` succeed, and what the DWARF library makes of the file: the compilation units, or an
exception with its text. -/
def initDebugLines (opened : Bool) (dwarf : Except String (List LineTable)) : LineM Unit := do
  if !opened then
    logLoader .pError "File open error" []
    setDwarf
  match dwarf with
  | .error what =>
    logLoader .pError what []
    logLoader .info "source information not available\n" []
    setDwarf
  | .ok units =>
    logLoader .debug "passes here\n" []
    parseUnits 0 units

/-! ## Objects -/

/-- `m_base_addr`, once it was set to what `GetBaseAddress` returned. -/
def mBaseAddr (base : Addr) : BitVec 32 := base.setWidth 32

/-- `Main` with its new `DebugLineInfo`. -/
def LineLoader.init (base : Addr) : LineLoader where
  baseAddr := mBaseAddr base
  lineInfo := ⟨ofCInt (mBaseAddr base), []⟩
  dwarfState := true
  out := []

/-- The new `Symbol` for the program at a path. -/
def symbolsFor (path : CStr) (base : Addr) : Symbol := Symbol.init path (ofCInt (mBaseAddr base))

/-! ## Conversions -/

/-- A base address that an `int` holds: one below 2^31, or not below 2^64 - 2^31. -/
def FitsInt (base : Addr) : Prop := -2 ^ 31 ≤ base.toInt ∧ base.toInt < 2 ^ 31

theorem ofCInt_mBaseAddr_eq_iff (base : Addr) : ofCInt (mBaseAddr base) = base ↔ FitsInt base :=
  signExtend_setWidth_eq_self_iff (by decide) (by decide) base

theorem moved_eq_iff (base offset : Addr) :
    ofCInt (mBaseAddr base) + offset = base + offset ↔ FitsInt base := by
  rw [← ofCInt_mBaseAddr_eq_iff]
  exact BitVec.add_left_inj offset

/-! ## Lines -/

/-- The lines that are stored for some units, from unit `i` on. -/
def storedLines (base : Addr) : Int → List LineTable → List Lineinfo
  | _, [] => []
  | i, lt :: units =>
    lt.entries.map (fun line => ⟨line.line.toInt, base + line.address, i⟩) ++
      storedLines base (i + 1) units

/-- The state once some lines were stored. -/
def LineLoader.stored (s : LineLoader) (lines : List Lineinfo) (out : List LogLine) : LineLoader :=
  { s with lineInfo := { s.lineInfo with lines := s.lineInfo.lines ++ lines }, out := out }

theorem LineLoader.stored_stored (s : LineLoader) (l₁ l₂ : List Lineinfo) (out₁ out₂ : List LogLine) :
    (s.stored l₁ out₁).stored l₂ out₂ = s.stored (l₁ ++ l₂) out₂ := by
  unfold LineLoader.stored
  rw [List.append_assoc]

theorem LineLoader.stored_nil (s : LineLoader) : s.stored [] s.out = s := by
  unfold LineLoader.stored
  rw [List.append_nil]

theorem parseLines_run (unitNumber : Int) (lt : List LineEntry) (s : LineLoader) :
    ∃ out, parseLines unitNumber lt s = .ok ((), s.stored
      (lt.map fun line => ⟨line.line.toInt, ofCInt s.baseAddr + line.address, unitNumber⟩) out) := by
  induction lt generalizing s with
  | nil =>
    refine ⟨s.out, ?_⟩
    rw [List.map_nil, s.stored_nil]
    rfl
  | cons line lt ih =>
    obtain ⟨out, hrun⟩ := ih (s.stored
      [⟨line.line.toInt, ofCInt s.baseAddr + line.address, unitNumber⟩]
      (s.out ++ [⟨.debug, "line number :%d\t address :%x\n",
        [.int line.line.toInt, .hex (ofCInt s.baseAddr + line.address)]⟩]))
    refine ⟨out, ?_⟩
    refine hrun.trans ?_
    rw [LineLoader.stored_stored]
    rfl

/-- All units are stored if they can be read to their ends. -/
theorem parseUnits_run (i : Int) (units : List LineTable) (s : LineLoader)
    (h : ∀ lt ∈ units, lt.complete = true) :
    ∃ out, parseUnits i units s = .ok ((), s.stored (storedLines (ofCInt s.baseAddr) i units) out) := by
  induction units generalizing i s with
  | nil =>
    refine ⟨s.out, ?_⟩
    rw [storedLines, s.stored_nil]
    rfl
  | cons lt units ih =>
    obtain ⟨out₁, hlines⟩ := parseLines_run i lt.entries s
    obtain ⟨out₂, hrest⟩ := ih (i + 1) _ fun lt hlt => h lt (List.mem_cons_of_mem _ hlt)
    refine ⟨out₂, ?_⟩
    unfold parseUnits
    rw [run_bind_ok hlines, h lt (List.mem_cons_self ..)]
    refine hrest.trans ?_
    rw [LineLoader.stored_stored]
    rfl

theorem initDebugLines_run (opened : Bool) (units : List LineTable) (s : LineLoader)
    (h : ∀ lt ∈ units, lt.complete = true) :
    ∃ s', initDebugLines opened (.ok units) s = .ok ((), s') ∧
      s'.lineInfo.lines = s.lineInfo.lines ++ storedLines (ofCInt s.baseAddr) 0 units := by
  unfold initDebugLines
  cases opened with
  | true =>
    obtain ⟨out, hrun⟩ := parseUnits_run 0 units
      { s with out := s.out ++ [⟨.debug, "passes here\n", []⟩] } h
    exact ⟨_, hrun, rfl⟩
  | false =>
    obtain ⟨out, hrun⟩ := parseUnits_run 0 units
      { s with dwarfState := false, out := s.out ++ [⟨.pError, "File open error", []⟩] ++
        [⟨.debug, "passes here\n", []⟩] } h
    exact ⟨_, hrun, rfl⟩

/-- There is one stored line for each entry, in order. -/
theorem storedLines_forall {R : Lineinfo → LineEntry → Prop} {base : Addr}
    (hR : ∀ (line : LineEntry) i, R ⟨line.line.toInt, base + line.address, i⟩ line) (i : Int)
    (units : List LineTable) :
    List.Forall₂ R (storedLines base i units) (units.flatMap LineTable.entries) := by
  induction units generalizing i with
  | nil => exact .nil
  | cons lt units ih =>
    rw [List.flatMap_cons]
    refine List.rel_append ?_ (ih (i + 1))
    rw [List.forall₂_map_left_iff, List.forall₂_same]
    exact fun line _ => hR line i

/-! ## What is stored -/

/-- **What is stored for a line or a symbol is at the base address** that `GetBaseAddress` returned
exactly if that fits an `int`: for each entry of a line table that can be read, and for each symbol
that is read of the program. -/
theorem stored_addresses_iff (base : Addr) :
    (∀ (opened : Bool) (units : List LineTable), (∃ lt ∈ units, lt.complete = false) ∨
      ∃ s, initDebugLines opened (.ok units) (LineLoader.init base) = .ok ((), s) ∧
        List.Forall₂ (fun x line => x.address = base + line.address ↔ FitsInt base)
          s.lineInfo.lines (units.flatMap LineTable.entries)) ∧
    ∀ (fs : Files) (path : CStr) (fuel : Nat),
      Post (openFile fs fuel 0) (symbolsFor path base) fun _ s =>
        ∃ stored, stored <+: s.sList ∧
          List.Forall₂ (fun x sym => x.address = base + sym.address ↔ FitsInt base)
            stored (fileSymbols fs path) := by
  constructor
  · intro opened units
    by_cases h : ∀ lt ∈ units, lt.complete = true
    · obtain ⟨s, hrun, hlines⟩ := initDebugLines_run opened units (LineLoader.init base) h
      refine Or.inr ⟨s, hrun, ?_⟩
      rw [hlines]
      exact storedLines_forall (fun line _ => moved_eq_iff base line.address) 0 units
    · refine Or.inl ?_
      by_contra hne
      refine h fun lt hlt => ?_
      by_contra hcomplete
      exact hne ⟨lt, hlt, Bool.eq_false_of_not_eq_true hcomplete⟩
  · intro fs path fuel
    have hat : (paths (symbolsFor path base))[0]? = some path := rfl
    intro ret s hrun
    have happended := (openFile_explores fs fuel (sound_init _ _) hat).post ret s hrun
    refine ⟨atBase (ofCInt (mBaseAddr base)) (fileSymbols fs path), happended.symbols, ?_⟩
    unfold atBase
    rw [List.forall₂_map_left_iff, List.forall₂_same]
    exact fun sym _ => moved_eq_iff base sym.address

/-- At the base address of a process, a line at 0x1139 and a symbol with the value 0x1000 are
stored without the high bits of the base address. -/
theorem high_base_lost :
    (∃ s, initDebugLines true (.ok [⟨[⟨7, 0x1139⟩], true⟩]) (LineLoader.init 0x555555554000) =
        .ok ((), s) ∧ s.lineInfo.lines.map Lineinfo.address = [0x55555139]) ∧
      (∃ s, openFile (sharedObjects [("a.out".toList, [])]) 2 0
          (symbolsFor "a.out".toList 0x555555554000) = .ok (0, s) ∧
        s.sList.map Syminfo.address = [0x55555000]) ∧
      (0x555555554000 : Addr) + 0x1139 ≠ 0x55555139 ∧
      (0x555555554000 : Addr) + 0x1000 ≠ 0x55555000 := by
  have hobs : ((openFile (sharedObjects [("a.out".toList, [])]) 2 0
      (symbolsFor "a.out".toList 0x555555554000)).toOption.map
        fun r => (r.1, r.2.sList.map Syminfo.address)) = some (0, [0x55555000]) := by
    decide +kernel
  obtain ⟨ret, s, hrun, hv⟩ := exists_ok_of_observed hobs
  simp only [Prod.mk.injEq] at hv
  obtain ⟨rfl, hsyms⟩ := hv
  refine ⟨⟨_, rfl, by decide⟩, ⟨s, hrun, hsyms⟩, by decide, by decide⟩

end Zkz.Symbols
