import Zkz.Inject.FreeSpace
import Zkz.Inject.Segments
import Zkz.Inject.ShellcodeList

/-!
# Injecting a shellcode

`InjectToProcessImage` looks for room for a shellcode that has no address yet, records what the
search returns and writes the shellcode there. The search returns 1 if it finds none, and that is
recorded too. The result of the write is not used, and the function ends in its error path.

* `findSuitableAddress_one`: the search gives 1 if it ends.
* `inject_iff`: the result and the recorded address are right exactly if there was an address and the
  memory does not come to hold the shellcode.
-/

namespace Zkz.Inject

open Zkz.Lib Zkz.Debugger

/-! ## `FindSuitableAddress` -/

/-- What the search depends on: whether its two calls of `calloc` succeed, the lines of the maps
file, if it can be opened, and what the stack holds. -/
structure Surroundings where
  segRoom : Bool
  maps : Option (List MapsLine)
  stack : SegmentStack
  bufferRoom : Bool

def findSuitableAddress (around : Surroundings) (node : ShellcodeNode) : ProcM Addr := do
  match ← getSegmentData around.segRoom (around.maps.map mapsText) around.stack "r-x".toList with
  | none => return 1
  | some seg =>
    findFreeSpace around.bufferRoom seg.addr seg.size.toNat (BitVec.ofNat 64 node.shellcodeLen)

/-- In a segment without bytes there is no room. -/
theorem findFreeSpace_empty {room : Bool} {shellcodeSz : Word} {t t' : Traced} {address : Addr}
    (h : findFreeSpace room 0 0 shellcodeSz t = .ok (address, t')) : address = 1 := by
  cases room with
  | false =>
    cases h
    rfl
  | true =>
    cases h
    rfl

/-- A search that ends gives the address 1. -/
theorem findSuitableAddress_one (around : Surroundings) (node : ShellcodeNode) {t t' : Traced}
    {address : Addr} (h : findSuitableAddress around node t = .ok (address, t')) : address = 1 := by
  obtain ⟨segRoom, maps, stack, bufferRoom⟩ := around
  obtain ⟨seg, t₁, hseg, hfind⟩ := run_bind_eq_ok.mp h
  cases segRoom with
  | false =>
    cases hseg
    cases hfind
    rfl
  | true =>
    cases maps with
    | none =>
      cases hseg
      exact findFreeSpace_empty hfind
    | some lines =>
      by_cases hlines : lines = []
      · subst hlines
        cases hseg
        exact findFreeSpace_empty hfind
      · exact absurd hseg (getSegmentData_faults hlines (by decide) stack t _)

/-! ## `InjectToProcessImage` -/

/-- `src` is the address of the node's copy of the shellcode. -/
def injectToProcessImage (around : Surroundings) (pattern : Nat → Bool) (src : Word)
    (node : ShellcodeNode) : ProcM (Int × ShellcodeNode) := do
  if node.shellcodeAddr = 0 then
    let node := { node with shellcodeAddr := ← findSuitableAddress around node }
    if node.shellcodeAddr = 1 then return (-1, node)
    let _ ← pwriteWhen pattern src node.shellcodeAddr node.shellcodeLen
    return (-1, node)
  else
    let _ ← pwriteWhen pattern src node.shellcodeAddr node.shellcodeLen
    return (-1, node)

/-- The result says whether the memory holds the shellcode at the recorded address, and a failure
without that leaves the address as it was. -/
structure InjectsRight (node : ShellcodeNode) (ret : Int) (node' : ShellcodeNode) (mem : Mem) :
    Prop where
  written : 0 ≤ ret ↔ Holds mem node'.shellcodeAddr node.shellcode
  kept : ret < 0 → ¬ Holds mem node'.shellcodeAddr node.shellcode →
    node'.shellcodeAddr = node.shellcodeAddr

/-- The copy that a node owns is as long as the node says, which is a `size_t`. -/
structure ShellcodeNode.Owns (node : ShellcodeNode) : Prop where
  len : node.shellcodeLen = node.shellcode.length
  size : node.shellcodeLen < 2 ^ 64

/-- The nodes of `AppendNode` do. -/
theorem appendNode_owns {shellcode : List Byte} {shellcodeAddr : Addr}
    (h : shellcode.length < 2 ^ 64) {s s' : Injected} {ret : Int}
    (hs : ∀ node, some node ∈ s.heap → node.Owns)
    (hrun : appendNode shellcode shellcodeAddr s = .ok (ret, s')) :
    ∀ node, some node ∈ s'.heap → node.Owns := by
  cases hrun
  intro node hnode
  rcases List.mem_append.mp hnode with hold | hnew
  · exact hs node hold
  · obtain rfl := Option.some.inj (List.mem_singleton.mp hnew)
    exact ⟨rfl, h⟩

section Injection

variable {around : Surroundings} {pattern : Nat → Bool} {src : Word} {node : ShellcodeNode}
  {t : Traced}

/-- A node without an address gets the address 1, or the search goes outside its bounds. -/
theorem inject_unplaced (h : node.shellcodeAddr = 0) {ret : Int} {node' : ShellcodeNode}
    {t' : Traced} (hrun : injectToProcessImage around pattern src node t = .ok ((ret, node'), t')) :
    ret = -1 ∧ node'.shellcodeAddr = 1 := by
  unfold injectToProcessImage at hrun
  rw [if_pos h] at hrun
  obtain ⟨address, t₁, hfind, hrest⟩ := run_bind_eq_ok.mp hrun
  obtain rfl := findSuitableAddress_one around node hfind
  cases hrest
  exact ⟨rfl, rfl⟩

/-- A node with an address is written there, and the result is -1. -/
theorem inject_placed (around : Surroundings) (src : Word) (t : Traced)
    (h : node.shellcodeAddr ≠ 0)
    (hcount : pokesMade pattern 0 (node.shellcodeLen / 8) < 2 ^ 31) :
    ∃ t', injectToProcessImage around pattern src node t = .ok ((-1, node), t') ∧
      t'.mem = pokedMem t.mem node.shellcodeAddr src
        (pokesMade pattern 0 (node.shellcodeLen / 8)) := by
  have hzero : 0 + pokesMade pattern 0 (node.shellcodeLen / 8) < 2 ^ 31 := by omega
  obtain ⟨ret, t', hwrite, hmem⟩ : ∃ ret t',
      pwriteWhen pattern src node.shellcodeAddr node.shellcodeLen t = .ok (ret, t') ∧
        t'.mem = pokedMem t.mem node.shellcodeAddr src
          (pokesMade pattern 0 (node.shellcodeLen / 8)) :=
    ⟨_, _, pwriteLoop_mem pattern node.shellcodeAddr _ hzero src node.shellcodeAddr t, rfl⟩
  refine ⟨t', ?_, hmem⟩
  unfold injectToProcessImage
  rw [if_neg h, run_bind_ok hwrite]
  rfl

theorem inject_overflows (h : node.shellcodeAddr ≠ 0)
    (hcount : 2 ^ 31 ≤ pokesMade pattern 0 (node.shellcodeLen / 8)) :
    ∀ r, injectToProcessImage around pattern src node t ≠ .ok r := by
  intro r hrun
  unfold injectToProcessImage pwriteWhen at hrun
  rw [if_neg h] at hrun
  obtain ⟨ret, t₁, hwrite, -⟩ := run_bind_eq_ok.mp hrun
  rw [pwriteLoop_overflows pattern (node.shellcodeLen / 8) (by decide) (by omega)] at hwrite
  cases hwrite

end Injection

/-- **A shellcode is injected right**, whatever the search would find and whichever pokes fail,
exactly if the node has an address, the counter does not overflow and a byte of the shellcode
differs from what the memory holds afterwards: the last address poked in the first eight bytes, if
there was a poke, and the old memory in the others. -/
theorem inject_iff (around : Surroundings) (pattern : Nat → Bool) (src : Word)
    (node : ShellcodeNode) (hnode : node.Owns) (t : Traced) :
    (∃ ret node' t', injectToProcessImage around pattern src node t = .ok ((ret, node'), t') ∧
      InjectsRight node ret node' t'.mem) ↔
      node.shellcodeAddr ≠ 0 ∧ pokesMade pattern 0 (node.shellcodeLen / 8) < 2 ^ 31 ∧
        ∃ i b, node.shellcode[i]? = some b ∧
          (if i < 8 ∧ 0 < pokesMade pattern 0 (node.shellcodeLen / 8) then
            byteAt (lastSource src (pokesMade pattern 0 (node.shellcodeLen / 8))) i
          else t.mem (node.shellcodeAddr + BitVec.ofNat 64 i)) ≠ b := by
  by_cases haddr : node.shellcodeAddr = 0
  · refine iff_of_false ?_ fun h => h.1 haddr
    rintro ⟨ret, node', t', hrun, hright⟩
    obtain ⟨rfl, hone⟩ := inject_unplaced haddr hrun
    have hkept := hright.kept (by decide) fun hholds => absurd (hright.written.mpr hholds) (by decide)
    rw [hone, haddr] at hkept
    exact absurd hkept (by decide)
  by_cases hcount : pokesMade pattern 0 (node.shellcodeLen / 8) < 2 ^ 31
  · obtain ⟨t₁, hrun, hmem⟩ := inject_placed around src t haddr hcount
    have hheld := holds_pokedMem_iff (hnode.len ▸ hnode.size.le : node.shellcode.length ≤ 2 ^ 64) t.mem
      node.shellcodeAddr src (pokesMade pattern 0 (node.shellcodeLen / 8))
    have hdiffers := not_congr hheld
    simp only [not_forall] at hdiffers
    simp only [ne_eq, haddr, not_false_eq_true, hcount, true_and, exists_prop] at hdiffers ⊢
    rw [← hdiffers, hrun, ← hmem]
    constructor
    · rintro ⟨ret, node', t', hok, hright⟩ hholds
      cases hok
      exact absurd (hright.written.mpr hholds) (by decide)
    · intro hnot
      refine ⟨-1, node, t₁, rfl, ?_, fun _ _ => rfl⟩
      exact iff_of_false (by decide) hnot
  · refine iff_of_false ?_ fun h => hcount h.2.1
    rintro ⟨ret, node', t', hrun, -⟩
    exact inject_overflows haddr (Nat.le_of_not_lt hcount) _ hrun

/-- Eight bytes 0xcc for an address, and a debuggee whose maps file cannot be opened. -/
def breakNode (address : Addr) : ShellcodeNode := ⟨List.replicate 8 0xcc, address, 8, none⟩

def unmapped : Surroundings := ⟨true, none, ⟨[], [], 0⟩, true⟩

/-- A failure that is reported: the bytes at 0x1000 are those of the pointer. -/
theorem failure_reported :
    ∃ ret node' t', injectToProcessImage unmapped (fun _ => true) 0x7ffd00001000 (breakNode 0x1000)
        nops = .ok ((ret, node'), t') ∧ InjectsRight (breakNode 0x1000) ret node' t'.mem :=
  (inject_iff unmapped (fun _ => true) 0x7ffd00001000 (breakNode 0x1000) ⟨rfl, by decide⟩ nops).mpr
    ⟨by decide, by decide, 0, 0xcc, rfl, by decide⟩

/-- A search that fails is recorded as the address 1, and the next call writes there. -/
theorem sentinel_recorded :
    ∃ node' t', injectToProcessImage unmapped (fun _ => true) 0x7ffd00001000 (breakNode 0) nops =
        .ok ((-1, node'), t') ∧ t'.mem = nops.mem ∧ node'.shellcodeAddr = 1 ∧
      ¬ InjectsRight (breakNode 0) (-1) node' t'.mem ∧
      ∃ t'', injectToProcessImage unmapped (fun _ => true) 0x7ffd00001000 node' t' =
        .ok ((-1, node'), t'') ∧ t''.mem 1 = 0 ∧ t'.mem 1 = 0x90 := by
  refine ⟨breakNode 1, _, rfl, rfl, rfl, ?_, _, rfl, by decide, rfl⟩
  intro hright
  have hnot : ¬ Holds nops.mem 1 (List.replicate 8 0xcc) :=
    fun hholds => absurd (hholds 0 0xcc rfl) (by decide)
  exact absurd (hright.kept (by decide) hnot) (by decide)

end Zkz.Inject
