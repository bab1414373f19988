import Zkz.Lib.Post
import Zkz.Debugger.Kernel

/-!
# The list of shellcodes

`ShellcodeList` is a singly linked list of heap nodes. `AppendNode` puts a node with its own copy
of a shellcode in front, `RemoveNode` is to take the newest node with an address out, and
`GetNodeByAddress` finds it. The constructor leaves `m_tail` without a value, no function
changes `m_nodes`, and `RemoveNode` frees a node before it reads its successor and leaves
`m_head` as it is.

* `appends_chain`: after any number of `AppendNode` calls the nodes are those appended, newest
  first, and lookups find the newest.
* `calls_end`: every call returns, or uses a node after it was freed.
* `represents_iff`: the whole list is right exactly when nothing was ever appended and the
  garbage in `m_tail` happens to be null.
-/

namespace Zkz.Inject

open Zkz.Lib Zkz.Debugger

/-! ## Nodes and the heap -/

/-- A pointer to a node, by the number of its allocation; `none` is null. -/
abbrev NodePtr := Option Nat

structure ShellcodeNode where
  /-- The node's own copy. -/
  shellcode : List Byte
  shellcodeAddr : Addr
  shellcodeLen : Nat
  next : NodePtr

structure ShellcodeList where
  head : NodePtr
  tail : NodePtr
  nodes : Nat

/-- The nodes allocated so far, `none` where one was freed, with the list and the calls of
`log`. -/
structure Injected where
  heap : List (Option ShellcodeNode)
  list : ShellcodeList
  out : List LogLine

inductive HeapFault where
  /-- A node is read or freed after it was freed. -/
  | useAfterFree
  /-- A traversal does not end. -/
  | noReturn
deriving DecidableEq

abbrev InjM := StateT Injected (Except HeapFault)

/-- The constructor: `garbage` is what the memory of `m_tail` happens to hold. -/
def ShellcodeList.new (garbage : NodePtr) : Injected where
  heap := []
  list := { head := none, tail := garbage, nodes := 0 }
  out := []

def logShellcode (msg : String) (args : List LogArg) : InjM Unit :=
  modify fun s => { s with out := s.out ++ [⟨.print, msg, args⟩] }

/-- A node that was not freed. -/
def nodeAt (i : Nat) : InjM ShellcodeNode := do
  match (← get).heap[i]? with
  | some (some node) => return node
  | _ => throw .useAfterFree

/-! ## Operations -/

/-- Allocations succeed, and `shellcode` is `shellcode_len` bytes long. -/
def appendNode (shellcode : List Byte) (shellcodeAddr : Addr) : InjM Int := do
  let s ← get
  let node := { shellcode := shellcode, shellcodeAddr := shellcodeAddr,
                shellcodeLen := shellcode.length, next := s.list.head }
  set { s with
    heap := s.heap ++ [some node]
    list := { s.list with
      head := some s.heap.length
      tail := if s.list.tail.isNone then some s.heap.length else s.list.tail } }
  return 0

/-- The loop of `GetNodeByAddress`. -/
def findNode (shellcodeAddr : Addr) : Nat → NodePtr → InjM NodePtr
  | _, none => do
    logShellcode "Could not find a shellcode at address %x" [.hex shellcodeAddr]
    return none
  | 0, some _ => throw .noReturn
  | fuel + 1, some cursor => do
    let node ← nodeAt cursor
    if node.shellcodeAddr = shellcodeAddr then
      logShellcode "Shellcode %d length found at address %x"
        [.int node.shellcodeLen, .hex node.shellcodeAddr]
      return some cursor
    else findNode shellcodeAddr fuel node.next

/-- Every step of the loop goes to an older node, so there are no more than the heap has. -/
def getNodeByAddress (shellcodeAddr : Addr) : InjM NodePtr := do
  findNode shellcodeAddr (← get).heap.length (← get).list.head

/-- `delete`. -/
def freeNode (i : Nat) : InjM Unit :=
  modify fun s => { s with heap := s.heap.set i none }

def setNext (i : Nat) (next : NodePtr) : InjM Unit := do
  let node ← nodeAt i
  modify fun s => { s with heap := s.heap.set i (some { node with next := next }) }

/-- The loop of `RemoveNode`. -/
def unlinkNode (shellcodeAddr : Addr) : Nat → NodePtr → NodePtr → InjM Int
  | _, _, none => do
    logShellcode "Could not find a shellcode at address %x" [.hex shellcodeAddr]
    return -1
  | 0, _, some _ => throw .noReturn
  | fuel + 1, prev, some cursor => do
    let node ← nodeAt cursor
    if node.shellcodeAddr = shellcodeAddr then
      logShellcode "Shellcode with %d length found at address %x"
        [.int node.shellcodeLen, .hex node.shellcodeAddr]
      freeNode cursor
      match prev with
      | none => return 0
      | some prev => do
        -- the successor is read from the node that was just freed
        let freed ← nodeAt cursor
        setNext prev freed.next
        return 0
    else unlinkNode shellcodeAddr fuel (some cursor) node.next

def removeNode (shellcodeAddr : Addr) : InjM Int := do
  unlinkNode shellcodeAddr (← get).heap.length none (← get).list.head

/-- A call of `AppendNode` or `RemoveNode`. -/
inductive Call where
  | append (shellcode : List Byte) (shellcodeAddr : Addr)
  | remove (shellcodeAddr : Addr)

def call : Call → InjM Int
  | .append shellcode shellcodeAddr => appendNode shellcode shellcodeAddr
  | .remove shellcodeAddr => removeNode shellcodeAddr

def calls : List Call → InjM Unit
  | [] => return
  | c :: cs => do
    let _ ← call c
    calls cs

/-! ## What the list is for -/

/-- A shellcode and its address. -/
abbrev Shellcode := List Byte × Addr

/-- The shellcodes that were appended and not removed, newest first, after one more call: a
removal takes the newest one at its address. -/
def Call.apply (c : Call) (l : List Shellcode) : List Shellcode :=
  match c with
  | .append shellcode shellcodeAddr => (shellcode, shellcodeAddr) :: l
  | .remove shellcodeAddr => l.eraseP fun x => x.2 = shellcodeAddr

/-- The shellcodes after some calls on a new list. -/
def shellcodes (cs : List Call) : List Shellcode := cs.foldl (fun l c => c.apply l) []

/-- The live nodes from a pointer on hold the shellcodes, one after the other. -/
inductive Chain (heap : List (Option ShellcodeNode)) : NodePtr → List (Nat × Shellcode) → Prop where
  | nil : Chain heap none []
  | cons {i : Nat} {node : ShellcodeNode} {rest : List (Nat × Shellcode)}
      (hnode : heap[i]? = some (some node)) (hlen : node.shellcodeLen = node.shellcode.length)
      (hrest : Chain heap node.next rest) :
      Chain heap (some i) ((i, node.shellcode, node.shellcodeAddr) :: rest)

/-- The pointer to the newest node at an address. -/
def newest (shellcodeAddr : Addr) (nodes : List (Nat × Shellcode)) : NodePtr :=
  (nodes.find? fun x => x.2.2 = shellcodeAddr).map Prod.fst

/-- The nodes reachable from `m_head` hold the shellcodes and lookups find the newest. -/
structure Reaches (s : Injected) (nodes : List (Nat × Shellcode)) (l : List Shellcode) : Prop where
  chain : Chain s.heap s.list.head nodes
  shellcodes : nodes.map Prod.snd = l
  lookup : ∀ a, ∃ s', getNodeByAddress a s = .ok (newest a nodes, s')

/-- Besides, `m_tail` is the last node and `m_nodes` the number of nodes. -/
structure Represents (s : Injected) (l : List Shellcode) : Prop where
  nodes : ∃ nodes, Reaches s nodes l ∧ s.list.tail = nodes.getLast?.map Prod.fst ∧
    s.list.nodes = nodes.length

/-! ## What the calls leave as it is -/

section Calls

variable {s s' : Injected} {a : Addr} {c : Call} {cs : List Call} {fuel : Nat}

theorem logShellcode_list (msg : String) (args : List LogArg) (s : Injected) :
    Post (logShellcode msg args) s fun _ s' => s'.list = s.list := post_ok rfl rfl

theorem nodeAt_same (i : Nat) (s : Injected) : Post (nodeAt i) s fun _ s' => s' = s := by
  refine post_get_bind ?_
  split
  · exact post_pure rfl
  · exact post_throw _

theorem setNext_list (i : Nat) (next : NodePtr) (s : Injected) :
    Post (setNext i next) s fun _ s' => s'.list = s.list := by
  refine post_bind (nodeAt_same i s) ?_
  rintro node _ rfl
  exact post_ok rfl rfl

/-- A removal leaves the fields of the list as they are. -/
theorem unlinkNode_list (fuel : Nat) (prev cursor : NodePtr) (s : Injected) :
    Post (unlinkNode a fuel prev cursor) s fun _ s' => s'.list = s.list := by
  induction fuel generalizing prev cursor s with
  | zero =>
    cases cursor with
    | none => exact post_bind (logShellcode_list _ _ s) fun _ _ h => post_pure h
    | some cursor => exact post_throw _
  | succ fuel ih =>
    cases cursor with
    | none => exact post_bind (logShellcode_list _ _ s) fun _ _ h => post_pure h
    | some cursor =>
      refine post_bind (nodeAt_same cursor s) ?_
      rintro node _ rfl
      refine post_ite (fun _ => ?_) fun _ => ih _ _ _
      refine post_bind (logShellcode_list _ _ _) ?_
      intro _ s₁ h₁
      refine post_bind_ok rfl ?_
      cases prev with
      | none => exact post_pure h₁
      | some prev =>
        refine post_bind (nodeAt_same cursor _) ?_
        rintro freed _ rfl
        exact post_bind (setNext_list prev freed.next _) fun _ _ h => post_pure (h.trans h₁)

theorem removeNode_list (a : Addr) (s : Injected) :
    Post (removeNode a) s fun _ s' => s'.list = s.list :=
  post_get_bind (post_get_bind (unlinkNode_list _ _ _ s))

/-- No call changes `m_nodes`. -/
theorem call_nodes (c : Call) (s : Injected) :
    Post (call c) s fun _ s' => s'.list.nodes = s.list.nodes := by
  cases c with
  | append shellcode a => exact post_ok rfl rfl
  | remove a => exact post_mono (removeNode_list a s) fun _ _ h => by rw [h]

/-- No call sets `m_head` back to null. -/
theorem call_head (c : Call) (s : Injected) (h : s.list.head.isSome = true) :
    Post (call c) s fun _ s' => s'.list.head.isSome = true := by
  cases c with
  | append shellcode a => exact post_ok rfl rfl
  | remove a =>
    refine post_mono (removeNode_list a s) ?_
    intro _ s' hs
    rw [hs]
    exact h

theorem calls_nodes (cs : List Call) (s : Injected) :
    Post (calls cs) s fun _ s' => s'.list.nodes = s.list.nodes := by
  induction cs generalizing s with
  | nil => exact post_pure rfl
  | cons c cs ih =>
    refine post_bind (call_nodes c s) ?_
    intro _ s₁ h₁
    exact post_mono (ih s₁) fun _ _ h => h.trans h₁

theorem calls_head (cs : List Call) (s : Injected) (h : s.list.head.isSome = true) :
    Post (calls cs) s fun _ s' => s'.list.head.isSome = true := by
  induction cs generalizing s with
  | nil => exact post_pure h
  | cons c cs ih =>
    refine post_bind (call_head c s h) ?_
    intro _ s₁ h₁
    exact ih s₁ h₁

/-- Once something was appended `m_head` is not null. -/
theorem head_of_append {shellcode : List Byte} (hc : .append shellcode a ∈ cs) (s : Injected) :
    Post (calls cs) s fun _ s' => s'.list.head.isSome = true := by
  induction cs generalizing s with
  | nil => cases hc
  | cons c cs ih =>
    rcases List.mem_cons.mp hc with rfl | hc
    · exact post_bind_ok rfl (calls_head cs _ rfl)
    · exact post_bind (Q := fun _ _ => True) (fun _ _ _ => trivial) fun _ s₁ _ => ih hc s₁

/-! ## Traversals end -/

/-- `m_head` and the successor of every node were allocated before. -/
structure Older (s : Injected) : Prop where
  head : ∀ i, s.list.head = some i → i < s.heap.length
  next : ∀ (i : Nat) (node : ShellcodeNode), s.heap[i]? = some (some node) →
    ∀ j, node.next = some j → j < i

theorem nodeAt_live {i : Nat} {node : ShellcodeNode} (h : s.heap[i]? = some (some node)) :
    nodeAt i s = .ok (node, s) := by
  unfold nodeAt
  rw [run_bind_ok (run_get s), h]
  rfl

theorem nodeAt_dead {i : Nat} (h : ∀ node, s.heap[i]? ≠ some (some node)) :
    nodeAt i s = .error .useAfterFree := by
  unfold nodeAt
  rw [run_bind_ok (run_get s)]
  rcases hcell : s.heap[i]? with _ | _ | node
  · rfl
  · rfl
  · exact absurd hcell (h node)

theorem Older.freed (h : Older s) (i : Nat) (out : List LogLine) :
    Older { s with heap := s.heap.set i none, out := out } := by
  refine ⟨fun j hj => ?_, fun j node hnode => ?_⟩
  · rw [List.length_set]
    exact h.head j hj
  · rw [List.getElem?_set] at hnode
    split at hnode
    · split at hnode <;> cases hnode
    · exact h.next j node hnode

/-- A call returns with `P`, or it uses a node after it was freed. -/
def Ends {α : Type} (x : InjM α) (s : Injected) (P : α → Injected → Prop) : Prop :=
  x s ≠ .error .noReturn ∧ Post x s P

theorem ends_ok {α : Type} {x : InjM α} {r : α} {P : α → Injected → Prop}
    (h : x s = .ok (r, s')) (hP : P r s') : Ends x s P := by
  refine ⟨?_, post_ok h hP⟩
  rw [h]
  exact fun h => by cases h

theorem ends_freed {α : Type} {x : InjM α} {P : α → Injected → Prop}
    (h : x s = .error .useAfterFree) : Ends x s P := by
  refine ⟨?_, fun r s' hrun => ?_⟩
  · rw [h]
    exact fun h => by cases h
  · rw [h] at hrun
    cases hrun

theorem ends_bind_ok {α β : Type} {x : InjM α} {f : α → InjM β} {r : α}
    {P : β → Injected → Prop} (h : x s = .ok (r, s')) (hf : Ends (f r) s' P) :
    Ends (x >>= f) s P := by
  refine ⟨?_, post_bind_ok h hf.2⟩
  rw [run_bind_ok h]
  exact hf.1

theorem ends_bind_freed {α β : Type} {x : InjM α} {f : α → InjM β} {P : β → Injected → Prop}
    (h : x s = .error .useAfterFree) : Ends (x >>= f) s P :=
  ends_freed (by rw [run_bind, h])

/-- The loop of `RemoveNode` ends, and what it leaves has its nodes in order. -/
theorem unlinkNode_older (fuel : Nat) (prev : NodePtr) {cursor : NodePtr} (h : Older s)
    (hcursor : ∀ i, cursor = some i → i < fuel) :
    Ends (unlinkNode a fuel prev cursor) s fun _ s' => Older s' := by
  induction fuel generalizing prev cursor with
  | zero =>
    cases cursor with
    | none => exact ends_ok rfl ⟨h.head, h.next⟩
    | some i => exact absurd (hcursor i rfl) (Nat.not_lt_zero i)
  | succ fuel ih =>
    cases cursor with
    | none => exact ends_ok rfl ⟨h.head, h.next⟩
    | some i =>
      by_cases hlive : ∃ node, s.heap[i]? = some (some node)
      · obtain ⟨node, hat⟩ := hlive
        refine ends_bind_ok (nodeAt_live hat) ?_
        by_cases ha : node.shellcodeAddr = a
        · rw [if_pos ha]
          refine ends_bind_ok rfl ?_
          refine ends_bind_ok rfl ?_
          cases prev with
          | none => exact ends_ok rfl (h.freed i _)
          | some prev =>
            have hlt : i < s.heap.length := (List.getElem?_eq_some_iff.mp hat).1
            refine ends_bind_freed (nodeAt_dead ?_)
            intro node hnode
            rw [List.getElem?_set_self hlt] at hnode
            cases hnode
        · rw [if_neg ha]
          refine ih (some i) ?_
          intro j hj
          exact Nat.lt_of_lt_of_le (h.next i node hat j hj) (Nat.le_of_lt_succ (hcursor i rfl))
      · refine ends_bind_freed (nodeAt_dead ?_)
        intro node hnode
        exact hlive ⟨node, hnode⟩

theorem call_older (c : Call) (h : Older s) : Ends (call c) s fun _ s' => Older s' := by
  cases c with
  | append shellcode a =>
    refine ends_ok rfl ⟨?_, ?_⟩
    · intro i hi
      cases hi
      rw [List.length_append, List.length_singleton]
      exact Nat.lt_succ_self _
    · intro i node hnode j hj
      rcases lt_or_ge i s.heap.length with hlt | hge
      · rw [List.getElem?_append_left hlt] at hnode
        exact h.next i node hnode j hj
      · rw [List.getElem?_append_right hge] at hnode
        have hmem := List.mem_singleton.mp (List.mem_of_getElem? hnode)
        cases hmem
        exact Nat.lt_of_lt_of_le (h.head j hj) hge
  | remove a => exact unlinkNode_older _ none h h.head

/-- **Every call on a list returns**, or it uses a node after it was freed. -/
theorem calls_end (cs : List Call) (h : Older s) : calls cs s ≠ .error .noReturn := by
  induction cs generalizing s with
  | nil => exact fun h => by cases h
  | cons c cs ih =>
    obtain ⟨hne, hpost⟩ := call_older c h
    unfold calls
    rw [run_bind]
    cases hrun : call c s with
    | error e =>
      intro he
      cases he
      exact hne hrun
    | ok p => exact ih (hpost p.1 p.2 hrun)

/-! ## Lookups and appends -/

/-- The loop of `GetNodeByAddress` goes along a chain. -/
theorem findNode_run {heap : List (Option ShellcodeNode)} {p : NodePtr}
    {nodes : List (Nat × Shellcode)} (h : Chain heap p nodes) (hfuel : nodes.length ≤ fuel)
    (a : Addr) (hs : s.heap = heap) :
    ∃ s', findNode a fuel p s = .ok (newest a nodes, s') := by
  induction h generalizing fuel with
  | nil => exact ⟨_, by cases fuel <;> rfl⟩
  | @cons i node rest hnode hlen hrest ih =>
    cases fuel with
    | zero => exact absurd hfuel (Nat.not_succ_le_zero _)
    | succ fuel =>
      have hat : nodeAt i s = .ok (node, s) := by
        unfold nodeAt
        rw [run_bind_ok (run_get s), hs, hnode]
        rfl
      unfold findNode
      rw [run_bind_ok hat]
      by_cases ha : node.shellcodeAddr = a
      · rw [if_pos ha]
        have hnew : newest a ((i, node.shellcode, node.shellcodeAddr) :: rest) = some i := by
          simp [newest, ha]
        rw [hnew]
        exact ⟨_, rfl⟩
      · rw [if_neg ha]
        have hnew : newest a ((i, node.shellcode, node.shellcodeAddr) :: rest) =
            newest a rest := by simp [newest, ha]
        rw [hnew]
        exact ih (Nat.le_of_succ_le_succ hfuel)

/-- A chain of no more nodes than were allocated answers every lookup. -/
theorem Chain.lookup {nodes : List (Nat × Shellcode)} (h : Chain s.heap s.list.head nodes)
    (hle : nodes.length ≤ s.heap.length) (a : Addr) :
    ∃ s', getNodeByAddress a s = .ok (newest a nodes, s') := by
  obtain ⟨s', hrun⟩ := findNode_run h hle a rfl
  refine ⟨s', ?_⟩
  unfold getNodeByAddress
  rw [run_bind_ok (run_get s), run_bind_ok (run_get s), hrun]

/-- Another allocation leaves a chain as it is. -/
theorem Chain.grow {heap : List (Option ShellcodeNode)} {p : NodePtr}
    {nodes : List (Nat × Shellcode)} (h : Chain heap p nodes) (cell : Option ShellcodeNode) :
    Chain (heap ++ [cell]) p nodes := by
  induction h with
  | nil => exact .nil
  | @cons i node rest hnode hlen hrest ih =>
    have hlt : i < heap.length := (List.getElem?_eq_some_iff.mp hnode).1
    refine .cons ?_ hlen ih
    rw [List.getElem?_append_left hlt, hnode]

/-- `AppendNode` puts a node in front. -/
theorem appendNode_chain (shellcode : List Byte) (a : Addr) {nodes : List (Nat × Shellcode)}
    (h : Chain s.heap s.list.head nodes) :
    ∃ s', appendNode shellcode a s = .ok (0, s') ∧ s'.heap.length = s.heap.length + 1 ∧
      Chain s'.heap s'.list.head ((s.heap.length, shellcode, a) :: nodes) := by
  refine ⟨_, rfl, List.length_append, ?_⟩
  have hnew := h.grow (some { shellcode := shellcode, shellcodeAddr := a,
                              shellcodeLen := shellcode.length, next := s.list.head })
  exact .cons List.getElem?_concat_length rfl hnew

/-- **Appended nodes are reachable**: after `AppendNode` calls only, the nodes from `m_head` on
are those appended, newest first, and lookups find the newest at an address. -/
theorem appends_chain (cs : List Call) (hcs : ∀ c ∈ cs, ∃ shellcode a, c = .append shellcode a)
    {nodes : List (Nat × Shellcode)} (h : Chain s.heap s.list.head nodes)
    (hlen : nodes.length = s.heap.length) :
    ∃ s' nodes', calls cs s = .ok ((), s') ∧
      Reaches s' nodes' (cs.foldl (fun l c => c.apply l) (nodes.map Prod.snd)) := by
  induction cs generalizing s nodes with
  | nil => exact ⟨s, nodes, rfl, h, rfl, h.lookup hlen.le⟩
  | cons c cs ih =>
    obtain ⟨shellcode, a, rfl⟩ := hcs c (List.mem_cons_self ..)
    obtain ⟨s₁, hrun, hheap, hchain⟩ := appendNode_chain shellcode a h
    have hlen₁ : ((s.heap.length, shellcode, a) :: nodes).length = s₁.heap.length := by
      rw [hheap, List.length_cons, hlen]
    obtain ⟨s', nodes', hrest, hreaches⟩ :=
      ih (fun c hc => hcs c (List.mem_cons_of_mem _ hc)) hchain hlen₁
    exact ⟨s', nodes', (run_bind_ok hrun).trans hrest, hreaches⟩

/-! ## The whole list -/

/-- Removals from an empty list only speak. -/
theorem removals_run (cs : List Call) (hcs : ∀ c ∈ cs, ∃ a, c = .remove a)
    (hhead : s.list.head = none) :
    ∃ out, calls cs s = .ok ((), { s with out := out }) ∧ shellcodes cs = [] := by
  induction cs generalizing s with
  | nil => exact ⟨s.out, rfl, rfl⟩
  | cons c cs ih =>
    obtain ⟨a, rfl⟩ := hcs c (List.mem_cons_self ..)
    have hrun : ∃ out, call (.remove a) s = .ok (-1, { s with out := out }) := by
      unfold call removeNode
      simp only
      rw [run_bind_ok (run_get s), run_bind_ok (run_get s), hhead]
      cases s.heap.length <;> exact ⟨_, rfl⟩
    obtain ⟨out₁, hrun⟩ := hrun
    obtain ⟨out, hrest, hnone⟩ := ih (s := { s with out := out₁ })
      (fun c hc => hcs c (List.mem_cons_of_mem _ hc)) hhead
    exact ⟨out, (run_bind_ok hrun).trans hrest, hnone⟩

theorem older_new (garbage : NodePtr) : Older (ShellcodeList.new garbage) where
  head := nofun
  next := nofun

/-- **The list of shellcodes is right** after some calls on a new list, which all end, exactly when
nothing was appended and the pointer that the constructor leaves unset happens to be null. -/
theorem represents_iff (garbage : NodePtr) (cs : List Call) :
    calls cs (ShellcodeList.new garbage) ≠ .error .noReturn ∧
      ((∃ s, calls cs (ShellcodeList.new garbage) = .ok ((), s) ∧ Represents s (shellcodes cs)) ↔
        (∀ c ∈ cs, ∃ a, c = .remove a) ∧ garbage = none) := by
  refine ⟨calls_end cs (older_new garbage), ?_⟩
  constructor
  · rintro ⟨s, hrun, ⟨nodes, hreaches, htail, hnodes⟩⟩
    -- the count is never changed, so a right list is empty
    have hcount : s.list.nodes = 0 := calls_nodes cs _ _ s hrun
    have hempty : nodes = [] := List.eq_nil_of_length_eq_zero (hnodes.symm.trans hcount)
    rw [hempty] at hreaches htail
    have hhead : s.list.head = none := by
      cases hs : s.list.head with
      | none => rfl
      | some i =>
        have hchain := hreaches.chain
        rw [hs] at hchain
        cases hchain
    have hremoves : ∀ c ∈ cs, ∃ a, c = .remove a := by
      intro c hc
      cases c with
      | append shellcode a =>
        have hsome : s.list.head.isSome = true :=
          head_of_append hc (ShellcodeList.new garbage) _ s hrun
        rw [hhead] at hsome
        cases hsome
      | remove a => exact ⟨a, rfl⟩
    refine ⟨hremoves, ?_⟩
    obtain ⟨out, hsame, -⟩ := removals_run cs hremoves (s := ShellcodeList.new garbage) rfl
    rw [hrun] at hsame
    cases hsame
    exact htail
  · rintro ⟨hremoves, rfl⟩
    obtain ⟨out, hrun, hnone⟩ := removals_run cs hremoves (s := ShellcodeList.new none) rfl
    refine ⟨_, hrun, [], ⟨.nil, hnone.symm, fun a => ?_⟩, rfl, rfl⟩
    exact Chain.lookup .nil (Nat.le_refl _) a

/-- The older of two nodes is removed: its successor is read after it was freed. -/
theorem successor_read_after_free :
    calls [.append [0x90] 0x1000, .append [0xc3] 0x2000, .remove 0x1000]
        (ShellcodeList.new none) = .error .useAfterFree ∧
      ¬ ∃ s, calls [.append [0x90] 0x1000, .append [0xc3] 0x2000, .remove 0x1000]
          (ShellcodeList.new none) = .ok ((), s) ∧
        Represents s (shellcodes
          [.append [0x90] 0x1000, .append [0xc3] 0x2000, .remove 0x1000]) := by
  have hrun : calls [.append [0x90] 0x1000, .append [0xc3] 0x2000, .remove 0x1000]
      (ShellcodeList.new none) = .error .useAfterFree := rfl
  refine ⟨hrun, ?_⟩
  rintro ⟨s, hok, -⟩
  rw [hrun] at hok
  cases hok

end Calls

end Zkz.Inject
