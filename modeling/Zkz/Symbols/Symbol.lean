import Zkz.Lib.Post
import Zkz.Symbols.Elf

/-!
# Loading symbols

The class `Symbol` over a file system: `OpenFile` maps a file, `LoadSymbols` appends its symbols
and `ParseDynamic` calls `OpenFile` for each library that it needs. Allocations succeed, and what
is allocated is never freed while the object lives: a pointer to a pathname is the number of its
allocation. `openFile` is bounded by a fuel argument: without fuel it does not return.
-/

namespace Zkz.Symbols

open Zkz.Lib Zkz.Debugger

/-! ## Files -/

/-- The files that can be opened, with their contents. -/
abbrev Files := List (CStr × List Byte)

/-- What is mapped of a file. Its size is converted to an `int`, and a size that is not positive
cannot be mapped. -/
def mapFile (contents : List Byte) : Option Mapping :=
  let size := (BitVec.ofNat 32 contents.length).toInt
  if 0 < size then some (contents.take size.toNat) else none

/-! ## The object -/

/-- An allocated pathname. -/
structure Pathname where
  pointer : Nat
  /-- The number of bytes allocated for it. -/
  size : Nat
  text : CStr

/-- `m_mapping`. -/
inductive MapPointer where
  | null
  /-- `MAP_FAILED`. -/
  | failed
  | mapped (m : Mapping)

/-- The fields of `Symbol` that loading reads or changes, the number of allocations and of
mappings so far, the pathnames given to `open`, and the calls of `log`. -/
structure Symbol where
  pList : List Pathname
  sList : List Syminfo
  loadFailed : Bool
  baseAddr : Addr
  mapping : MapPointer
  /-- `m_shdr`: the number of the mapping it points into, and the offset there. -/
  shdr : Option (Nat × Nat)
  allocated : Nat
  maps : Nat
  opens : List CStr
  out : List LogLine

/-- The object that the constructor makes. -/
def Symbol.init (path : CStr) (baseAddr : Addr) : Symbol where
  pList := [⟨0, path.length + 1, path⟩]
  sList := []
  loadFailed := false
  baseAddr := baseAddr
  mapping := .null
  shdr := none
  allocated := 1
  maps := 0
  opens := []
  out := []

abbrev SymM := StateT Symbol (Except Fault)

def logLine (level : Level) (msg : String) (args : List LogArg) : SymM Unit :=
  modify fun s => { s with out := s.out ++ [⟨level, msg, args⟩] }

/-- A computation that only reads the mapping. -/
def reading {α : Type} (x : Except Fault α) : SymM α := fun s => x.map fun a => (a, s)

/-! ## Mappings -/

def removeMap : SymM Unit := do
  match (← get).mapping with
  | .failed => logLine .pError "Memory unmap failed" []
  | _ => pure ()
  modify fun s => { s with mapping := .null }

/-- The mapped file with its section headers. `m_shdr` keeps its value from file to file. -/
def image : SymM Image := do
  let s ← get
  match s.mapping with
  | .mapped m =>
    return ⟨m, s.shdr.bind fun shdr => if shdr.1 = s.maps then some shdr.2 else none⟩
  | _ => throw .nullPointer

def loadFile (contents : List Byte) : SymM Int := do
  match mapFile contents with
  | none =>
    modify fun s => { s with mapping := .failed }
    logLine .pError "Memory map failed" []
    return -1
  | some m =>
    modify fun s => { s with mapping := .mapped m, maps := s.maps + 1 }
    if !(← reading (matchesAt m elfMagic 0)) then
      logLine .error "Not an elf binary\n" []
      removeMap
      return -1
    if (← reading (eType m)) ≠ etDyn then
      logLine .error "Not a dynamically linked binary\n" []
      removeMap
      return -1
    let shoff ← reading (eShoff m)
    if shoff ≠ 0 then
      modify fun s => { s with shdr := some (s.maps, shoff) }
    return 0

def openElf (fs : Files) (pathname : CStr) : SymM Int := do
  modify fun s => { s with opens := s.opens ++ [pathname] }
  match fs.lookup pathname with
  | none =>
    logLine .pError "File open error" []
    return -1
  | some contents => loadFile contents

/-! ## Symbols and libraries -/

/-- The comparison is one of pointers. -/
def searchForPath (pList : List Pathname) (pathname : Pathname) : Bool :=
  pList.any fun x => x.pointer = pathname.pointer

def defLib : CStr := "/lib/".toList

/-- The buffer for the path of a library, and what is written to it. -/
def libraryPath (libPath : Option CStr) (lib : CStr) (pointer : Nat) : Pathname :=
  match libPath with
  | some path => ⟨pointer, path.length + lib.length, path ++ lib⟩
  | none => ⟨pointer, defLib.length + lib.length + 3, defLib ++ lib⟩

/-- The last loop of `ParseDynamic`, from index `i` on. The result of `OpenFile` is not used. -/
def openLibs (openFile : Nat → SymM Int) (libPath : Option CStr) (total : Nat) :
    Nat → List CStr → SymM Unit
  | _, [] => return
  | i, lib :: libs => do
    let pathname := libraryPath libPath lib (← get).allocated
    modify fun s => { s with allocated := s.allocated + 1 }
    if libPath.isNone then
      logLine .debug "next search path: %s\tcurrent index :%d\t total numberof libraries :%d\n"
        [.str (String.ofList pathname.text), .int i, .int total]
    if !searchForPath (← get).pList pathname then
      modify fun s => { s with pList := s.pList ++ [pathname] }
      removeMap
      let _ ← openFile ((← get).pList.length - 1)
    openLibs openFile libPath total (i + 1) libs

def parseDynamic (openFile : Nat → SymM Int) : SymM Int := do
  let dyn ← reading (readDynamic (← image))
  openLibs openFile dyn.libPath dyn.sharedLibs.length 0 dyn.sharedLibs
  return 0

/-- The branch for a failure of `ParseDynamic` is not taken: that fails only when an allocation
does. -/
def loadSymbols (openFile : Nat → SymM Int) : SymM Int := do
  let syms ← reading (readSymbols (← image) (← get).baseAddr)
  modify fun s => { s with sList := s.sList ++ syms }
  if (← parseDynamic openFile) = -1 then
    removeMap
    modify fun s => { s with loadFailed := true }
    return -1
  return 0

def openFile (fs : Files) : Nat → Nat → SymM Int
  | 0, _ => throw .noReturn
  | fuel + 1, index => do
    match (← get).pList[index]? with
    | none => throw .outOfBounds
    | some pathname =>
      logLine .debug "%s\n" [.str (String.ofList pathname.text)]
      if (← openElf fs pathname.text) < 0 then
        modify fun s => { s with loadFailed := true }
        return -1
      if (← loadSymbols (openFile fs fuel)) < 0 then
        modify fun s => { s with loadFailed := true }
        return -1
      return 0

end Zkz.Symbols
