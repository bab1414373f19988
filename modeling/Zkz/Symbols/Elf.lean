import Zkz.Debugger.Tables
import Zkz.Lib.Success

/-!
# ELF files

What `Elf` and `Symbol` read of a mapped file: the header, the section headers, the symbols and
the dynamic entries. A read outside the mapping is a fault, as is a division by an entry size of
zero. Offsets are those of pointers, modulo 2^64.

* `loadLE`, `cString`: integers and strings in a mapping.
* `readSymbols`: the symbols that `LoadSymbols` appends.
* `readDynamic`: the library path and the needed libraries that `ParseDynamic` collects.
-/

namespace Zkz.Symbols

open Zkz.Lib Zkz.Debugger

/-- A C string, one character for each byte. -/
abbrev CStr := List Char

/-- The bytes of a mapped file. -/
abbrev Mapping := List Byte

/-! ## Bytes -/

def loadByte (m : Mapping) (off : Nat) : Except Fault Byte :=
  match m[off % 2 ^ 64]? with
  | some b => .ok b
  | none => .error .outOfBounds

/-- A little-endian integer of `n` bytes. -/
def loadLE (m : Mapping) (off : Nat) : Nat → Except Fault Nat
  | 0 => .ok 0
  | n + 1 => do
    let b ← loadByte m off
    let rest ← loadLE m (off + 1) n
    return b.toNat + 256 * rest

/-- The string that starts at an offset, up to its NUL. -/
def cString (m : Mapping) (off : Nat) : Except Fault CStr :=
  let rest := m.drop (off % 2 ^ 64)
  if 0 ∈ rest then .ok ((rest.takeWhile (· ≠ 0)).map fun b => Char.ofNat b.toNat)
  else .error .outOfBounds

/-- The bytes from an offset are the given ones; the first that differs ends the comparison. -/
def matchesAt (m : Mapping) (bs : List Byte) (off : Nat) : Except Fault Bool :=
  matchFrom (loadByte m) (bs.map pure) off

/-- A loop with an index from 0 on. -/
def forEach {β : Type} (f : Nat → β → Except Fault β) : Nat → β → Except Fault β
  | 0, b => .ok b
  | n + 1, b => do
    let b' ← forEach f n b
    f n b'

/-! ## Headers -/

def elfMagic : List Byte := [0x7f, 0x45, 0x4c, 0x46]

def etDyn : Nat := 3
def shtSymtab : Nat := 2
def shtDynamic : Nat := 6
def shtDynsym : Nat := 11
def sttFunc : Nat := 2
def dtNeeded : Nat := 1
def dtRpath : Nat := 15
def dtRunpath : Nat := 29

def sizeofShdr : Nat := 64
def sizeofSym : Nat := 24
def sizeofDyn : Nat := 16

def eType (m : Mapping) : Except Fault Nat := loadLE m 16 2
def eShoff (m : Mapping) : Except Fault Nat := loadLE m 40 8
def eShnum (m : Mapping) : Except Fault Nat := loadLE m 60 2

/-- A mapped file with the offset of its section header table, if `m_shdr` points into it. -/
structure Image where
  bytes : Mapping
  shdr : Option Nat

/-- A field of a section header. -/
def shField (img : Image) (i off n : Nat) : Except Fault Nat :=
  match img.shdr with
  | none => .error .nullPointer
  | some shdr => loadLE img.bytes (shdr + sizeofShdr * i + off) n

def shType (img : Image) (i : Nat) : Except Fault Nat := shField img i 4 4
def shOffset (img : Image) (i : Nat) : Except Fault Nat := shField img i 24 8
def shSize (img : Image) (i : Nat) : Except Fault Nat := shField img i 32 8
def shLink (img : Image) (i : Nat) : Except Fault Nat := shField img i 40 4
def shEntsize (img : Image) (i : Nat) : Except Fault Nat := shField img i 56 8

/-! ## Symbols -/

/-- The symbol at index `j` of the table at `sym`, if it is a function with a value. -/
def readSymbol (m : Mapping) (baseAddr : Addr) (sym str j : Nat) (syms : List Syminfo) :
    Except Fault (List Syminfo) := do
  let info ← loadLE m (sym + sizeofSym * j + 4) 1
  if info % 16 = sttFunc then
    let value ← loadLE m (sym + sizeofSym * j + 8) 8
    if value ≠ 0 then
      let name ← loadLE m (sym + sizeofSym * j) 4
      let symbol ← cString m (str + name)
      return syms ++ [⟨baseAddr + BitVec.ofNat 64 value, String.ofList symbol⟩]
    else return syms
  else return syms

/-- The symbols of section `i`, if it is a symbol table. -/
def readSection (img : Image) (baseAddr : Addr) (i : Nat) (syms : List Syminfo) :
    Except Fault (List Syminfo) := do
  if (← shType img i) = shtSymtab then
    let sym ← shOffset img i
    let str ← shOffset img (← shLink img i)
    let size ← shSize img i
    let entsize ← shEntsize img i
    if entsize = 0 then throw .divisionByZero
    forEach (readSymbol img.bytes baseAddr sym str) (size / entsize) syms
  else return syms

/-- The two loops of `LoadSymbols`. -/
def readSymbols (img : Image) (baseAddr : Addr) : Except Fault (List Syminfo) := do
  forEach (readSection img baseAddr) (← eShnum img.bytes) []

/-! ## Dynamic entries -/

/-- The local variables of `ParseDynamic`. -/
structure Dynamic where
  isRunpath : Bool := false
  libPath : Option CStr := none
  sharedLibs : List CStr := []

/-- `dynstr` after section `i`: the string table of the last table of dynamic symbols. -/
def readDynstr (img : Image) (i : Nat) (dynstr : Option Nat) : Except Fault (Option Nat) := do
  if (← shType img i) = shtDynsym then return some (← shOffset img (← shLink img i))
  else return dynstr

/-- `&dynstr[val]` as a string. -/
def dynString (m : Mapping) (dynstr : Option Nat) (val : Nat) : Except Fault CStr :=
  match dynstr with
  | none => .error .nullPointer
  | some dynstr => cString m (dynstr + val)

/-- The entry at index `j` of the dynamic section at `dyn`. The value of an entry is read only
where it is used. -/
def readDyn (m : Mapping) (dynstr : Option Nat) (dyn j : Nat) (acc : Dynamic) :
    Except Fault Dynamic := do
  let tag ← loadLE m (dyn + sizeofDyn * j) 8
  let val := loadLE m (dyn + sizeofDyn * j + 8) 8
  if tag = dtRunpath then
    return { acc with isRunpath := true, libPath := some (← dynString m dynstr (← val)) }
  else if tag = dtRpath then
    if acc.isRunpath then return acc
    else return { acc with libPath := some (← dynString m dynstr (← val)) }
  else if tag = dtNeeded then
    if dynstr.isNone ∧ (← val) = 0 then return acc
    else return { acc with sharedLibs := acc.sharedLibs ++ [← dynString m dynstr (← val)] }
  else return acc

/-- The entries of section `i`, if it is a dynamic section. -/
def readDynSection (img : Image) (dynstr : Option Nat) (i : Nat) (acc : Dynamic) :
    Except Fault Dynamic := do
  if (← shType img i) = shtDynamic then
    let dyn ← shOffset img i
    let size ← shSize img i
    forEach (readDyn img.bytes dynstr dyn) (size / sizeofDyn) acc
  else return acc

/-- The first two loops of `ParseDynamic`. -/
def readDynamic (img : Image) : Except Fault Dynamic := do
  let shnum ← eShnum img.bytes
  let dynstr ← forEach (readDynstr img) shnum none
  forEach (readDynSection img dynstr) shnum {}

end Zkz.Symbols
