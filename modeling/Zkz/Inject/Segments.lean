import Zkz.Debugger.Maps
import Zkz.Inject.Process
import Zkz.Lib.Success

/-!
# Looking for a segment

`Process::get_segment_data` is to find the first line of a maps file whose permissions begin with a
string. It reads the file in pieces between blanks, not in lines. In each piece it compares three
characters at the same place of the piece and of the string, at every place of the piece, though the
string is shorter. Where they are equal it copies the piece up to a '-' and from there up to a
blank, which no piece has.

* `copyUntil_faults`, `scanToken_faults`: what goes outside the bounds.
* `scanTokens_faults`: a piece that is longer than the string by two is never passed.
* `getSegmentData_iff`: the segment is found exactly if the file has no line.
-/

namespace Zkz.Inject

open Zkz.Lib Zkz.Debugger

/-! ## Lines of a maps file -/

/-- The permissions of a mapping. -/
structure Permissions where
  read : Bool
  write : Bool
  exec : Bool
  shared : Bool

def Permissions.text (p : Permissions) : Line :=
  [if p.read then 'r' else '-', if p.write then 'w' else '-', if p.exec then 'x' else '-',
    if p.shared then 's' else 'p']

/-- A line as the kernel prints it. The offset has eight digits at least. -/
structure MapsLine where
  start : HexField
  stop : HexField
  perms : Permissions
  offset : HexField
  offsetWide : 8 ≤ offset.digits.length
  dev : Line
  devWord : ∀ c ∈ dev, isspace c = false
  inode : Line
  inodeWord : ∀ c ∈ inode, isspace c = false
  path : Line
  pathLine : '\n' ∉ path

def MapsLine.text (l : MapsLine) : Line :=
  (l.start.text ++ '-' :: l.stop.text) ++ ' ' :: (l.perms.text ++ ' ' :: (l.offset.text ++
    ' ' :: (l.dev ++ ' ' :: (l.inode ++ ' ' :: (l.path ++ ['\n'])))))

/-- The text of a maps file. -/
def mapsText (lines : List MapsLine) : Line := lines.flatMap MapsLine.text

structure Segdata where
  addr : Word
  size : Word
deriving DecidableEq

/-- The segment of the first line whose permissions begin with `perm`. -/
def findSegment (lines : List MapsLine) (perm : Line) : Segdata :=
  match lines.find? fun l => perm.isPrefixOf l.perms.text with
  | some l => ⟨l.start.value, l.stop.value - l.start.value⟩
  | none => ⟨0, 0⟩

/-! ## `get_segment_data` -/

/-- What the stack holds where the local variables are, before they are written: the two buffers
with what lies behind them, up to the first NUL, and `endaddr`. -/
structure SegmentStack where
  addrBuf : Line
  endaddrBuf : Line
  endaddr : Word

/-- A character of a string, or the NUL that ends it. -/
def charAt (s : Line) (i : Nat) : ProcM Char :=
  if h : i < s.length then return s[i]
  else if i = s.length then return Char.ofNat 0
  else throw .outOfBounds

/-- The comparison of the three characters from index `i` on. -/
def matchesAt (line permissionStr : Line) (i : Nat) : ProcM Bool :=
  matchFrom (charAt line) ([i, i + 1, i + 2].map (charAt permissionStr)) i

/-- A loop that copies a string into a buffer with `room` bytes left, up to `stop`: the copy and the
rest. The string comes with its NUL. -/
def copyUntil (stop : Char) : Nat → Line → ProcM (Line × Line)
  | _, [] => throw .outOfBounds
  | room, c :: rest =>
    if c = stop then return ([], c :: rest)
    else match room with
      | 0 => throw .outOfBounds
      | room + 1 => do
        let (copied, rest) ← copyUntil stop room rest
        return (c :: copied, rest)

/-- The segment that a piece gives. The second copy begins with the '-', and neither gets a NUL. -/
def segmentFrom (stack : SegmentStack) (line : Line) : ProcM Segdata := do
  let (addr, rest) ← copyUntil '-' 16 (line ++ [Char.ofNat 0])
  let (endaddr, _) ← copyUntil ' ' 16 rest
  let segAddr := (scanLx (addr ++ stack.addrBuf.drop addr.length)).getD 0
  let segEnd := (scanLx (endaddr ++ stack.endaddrBuf.drop endaddr.length)).getD stack.endaddr
  return ⟨segAddr, segEnd - segAddr⟩

/-- The loop over a piece, from index `i` on, with `n` characters to go. -/
def scanToken (stack : SegmentStack) (permissionStr line : Line) :
    Nat → Nat → ProcM (Option Segdata)
  | 0, _ => return none
  | n + 1, i => do
    if ← matchesAt line permissionStr i then
      return some (← segmentFrom stack line)
    logProcess .error ("Unable to locate a memory segment with given     " ++
      "                        permissions") []
    scanToken stack permissionStr line n (← increment i)

def scanTokens (stack : SegmentStack) (permissionStr : Line) :
    List Line → ProcM (Option Segdata)
  | [] => return none
  | line :: lines => do
    match ← scanToken stack permissionStr line line.length 0 with
    | some seg => return some seg
    | none => scanTokens stack permissionStr lines

/-- `room` says whether `calloc` succeeds, and `maps` is the text of the process's file if it can be
opened. -/
def getSegmentData (room : Bool) (maps : Option Line) (stack : SegmentStack)
    (permissionStr : Line) : ProcM (Option Segdata) := do
  if !room then
    logProcess .pError "Memory allocation error" []
    return none
  match maps with
  | none => return some ⟨0, 0⟩
  | some text => return some ((← scanTokens stack permissionStr (pieces text)).getD ⟨0, 0⟩)

/-! ## Pieces -/

theorem not_mem_text (S : HexField) : ' ' ∉ S.text := by
  intro h
  obtain ⟨d, -, hd⟩ := List.mem_map.mp h
  exact (hexChar_ne d).2.2.2.2 hd

theorem not_mem_perms (p : Permissions) : ' ' ∉ p.text := by
  rcases p with ⟨read, write, exec, shared⟩
  revert read write exec shared
  decide

/-- The offset of a line is a piece of its own. -/
theorem offset_mem_pieces (l : MapsLine) (rest : Line) : l.offset.text ∈ pieces (l.text ++ rest) := by
  have hfirst : ' ' ∉ l.start.text ++ '-' :: l.stop.text := by
    simp only [List.mem_append, List.mem_cons, not_or]
    exact ⟨not_mem_text _, by decide, not_mem_text _⟩
  have htext : l.text ++ rest = (l.start.text ++ '-' :: l.stop.text) ++ ' ' :: (l.perms.text ++
      ' ' :: (l.offset.text ++ ' ' :: (l.dev ++ ' ' :: (l.inode ++ ' ' :: (l.path ++
        '\n' :: rest))))) := by
    unfold MapsLine.text
    simp only [List.append_assoc, List.cons_append, List.nil_append]
  rw [htext, pieces_append hfirst, pieces_append (not_mem_perms _), pieces_append (not_mem_text _)]
  simp

/-! ## What goes outside the bounds -/

section Faults

variable {stack : SegmentStack} {permissionStr line : Line} {t : Traced}

/-- What is left after a copy is a part of the string, and begins with the character that ended the
copy. -/
theorem copyUntil_rest {stop : Char} {room : Nat} {text copied rest : Line} {t' : Traced}
    (h : copyUntil stop room text t = .ok ((copied, rest), t')) : stop ∈ rest ∧ rest ⊆ text := by
  induction text generalizing room copied rest t' with
  | nil =>
    cases room with
    | zero => cases h
    | succ room => cases h
  | cons c text ih =>
    unfold copyUntil at h
    split at h
    · rename_i hc
      cases h
      exact ⟨by simp [hc], List.Subset.refl _⟩
    · cases room with
      | zero => cases h
      | succ room =>
        obtain ⟨⟨copied', rest'⟩, t₁, hcopy, h⟩ := run_bind_eq_ok.mp h
        cases h
        obtain ⟨hmem, hsub⟩ := ih hcopy
        exact ⟨hmem, List.subset_cons_of_subset c hsub⟩

/-- A copy up to a character that is not there does not end. -/
theorem copyUntil_faults {stop : Char} {text : Line} (h : stop ∉ text) (room : Nat) (t : Traced) :
    ∀ r, copyUntil stop room text t ≠ .ok r := by
  rintro ⟨⟨copied, rest⟩, t'⟩ hrun
  obtain ⟨hmem, hsub⟩ := copyUntil_rest hrun
  exact h (hsub hmem)

/-- No piece gives a segment. -/
theorem segmentFrom_faults (h : ' ' ∉ line) (stack : SegmentStack) (t : Traced) :
    ∀ r, segmentFrom stack line t ≠ .ok r := by
  intro r hrun
  obtain ⟨⟨addr, rest⟩, t₁, hcopy, hrun⟩ := run_bind_eq_ok.mp hrun
  obtain ⟨q, t₂, hsecond, -⟩ := run_bind_eq_ok.mp hrun
  refine copyUntil_faults ?_ 16 t₁ _ hsecond
  intro hmem
  have htext := (copyUntil_rest hcopy).2 hmem
  rcases List.mem_append.mp htext with hline | hnul
  · exact h hline
  · exact absurd (List.mem_singleton.mp hnul) (by decide)

/-- The string is not read behind its NUL. -/
theorem matchesAt_faults {i : Nat} (h : permissionStr.length < i) (t : Traced) :
    ∀ r, matchesAt line permissionStr i t ≠ .ok r := by
  intro r hrun
  obtain ⟨c, t₁, -, hrun⟩ := run_bind_eq_ok.mp hrun
  obtain ⟨c', t₂, hread, -⟩ := run_bind_eq_ok.mp hrun
  unfold charAt at hread
  rw [dif_neg (by omega), if_neg (by omega)] at hread
  cases hread

theorem increment_ok {i i' : Nat} {t' : Traced} (h : increment i t = .ok (i', t')) : i' = i + 1 := by
  unfold increment at h
  split at h
  · cases h
    rfl
  · cases h

/-- A piece gives no segment, and is not passed if it is longer than the string by two. -/
theorem scanToken_faults (h : ' ' ∉ line) {n i : Nat} {o : Option Segdata} {t' : Traced}
    (hrun : scanToken stack permissionStr line n i t = .ok (o, t')) :
    o = none ∧ (n = 0 ∨ i + n ≤ permissionStr.length + 1) := by
  induction n generalizing i t with
  | zero =>
    cases hrun
    exact ⟨rfl, Or.inl rfl⟩
  | succ n ih =>
    obtain ⟨found, t₁, hmatch, hrun⟩ := run_bind_eq_ok.mp hrun
    cases found with
    | true =>
      obtain ⟨seg, t₂, hseg, -⟩ := run_bind_eq_ok.mp hrun
      exact absurd hseg (segmentFrom_faults h stack t₁ _)
    | false =>
      obtain ⟨_, t₂, -, hrun⟩ := run_bind_eq_ok.mp hrun
      obtain ⟨i', t₃, hincr, hrun⟩ := run_bind_eq_ok.mp hrun
      obtain rfl := increment_ok hincr
      obtain ⟨ho, hlen⟩ := ih hrun
      have hread : ¬ permissionStr.length < i :=
        fun hlt => matchesAt_faults hlt t _ hmatch
      exact ⟨ho, Or.inr (by omega)⟩

/-- All pieces are short in a scan that ends. -/
theorem scanTokens_faults {lines : List Line} (h : ∀ line ∈ lines, ' ' ∉ line)
    {o : Option Segdata} {t' : Traced}
    (hrun : scanTokens stack permissionStr lines t = .ok (o, t')) :
    ∀ line ∈ lines, line.length ≤ permissionStr.length + 1 := by
  induction lines generalizing t with
  | nil => exact fun _ hline => absurd hline List.not_mem_nil
  | cons first lines ih =>
    obtain ⟨found, t₁, hscan, hrun⟩ := run_bind_eq_ok.mp hrun
    obtain ⟨rfl, hlen⟩ := scanToken_faults (h first (List.mem_cons_self ..)) hscan
    intro line hline
    rcases List.mem_cons.mp hline with rfl | hline
    · omega
    · exact ih (fun line' hline' => h line' (List.mem_cons_of_mem _ hline')) hrun line hline

end Faults

/-- A file with a line is not read to its end: an offset is too long to be passed. -/
theorem getSegmentData_faults {lines : List MapsLine} (h : lines ≠ []) {permissionStr : Line}
    (hperm : permissionStr.length ≤ 4) (stack : SegmentStack) (t : Traced) :
    ∀ r, getSegmentData true (some (mapsText lines)) stack permissionStr t ≠ .ok r := by
  intro r hrun
  obtain ⟨l, lines, rfl⟩ := List.exists_cons_of_ne_nil h
  obtain ⟨o, t₁, hscan, -⟩ := run_bind_eq_ok.mp hrun
  have hshort := scanTokens_faults (not_mem_pieces _) hscan l.offset.text
    (by simpa [mapsText] using offset_mem_pieces l (mapsText lines))
  have hwide := l.offsetWide
  have hlen : l.offset.text.length = l.offset.digits.length := List.length_map _
  omega

/-- **The segment is found** in a maps file, for every beginning of permissions and whatever the
stack holds, exactly if the file has no line. -/
theorem getSegmentData_iff (lines : List MapsLine) (perms : Permissions) (k : Nat)
    (stack : SegmentStack) (t : Traced) :
    (∃ t', getSegmentData true (some (mapsText lines)) stack (perms.text.take k) t =
      .ok (some (findSegment lines (perms.text.take k)), t')) ↔ lines = [] := by
  constructor
  · rintro ⟨t', hrun⟩
    by_contra hlines
    exact getSegmentData_faults hlines (List.length_take_le' _ _) stack t _ hrun
  · rintro rfl
    exact ⟨t, rfl⟩

theorem isspace_dev : ∀ c ∈ ['0', '8', ':', '0', '1'], isspace c = false := by simp [isspace]

theorem isspace_inode : ∀ c ∈ ['1'], isspace c = false := by simp [isspace]

/-- `00400000-00401000 r-xp 00000000 08:01 1 /bin/a`. -/
def textLine : MapsLine where
  start := ⟨hexDigits [0, 0, 4, 0, 0, 0, 0, 0], by decide, by decide⟩
  stop := ⟨hexDigits [0, 0, 4, 0, 1, 0, 0, 0], by decide, by decide⟩
  perms := ⟨true, false, true, false⟩
  offset := ⟨hexDigits [0, 0, 0, 0, 0, 0, 0, 0], by decide, by decide⟩
  offsetWide := by decide
  dev := ['0', '8', ':', '0', '1']
  devWord := isspace_dev
  inode := ['1']
  inodeWord := isspace_inode
  path := ['/', 'b', 'i', 'n', '/', 'a']
  pathLine := by decide

/-- The addresses of the line are compared beyond the end of "r-x". If they were passed, the copy of
the permissions would not come to an end. -/
theorem text_segment_lost :
    (mapsText [textLine] = "00400000-00401000 r-xp 00000000 08:01 1 /bin/a\n".toList ∧
      findSegment [textLine] "r-x".toList = ⟨0x400000, 0x1000⟩) ∧
      getSegmentData true (some (mapsText [textLine])) ⟨[], [], 0⟩ "r-x".toList nops =
        .error .outOfBounds ∧
      getSegmentData true (some "r-xp ".toList) ⟨[], [], 0⟩ "r-x".toList nops =
        .error .outOfBounds ∧
      ¬ ∃ t', getSegmentData true (some (mapsText [textLine])) ⟨[], [], 0⟩ "r-x".toList nops =
        .ok (some (findSegment [textLine] "r-x".toList), t') := by
  have hrun : getSegmentData true (some (mapsText [textLine])) ⟨[], [], 0⟩ "r-x".toList nops =
      .error .outOfBounds := by rfl
  refine ⟨⟨by decide, by decide⟩, hrun, by rfl, ?_⟩
  rintro ⟨t', h⟩
  rw [hrun] at h
  cases h

end Zkz.Inject
