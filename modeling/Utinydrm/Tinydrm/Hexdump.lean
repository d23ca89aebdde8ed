import Utinydrm.Lib.BitStream
import Utinydrm.Lib.CString
import Utinydrm.Spi.Transfer
import Mathlib.Data.List.Forall2

/-
  The dumps of transfers and register writes that
  `tinydrm-regmap.c` prints for debugging.

  A line buffer on the stack is filled by one of two loops
  and then printed as a string. The loop over bytes ends the
  string whatever it stores. The loop over 16-bit words
  relies on `snprintf` for that, which is not called when
  there is no word: the buffer is then printed as it was.

  Key definitions include:
    * `hexDumpToBuffer` and `tinydrmHexdump`
    * `tinydrmDebugRegWrite` and `tinydrmDbgSpiMessage`
    * `dumpText`
    * `DumpsLine`

  Main declarations:
    * `inside_hexDumpToBuffer`, `inside_tinydrmHexdump`
    * `tinydrmHexdump_isString`
    * `hexdump_iff`
    * `Showable.noStale`
    * `tinydrmDbgSpiMessage_prints`
-/

------------------------------------------------------------
-- Dumping To A Line Buffer
------------------------------------------------------------

namespace Utinydrm

open CString

/- `hex_asc`. -/
def hexAsc : List UInt8 :=
  "0123456789abcdef".toList.map Char.toUInt8

/- `hex_asc_hi` and `hex_asc_lo`. -/
def hexAscHi (x : UInt8) : UInt8 :=
  hexAsc.getD ((x &&& 0xf0) >>> 4).toNat 0

def hexAscLo (x : UInt8) : UInt8 :=
  hexAsc.getD (x &&& 0x0f).toNat 0

/- `is_power_of_2`. -/
def isPowerOf2 (n : Nat) : Bool :=
  decide (n ≠ 0) && decide (n &&& (n - 1) = 0)

/- `get_unaligned`: an entry of an array of numbers. -/
def World.getUnaligned
    (w : World) (buf : Ptr) (size j : Nat) : Nat :=
  Nat.ofDigits 256 ((List.range size).map fun k =>
    (w.byte buf (size * j + k)).toNat)

/- `isascii(ch) && isprint(ch)`. -/
def isPrintable (ch : UInt8) : Bool :=
  decide (0x20 ≤ ch) && decide (ch ≤ 0x7e)

/-
  How filling a line buffer breaks off: `goto overflow1`, or
  `goto overflow2` with the value of `lx`.
-/
inductive Overflow where
| overflow1
| overflow2 (lx : Nat)
deriving DecidableEq, Repr

/- The parts of a dump work on `linebuf` and return `lx`. -/
abbrev Dump := EStateM Overflow Buffer

/-
  `if (linebuflen < lx + 2) goto overflow2;
   linebuf[lx++] = ch;`
-/
def putChar (linebuflen lx : Nat) (ch : UInt8) : Dump Nat :=
  if linebuflen < lx + 2 then
    throw (.overflow2 lx)
  else do
    modify fun linebuf => linebuf.put lx ch
    return lx + 1

/- `snprintf(linebuf + lx, ..)` of a number with `"%s%*.*x"`. -/
def printWord
    (linebuflen digits lx j value : Nat) : Dump Nat := do
  let text :=
    (if j ≠ 0 then [space] else []) ++ printfHex digits value
  let size := linebuflen - lx
  modify fun linebuf => linebuf.snprintf lx size text
  if size ≤ text.length then
    throw .overflow1
  else
    return lx + text.length

/- The loops over numbers of more than one byte. -/
def printWords
    (linebuflen digits : Nat) (word : Nat → Nat)
    (count : Nat) : Dump Nat :=
  (List.range count).foldlM
    (fun lx j => printWord linebuflen digits lx j (word j)) 0

/- A byte of the loop over bytes. -/
def putByte (linebuflen lx : Nat) (ch : UInt8) : Dump Nat := do
  let lx ← putChar linebuflen lx (hexAscHi ch)
  let lx ← putChar linebuflen lx (hexAscLo ch)
  putChar linebuflen lx space

/- The loop over bytes. -/
def putBytes
    (w : World) (buf : Ptr)
    (len linebuflen : Nat) : Dump Nat := do
  let lx ← (List.range len).foldlM
    (fun lx j => putByte linebuflen lx (w.byte buf j)) 0
  -- `if (j) lx--;`
  return if len ≠ 0 then lx - 1 else lx

/- The column of characters. -/
def putAscii
    (w : World) (buf : Ptr)
    (len linebuflen asciiColumn lx : Nat) : Dump Nat := do
  -- `while (lx < ascii_column)`
  let lx ← (List.range (asciiColumn - lx)).foldlM
    (fun lx _ => putChar linebuflen lx space) lx
  (List.range len).foldlM
    (fun lx j =>
      let ch := w.byte buf j
      putChar linebuflen lx
        (if isPrintable ch then ch else '.'.toUInt8))
    lx

/- The loop for the size of the groups. -/
def putGroups
    (w : World) (buf : Ptr)
    (len groupsize linebuflen : Nat) : Dump Nat :=
  let ngroups := len / groupsize
  if groupsize = 8 then
    printWords linebuflen 16 (w.getUnaligned buf 8) ngroups
  else if groupsize = 4 then
    printWords linebuflen 8 (w.getUnaligned buf 4) ngroups
  else if groupsize = 2 then
    printWords linebuflen 4 (w.getUnaligned buf 2) ngroups
  else
    putBytes w buf len linebuflen

/- What `hex_dump_to_buffer` does in front of its labels. -/
def fillLine
    (w : World) (buf : Ptr)
    (len groupsize asciiColumn linebuflen : Nat)
    (ascii : Bool) : Dump Nat :=
  if linebuflen = 0 then
    throw .overflow1
  else if len = 0 then
    -- `goto nil`
    return 0
  else do
    let lx ← putGroups w buf len groupsize linebuflen
    if ascii then
      putAscii w buf len linebuflen asciiColumn lx
    else
      return lx

/- `hex_dump_to_buffer`, with what it returns. -/
def hexDumpToBuffer
    (w : World) (buf : Ptr) (len rowsize groupsize : Nat)
    (linebuflen : Nat) (ascii : Bool)
    (linebuf : Buffer) : Int × Buffer :=
  let rowsize :=
    if rowsize ≠ 16 ∧ rowsize ≠ 32 then 16 else rowsize
  -- limit to one line at a time
  let len := if rowsize < len then rowsize else len
  let groupsize :=
    if ¬ isPowerOf2 groupsize ∨ 8 < groupsize then 1
    else groupsize
  -- no mixed size output
  let groupsize := if len % groupsize ≠ 0 then 1 else groupsize
  let ngroups := len / groupsize
  let asciiColumn := rowsize * 2 + rowsize / groupsize + 1
  let overflow : Int :=
    if ascii then asciiColumn + len
    else (groupsize * 2 + 1) * ngroups - 1
  match fillLine w buf len groupsize asciiColumn linebuflen
    ascii linebuf with
  | .ok lx linebuf => (lx, linebuf.put lx 0)
  | .error (.overflow2 lx) linebuf =>
      (overflow, linebuf.put lx 0)
  | .error .overflow1 linebuf => (overflow, linebuf)

/- The messages of `tinydrm_hexdump`. -/
def bpwNotSupported : List UInt8 :=
  "bpw not supported".toList.map Char.toUInt8

def dumpError : List UInt8 :=
  "ERROR".toList.map Char.toUInt8

/- `tinydrm_hexdump`. -/
def tinydrmHexdump
    (w : World) (linebuflen : Nat) (buf : Ptr)
    (len bpw max : Nat) (linebuf : Buffer) : Buffer :=
  if 16 < bpw then
    linebuf.snprintf 0 linebuflen bpwNotSupported
  else if 8 < bpw then
    let count := if max < len then max / 2 else len / 2
    let buf16 := fun j => (w.loadU16 buf j).toNat
    match printWords linebuflen 4 buf16 count linebuf with
    | .ok _ linebuf => linebuf
    | .error _ linebuf =>
        linebuf.snprintf 0 linebuflen dumpError
  else
    (hexDumpToBuffer w buf len max 1 linebuflen false
      linebuf).2

end Utinydrm

------------------------------------------------------------
-- Staying Inside
------------------------------------------------------------

namespace Utinydrm

open CString Effect

/-
  Only the line buffer is stored to, and `overflow2` is given
  a place of it for the zero.
-/
def insideDump (linebuflen : Nat) : Contract Overflow Buffer where
  step linebuf linebuf' :=
    linebuf.Inside linebuflen → linebuf'.Inside linebuflen
  fault e _ := ∀ lx, e = .overflow2 lx → lx < linebuflen
  refl _ := id
  trans hFirst hSecond := hSecond ∘ hFirst

variable {linebuflen : Nat}

/- A part of a dump that stays inside, and so does `lx`. -/
abbrev StaysInside (linebuflen : Nat) (part : Dump Nat) : Prop :=
  Keeps (insideDump linebuflen) (· < linebuflen) part

variable {lx : Nat} (hLx : lx < linebuflen)
include hLx

theorem stays_putChar (ch : UInt8) :
    StaysInside linebuflen (putChar linebuflen lx ch) := by
  unfold putChar
  apply keeps_ite
  · intro _
    apply keeps_throw
    rintro _ _ ⟨⟩
    exact hLx
  · intro hRoom
    apply keeps_modify_bind
    · exact fun _ hInside => hInside.put hLx ch
    · exact keeps_pure (by omega)

theorem stays_putByte (ch : UInt8) :
    StaysInside linebuflen (putByte linebuflen lx ch) := by
  unfold putByte
  apply keeps_bind (stays_putChar hLx _)
  intro _ hLx₁
  apply keeps_bind (stays_putChar hLx₁ _)
  intro _ hLx₂
  exact stays_putChar hLx₂ _

theorem stays_putAscii
    (w : World) (buf : Ptr) (len asciiColumn : Nat) :
    StaysInside linebuflen
      (putAscii w buf len linebuflen asciiColumn lx) := by
  unfold putAscii
  apply keeps_bind
    (keeps_foldlM (fun _ _ h => stays_putChar h _) _ hLx)
  intro _ hColumn
  exact keeps_foldlM (fun _ _ h => stays_putChar h _) _ hColumn

omit hLx

theorem stays_printWord
    (hLe : lx ≤ linebuflen) (digits j value : Nat) :
    StaysInside linebuflen
      (printWord linebuflen digits lx j value) := by
  unfold printWord
  apply keeps_modify_bind
  · exact fun _ hInside => hInside.snprintf lx (by omega)
  · apply keeps_ite
    · intro _
      exact keeps_throw fun _ _ hNo => by cases hNo
    · intro hRoom
      exact keeps_pure (by omega)

section Words

variable (digits : Nat) (word : Nat → Nat) (count : Nat)

theorem stays_printWords (hSome : 0 < linebuflen) :
    StaysInside linebuflen
      (printWords linebuflen digits word count) :=
  keeps_foldlM
    (fun _ _ h => stays_printWord (Nat.le_of_lt h) _ _ _) _ hSome

/- Also in a buffer without room for a zero. -/
theorem keeps_printWords :
    Keeps (insideDump linebuflen) (· ≤ linebuflen)
      (printWords linebuflen digits word count) :=
  keeps_foldlM
    (fun _ _ h => (stays_printWord h _ _ _).weaken
      fun _ => Nat.le_of_lt) _ (Nat.zero_le _)

end Words

theorem stays_putBytes
    (hSome : 0 < linebuflen)
    (w : World) (buf : Ptr) (len : Nat) :
    StaysInside linebuflen (putBytes w buf len linebuflen) := by
  unfold putBytes
  apply keeps_bind
    (keeps_foldlM (fun _ _ h => stays_putByte h _) _ hSome)
  intro lx hLx
  apply keeps_pure
  split <;> omega

theorem stays_putGroups
    (hSome : 0 < linebuflen)
    (w : World) (buf : Ptr) (len groupsize : Nat) :
    StaysInside linebuflen
      (putGroups w buf len groupsize linebuflen) := by
  unfold putGroups
  apply keeps_ite
  · exact fun _ => stays_printWords _ _ _ hSome
  intro _
  apply keeps_ite
  · exact fun _ => stays_printWords _ _ _ hSome
  intro _
  apply keeps_ite
  · exact fun _ => stays_printWords _ _ _ hSome
  · exact fun _ => stays_putBytes hSome w buf len

theorem stays_fillLine
    (w : World) (buf : Ptr) (len groupsize asciiColumn : Nat)
    (ascii : Bool) :
    StaysInside linebuflen
      (fillLine w buf len groupsize asciiColumn linebuflen
        ascii) := by
  unfold fillLine
  apply keeps_ite
  · intro _
    exact keeps_throw fun _ _ hNo => by cases hNo
  intro hRoom
  have hSome : 0 < linebuflen := Nat.pos_of_ne_zero hRoom
  apply keeps_ite
  · intro _
    exact keeps_pure hSome
  intro _
  apply keeps_bind (stays_putGroups hSome w buf len groupsize)
  intro lx hLx
  apply keeps_ite
  · exact fun _ => stays_putAscii hLx w buf len asciiColumn
  · exact fun _ => keeps_pure hLx

/- Whatever is dumped, and whatever the sizes are. -/
theorem inside_hexDumpToBuffer
    (w : World) (buf : Ptr) (len rowsize groupsize : Nat)
    (ascii : Bool) {linebuf : Buffer}
    (hInside : linebuf.Inside linebuflen) :
    (hexDumpToBuffer w buf len rowsize groupsize linebuflen
      ascii linebuf).2.Inside linebuflen := by
  unfold hexDumpToBuffer
  dsimp only
  generalize hFill : fillLine w buf _ _ _ linebuflen ascii = fill
  have hStays : StaysInside linebuflen fill :=
    hFill ▸ stays_fillLine w buf _ _ _ ascii
  have hMeets := hStays.meets linebuf
  split
  case h_1 lx linebuf' hRun =>
    exact (hMeets.of_ok hRun hInside).put
      (hStays.returns _ _ _ hRun) 0
  case h_2 lx linebuf' hRun =>
    have hError := hMeets.of_error hRun
    exact (hError.1 hInside).put (hError.2 lx rfl) 0
  case h_3 linebuf' hRun =>
    exact (hMeets.of_error hRun).1 hInside

/- The same of a dump with words of any size. -/
theorem inside_tinydrmHexdump
    (w : World) (buf : Ptr) (len bpw max : Nat)
    {linebuf : Buffer} (hInside : linebuf.Inside linebuflen) :
    (tinydrmHexdump w linebuflen buf len bpw max
      linebuf).Inside linebuflen := by
  unfold tinydrmHexdump
  split
  case isTrue => exact hInside.snprintf 0 (by omega)
  split
  case isFalse =>
    exact inside_hexDumpToBuffer w buf len max 1 false hInside
  dsimp only
  have hMeets : Meets (insideDump linebuflen) _ linebuf :=
    (keeps_printWords 4 (fun j => (w.loadU16 buf j).toNat)
      (if max < len then max / 2 else len / 2)).meets linebuf
  split
  case h_1 hRun => exact hMeets.of_ok hRun hInside
  case h_2 hRun =>
    exact ((hMeets.of_error hRun).1 hInside).snprintf 0
      (by omega)

end Utinydrm

------------------------------------------------------------
-- The Text Of A Dump
------------------------------------------------------------

namespace Utinydrm

open CString Effect

/-
  What a dump is to show: the first `max` bytes, or as many
  whole words of 16 bits as there are in them.
-/
def dumpText
    (w : World) (buf : Ptr) (len bpw max : Nat) : List UInt8 :=
  let shown := min len max
  if 8 < bpw then
    spaced ((List.range (shown / 2)).map fun j =>
      hexDigits 4 (w.loadU16 buf j).toNat)
  else
    spaced ((List.range shown).map fun j =>
      hexDigits 2 (w.byte buf j).toNat)

theorem ne_zero_of_mem_dumpText
    {w : World} {buf : Ptr} {len bpw max : Nat} {b : UInt8}
    (hMem : b ∈ dumpText w buf len bpw max) :
    b ≠ 0 := by
  have hDigits : ∀ (width n : Nat) (value : Nat → Nat),
      ∀ word ∈ (List.range n).map fun j =>
          hexDigits width (value j),
        ∀ c ∈ word, c ≠ 0 := by
    intro width n value word hWord c hChar
    rcases List.mem_map.mp hWord with ⟨j, _, rfl⟩
    exact ne_zero_of_mem_hexDigits hChar
  unfold dumpText at hMem
  split at hMem
  · exact ne_zero_of_mem_spaced (hDigits _ _ _) hMem
  · exact ne_zero_of_mem_spaced (hDigits _ _ _) hMem

/- The two digits of a byte. -/
theorem hexDigits_byte (b : UInt8) :
    hexDigits 2 b.toNat = [hexAscHi b, hexAscLo b] := by
  revert b
  apply BitStream.forall_byte
  decide +kernel

/- Three characters are enough for every byte. -/
theorem length_dumpText_le
    (w : World) (buf : Ptr) (len bpw max : Nat) :
    (dumpText w buf len bpw max).length ≤ 3 * min len max := by
  have hDigits : ∀ (width n : Nat) (value : Nat → Nat),
      (spaced ((List.range n).map fun j =>
        hexDigits width (value j))).length ≤ (width + 1) * n :=
    fun width n value => length_spaced_le
      (fun j => Nat.le_of_eq (length_hexDigits width (value j))) n
  unfold dumpText
  split
  · apply (hDigits 4 _ _).trans
    omega
  · exact hDigits 2 _ _

variable {linebuflen : Nat} {linebuf : Buffer}
variable {text : List UInt8}

theorem putChar_holds
    (hHolds : linebuf.Holds text)
    (hRoom : text.length + 1 < linebuflen) (ch : UInt8) :
    putChar linebuflen text.length ch linebuf =
      .ok (text ++ [ch]).length (linebuf.put text.length ch) ∧
    (linebuf.put text.length ch).Holds (text ++ [ch]) := by
  refine ⟨?_, hHolds.put ch⟩
  unfold putChar
  rw [if_neg (by omega), List.length_append]
  rfl

/- A byte and the space behind it. -/
theorem putByte_holds
    (hHolds : linebuf.Holds text) (ch : UInt8)
    (hRoom :
      (text ++ (hexDigits 2 ch.toNat ++ [space])).length <
        linebuflen) :
    ∃ linebuf', putByte linebuflen text.length ch linebuf =
        .ok (text ++ (hexDigits 2 ch.toNat ++ [space])).length
          linebuf' ∧
      linebuf'.Holds
        (text ++ (hexDigits 2 ch.toNat ++ [space]) ++ []) := by
  rw [List.append_nil]
  rw [hexDigits_byte] at hRoom ⊢
  have hRoom₁ : text.length + 1 < linebuflen := by
    simp only [List.length_append, List.length_cons] at hRoom
    omega
  have hRoom₂ :
      (text ++ [hexAscHi ch]).length + 1 < linebuflen := by
    simp only [List.length_append, List.length_cons,
      List.length_nil] at hRoom ⊢
    omega
  have hRoom₃ :
      (text ++ [hexAscHi ch] ++ [hexAscLo ch]).length + 1 <
        linebuflen := by
    simp only [List.length_append, List.length_cons,
      List.length_nil] at hRoom ⊢
    omega
  have hHigh := putChar_holds hHolds hRoom₁ (hexAscHi ch)
  have hLow := putChar_holds hHigh.2 hRoom₂ (hexAscLo ch)
  have hSpace := putChar_holds hLow.2 hRoom₃ space
  have hAll : text ++ ([hexAscHi ch, hexAscLo ch] ++ [space]) =
      text ++ [hexAscHi ch] ++ [hexAscLo ch] ++ [space] := by
    simp
  rw [hAll]
  refine ⟨_, ?_, hSpace.2⟩
  unfold putByte
  rw [bind_of_ok hHigh.1, bind_of_ok hLow.1]
  exact hSpace.1

/- A word with the space in front of it, if any, and a zero. -/
theorem printWord_holds
    {digits value : Nat} (hFits : value < 16 ^ digits)
    (hHolds : linebuf.Holds text) (j : Nat)
    (hRoom :
      (text ++ ((if j ≠ 0 then [space] else []) ++
        hexDigits digits value)).length < linebuflen) :
    ∃ linebuf',
      printWord linebuflen digits text.length j value linebuf =
        .ok (text ++ ((if j ≠ 0 then [space] else []) ++
          hexDigits digits value)).length linebuf' ∧
      linebuf'.Holds
        (text ++ ((if j ≠ 0 then [space] else []) ++
          hexDigits digits value) ++ [0]) := by
  unfold printWord
  rw [printfHex_eq_hexDigits hFits]
  generalize (if j ≠ 0 then [space] else []) ++
    hexDigits digits value = piece at hRoom ⊢
  rw [List.length_append] at hRoom ⊢
  have hMore : piece.length < linebuflen - text.length := by
    omega
  refine ⟨_, ?_, hHolds.snprintf hMore⟩
  rw [bind_of_ok (modify_apply _ _), if_neg (by omega)]
  rfl

/- The bytes, with the space behind the last one left out. -/
theorem putBytes_holds
    (w : World) (buf : Ptr) {len : Nat} (hSome : 0 < len)
    (hRoom : 3 * len < linebuflen) (linebuf : Buffer) :
    ∃ linebuf', putBytes w buf len linebuflen linebuf =
        .ok (spaced ((List.range len).map fun j =>
          hexDigits 2 (w.byte buf j).toNat)).length linebuf' ∧
      linebuf'.Holds (spaced ((List.range len).map fun j =>
        hexDigits 2 (w.byte buf j).toNat)) := by
  let piece := fun j =>
    hexDigits 2 (w.byte buf j).toNat ++ [space]
  have hPiece : ∀ j, (piece j).length ≤ 3 := fun j => by
    simp [piece, length_hexDigits]
  have hFits :
      ((List.range len).flatMap piece).length < linebuflen :=
    Nat.lt_of_le_of_lt (length_flatMap_range_le hPiece len) hRoom
  rcases Buffer.holds_foldlM
      (fun lx j => putByte linebuflen lx (w.byte buf j))
      (fun j hHolds hPut => putByte_holds hHolds _ hPut)
      len hFits linebuf with
    ⟨linebuf', hRun, hHolds, _⟩
  rw [flatMap_trailing _ hSome] at hRun hHolds
  refine ⟨linebuf', ?_, hHolds.of_append⟩
  unfold putBytes
  rw [bind_of_ok hRun, if_pos (Nat.ne_of_gt hSome),
    List.length_append]
  rfl

/-
  The words, with a space in front of all but the first. The
  zero is that of the last word.
-/
theorem printWords_holds
    {digits : Nat} {word : Nat → Nat}
    (hWord : ∀ j, word j < 16 ^ digits)
    {count : Nat} (hSome : 0 < count)
    (hRoom : (digits + 1) * count < linebuflen)
    (linebuf : Buffer) :
    ∃ linebuf',
      printWords linebuflen digits word count linebuf =
        .ok (spaced ((List.range count).map fun j =>
          hexDigits digits (word j))).length linebuf' ∧
      linebuf'.Holds (spaced ((List.range count).map fun j =>
        hexDigits digits (word j)) ++ [0]) := by
  have hDigits : ∀ j,
      (hexDigits digits (word j)).length ≤ digits :=
    fun j => Nat.le_of_eq (length_hexDigits digits (word j))
  have hFits := Nat.lt_of_le_of_lt
    (length_flatMap_range_le (length_leading_le hDigits) count)
    hRoom
  rcases Buffer.holds_foldlM
      (fun lx j => printWord linebuflen digits lx j (word j))
      (fun j hHolds hPut =>
        printWord_holds (hWord j) hHolds j hPut)
      count hFits linebuf with
    ⟨linebuf', hRun, _, hLast⟩
  have hHolds := hLast hSome
  rw [flatMap_leading] at hRun hHolds
  exact ⟨linebuf', hRun, hHolds⟩

/- Filling a line with bytes, also with none. -/
theorem fillLine_holds
    (w : World) (buf : Ptr) {len : Nat}
    (hRoom : 3 * len < linebuflen) (asciiColumn : Nat)
    (linebuf : Buffer) :
    ∃ linebuf',
      fillLine w buf len 1 asciiColumn linebuflen false linebuf =
        .ok (spaced ((List.range len).map fun j =>
          hexDigits 2 (w.byte buf j).toNat)).length linebuf' ∧
      linebuf'.Holds (spaced ((List.range len).map fun j =>
        hexDigits 2 (w.byte buf j).toNat)) := by
  unfold fillLine
  rw [if_neg (by omega)]
  rcases Nat.eq_zero_or_pos len with hNone | hSome
  · subst hNone
    exact ⟨linebuf, rfl, linebuf.holds_nil⟩
  rw [if_neg (by omega)]
  rcases putBytes_holds w buf hSome hRoom linebuf with
    ⟨linebuf', hRun, hHolds⟩
  refine ⟨linebuf', ?_, hHolds⟩
  have hGroups : putGroups w buf len 1 linebuflen linebuf =
      putBytes w buf len linebuflen linebuf := rfl
  rw [bind_of_ok (hGroups.trans hRun)]
  rfl

/- A line of bytes and what is returned for it. -/
theorem hexDumpToBuffer_isString
    (w : World) (buf : Ptr) {len : Nat}
    (hRoom : 3 * min len 16 < linebuflen) (linebuf : Buffer) :
    (hexDumpToBuffer w buf len 16 1 linebuflen false
      linebuf).1 = (dumpText w buf len 8 16).length ∧
    (hexDumpToBuffer w buf len 16 1 linebuflen false
      linebuf).2.IsString (dumpText w buf len 8 16) := by
  have hShown : (if 16 < len then 16 else len) = min len 16 := by
    split <;> omega
  have hText : dumpText w buf len 8 16 =
      spaced ((List.range (min len 16)).map fun j =>
        hexDigits 2 (w.byte buf j).toNat) := rfl
  have hGroup : isPowerOf2 1 = true := rfl
  unfold hexDumpToBuffer
  simp only [hShown, hGroup, Nat.mod_one, ne_eq,
    not_true_eq_false, false_and, if_false, false_or,
    show ¬ 8 < 1 by decide]
  rcases fillLine_holds w buf hRoom (16 * 2 + 16 / 1 + 1)
      linebuf with
    ⟨linebuf', hRun, hHolds⟩
  rw [hRun]
  rw [← hText] at hHolds ⊢
  exact ⟨rfl, hHolds.isString_put
    fun _ hMem => ne_zero_of_mem_dumpText hMem⟩

end Utinydrm

------------------------------------------------------------
-- The Dump In The Line Buffer
------------------------------------------------------------

namespace Utinydrm

open CString

/-
  A dump into a line buffer on the stack: it stores to no
  other place, and leaves a string in it that is the text.
-/
structure DumpsLine
    (linebuflen : Nat) (text : List UInt8)
    (linebuf : Buffer) : Prop where
  inside : linebuf.Inside linebuflen
  string : linebuf.IsString text
  fits : text.length < linebuflen

/- A line buffer when its function is entered. -/
def stackBuffer (bytes : Nat → UInt8) : Buffer where
  bytes := bytes
  written := []

theorem inside_stackBuffer
    (bytes : Nat → UInt8) (size : Nat) :
    (stackBuffer bytes).Inside size :=
  fun _ hMem => absurd hMem List.not_mem_nil

variable {linebuflen len bpw : Nat}

/- Bytes are dumped, and so are words if there is one. -/
theorem tinydrmHexdump_isString
    (w : World) (buf : Ptr) (hBpw : bpw ≤ 16)
    (hSome : bpw ≤ 8 ∨ 2 ≤ len)
    (hRoom : 3 * min len 16 < linebuflen) (linebuf : Buffer) :
    (tinydrmHexdump w linebuflen buf len bpw 16
      linebuf).IsString (dumpText w buf len bpw 16) := by
  unfold tinydrmHexdump
  rw [if_neg (Nat.not_lt.mpr hBpw)]
  by_cases hWide : 8 < bpw
  case neg =>
    have hText : dumpText w buf len bpw 16 =
        dumpText w buf len 8 16 := by
      unfold dumpText
      rw [if_neg hWide, if_neg (Nat.lt_irrefl 8)]
    rw [if_neg hWide, hText]
    exact (hexDumpToBuffer_isString w buf hRoom linebuf).2
  case pos =>
  have hCount :
      (if 16 < len then 16 / 2 else len / 2) =
        min len 16 / 2 := by
    split <;> omega
  have hWord : ∀ j, (w.loadU16 buf j).toNat < 16 ^ 4 :=
    fun j => (w.loadU16 buf j).toNat_lt
  have hText : dumpText w buf len bpw 16 =
      spaced ((List.range (min len 16 / 2)).map fun j =>
        hexDigits 4 (w.loadU16 buf j).toNat) := by
    unfold dumpText
    rw [if_pos hWide]
  rw [if_pos hWide]
  dsimp only
  rw [hCount]
  have hPos : 0 < min len 16 / 2 := by omega
  rcases printWords_holds hWord hPos
      (Nat.lt_of_le_of_lt (by omega) hRoom) linebuf with
    ⟨linebuf', hRun, hHolds⟩
  rw [hRun]
  rw [← hText] at hHolds
  exact hHolds.isString
    fun _ hMem => ne_zero_of_mem_dumpText hMem

/- Without a word the line buffer is left as it is. -/
theorem tinydrmHexdump_noWord
    (w : World) (buf : Ptr) (hBpw : bpw ≤ 16)
    (hWide : 8 < bpw) (hShort : len < 2)
    (max : Nat) (linebuf : Buffer) :
    tinydrmHexdump w linebuflen buf len bpw max linebuf =
      linebuf := by
  have hNone : (if max < len then max / 2 else len / 2) = 0 := by
    split <;> omega
  unfold tinydrmHexdump
  rw [if_neg (Nat.not_lt.mpr hBpw), if_pos hWide]
  dsimp only
  rw [hNone]
  rfl

theorem dumpText_noWord
    (w : World) (buf : Ptr)
    (hWide : 8 < bpw) (hShort : len < 2) (max : Nat) :
    dumpText w buf len bpw max = [] := by
  have hNone : min len max / 2 = 0 := by omega
  unfold dumpText
  rw [if_pos hWide, hNone]
  rfl

/-
  The dump of a transfer or of a register write, with their
  line buffer of 96 bytes, is the text of its first 16 bytes
  if and only if these are dumped byte by byte, or there is a
  word among them, or the stack happens to hold a zero where
  the line buffer starts.
-/
theorem hexdump_iff
    (w : World) (buf : Ptr) (len bpw : Nat)
    (hBpw : bpw ≤ 16) (stack : Nat → UInt8) :
    DumpsLine 96 (dumpText w buf len bpw 16)
        (tinydrmHexdump w 96 buf len bpw 16
          (stackBuffer stack)) ↔
      bpw ≤ 8 ∨ 2 ≤ len ∨ stack 0 = 0 := by
  have hInside := inside_tinydrmHexdump w buf len bpw 16
    (inside_stackBuffer stack 96)
  have hLength := length_dumpText_le w buf len bpw 16
  by_cases hSome : bpw ≤ 8 ∨ 2 ≤ len
  · have hRoom : 3 * min len 16 < 96 := by omega
    have hString := tinydrmHexdump_isString w buf hBpw hSome
      hRoom (stackBuffer stack)
    constructor
    · intro _
      rcases hSome with hBytes | hWord
      · exact Or.inl hBytes
      · exact Or.inr (Or.inl hWord)
    · exact fun _ => ⟨hInside, hString, by omega⟩
  -- no word is dumped, and the line buffer is not touched
  rw [tinydrmHexdump_noWord w buf hBpw (by omega) (by omega),
    dumpText_noWord w buf (by omega) (by omega)]
  constructor
  · intro hDumps
    exact Or.inr (Or.inr hDumps.string.terminated)
  · intro hStack
    have hZero : stack 0 = 0 := by
      rcases hStack with hBytes | hWord | hZero
      · exact absurd (Or.inl hBytes) hSome
      · exact absurd (Or.inr hWord) hSome
      · exact hZero
    exact ⟨inside_stackBuffer stack 96,
      ⟨(stackBuffer stack).holds_nil,
        fun _ hNo => absurd hNo List.not_mem_nil, hZero⟩,
      by decide⟩

/- Two pixels, as 16-bit words. -/
theorem hexdump_iff_pixels :
    dumpText (World.atProbe (-1))
        (.ofBytes [0x00, 0xf8, 0xe0, 0x07] fun _ => 0) 4 16 16 =
      "f800 07e0".toList.map Char.toUInt8 ∧
    DumpsLine 96
      (dumpText (World.atProbe (-1))
        (.ofBytes [0x00, 0xf8, 0xe0, 0x07] fun _ => 0) 4 16 16)
      (tinydrmHexdump (World.atProbe (-1)) 96
        (.ofBytes [0x00, 0xf8, 0xe0, 0x07] fun _ => 0) 4 16 16
        (stackBuffer fun _ => 0x41)) :=
  ⟨by decide,
    (hexdump_iff (World.atProbe (-1))
      (.ofBytes [0x00, 0xf8, 0xe0, 0x07] fun _ => 0) 4 16
      (by decide) fun _ => 0x41).mpr
      (Or.inr (Or.inl (by decide)))⟩

/- The message of a command with words of 9 bits: one byte. -/
theorem hexdump_stale :
    ¬ ∀ (w : World) (buf : Ptr) (len bpw : Nat)
        (stack : Nat → UInt8), bpw ≤ 16 →
      DumpsLine 96 (dumpText w buf len bpw 16)
        (tinydrmHexdump w 96 buf len bpw 16
          (stackBuffer stack)) := by
  intro hClaim
  have hDumps := hClaim (World.atProbe (-1))
    (.ofBytes [0x29, 0x00] fun _ => 0) 1 9 (fun _ => 0x41)
    (by decide)
  have hZero : (0x41 : UInt8) = 0 := by
    rw [tinydrmHexdump_noWord _ _ (by decide) (by decide)
        (by decide),
      dumpText_noWord _ _ (by decide) (by decide)] at hDumps
    exact hDumps.string.terminated
  exact absurd hZero (by decide)

end Utinydrm

------------------------------------------------------------
-- What Is Printed
------------------------------------------------------------

namespace Utinydrm

open CString

/-
  The data `tinydrm_debug_reg_write` prints: `linebuf` is
  what `%s` is given.
-/
structure RegWriteData where
  len : Nat
  linebuf : Buffer
  more : Bool

/- A line it prints: the register, and the data if any. -/
structure RegWriteLine where
  regnr : Nat
  digits : Nat
  data : Option RegWriteData

/- `tinydrm_debug_reg_write`. -/
def tinydrmDebugRegWrite
    (w : World) (reg : Ptr) (regLen : Nat)
    (val : Option Ptr) (valLen valWidth : Nat)
    (linebuf : Buffer) : Option RegWriteLine :=
  if regLen ≠ 1 ∧ regLen ≠ 2 then
    none
  else
    let regnr :=
      if regLen = 1 then (w.byte reg 0).toNat
      else (w.loadU16 reg 0).toNat
    let digits := if regLen = 1 then 2 else 4
    match val with
    | none => some ⟨regnr, digits, none⟩
    | some val =>
        if valLen = 0 then
          some ⟨regnr, digits, none⟩
        else
          some ⟨regnr, digits, some
            { len := valLen
              linebuf :=
                tinydrmHexdump w 96 val valLen valWidth 16 linebuf
              more := decide (32 < valLen) }⟩

/-
  A line of `_tinydrm_dbg_spi_message`: `dma` is printed for
  a transmit buffer only, `linebuf` is what `%s` is given.
-/
structure TransferLine where
  i : Nat
  bpw : Nat
  dma : Option Bool
  len : Nat
  linebuf : Buffer
  more : Bool

/- The dump of one of the two buffers of a transfer. -/
def dumpTransferBuf
    (w : World) (i : Nat) (tmp : SpiTransfer)
    (dma : Option Bool) (buf : Ptr)
    (linebuf : Buffer) : TransferLine where
  i := i
  bpw := tmp.bitsPerWord
  dma := dma
  len := tmp.len
  linebuf :=
    tinydrmHexdump w 96 buf tmp.len tmp.bitsPerWord 16 linebuf
  more := decide (16 < tmp.len)

/-
  The loop of `_tinydrm_dbg_spi_message`, with the line
  buffer as the dump before has left it.
-/
def dumpTransfers
    (w : World) (canDma : Option (SpiTransfer → Bool)) :
    List SpiTransfer → Nat → Buffer → List TransferLine
| [], _, _ => []
| tmp :: rest, i, linebuf =>
    let tx := tmp.txBuf.map fun buf =>
      let dma := canDma.elim false fun f => f tmp
      dumpTransferBuf w i tmp (some dma) buf linebuf
    let linebuf := tx.elim linebuf TransferLine.linebuf
    let rx := tmp.rxBuf.map fun buf =>
      dumpTransferBuf w i tmp none (.heap (w.rx buf)) linebuf
    let linebuf := rx.elim linebuf TransferLine.linebuf
    tx.toList ++ rx.toList ++
      dumpTransfers w canDma rest (i + 1) linebuf

/- `_tinydrm_dbg_spi_message`. -/
def tinydrmDbgSpiMessage
    (w : World) (canDma : Option (SpiTransfer → Bool))
    (m : SpiMessage) (linebuf : Buffer) : List TransferLine :=
  dumpTransfers w canDma (m.first :: m.rest) 0 linebuf

/- There is a byte or a word to show, or bytes are shown. -/
structure Showable (len bpw : Nat) : Prop where
  width : bpw ≤ 16
  some : bpw ≤ 8 ∨ 2 ≤ len

/- Whatever the line buffer of a caller held before. -/
theorem Showable.isString
    {len bpw : Nat} (hShow : Showable len bpw)
    (w : World) (buf : Ptr) (linebuf : Buffer) :
    (tinydrmHexdump w 96 buf len bpw 16 linebuf).IsString
      (dumpText w buf len bpw 16) := by
  have hRoom : 3 * min len 16 < 96 := by omega
  exact tinydrmHexdump_isString w buf hShow.width hShow.some hRoom
    linebuf

/- What is printed does not depend on it. -/
theorem Showable.noStale
    {len bpw : Nat} (hShow : Showable len bpw)
    (w : World) (buf : Ptr) {linebuf linebuf' : Buffer}
    {printed printed' : List UInt8}
    (hPrinted :
      (tinydrmHexdump w 96 buf len bpw 16 linebuf).IsString
        printed)
    (hPrinted' :
      (tinydrmHexdump w 96 buf len bpw 16 linebuf').IsString
        printed') :
    printed = printed' :=
  (hPrinted.unique (hShow.isString w buf linebuf)).trans
    ((hShow.isString w buf linebuf').unique hPrinted')

/- The line of a register write shows its data. -/
theorem tinydrmDebugRegWrite_shows
    (w : World) (reg : Ptr) (regLen : Nat) (val : Ptr)
    {valLen valWidth : Nat} (hShow : Showable valLen valWidth)
    (linebuf : Buffer) {line : RegWriteLine}
    (hLine : tinydrmDebugRegWrite w reg regLen (some val) valLen
      valWidth linebuf = some line) :
    (∀ data ∈ line.data, data.linebuf.IsString
      (dumpText w val valLen valWidth 16)) ∧
    (line.data = none → valLen = 0) := by
  unfold tinydrmDebugRegWrite at hLine
  by_cases hReg : regLen ≠ 1 ∧ regLen ≠ 2
  · rw [if_pos hReg] at hLine
    cases hLine
  rw [if_neg hReg] at hLine
  dsimp only at hLine
  by_cases hNone : valLen = 0
  · rw [if_pos hNone] at hLine
    cases hLine
    exact ⟨fun _ hNo => absurd hNo (by simp), fun _ => hNone⟩
  · rw [if_neg hNone] at hLine
    cases hLine
    constructor
    · rintro _ ⟨⟩
      exact hShow.isString w val linebuf
    · intro hNo
      cases hNo

/- `%s` prints the text. -/
def TransferLine.Shows
    (line : TransferLine) (text : List UInt8) : Prop :=
  line.linebuf.IsString text

/- The texts the lines for some transfers are to show. -/
def transferTexts
    (w : World) (trs : List SpiTransfer) : List (List UInt8) :=
  trs.flatMap fun tr =>
    (tr.txBuf.toList ++
      tr.rxBuf.toList.map fun buf => Ptr.heap (w.rx buf)).map
      fun buf => dumpText w buf tr.len tr.bitsPerWord 16

theorem dumpTransfers_show
    (w : World) (canDma : Option (SpiTransfer → Bool))
    {trs : List SpiTransfer}
    (hShow : ∀ tr ∈ trs, Showable tr.len tr.bitsPerWord)
    (i : Nat) (linebuf : Buffer) :
    List.Forall₂ TransferLine.Shows
      (dumpTransfers w canDma trs i linebuf)
      (transferTexts w trs) := by
  induction trs generalizing i linebuf with
  | nil => exact List.Forall₂.nil
  | cons tr rest ih =>
      have hFirst := hShow tr List.mem_cons_self
      have hRest := ih fun tr' hMem =>
        hShow tr' (List.mem_cons_of_mem _ hMem)
      have hLine : ∀ dma buf linebuf,
          (dumpTransferBuf w i tr dma buf linebuf).Shows
            (dumpText w buf tr.len tr.bitsPerWord 16) :=
        fun _ buf linebuf => hFirst.isString w buf linebuf
      unfold dumpTransfers
      rw [transferTexts, List.flatMap_cons, ← transferTexts]
      apply List.rel_append _ (hRest _ _)
      cases tr.txBuf with
      | none =>
          cases tr.rxBuf with
          | none => exact List.Forall₂.nil
          | some rx =>
              exact List.Forall₂.cons (hLine _ _ _)
                List.Forall₂.nil
      | some tx =>
          cases tr.rxBuf with
          | none =>
              exact List.Forall₂.cons (hLine _ _ _)
                List.Forall₂.nil
          | some rx =>
              exact List.Forall₂.cons (hLine _ _ _)
                (List.Forall₂.cons (hLine _ _ _)
                  List.Forall₂.nil)

/-
  A message prints the texts of its buffers in order, and
  nothing of what was on the stack, when each of its
  transfers has something to show.
-/
theorem tinydrmDbgSpiMessage_prints
    (w : World) (canDma : Option (SpiTransfer → Bool))
    (m : SpiMessage)
    (hShow : ∀ tr ∈ m.first :: m.rest,
      Showable tr.len tr.bitsPerWord)
    (linebuf : Buffer) :
    List.Forall₂ TransferLine.Shows
      (tinydrmDbgSpiMessage w canDma m linebuf)
      (transferTexts w (m.first :: m.rest)) :=
  dumpTransfers_show w canDma hShow 0 linebuf

/- Otherwise it may print what was on the stack. -/
theorem tinydrmDbgSpiMessage_stale
    (w : World) (canDma : Option (SpiTransfer → Bool))
    (m : SpiMessage) {buf : Ptr}
    (hBuf : m.first.txBuf = some buf)
    (hBpw : m.first.bitsPerWord ≤ 16)
    (hWide : 8 < m.first.bitsPerWord)
    (hShort : m.first.len < 2) (linebuf : Buffer) :
    (tinydrmDbgSpiMessage w canDma m linebuf).head?.map
      TransferLine.linebuf = some linebuf := by
  unfold tinydrmDbgSpiMessage dumpTransfers
  rw [hBuf]
  exact congrArg some
    (tinydrmHexdump_noWord w buf hBpw hWide hShort 16 linebuf)

end Utinydrm
