import Utinydrm.Lib.Effect
import Mathlib.Data.Nat.Digits.Defs
import Mathlib.Logic.Function.Basic

/-
  Strings that a C program builds in a buffer: storing
  characters one after another, `snprintf`, and numbers in
  hexadecimal.

  Key definitions include:
    * `CString.Buffer`, with the places stored to
    * `Buffer.Holds` and `Buffer.IsString`
    * `Buffer.snprintf`
    * `printfHex` and `hexDigits`
    * `spaced`

  Main declarations:
    * `Buffer.Holds.putAll` and `Buffer.Holds.isString_put`
    * `Buffer.Holds.snprintf`
    * `Buffer.holds_foldlM`: a loop that adds to a text
    * `Buffer.IsString.unique`
    * `printfHex_eq_hexDigits`
    * `flatMap_leading` and `flatMap_trailing`: separators
-/

------------------------------------------------------------
-- Buffers
------------------------------------------------------------

namespace CString

/-
  A buffer: the bytes from its start on, those behind its end
  included, and the places stored to so far.
-/
structure Buffer where
  bytes : Nat → UInt8
  written : List Nat

namespace Buffer

/- `buf[i] = b`. -/
def put (s : Buffer) (i : Nat) (b : UInt8) : Buffer where
  bytes := Function.update s.bytes i b
  written := s.written ++ [i]

/- Characters stored one after another. -/
def putAll : Buffer → Nat → List UInt8 → Buffer
| s, _, [] => s
| s, start, b :: text => (s.put start b).putAll (start + 1) text

/- Every place stored to is one of the first `size`. -/
def Inside (s : Buffer) (size : Nat) : Prop :=
  ∀ i ∈ s.written, i < size

/- The buffer starts with these characters. -/
def Holds (s : Buffer) (text : List UInt8) : Prop :=
  ∀ i (hi : i < text.length), s.bytes i = text[i]

/- It holds this string and the zero that ends it. -/
structure IsString (s : Buffer) (text : List UInt8) : Prop where
  holds : s.Holds text
  noZero : ∀ b ∈ text, b ≠ 0
  terminated : s.bytes text.length = 0

variable {s : Buffer} {size : Nat} {text more : List UInt8}

theorem Inside.put
    (hInside : s.Inside size)
    {i : Nat} (hi : i < size) (b : UInt8) :
    (s.put i b).Inside size := by
  intro j hj
  rcases List.mem_append.mp hj with hOld | hNew
  · exact hInside j hOld
  · rwa [List.mem_singleton.mp hNew]

theorem Inside.putAll
    {start : Nat} (hInside : s.Inside size)
    (hRoom : start + text.length ≤ size) :
    (s.putAll start text).Inside size := by
  induction text generalizing s start with
  | nil => exact hInside
  | cons b text ih =>
      rw [List.length_cons] at hRoom
      exact ih (hInside.put (by omega) b) (by omega)

theorem holds_nil (s : Buffer) : s.Holds [] :=
  fun _ hi => absurd hi (Nat.not_lt_zero _)

theorem Holds.of_append
    (hHolds : s.Holds (text ++ more)) :
    s.Holds text := by
  intro i hi
  rw [hHolds i (by rw [List.length_append]; omega)]
  exact List.getElem_append_left hi

/- The next character. -/
theorem Holds.put
    (hHolds : s.Holds text) (b : UInt8) :
    (s.put text.length b).Holds (text ++ [b]) := by
  intro i hi
  rw [List.length_append, List.length_singleton] at hi
  by_cases hLast : i = text.length
  · subst hLast
    simp [Buffer.put]
  · have hOld : i < text.length := by omega
    rw [List.getElem_append_left hOld, ← hHolds i hOld]
    exact Function.update_of_ne hLast _ _

/- The next characters. -/
theorem Holds.putAll
    (hHolds : s.Holds text) :
    (s.putAll text.length more).Holds (text ++ more) := by
  induction more generalizing s text with
  | nil =>
      rw [List.append_nil]
      exact hHolds
  | cons b more ih =>
      have hNext := ih (hHolds.put b)
      rwa [List.length_append, List.append_assoc] at hNext

/- What the buffer holds is a string if a zero follows. -/
theorem Holds.isString
    (hHolds : s.Holds (text ++ [0]))
    (hNoZero : ∀ b ∈ text, b ≠ 0) :
    s.IsString text where
  holds := hHolds.of_append
  noZero := hNoZero
  terminated := by
    rw [hHolds text.length (by simp)]
    exact List.getElem_concat_length rfl _

/- The zero that ends what the buffer holds. -/
theorem Holds.isString_put
    (hHolds : s.Holds text) (hNoZero : ∀ b ∈ text, b ≠ 0) :
    (s.put text.length 0).IsString text :=
  (hHolds.put 0).isString hNoZero

/- Up to its zero, a buffer holds only one string. -/
theorem IsString.unique
    (hText : s.IsString text) (hMore : s.IsString more) :
    text = more := by
  have hLe : ∀ {t u : List UInt8}, s.IsString t →
      s.IsString u → t.length ≤ u.length := by
    intro t u ht hu
    by_contra hNot
    have hLess : u.length < t.length := by omega
    apply ht.noZero _ (List.getElem_mem hLess)
    rw [← ht.holds _ hLess]
    exact hu.terminated
  apply List.ext_getElem
    (Nat.le_antisymm (hLe hText hMore) (hLe hMore hText))
  intro i hi hi'
  rw [← hText.holds i hi, hMore.holds i hi']

/-
  `snprintf(buf + start, size, ..)`, with the characters that
  the format makes: as many as there is room for, and a zero.
-/
def snprintf
    (s : Buffer) (start size : Nat)
    (text : List UInt8) : Buffer :=
  if size = 0 then
    s
  else
    s.putAll start (text.take (size - 1) ++ [0])

/- It stores to no place behind its size. -/
theorem Inside.snprintf
    (hInside : s.Inside size)
    (start : Nat) {room : Nat} (hRoom : start + room ≤ size) :
    (s.snprintf start room text).Inside size := by
  unfold Buffer.snprintf
  split
  case isTrue => exact hInside
  case isFalse hSome =>
    apply hInside.putAll
    rw [List.length_append, List.length_take,
      List.length_singleton]
    omega

/- When there is room, everything is stored. -/
theorem Holds.snprintf
    (hHolds : s.Holds text)
    {room : Nat} (hRoom : more.length < room) :
    (s.snprintf text.length room more).Holds
      (text ++ more ++ [0]) := by
  have hAll : more.take (room - 1) = more :=
    List.take_of_length_le (by omega)
  rw [Buffer.snprintf, if_neg (by omega), hAll,
    List.append_assoc]
  exact hHolds.putAll

/-
  A loop with the length of the text so far, in which every
  round adds a piece as long as there is room. What a round
  leaves behind its piece is still there after the last one.
-/
theorem holds_foldlM
    {ε : Type} (step : Nat → Nat → EStateM ε Buffer Nat)
    {piece : Nat → List UInt8} {tail : List UInt8}
    (hStep : ∀ {s text} j, s.Holds text →
      (text ++ piece j).length < size →
      ∃ s', step text.length j s =
          .ok (text ++ piece j).length s' ∧
        s'.Holds (text ++ piece j ++ tail))
    (n : Nat)
    (hRoom : ((List.range n).flatMap piece).length < size)
    (s : Buffer) :
    ∃ s', (List.range n).foldlM step 0 s =
        .ok ((List.range n).flatMap piece).length s' ∧
      s'.Holds ((List.range n).flatMap piece) ∧
      (0 < n →
        s'.Holds ((List.range n).flatMap piece ++ tail)) := by
  induction n with
  | zero =>
      exact ⟨s, rfl, holds_nil s,
        fun hNo => absurd hNo (Nat.lt_irrefl 0)⟩
  | succ n ih =>
      rw [List.range_succ, List.flatMap_append,
        List.flatMap_singleton] at hRoom ⊢
      have hBefore :
          ((List.range n).flatMap piece).length < size := by
        rw [List.length_append] at hRoom
        omega
      rcases ih hBefore with ⟨s₁, hRun, hHolds, _⟩
      rcases hStep n hHolds hRoom with ⟨s', hLast, hAll⟩
      refine ⟨s', ?_, hAll.of_append, fun _ => hAll⟩
      rw [List.foldlM_append, Effect.bind_of_ok hRun,
        List.foldlM_cons, Effect.bind_of_ok hLast]
      rfl

end Buffer

end CString

------------------------------------------------------------
-- Hexadecimal Numbers
------------------------------------------------------------

namespace CString

/- `'0'` to `'9'` and `'a'` to `'f'`. -/
def hexDigit (d : Nat) : UInt8 := (Nat.digitChar d).toUInt8

/- The last digits of a number, the most significant first. -/
def hexDigits : Nat → Nat → List UInt8
| 0, _ => []
| width + 1, value =>
    hexDigits width (value / 16) ++ [hexDigit (value % 16)]

/-
  `%.*x`: all digits of a number, filled up with zeros to the
  precision.
-/
def printfHex (precision value : Nat) : List UInt8 :=
  (((Nat.digits 16 value).reverse).leftpad precision 0).map
    hexDigit

theorem length_hexDigits (width value : Nat) :
    (hexDigits width value).length = width := by
  induction width generalizing value with
  | zero => rfl
  | succ width ih =>
      rw [hexDigits, List.length_append, ih]
      rfl

theorem hexDigit_ne_zero :
    ∀ d < 16, hexDigit d ≠ 0 := by
  decide

theorem ne_zero_of_mem_hexDigits
    {width value : Nat} {b : UInt8}
    (hMem : b ∈ hexDigits width value) :
    b ≠ 0 := by
  induction width generalizing value with
  | zero => simp [hexDigits] at hMem
  | succ width ih =>
      rcases List.mem_append.mp hMem with hFirst | hLast
      · exact ih hFirst
      · rw [List.mem_singleton.mp hLast]
        exact hexDigit_ne_zero _ (Nat.mod_lt _ (by decide))

/- The digits of a number before its last one. -/
theorem leftpad_digits_succ (width value : Nat) :
    ((Nat.digits 16 value).reverse).leftpad (width + 1) 0 =
      ((Nat.digits 16 (value / 16)).reverse).leftpad width 0 ++
        [value % 16] := by
  rcases Nat.eq_zero_or_pos value with hZero | hPos
  · subst hZero
    simp [List.leftpad, List.replicate_succ']
  · rw [Nat.digits_def' (by decide) hPos]
    simp [List.leftpad]

/- A number that fits its precision has that many digits. -/
theorem printfHex_eq_hexDigits
    {width value : Nat} (hFits : value < 16 ^ width) :
    printfHex width value = hexDigits width value := by
  induction width generalizing value with
  | zero =>
      have hZero : value = 0 := by
        simpa using hFits
      subst hZero
      rfl
  | succ width ih =>
      have hRest : value / 16 < 16 ^ width := by
        rw [Nat.pow_succ] at hFits
        omega
      rw [hexDigits, ← ih hRest, printfHex, printfHex,
        leftpad_digits_succ, List.map_append]
      rfl

end CString

------------------------------------------------------------
-- Separators
------------------------------------------------------------

namespace CString

/- `' '`. -/
abbrev space : UInt8 := 0x20

/- Words with a single space between any two. -/
def spaced (words : List (List UInt8)) : List UInt8 :=
  [space].intercalate words

theorem spaced_append_singleton
    {words : List (List UInt8)} (hWords : words ≠ [])
    (word : List UInt8) :
    spaced (words ++ [word]) =
      spaced words ++ space :: word := by
  unfold spaced
  induction words with
  | nil => exact absurd rfl hWords
  | cons first rest ih =>
      cases rest with
      | nil => simp
      | cons second rest =>
          simp only [List.cons_append,
            List.intercalate_cons_cons] at ih ⊢
          rw [ih (by simp)]
          simp

/- A space in front of every word but the first. -/
theorem flatMap_leading (word : Nat → List UInt8) (n : Nat) :
    ((List.range n).flatMap fun j =>
      (if j ≠ 0 then [space] else []) ++ word j) =
      spaced ((List.range n).map word) := by
  induction n with
  | zero => rfl
  | succ n ih =>
      rw [List.range_succ, List.flatMap_append, ih,
        List.flatMap_singleton, List.map_append]
      cases n with
      | zero => simp [spaced]
      | succ n =>
          rw [List.map_singleton, spaced_append_singleton
            (by simp)]
          simp

/- A space behind every word, less the last one. -/
theorem flatMap_trailing
    (word : Nat → List UInt8) {n : Nat} (hSome : 0 < n) :
    ((List.range n).flatMap fun j => word j ++ [space]) =
      spaced ((List.range n).map word) ++ [space] := by
  induction n with
  | zero => exact absurd hSome (Nat.lt_irrefl 0)
  | succ n ih =>
      rw [List.range_succ, List.flatMap_append,
        List.flatMap_singleton, List.map_append]
      cases n with
      | zero => simp [spaced]
      | succ n =>
          rw [ih (by omega), List.map_singleton,
            spaced_append_singleton (by simp)]
          simp

theorem length_flatMap_range_le
    {piece : Nat → List UInt8} {k : Nat}
    (hPiece : ∀ j, (piece j).length ≤ k) (n : Nat) :
    ((List.range n).flatMap piece).length ≤ k * n := by
  induction n with
  | zero => exact Nat.zero_le _
  | succ n ih =>
      have hLast := hPiece n
      rw [List.range_succ, List.flatMap_append,
        List.flatMap_singleton, List.length_append,
        Nat.mul_succ]
      omega

theorem length_leading_le
    {word : Nat → List UInt8} {k : Nat}
    (hWord : ∀ j, (word j).length ≤ k) (j : Nat) :
    ((if j ≠ 0 then [space] else []) ++ word j).length ≤
      k + 1 := by
  have hSpace :
      (if j ≠ 0 then [space] else []).length ≤ 1 := by
    split <;> simp
  have hLength := hWord j
  rw [List.length_append]
  omega

/- With a space for each, words of some length at most. -/
theorem length_spaced_le
    {word : Nat → List UInt8} {k : Nat}
    (hWord : ∀ j, (word j).length ≤ k) (n : Nat) :
    (spaced ((List.range n).map word)).length ≤
      (k + 1) * n := by
  rw [← flatMap_leading]
  exact length_flatMap_range_le (length_leading_le hWord) n

/- A space does not end a string. -/
theorem ne_zero_of_mem_spaced
    {words : List (List UInt8)}
    (hWords : ∀ word ∈ words, ∀ b ∈ word, b ≠ 0)
    {b : UInt8} (hMem : b ∈ spaced words) :
    b ≠ 0 := by
  unfold spaced at hMem
  induction words with
  | nil => simp at hMem
  | cons first rest ih =>
      have hFirst := hWords first List.mem_cons_self
      have hRest := ih fun word hWord =>
        hWords word (List.mem_cons_of_mem _ hWord)
      cases rest with
      | nil =>
          rw [List.intercalate_singleton] at hMem
          exact hFirst b hMem
      | cons second rest =>
          rw [List.intercalate_cons_cons] at hMem
          rcases List.mem_append.mp hMem with hHead | hTail
          · rcases List.mem_append.mp hHead with hWord | hSpace
            · exact hFirst b hWord
            · rw [List.mem_singleton.mp hSpace]
              decide
          · exact hRest hTail

end CString
