import Mathlib.Data.Nat.Bitwise
import Mathlib.Data.List.Basic

/-
  Numbers and bytes as bits sent most significant first, and
  cutting a stream into words of a fixed width.

  Main declarations:
    * `BitStream.bits` and `BitStream.bits_append`
    * `BitStream.joined` and `BitStream.bits_joined`
    * `BitStream.ofBytes` and `BitStream.ofBytes_injective`
    * `BitStream.beBytes` and `BitStream.ofBytes_beBytes`
    * `BitStream.cut` and `BitStream.cut_eq_iff`
    * `BitStream.number` and `BitStream.number_bits`
    * `BitStream.fullWords` and
      `BitStream.fullWords_flatten_append`
-/

------------------------------------------------------------
-- Bits Of A Number
------------------------------------------------------------

namespace BitStream

/- The low `n` bits of a number, most significant first. -/
def bits : Nat → Nat → List Bool
| 0, _ => []
| n + 1, v => v.testBit n :: bits n v

@[simp] theorem length_bits
    (n v : Nat) :
    (bits n v).length = n := by
  induction n with
  | zero => rfl
  | succ n ih => simp [bits, ih]

/- Only the low bits count. -/
theorem bits_congr
    {n v w : Nat}
    (hBits : ∀ i < n, v.testBit i = w.testBit i) :
    bits n v = bits n w := by
  induction n with
  | zero => rfl
  | succ n ih =>
      simp only [bits]
      rw [hBits n (by omega),
        ih fun i hi => hBits i (by omega)]

theorem testBit_of_bits_eq
    {n v w : Nat}
    (hEq : bits n v = bits n w) :
    ∀ i < n, v.testBit i = w.testBit i := by
  induction n with
  | zero =>
      intro i hi
      omega
  | succ n ih =>
      have hCons := List.cons.inj hEq
      intro i hi
      by_cases hLast : i = n
      · rw [hLast]
        exact hCons.1
      · exact ih hCons.2 i (by omega)

/- A number of `n` bits is known by them. -/
theorem eq_of_bits_eq
    {n v w : Nat}
    (hv : v < 2 ^ n) (hw : w < 2 ^ n)
    (hEq : bits n v = bits n w) :
    v = w := by
  rw [← Nat.mod_eq_of_lt hv, ← Nat.mod_eq_of_lt hw]
  apply Nat.eq_of_testBit_eq
  intro i
  simp only [Nat.testBit_mod_two_pow]
  by_cases hi : i < n
  · rw [testBit_of_bits_eq hEq i hi]
  · simp [hi]

theorem bits_mod
    {n m : Nat}
    (v : Nat)
    (hLe : n ≤ m) :
    bits n (v % 2 ^ m) = bits n v := by
  apply bits_congr
  intro i hi
  have hLt : i < m := by omega
  simp [Nat.testBit_mod_two_pow, hLt]

/- The bits of a number are those of its two parts. -/
theorem bits_add
    (m n v : Nat) :
    bits (m + n) v = bits m (v >>> n) ++ bits n v := by
  induction m with
  | zero => simp [bits]
  | succ m ih =>
      have hSucc : m + 1 + n = m + n + 1 := by omega
      rw [hSucc, bits, ih]
      simp [bits, Nat.testBit_shiftRight, Nat.add_comm]

/- A number put behind another one. -/
theorem bits_append
    {n w : Nat}
    (m v : Nat)
    (hw : w < 2 ^ n) :
    bits (m + n) (v <<< n ||| w) =
      bits m v ++ bits n w := by
  rw [bits_add, Nat.shiftRight_or_distrib,
    Nat.shiftLeft_shiftRight,
    Nat.shiftRight_eq_div_pow w n, Nat.div_eq_of_lt hw,
    Nat.or_zero]
  congr 1
  apply bits_congr
  intro i hi
  have hShift : ¬ n ≤ i := by omega
  simp [Nat.testBit_or, Nat.testBit_shiftLeft, hShift]

@[simp] theorem bits_zero
    (n : Nat) :
    bits n 0 = List.replicate n false := by
  induction n with
  | zero => rfl
  | succ n ih => simp [bits, ih, List.replicate_succ]

/- Zeros shifted in from the right are sent last. -/
theorem bits_shiftLeft
    (m n v : Nat) :
    bits (m + n) (v <<< n) =
      bits m v ++ List.replicate n false := by
  have hAppend := bits_append (n := n) m v
    (Nat.two_pow_pos n)
  simpa using hAppend

/- The first `k` of some words of `n` bits as one number. -/
def joined (n : Nat) (word : Nat → Nat) : Nat → Nat
| 0 => 0
| k + 1 => joined n word k <<< n ||| word k

theorem bits_joined
    {n : Nat} {word : Nat → Nat}
    (hWord : ∀ i, word i < 2 ^ n)
    (k : Nat) :
    bits (k * n) (joined n word k) =
      (List.range k).flatMap fun i => bits n (word i) := by
  induction k with
  | zero => simp [joined]
  | succ k ih =>
      rw [Nat.succ_mul, joined, bits_append _ _ (hWord k), ih,
        List.range_succ, List.flatMap_append,
        List.flatMap_singleton]

end BitStream

------------------------------------------------------------
-- Bits Of Bytes
------------------------------------------------------------

namespace BitStream

/- What holds of every value of a byte, checked one by one. -/
theorem forall_byte
    {P : UInt8 → Prop}
    (hAll : ∀ n : Fin 256, P (UInt8.ofNat n.val))
    (b : UInt8) : P b := by
  have hByte := hAll ⟨b.toNat, b.toNat_lt⟩
  rwa [UInt8.ofNat_toNat] at hByte

/- The bits of a sequence of bytes. -/
def ofBytes (bytes : List UInt8) : List Bool :=
  bytes.flatMap fun b => bits 8 b.toNat

@[simp] theorem ofBytes_nil : ofBytes [] = [] := rfl

@[simp] theorem ofBytes_cons
    (b : UInt8) (bytes : List UInt8) :
    ofBytes (b :: bytes) =
      bits 8 b.toNat ++ ofBytes bytes := rfl

@[simp] theorem ofBytes_append
    (left right : List UInt8) :
    ofBytes (left ++ right) =
      ofBytes left ++ ofBytes right := by
  simp [ofBytes]

@[simp] theorem length_ofBytes
    (bytes : List UInt8) :
    (ofBytes bytes).length = 8 * bytes.length := by
  induction bytes with
  | nil => rfl
  | cons b bytes ih =>
      simp [ih]
      omega

theorem ofBytes_injective
    {left right : List UInt8}
    (hEq : ofBytes left = ofBytes right) :
    left = right := by
  have hLength : left.length = right.length := by
    have hBits := congrArg List.length hEq
    simp only [length_ofBytes] at hBits
    omega
  induction left generalizing right with
  | nil =>
      exact (List.eq_nil_of_length_eq_zero hLength.symm).symm
  | cons b left ih =>
      cases right with
      | nil => cases hLength
      | cons c right =>
          simp only [ofBytes_cons] at hEq
          rcases List.append_inj hEq (by simp) with
            ⟨hByte, hRest⟩
          have hFirst : b = c := UInt8.toNat_inj.mp
            (eq_of_bits_eq b.toNat_lt c.toNat_lt hByte)
          rw [hFirst, ih hRest (Nat.succ.inj hLength)]

/- Bytes at the start of a stream, whatever follows them. -/
theorem eq_of_ofBytes_append_prefix
    {left right : List UInt8}
    {rest more : List Bool}
    (hLength : left.length = right.length)
    (hPrefix :
      ofBytes left ++ rest <+: ofBytes right ++ more) :
    left = right := by
  rcases hPrefix with ⟨tail, hEq⟩
  rw [List.append_assoc] at hEq
  exact ofBytes_injective
    (List.append_inj hEq (by simp [hLength])).1

/- The bytes of a number, most significant first. -/
def beBytes : Nat → Nat → List UInt8
| 0, _ => []
| n + 1, v => (v >>> (8 * n)).toUInt8 :: beBytes n v

@[simp] theorem length_beBytes
    (n v : Nat) :
    (beBytes n v).length = n := by
  induction n with
  | zero => rfl
  | succ n ih => simp [beBytes, ih]

theorem ofBytes_beBytes
    (n v : Nat) :
    ofBytes (beBytes n v) = bits (8 * n) v := by
  induction n with
  | zero => rfl
  | succ n ih =>
      have hSplit : 8 * (n + 1) = 8 + 8 * n := by omega
      have hByte :
          bits 8 (v >>> (8 * n)).toUInt8.toNat =
            bits 8 (v >>> (8 * n)) := by
        simpa using bits_mod (n := 8) (m := 8)
          (v >>> (8 * n)) (le_refl 8)
      rw [beBytes, ofBytes_cons, ih, hByte, hSplit,
        bits_add]

end BitStream

------------------------------------------------------------
-- Words Of A Fixed Width
------------------------------------------------------------

namespace BitStream

variable {α : Type}

/- Cut a stream into words of `n`, for at most `fuel` words. -/
def cutFrom (n : Nat) : Nat → List α → List (List α)
| 0, _ => []
| fuel + 1, stream =>
    if stream.isEmpty then
      []
    else
      stream.take n :: cutFrom n fuel (stream.drop n)

/-
  Cut a stream into words of `n`; only the last word can be
  shorter.
-/
def cut (n : Nat) (stream : List α) : List (List α) :=
  cutFrom n stream.length stream

theorem flatten_cutFrom
    {n : Nat}
    (hn : 0 < n) :
    ∀ fuel (stream : List α), stream.length ≤ fuel →
      (cutFrom n fuel stream).flatten = stream
| 0, stream, hFuel => by
    have hNil : stream = [] :=
      List.length_eq_zero_iff.mp (by omega)
    simp [cutFrom, hNil]
| fuel + 1, stream, hFuel => by
    by_cases hNil : stream = []
    · simp [cutFrom, hNil]
    · have hPos := List.length_pos_iff.mpr hNil
      have hRest : (stream.drop n).length ≤ fuel := by
        simp only [List.length_drop]
        omega
      simp [cutFrom, hNil, flatten_cutFrom hn fuel _ hRest]

/- No item of the stream is lost by cutting it. -/
theorem flatten_cut
    {n : Nat}
    (hn : 0 < n)
    (stream : List α) :
    (cut n stream).flatten = stream :=
  flatten_cutFrom hn stream.length stream (le_refl _)

theorem cutFrom_flatten
    {n : Nat}
    (hn : 0 < n)
    (words : List (List α))
    (hWords : ∀ w ∈ words, w.length = n) :
    ∀ fuel, words.flatten.length ≤ fuel →
      cutFrom n fuel words.flatten = words := by
  induction words with
  | nil =>
      intro fuel _
      cases fuel <;> simp [cutFrom]
  | cons w words ih =>
      intro fuel hFuel
      have hWord : w.length = n := hWords w (by simp)
      have hNe : w ≠ [] := by
        intro hNil
        simp [hNil] at hWord
        omega
      simp only [List.flatten_cons, List.length_append]
        at hFuel
      obtain ⟨fuel, rfl⟩ : ∃ k, fuel = k + 1 :=
        ⟨fuel - 1, by omega⟩
      have hRest := ih
        (fun v hv => hWords v (by simp [hv])) fuel (by omega)
      simp [cutFrom, hNe, ← hWord] at hRest ⊢
      exact hRest

/-
  A stream is cut into given full words exactly when it is
  their concatenation.
-/
theorem cut_eq_iff
    {n : Nat}
    (hn : 0 < n)
    {stream : List α}
    {words : List (List α)}
    (hWords : ∀ w ∈ words, w.length = n) :
    cut n stream = words ↔ stream = words.flatten := by
  constructor
  · intro hCut
    rw [← hCut, flatten_cut hn]
  · intro hStream
    rw [hStream]
    exact cutFrom_flatten hn words hWords _ (le_refl _)

end BitStream

------------------------------------------------------------
-- Reading Back
------------------------------------------------------------

namespace BitStream

/- The number that some bits are. -/
def number : List Bool → Nat
| [] => 0
| bit :: rest => bit.toNat * 2 ^ rest.length + number rest

/- It is read back from its own bits. -/
theorem number_bits
    (n v : Nat) :
    number (bits n v) = v % 2 ^ n := by
  induction n with
  | zero => simp [bits, number, Nat.mod_one]
  | succ n ih =>
      rw [bits, number, length_bits, ih,
        Nat.mod_pow_succ, Nat.toNat_testBit, Nat.add_comm,
        Nat.mul_comm]

theorem number_bits_byte (b : UInt8) :
    (number (bits 8 b.toNat)).toUInt8 = b := by
  rw [number_bits, Nat.mod_eq_of_lt b.toNat_lt,
    Nat.toUInt8_eq, UInt8.ofNat_toNat]

variable {α : Type}

/- The words of `n`, less an incomplete one at the end. -/
def fullWords (n : Nat) (stream : List α) : List (List α) :=
  (cut n stream).filter fun word => word.length = n

/- What is too short for a word holds none. -/
theorem filter_cutFrom_of_lt
    {n : Nat}
    (fuel : Nat)
    {stream : List α}
    (hShort : stream.length < n) :
    ((cutFrom n fuel stream).filter
      fun word => word.length = n) = [] := by
  rw [List.filter_eq_nil_iff]
  intro word hMem
  cases fuel with
  | zero => cases hMem
  | succ fuel =>
      have hRest : stream.drop n = [] :=
        List.drop_eq_nil_iff.mpr (by omega)
      rw [cutFrom, hRest] at hMem
      split at hMem
      case isTrue => cases hMem
      case isFalse =>
        cases fuel <;> simp [cutFrom] at hMem <;>
          simp [hMem] <;> omega

/-
  The full words are those the stream starts with, whatever
  incomplete word follows them.
-/
theorem fullWords_flatten_append
    {n : Nat}
    (hn : 0 < n)
    {words : List (List α)}
    (hWords : ∀ word ∈ words, word.length = n)
    {rest : List α}
    (hRest : rest.length < n) :
    fullWords n (words.flatten ++ rest) = words := by
  have hFrom : ∀ fuel, (words.flatten ++ rest).length ≤ fuel →
      ((cutFrom n fuel (words.flatten ++ rest)).filter
        fun word => word.length = n) = words := by
    induction words with
    | nil =>
        intro fuel _
        exact filter_cutFrom_of_lt fuel hRest
    | cons word words ih =>
        intro fuel hFuel
        have hWord : word.length = n := hWords word (by simp)
        rw [List.flatten_cons, List.append_assoc,
          List.length_append] at hFuel
        obtain ⟨fuel, rfl⟩ : ∃ k, fuel = k + 1 :=
          ⟨fuel - 1, by omega⟩
        have hNe : ((word :: words).flatten ++ rest).isEmpty =
            false := by
          cases word with
          | nil => simp at hWord; omega
          | cons b word => rfl
        have hTail := ih (fun v hv => hWords v (by simp [hv]))
          fuel (by omega)
        rw [cutFrom, hNe]
        simp only [List.flatten_cons, List.append_assoc]
        rw [← hWord] at hTail ⊢
        simpa using hTail
  exact hFrom _ (le_refl _)

end BitStream
