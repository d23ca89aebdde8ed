import Utinydrm.Spi.Transfer

/-
  Pixels of 16 bits in memory, their bytes in the order a
  panel expects them, and the loop that stores them so.

  Key definitions include:
    * `pixelBytes`
    * `exchanged`
    * `Ptr.Apart`

  Main declarations:
    * `pixelBytes_eq_exchanged`
    * `bytes_eq_pixelBytes_iff`
    * `swapWords_mem`
    * `swapWords_payload`
-/

------------------------------------------------------------
-- Pixels
------------------------------------------------------------

namespace Utinydrm

/- A sequence with the two bytes of every word exchanged. -/
def swapPairs (src : Nat → UInt8) (i : Nat) : UInt8 :=
  if i % 2 = 0 then src (i + 1) else src (i - 1)

/- The same sequence from a whole number of words on. -/
theorem swapPairs_add
    (src : Nat → UInt8) {offset : Nat}
    (hEven : offset % 2 = 0) (i : Nat) :
    swapPairs (fun i => src (offset + i)) i =
      swapPairs src (offset + i) := by
  unfold swapPairs
  rcases Nat.mod_two_eq_zero_or_one i with hi | hi
  · rw [if_pos hi, if_pos (by omega), Nat.add_assoc]
  · have hIndex : offset + (i - 1) = offset + i - 1 := by
      omega
    rw [if_neg (by omega), if_neg (by omega), ← hIndex]

/- The bytes of a buffer, exchanged. -/
def exchanged (w : World) (p : Ptr) : Nat → UInt8 :=
  swapPairs (w.byte p)

theorem exchanged_add
    (w : World) (p : Ptr) {offset : Nat}
    (hEven : offset % 2 = 0) (i : Nat) :
    exchanged w (p.add offset) i =
      exchanged w p (offset + i) := by
  rw [exchanged, exchanged, ← swapPairs_add _ hEven]
  congr 1
  funext i
  rw [World.byte_add]

/- The high byte and then the low byte of every pixel. -/
def pixelBytes (w : World) (p : Ptr) (len : Nat) :
    List UInt8 :=
  (List.range (len / 2)).flatMap fun i =>
    [(w.loadU16 p i >>> 8).toUInt8, (w.loadU16 p i).toUInt8]

theorem pixelBytes_congr
    {w w' : World} {p : Ptr} {len : Nat}
    (hBytes : w'.byte p = w.byte p) :
    pixelBytes w' p len = pixelBytes w p len := by
  simp only [pixelBytes, World.loadU16, hBytes]

/- These are the exchanged bytes of the buffer. -/
theorem pixelBytes_eq_exchanged
    (w : World) (p : Ptr) {len : Nat}
    (hEven : len % 2 = 0) :
    pixelBytes w p len =
      Chunking.slice (exchanged w p) ⟨0, len⟩ := by
  have hDouble : ∀ n,
      (List.range n).flatMap (fun i =>
        [(w.loadU16 p i >>> 8).toUInt8,
          (w.loadU16 p i).toUInt8]) =
      (List.range (2 * n)).map (exchanged w p) := by
    intro n
    induction n with
    | zero => rfl
    | succ n ih =>
        have hTwo : 2 * (n + 1) = 2 * n + 1 + 1 := by omega
        rw [hTwo, List.range_succ, List.range_succ,
          List.range_succ, List.flatMap_append, ih]
        simp [World.loadU16, le16_lo, le16_hi, exchanged, swapPairs]
  have hLen : 2 * (len / 2) = len := by omega
  simp [pixelBytes, hDouble, hLen, Chunking.slice]

/-
  They are the bytes as they are in memory if and only if the
  two bytes of every pixel are the same.
-/
theorem bytes_eq_pixelBytes_iff
    (w : World) (p : Ptr) {len : Nat}
    (hEven : len % 2 = 0) :
    w.bytes p len = pixelBytes w p len ↔
      ∀ i < len / 2,
        w.byte p (2 * i) = w.byte p (2 * i + 1) := by
  rw [pixelBytes_eq_exchanged w p hEven]
  simp only [World.bytes, Chunking.slice, Nat.zero_add]
  rw [List.map_inj_left]
  constructor
  · intro hSame i hi
    have hByte := hSame (2 * i)
      (List.mem_range.mpr (by omega))
    simpa [exchanged, swapPairs] using hByte
  · intro hSame i hi
    have hLess := List.mem_range.mp hi
    unfold exchanged swapPairs
    split
    · have hPixel := hSame (i / 2) (by omega)
      rwa [show 2 * (i / 2) = i by omega] at hPixel
    · have hPixel := hSame (i / 2) (by omega)
      rw [show 2 * (i / 2) + 1 = i by omega,
        show 2 * (i / 2) = i - 1 by omega] at hPixel
      exact hPixel.symm

end Utinydrm

------------------------------------------------------------
-- Exchanged Words
------------------------------------------------------------

namespace Utinydrm

/- The buffer does not overlap the mapping. -/
def Ptr.Apart (p : Ptr) (len map size : Nat) : Prop :=
  match p with
  | .heap _ => True
  | .mapped addr => addr + len ≤ map ∨ map + size ≤ addr

theorem Ptr.Apart.add
    {p : Ptr} {len map size offset chunk : Nat}
    (hApart : p.Apart len map size)
    (hInside : offset + chunk ≤ len) :
    (p.add offset).Apart chunk map size := by
  cases p with
  | heap bytes => trivial
  | mapped addr =>
      simp only [Ptr.Apart, Ptr.add] at hApart ⊢
      omega

theorem Ptr.Apart.not_contains
    {p : Ptr} {len i : Nat} {buf : UdmaBuf}
    (hApart : p.Apart len buf.map buf.mapSize)
    (hInside : i < len) :
    buf.contains (p.add i) = false := by
  cases p with
  | heap bytes => rfl
  | mapped addr =>
      simp only [Ptr.Apart] at hApart
      simp only [UdmaBuf.contains, Ptr.add, Ptr.within,
        Bool.and_eq_false_iff, decide_eq_false_iff_not]
      omega

/- A byte that is not stored to is still there. -/
theorem World.byte_of_apart
    {w w' : World} {p : Ptr} {len map size : Nat}
    (hApart : p.Apart len map size)
    (hMem : ∀ a, a < map ∨ map + size ≤ a →
      w'.mem a = w.mem a)
    {i : Nat} (hInside : i < len) :
    w'.byte p i = w.byte p i := by
  cases p with
  | heap bytes => rfl
  | mapped addr =>
      simp only [Ptr.Apart] at hApart
      exact hMem _ (by omega)

/-
  Exchanging stores the words with their bytes exchanged and
  leaves all other memory as it was.
-/
theorem swapWords_mem
    (w : World) (src : Ptr) (dst : Nat) {n : Nat}
    (hApart : src.Apart (2 * n) dst (2 * n)) :
    ∀ k ≤ n,
      (∀ i < 2 * k, (w.swapWords src dst k).mem (dst + i) =
        exchanged w src i) ∧
      ∀ a, a < dst ∨ dst + 2 * k ≤ a →
        (w.swapWords src dst k).mem a = w.mem a := by
  intro k
  induction k with
  | zero => exact fun _ => ⟨by omega, fun _ _ => rfl⟩
  | succ k ih =>
      intro hLess
      rcases ih (by omega) with ⟨hStored, hFrame⟩
      refine ⟨?_, w.swapWords_outside src dst (k + 1)⟩
      have hByte : ∀ i < 2 * n,
          (w.swapWords src dst k).byte src i = w.byte src i :=
        fun i hi => World.byte_of_apart hApart
          (fun a ha => hFrame a (by omega)) hi
      have hWord :
          swab16 ((w.swapWords src dst k).loadU16 src k) =
            le16 (w.byte src (2 * k + 1))
              (w.byte src (2 * k)) := by
        rw [World.loadU16, hByte _ (by omega),
          hByte _ (by omega), swab16_le16]
      simp only [World.swapWords, World.storeU16, hWord,
        le16_lo, le16_hi]
      intro i hi
      by_cases hLast : i = 2 * k + 1
      · rw [hLast, ← Nat.add_assoc, Function.update_self]
        simp [exchanged, swapPairs]
      rw [Function.update_of_ne (by omega)]
      by_cases hFirst : i = 2 * k
      · rw [hFirst, Function.update_self]
        simp [exchanged, swapPairs]
      · rw [Function.update_of_ne (by omega)]
        exact hStored i (by omega)

/- Memory outside the swap buffer is as it was. -/
def SameOutside
    (dst size : Nat) (w s : World) : Prop :=
  ∀ a, a < dst ∨ dst + size ≤ a → s.mem a = w.mem a

/-
  A chunk of exchanged words is written to the swap buffer
  before it is submitted.
-/
theorem swapWords_payload
    {w s : World} {buf : Ptr}
    {len dst size offset chunk : Nat}
    (hApart : buf.Apart len dst size)
    (hSame : SameOutside dst size w s)
    (hEven : 2 ∣ offset ∧ 2 ∣ chunk)
    (hInside : offset + chunk ≤ len) (hRoom : chunk ≤ size) :
    (s.swapWords (buf.add offset) dst (chunk / 2)).bytes
        (.mapped dst) chunk =
      Chunking.slice (exchanged w buf) ⟨offset, chunk⟩ ∧
    SameOutside dst size w
      (s.swapWords (buf.add offset) dst (chunk / 2)) := by
  have hChunk := hApart.add hInside
  have hPrefix : (buf.add offset).Apart (2 * (chunk / 2))
      dst (2 * (chunk / 2)) := by
    cases buf with
    | heap bytes => trivial
    | mapped addr =>
        simp only [Ptr.Apart, Ptr.add] at hChunk ⊢
        omega
  rcases swapWords_mem s _ _ hPrefix _ (le_refl _) with
    ⟨hStored, hFrame⟩
  constructor
  · apply List.map_congr_left
    intro i hi
    have hLess := List.mem_range.mp hi
    have hByte : ∀ k < len, s.byte buf k = w.byte buf k :=
      fun k hk => World.byte_of_apart hApart hSame hk
    have hExchanged :
        exchanged s buf (offset + i) =
          exchanged w buf (offset + i) := by
      unfold exchanged swapPairs
      split <;> exact hByte _ (by omega)
    rw [← hExchanged,
      ← exchanged_add s buf (Nat.mod_eq_zero_of_dvd hEven.1)]
    exact hStored i (by omega)
  · intro a ha
    exact (hFrame a (by omega)).trans (hSame a ha)

/- Without exchanging it is a part of the buffer. -/
theorem bytes_add
    {w s : World} {buf : Ptr}
    {len dst size offset chunk : Nat}
    (hApart : buf.Apart len dst size)
    (hSame : SameOutside dst size w s)
    (hInside : offset + chunk ≤ len) :
    s.bytes (buf.add offset) chunk =
      Chunking.slice (w.byte buf) ⟨offset, chunk⟩ := by
  apply List.map_congr_left
  intro i hi
  have hLess := List.mem_range.mp hi
  rw [World.byte_add]
  exact World.byte_of_apart hApart hSame (by omega)

end Utinydrm
