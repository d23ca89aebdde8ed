import Utinydrm.MipiDbi.Option1

/-
  What a controller with words of 9 bits is given by
  `mipi_dbi_spi1_transfer`.

  Every source byte takes a 16-bit memory word, but the
  length of the message is that of the source, so that only
  half of the words are handed over.

  Key definitions include:
    * `World.words16`
    * `nineBitWords`

  Main declarations:
    * `mipiDbiSpi1Transfer_walk`
    * `two_mul_submitted_le`
    * `mipiDbiSpi1Transfer_words_iff`
-/

------------------------------------------------------------
-- Words Of A Message
------------------------------------------------------------

namespace Utinydrm

/- The `u16` values that make up a sequence of bytes. -/
def words16 : List UInt8 → List UInt16
| lo :: hi :: rest => le16 lo hi :: words16 rest
| _ => []

theorem two_mul_length_words16_le
    (bytes : List UInt8) :
    2 * (words16 bytes).length ≤ bytes.length := by
  fun_induction words16 bytes with
  | case1 lo hi rest ih =>
      simp only [List.length_cons]
      omega
  | case2 bytes _ => simp

namespace World

/- The words of the executed messages so far. -/
def words16Of : Call → List UInt16
| .spidev r =>
    match r.result with
    | none => r.mosi.flatMap Utinydrm.words16
    | some _ => []
| _ => []

def words16 (w : World) : List UInt16 :=
  w.log.flatMap words16Of

end World

/- `(dc << 8) | byte`. -/
def nineBitWord (dc : Bool) (b : UInt8) : UInt16 :=
  (dc.toNat.toUInt16 <<< 8) ||| b.toUInt16

/-
  A nine-bit word for every byte of the buffer, those of a
  16-bit word with the high byte first.
-/
def nineBitWords
    (w : World) (bitsPerWord : Nat) (dc : Bool)
    (buf : Ptr) (len : Nat) : List UInt16 :=
  if bitsPerWord = 8 then
    (List.range len).map fun i => nineBitWord dc (w.byte buf i)
  else
    (List.range (len / 2)).flatMap fun i =>
      [nineBitWord dc (w.byte buf (2 * i + 1)),
        nineBitWord dc (w.byte buf (2 * i))]

/- The program returns, having submitted the words. -/
def SubmitsWords
    (program : Driver Int) (w : World)
    (words : List UInt16) : Prop :=
  ∃ ret w', program w = .ok ret w' ∧
    w'.words16 = w.words16 ++ words

/- There is a word for every byte. -/
theorem length_nineBitWords
    (w : World) (bitsPerWord : Nat) (dc : Bool)
    (buf : Ptr) (len : Nat)
    (hEven : bitsPerWord ≠ 8 → len % 2 = 0) :
    (nineBitWords w bitsPerWord dc buf len).length = len := by
  unfold nineBitWords
  split
  · simp
  · have hHalf := hEven (by assumption)
    simp only [List.length_flatMap, List.length_cons,
      List.length_nil, List.map_const', List.length_range,
      List.sum_replicate_nat]
    omega

end Utinydrm

------------------------------------------------------------
-- The Transfer
------------------------------------------------------------

namespace Utinydrm

variable {env : Env}

/- The limit is positive for every size of the controller. -/
theorem four_le_mipiDbiSpiClampSize
    (spi : SpiDevice) (size : Nat)
    (hDma : 4 ≤ spi.master.maxDmaLen) :
    4 ≤ mipiDbiSpiClampSize spi size := by
  unfold mipiDbiSpiClampSize spiMaxTransferSize sizeMax
  dsimp only
  omega

theorem words16_afterSpidev
    (hBus : ∀ n, env.spidev n = none)
    (w : World) (xfers : List SpiIocTransfer) :
    (w.afterSpidev env xfers).words16 =
      w.words16 ++ (xfers.map (w.mosi env)).flatMap words16 := by
  simp [World.words16, World.words16Of, World.spiRecord, hBus]

/- Half of a word for every byte of the pieces, at most. -/
theorem two_mul_length_flatMap_le
    (out : Chunking.Piece → List UInt16)
    (hOut : ∀ p, 2 * (out p).length ≤ p.size)
    (ps : List Chunking.Piece) :
    2 * (ps.flatMap out).length ≤ Chunking.total ps := by
  unfold Chunking.total
  induction ps with
  | nil => simp
  | cons p ps ih =>
      have hHead := hOut p
      simp only [List.flatMap_cons, List.length_append,
        List.map_cons, List.sum_cons]
      omega

section Walk

variable (spi : SpiDevice)
variable (hNine : tinydrmSpiBpwSupported spi 9 = true)
variable (hDma : 4 ≤ spi.master.maxDmaLen)
variable {bitsPerWord len : Nat} (dc : Bool) (buf : Ptr)
variable (hEven : bitsPerWord = 16 → len % 2 = 0)
variable (maxChunk : Nat) {w : World}

include hNine

/- An odd length is no length of 16-bit words. -/
theorem mipiDbiSpi1Transfer_odd
    (hOdd : len % 2 ≠ 0) :
    mipiDbiSpi1Transfer env spi 16 dc buf len maxChunk w =
      .ok (-EINVAL) w := by
  unfold mipiDbiSpi1Transfer
  rw [Effect.bind_of_ok (Effect.get_apply w), if_neg (by
    simp [hNine]), if_pos ⟨rfl, hOdd⟩]
  rfl

include hEven

/- Without memory the transfer sends nothing. -/
theorem mipiDbiSpi1Transfer_refused
    (hRefused : env.kmalloc w.now = false) :
    mipiDbiSpi1Transfer env spi bitsPerWord dc buf len
        maxChunk w =
      .ok (-ENOMEM) (w.record (.kmalloc false)) := by
  have hOdd : ¬ (bitsPerWord = 16 ∧ len % 2 ≠ 0) := by omega
  unfold mipiDbiSpi1Transfer
  rw [Effect.bind_of_ok (Effect.get_apply w), if_neg (by
    simp [hNine]), if_neg hOdd]
  simp only [kmalloc_bind, hRefused]
  rfl

/- With it the transfer is its loop over the chunks. -/
theorem mipiDbiSpi1Transfer_granted
    (hGranted : env.kmalloc w.now = true) :
    mipiDbiSpi1Transfer env spi bitsPerWord dc buf len
        maxChunk w =
      Chunking.chunkLoop .hang
        (min (mipiDbiSpiClampSize spi maxChunk / 2) len)
        (fun offset chunk => spiSync env spi
          { first :=
              { txBuf := some
                  (.ofBytes
                    (leBytes16
                      (dst16Words w bitsPerWord dc buf offset
                        chunk))
                    (env.garbage w.now))
                len := chunk
                bitsPerWord := 9 } })
        len (w.record (.kmalloc true)) := by
  have hOdd : ¬ (bitsPerWord = 16 ∧ len % 2 ≠ 0) := by omega
  unfold mipiDbiSpi1Transfer
  rw [Effect.bind_of_ok (Effect.get_apply w), if_neg (by
    simp [hNine]), if_neg hOdd]
  simp only [kmalloc_bind, hGranted, if_true]

include hDma

/- Which is a walk when the chunks are not empty. -/
theorem mipiDbiSpi1Transfer_walk
    (hGranted : env.kmalloc w.now = true) :
    mipiDbiSpi1Transfer env spi bitsPerWord dc buf len
        maxChunk w =
      Chunking.runPieces
        (fun offset chunk => spiSync env spi
          { first :=
              { txBuf := some
                  (.ofBytes
                    (leBytes16
                      (dst16Words w bitsPerWord dc buf offset
                        chunk))
                    (env.garbage w.now))
                len := chunk
                bitsPerWord := 9 } })
        (Chunking.pieces
          (min (mipiDbiSpiClampSize spi maxChunk / 2) len) len)
        (w.record (.kmalloc true)) := by
  have hClamp := four_le_mipiDbiSpiClampSize spi maxChunk hDma
  rw [mipiDbiSpi1Transfer_granted spi hNine dc buf hEven
    maxChunk hGranted]
  rcases Nat.eq_zero_or_pos len with hLen | hLen
  · subst hLen
    rfl
  · have hMax :
        0 < min (mipiDbiSpiClampSize spi maxChunk / 2) len := by
      omega
    rw [Chunking.chunkLoop_eq_runPieces _ hMax]

/-
  With nothing failing, the transfer submits at most one word
  for every two bytes.
-/
theorem two_mul_submitted_le
    (hBus : ∀ n, env.spidev n = none)
    (hTx : w.TxOk) :
    ∃ ret w' words,
      mipiDbiSpi1Transfer env spi bitsPerWord dc buf len
          maxChunk w = .ok ret w' ∧
      w'.words16 = w.words16 ++ words ∧
      2 * words.length ≤ len := by
  have hRecord : ∀ granted,
      (w.record (.kmalloc granted)).words16 = w.words16 := by
    simp [World.words16, World.record, World.words16Of]
  cases hAlloc : env.kmalloc w.now with
  | false =>
      exact ⟨-ENOMEM, _, [],
        mipiDbiSpi1Transfer_refused spi hNine dc buf hEven
          maxChunk hAlloc,
        by simp [hRecord], by simp⟩
  | true =>
  rw [mipiDbiSpi1Transfer_walk spi hNine hDma dc buf hEven
    maxChunk hAlloc]
  rcases Nat.eq_zero_or_pos len with hLen | hLen
  · subst hLen
    exact ⟨0, _, [], rfl, by simp [hRecord], by simp⟩
  have hClamp := four_le_mipiDbiSpiClampSize spi maxChunk hDma
  let max := min (mipiDbiSpiClampSize spi maxChunk / 2) len
  have hMax : 0 < max := by omega
  -- every message is as long as its chunk has bytes
  let src := fun p : Chunking.Piece =>
    Ptr.ofBytes
      (leBytes16
        (dst16Words w bitsPerWord dc buf p.offset p.size))
      (env.garbage w.now)
  rcases Chunking.runPieces_emits World.TxOk World.words16
      (fun p => words16 (w.bytes (src p) p.size))
      (fun offset chunk =>
        spiSync env spi
          { first :=
              { txBuf := some (src ⟨offset, chunk⟩)
                len := chunk
                bitsPerWord := 9 } })
      (Chunking.pieces max len)
      (by
        intro p _ s hs
        refine ⟨_, spiSync_heap hBus spi rfl hs, hs, ?_⟩
        rw [words16_afterSpidev hBus, List.map_singleton,
          List.flatMap_singleton, s.mosi_iocOf spi rfl]
        rfl)
      (s := w.record (.kmalloc true)) hTx with
    ⟨w', hRun, _, hSubmitted⟩
  rw [hRecord] at hSubmitted
  refine ⟨0, w', _, hRun, hSubmitted, ?_⟩
  calc
    2 * _ ≤ Chunking.total (Chunking.pieces max len) :=
      two_mul_length_flatMap_le _ (fun p => by
        have hPairs := two_mul_length_words16_le
          (w.bytes (src p) p.size)
        rwa [World.length_bytes] at hPairs) _
    _ = len := by
      simpa using (Chunking.tiles_pieces hMax len).stop_eq.symm

end Walk

/-
  A controller with words of 9 bits is given the words of a
  buffer if and only if the buffer is empty.
-/
theorem mipiDbiSpi1Transfer_words_iff
    (env : Env) (hBus : ∀ n, env.spidev n = none)
    (spi : SpiDevice)
    (hNine : tinydrmSpiBpwSupported spi 9 = true)
    (hDma : 4 ≤ spi.master.maxDmaLen)
    (bitsPerWord : Nat)
    (hWidth : bitsPerWord = 8 ∨ bitsPerWord = 16)
    (dc : Bool) (buf : Ptr) (len : Nat)
    (hEven : bitsPerWord = 16 → len % 2 = 0)
    (maxChunk : Nat) (w : World) (hTx : w.TxOk) :
    SubmitsWords
        (mipiDbiSpi1Transfer env spi bitsPerWord dc buf len
          maxChunk) w
        (nineBitWords w bitsPerWord dc buf len) ↔
      len = 0 := by
  have hLength := length_nineBitWords w bitsPerWord dc buf len
    (fun hNot => hEven (by omega))
  rcases two_mul_submitted_le spi hNine hDma dc buf hEven
      maxChunk hBus hTx with
    ⟨ret, w', words, hRun, hWords, hHalf⟩
  constructor
  · rintro ⟨ret₂, w₂, hRun₂, hWords₂⟩
    cases hRun.symm.trans hRun₂
    rw [hWords, List.append_cancel_left_eq] at hWords₂
    rw [hWords₂, hLength] at hHalf
    omega
  · intro hLen
    have hNone : words =
        nineBitWords w bitsPerWord dc buf len := by
      rw [List.eq_nil_of_length_eq_zero
        (show words.length = 0 by omega),
        List.eq_nil_of_length_eq_zero (hLength.trans hLen)]
    exact ⟨ret, w', hRun, by rw [hWords, hNone]⟩

/- The device of `main`, with words of 9 bits as well. -/
def nineBitSpi : SpiDevice where
  master :=
    { bitsPerWordMask := spiBpwMask 8 ||| spiBpwMask 9
      maxDmaLen := 4096 }
  maxSpeedHz := 32000000

theorem mipiDbiSpi1Transfer_words_none :
    SubmitsWords
      (mipiDbiSpi1Transfer Env.granting nineBitSpi 16 true
        (.heap fun _ => 0) 0 4096) (World.atProbe (-1))
      (nineBitWords (World.atProbe (-1)) 16 true
        (.heap fun _ => 0) 0) :=
  (mipiDbiSpi1Transfer_words_iff Env.granting (fun _ => rfl)
    nineBitSpi rfl (by decide) 16 (Or.inr rfl) true
    (.heap fun _ => 0) 0 (fun _ => rfl) 4096
    (World.atProbe (-1)) (World.txOk_atProbe (-1))).mpr rfl

/- A command byte: no whole word is handed over. -/
theorem mipiDbiSpi1Transfer_words_command :
    ¬ ∀ (env : Env) (spi : SpiDevice) (bitsPerWord : Nat)
      (dc : Bool) (buf : Ptr) (len maxChunk : Nat) (w : World),
      (∀ n, env.spidev n = none) →
      tinydrmSpiBpwSupported spi 9 = true →
      4 ≤ spi.master.maxDmaLen →
      (bitsPerWord = 8 ∨ bitsPerWord = 16) →
      (bitsPerWord = 16 → len % 2 = 0) → w.TxOk →
      SubmitsWords
        (mipiDbiSpi1Transfer env spi bitsPerWord dc buf len
          maxChunk) w
        (nineBitWords w bitsPerWord dc buf len) := by
  intro hClaim
  rcases hClaim Env.granting nineBitSpi 8 false
      (.heap fun _ => 0x28) 1 4096 (World.atProbe (-1))
      (fun _ => rfl) rfl (by decide) (Or.inl rfl)
      (by decide) (World.txOk_atProbe (-1)) with
    ⟨ret, w', hRun, hWords⟩
  have hNothing : ∃ s, mipiDbiSpi1Transfer Env.granting
      nineBitSpi 8 false (.heap fun _ => 0x28) 1 4096
      (World.atProbe (-1)) = .ok 0 s ∧ s.words16 = [] :=
    ⟨_, rfl, rfl⟩
  rcases hNothing with ⟨s, hRun', hNone⟩
  cases hRun.symm.trans hRun'
  rw [hNone] at hWords
  cases hWords

end Utinydrm
