import Utinydrm.Spi.Pixels
import Utinydrm.Lib.Recording

/-
  The messages a chunked transfer submits: what each of them
  carries when it is handed to `spi_sync`, and how that call
  ends.

  Key definitions include:
    * `tinydrmSpiTransferOn`: the transfer over any `spi_sync`
    * `recordedTransfer`: over one that notes its calls
    * `wireBytes`: what the messages ought to carry

  Main declarations:
    * `recordedTransfer_erases`
    * `tinydrm_spi_transfer_submits`
-/

------------------------------------------------------------
-- Recording
------------------------------------------------------------

namespace Utinydrm

/- `chunkSource`, with the store into the swap buffer given. -/
def chunkSourceOn
    {σ : Type}
    (store : (World → World) → EStateM Fault σ Unit)
    (swap : Bool) (swapBuf : Option Nat)
    (src : Ptr) (chunk : Nat) : EStateM Fault σ Ptr :=
  match swap, swapBuf with
  | true, some dst => do
      store fun w => w.swapWords src dst (chunk / 2)
      pure (.mapped dst)
  | _, _ => pure src

/- `tinydrmSpiTransfer`, with `spi_sync` given as well. -/
def tinydrmSpiTransferOn
    {σ : Type}
    (store : (World → World) → EStateM Fault σ Unit)
    (sync : SpiMessage → EStateM Fault σ Int)
    (spi : SpiDevice) (speedHz : Nat)
    (header : Option SpiTransfer) (bpw : Nat)
    (buf : Ptr) (len : Nat)
    (swapBuf : Option Nat) (maxChunk : Nat) :
    EStateM Fault σ Int :=
  let swap := swapNeeded spi bpw
  if bpw ≠ 8 ∧ bpw ≠ 16 then
    pure (-EINVAL)
  else if swap && swapBuf.isNone then
    pure (-EINVAL)
  else
    Chunking.chunkLoop .hang maxChunk
      (fun offset chunk => do
        let txBuf ←
          chunkSourceOn store swap swapBuf (buf.add offset)
            chunk
        sync
          (chunkMessage header
            { txBuf := some txBuf
              len := chunk
              bitsPerWord := if swap then 8 else bpw
              speedHz := speedHz }))
      len

variable (env : Env)

/- With the `spi_sync` of the process it is the transfer. -/
theorem tinydrmSpiTransferOn_spiSync
    (spi : SpiDevice) (speedHz : Nat)
    (header : Option SpiTransfer) (bpw : Nat)
    (buf : Ptr) (len : Nat)
    (swapBuf : Option Nat) (maxChunk : Nat) :
    tinydrmSpiTransferOn (fun f => modify f) (spiSync env spi)
        spi speedHz header bpw buf len swapBuf maxChunk =
      tinydrmSpiTransfer env spi speedHz header bpw buf len
        swapBuf maxChunk := rfl

/- The bytes behind the first transfer of the message. -/
def SpiMessage.payload
    (m : SpiMessage) (w : World) : List UInt8 :=
  m.first.txBuf.elim [] fun p => w.bytes p m.first.len

/- What a message carried, and how its `spi_sync` ended. -/
abbrev Submission := Effect.Note (List UInt8) Fault Int

/- The transfer without a header, its messages noted. -/
def recordedTransfer
    (spi : SpiDevice) (speedHz bpw : Nat)
    (buf : Ptr) (len : Nat)
    (swapBuf : Option Nat) (maxChunk : Nat) :
    EStateM Fault (World × List Submission) Int :=
  tinydrmSpiTransferOn (fun f => Effect.quiet (modify f))
    (fun m => Effect.noted m.payload (spiSync env spi m))
    spi speedHz none bpw buf len swapBuf maxChunk

theorem chunkSourceOn_erases
    (swap : Bool) (swapBuf : Option Nat)
    (src : Ptr) (chunk : Nat) :
    Effect.Erases
      (chunkSourceOn (fun f => Effect.quiet (modify f)) swap
        swapBuf src chunk :
        EStateM Fault (World × List Submission) Ptr)
      (chunkSource swap swapBuf src chunk) := by
  cases swap with
  | false => exact Effect.erases_pure src
  | true =>
      cases swapBuf with
      | none => exact Effect.erases_pure src
      | some dst =>
          exact Effect.erases_bind Effect.erases_quiet
            fun _ => Effect.erases_pure _

/- Noting its messages does not change a transfer. -/
theorem recordedTransfer_erases
    (spi : SpiDevice) (speedHz bpw : Nat)
    (buf : Ptr) (len : Nat)
    (swapBuf : Option Nat) (maxChunk : Nat) :
    Effect.Erases
      (recordedTransfer env spi speedHz bpw buf len swapBuf
        maxChunk)
      (tinydrmSpiTransfer env spi speedHz none bpw buf len
        swapBuf maxChunk) := by
  apply Effect.erases_ite (Effect.erases_pure _)
  apply Effect.erases_ite (Effect.erases_pure _)
  apply Chunking.erases_chunkLoop
  intro offset chunk
  exact Effect.erases_bind (chunkSourceOn_erases _ _ _ _)
    fun _ => Effect.erases_noted _

end Utinydrm

------------------------------------------------------------
-- What A Chunk Carries
------------------------------------------------------------

namespace Utinydrm

variable {env : Env}

/- `spi_sync` leaves memory alone. -/
theorem mem_of_spiSync
    {spi : SpiDevice} {m : SpiMessage} {w w' : World}
    {ret : Int}
    (hRun : spiSync env spi m w = .ok ret w') :
    w'.mem = w.mem := by
  let sameMem : Effect.Contract Fault World :=
    { step := fun w w' => w'.mem = w.mem
      fault := fun _ _ => True
      refl := fun _ => rfl
      trans := fun h₁ h₂ => h₂.trans h₁ }
  have hSpidev : ∀ xfers w,
      Effect.Meets sameMem (spidev env xfers) w :=
    fun xfers w =>
      show (w.afterSpidev env xfers).mem = w.mem from rfl
  exact (meets_spiSync_of_spidev hSpidev
    (fun _ _ _ => trivial) spi m w).of_ok hRun

/-
  The bytes in the order they ought to be sent: those of the
  buffer, or the two of every word exchanged when the words
  have 16 bits and the controller does not send those.
-/
def wireBytes
    (spi : SpiDevice) (bpw : Nat)
    (w : World) (buf : Ptr) : Nat → UInt8 :=
  if bpw = 16 ∧ tinydrmSpiBpwSupported spi 16 = false then
    swapPairs (w.byte buf)
  else
    w.byte buf

theorem of_swapNeeded
    {spi : SpiDevice} {bpw : Nat}
    (hSwap : swapNeeded spi bpw = true) :
    bpw = 16 ∧ tinydrmSpiBpwSupported spi 16 = false := by
  simp only [swapNeeded, Bool.and_eq_true, decide_eq_true_eq,
    Bool.not_eq_true'] at hSwap
  exact ⟨hSwap.1.2, hSwap.2⟩

theorem wireBytes_of_swapNeeded
    {spi : SpiDevice} {bpw : Nat}
    (hSwap : swapNeeded spi bpw = true)
    (w : World) (buf : Ptr) :
    wireBytes spi bpw w buf = exchanged w buf := by
  rw [wireBytes, if_pos (of_swapNeeded hSwap)]
  rfl

theorem wireBytes_of_not_swapNeeded
    {spi : SpiDevice} {bpw : Nat}
    (hSwap : swapNeeded spi bpw = false)
    (w : World) (buf : Ptr) :
    wireBytes spi bpw w buf = w.byte buf := by
  rw [wireBytes, if_neg]
  rintro ⟨hBpw, hNot⟩
  simp [swapNeeded, hBpw, hNot, tinydrmGetMachineEndian]
    at hSwap

end Utinydrm

------------------------------------------------------------
-- A Whole Transfer
------------------------------------------------------------

namespace Utinydrm

/- The transfer of a chunk that starts at the pointer. -/
def chunkTransfer
    (spi : SpiDevice) (speedHz bpw : Nat)
    (chunk : Nat) (txBuf : Ptr) : SpiTransfer where
  txBuf := some txBuf
  len := chunk
  bitsPerWord := if swapNeeded spi bpw then 8 else bpw
  speedHz := speedHz

variable (env : Env) (spi : SpiDevice) (speedHz bpw : Nat)

/- One round of the loop, its message noted. -/
def recordedChunk
    (buf : Ptr) (dst offset chunk : Nat) :
    EStateM Fault (World × List Submission) Int := do
  let txBuf ←
    chunkSourceOn (fun f => Effect.quiet (modify f))
      (swapNeeded spi bpw) (some dst) (buf.add offset) chunk
  let m : SpiMessage :=
    { first := chunkTransfer spi speedHz bpw chunk txBuf }
  Effect.noted m.payload (spiSync env spi m)

theorem recordedTransfer_eq
    {bpw : Nat} (hBpw : bpw = 8 ∨ bpw = 16)
    (buf : Ptr) (len dst maxChunk : Nat) :
    recordedTransfer env spi speedHz bpw buf len (some dst)
        maxChunk =
      Chunking.chunkLoop .hang maxChunk
        (recordedChunk env spi speedHz bpw buf dst) len := by
  have hWidth : ¬ (bpw ≠ 8 ∧ bpw ≠ 16) := by omega
  unfold recordedTransfer tinydrmSpiTransferOn
  simp only [if_neg hWidth, Option.isNone_some, Bool.and_false,
    Bool.false_eq_true, if_false]
  rfl

section Submits

variable {bpw : Nat} {len dst size maxChunk : Nat}
variable {w : World} {buf : Ptr}
variable (hWords : bpw = 8 ∨ (bpw = 16 ∧ len % 2 = 0))
variable (hFour : maxChunk % 4 = 0)
variable (hMax : 0 < maxChunk) (hRoom : maxChunk ≤ size)
variable (hApart : buf.Apart len dst size)

include hWords hFour hMax hRoom hApart

/- A chunk is submitted from where its bytes are. -/
theorem chunkSourceOn_ends
    {p : Chunking.Piece}
    (hp : p ∈ Chunking.pieces maxChunk len)
    {s : World} (hSame : SameOutside dst size w s)
    (notes : List Submission) :
    ∃ q t,
      Effect.Ends
        (chunkSourceOn (fun f => Effect.quiet (modify f))
          (swapNeeded spi bpw) (some dst) (buf.add p.offset)
          p.size)
        (s, notes) (.ok q) (t, notes) ∧
      t.bytes q p.size =
        Chunking.slice (wireBytes spi bpw w buf) p ∧
      SameOutside dst size w t := by
  have hBounds := (Chunking.tiles_pieces hMax
    len).offset_bounds hp
  have hFits := Chunking.size_le_of_mem_pieces hMax hp
  cases hSwap : swapNeeded spi bpw with
  | false =>
      refine ⟨buf.add p.offset, s, rfl, ?_, hSame⟩
      rw [wireBytes_of_not_swapNeeded hSwap]
      exact bytes_add hApart hSame (by omega)
  | true =>
      have hWide := of_swapNeeded hSwap
      have hEven := Chunking.unit_dvd_of_mem_pieces hMax
        (show 2 ∣ maxChunk by omega)
        (show 2 ∣ len by omega) hp
      rcases swapWords_payload hApart hSame hEven (by omega)
          (by omega) with ⟨hBytes, hOutside⟩
      refine ⟨.mapped dst, _, rfl, ?_, hOutside⟩
      rw [wireBytes_of_swapNeeded hSwap]
      exact hBytes

/- One round of the loop submits the bytes of its chunk. -/
theorem recordedChunk_ends
    {p : Chunking.Piece}
    (hp : p ∈ Chunking.pieces maxChunk len)
    {s : World} (hSame : SameOutside dst size w s)
    (notes : List Submission) :
    ∃ result s',
      Effect.Ends
        (recordedChunk env spi speedHz bpw buf dst p.offset
          p.size)
        (s, notes) result
        (s', notes ++
          [(Chunking.slice (wireBytes spi bpw w buf) p,
            result)]) ∧
      (result = .ok 0 → SameOutside dst size w s') := by
  rcases chunkSourceOn_ends spi hWords hFour hMax hRoom hApart
      hp hSame notes with ⟨q, t, hSource, hBytes, hOutside⟩
  let m : SpiMessage :=
    { first := chunkTransfer spi speedHz bpw p.size q }
  rcases Effect.exists_ends (spiSync env spi m) t with
    ⟨result, s', hSync⟩
  have hNoted := hSync.noted m.payload notes
  have hPayload : m.payload t =
      Chunking.slice (wireBytes spi bpw w buf) p := hBytes
  rw [hPayload] at hNoted
  refine ⟨result, s', hSource.bind hNoted, ?_⟩
  rintro rfl a ha
  rw [mem_of_spiSync hSync]
  exact hOutside a ha

end Submits

/-
  A transfer in chunks that are a positive multiple of four
  bytes, through a swap buffer of that size apart from the
  source. Its messages carry the buffer as it was, or with
  the bytes of every word exchanged, cut into full chunks and
  what is left of them, one message after another: all of
  them, or up to the first whose `spi_sync` does not return
  zero. The transfer ends as that call did.
-/
theorem tinydrm_spi_transfer_submits
    (env : Env) (spi : SpiDevice) (speedHz bpw : Nat)
    (buf : Ptr) (len dst size maxChunk : Nat) (w : World)
    (hWords : bpw = 8 ∨ (bpw = 16 ∧ len % 2 = 0))
    (hMax : 0 < maxChunk) (hFour : maxChunk % 4 = 0)
    (hRoom : maxChunk ≤ size)
    (hApart : buf.Apart len dst size) :
    ∃ result w' submissions payloads,
      Effect.Ends
        (tinydrmSpiTransfer env spi speedHz none bpw buf len
          (some dst) maxChunk) w result w' ∧
      Effect.Ends
        (recordedTransfer env spi speedHz bpw buf len
          (some dst) maxChunk)
        (w, []) result (w', submissions) ∧
      Chunking.CutInto maxChunk
        ((List.range len).map (wireBytes spi bpw w buf))
        payloads ∧
      Chunking.UpToFailure payloads submissions result := by
  have hBpw : bpw = 8 ∨ bpw = 16 := by omega
  have hStart : SameOutside dst size w w := fun _ _ => rfl
  rcases Chunking.runPieces_upToFailure
      (SameOutside dst size w)
      (Chunking.slice (wireBytes spi bpw w buf))
      (recordedChunk env spi speedHz bpw buf dst)
      (Chunking.pieces maxChunk len)
      (fun p hp s notes hSame =>
        recordedChunk_ends env spi speedHz hWords hFour hMax
          hRoom hApart hp hSame notes)
      hStart [] with
    ⟨result, w', submissions, hRun, hSubmissions⟩
  have hRecorded : Effect.Ends
      (recordedTransfer env spi speedHz bpw buf len (some dst)
        maxChunk) (w, []) result (w', submissions) := by
    rw [recordedTransfer_eq env spi speedHz hBpw,
      Chunking.chunkLoop_eq_runPieces _ hMax]
    exact hRun
  have hTransfer :=
    (recordedTransfer_erases env spi speedHz bpw buf len
      (some dst) maxChunk).ends hRecorded
  have hCut := Chunking.cutInto_pieces hMax
    (wireBytes spi bpw w buf) len
  simp only [Chunking.slice, Nat.zero_add] at hCut
  exact ⟨result, w', submissions, _, hTransfer, hRecorded,
    hCut, hSubmissions⟩

/- Three words in chunks of four bytes, exchanged. -/
theorem tinydrm_spi_transfer_submits_words :
    ∃ result w' submissions payloads,
      Effect.Ends
        (tinydrmSpiTransfer Env.granting eightBitSpi 0 none 16
          (.heap Nat.toUInt8) 6 (some (2 ^ 20)) 4)
        (World.atProbe (-1)) result w' ∧
      Effect.Ends
        (recordedTransfer Env.granting eightBitSpi 0 16
          (.heap Nat.toUInt8) 6 (some (2 ^ 20)) 4)
        (World.atProbe (-1), []) result (w', submissions) ∧
      Chunking.CutInto 4 [1, 0, 3, 2, 5, 4] payloads ∧
      Chunking.UpToFailure payloads submissions result :=
  tinydrm_spi_transfer_submits Env.granting eightBitSpi 0 16
    (.heap Nat.toUInt8) 6 (2 ^ 20) 4 4 (World.atProbe (-1))
    (Or.inr ⟨rfl, rfl⟩) (by decide) rfl (by decide) trivial

end Utinydrm
