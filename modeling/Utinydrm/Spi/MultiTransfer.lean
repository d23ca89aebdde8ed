import Utinydrm.Spi.Transfer

/-
  What spidev is handed of a message of several transfers.

  Of the first transfer the receive buffer is left out, of
  the second one the transmit buffer, and the others are not
  handed over at all.

  Key definitions include:
    * `HandsOver`
    * `SendsWithHeader`

  Main declarations:
    * `spiSync_handed`
    * `spi_sync_hands_over_iff`
-/

------------------------------------------------------------
-- Handing Over
------------------------------------------------------------

namespace Utinydrm

/- A transmit buffer, a receive buffer and a length. -/
abbrev Buffers := Option Ptr × Option Nat × Nat

/- What a transfer of a message asks for. -/
def SpiTransfer.buffers (tr : SpiTransfer) : Buffers :=
  (tr.txBuf, tr.rxBuf, tr.len)

/- What spidev is handed. -/
def SpiIocTransfer.buffers (utr : SpiIocTransfer) : Buffers :=
  (utr.txBuf, utr.rxBuf, utr.len)

/- The transfers of a message, in list order. -/
def SpiMessage.transfers (m : SpiMessage) : List SpiTransfer :=
  m.first :: m.rest

/- The transfers of the messages handed to spidev so far. -/
def World.handed (w : World) : List (List Buffers) :=
  w.messages.map fun r => r.xfers.map SpiIocTransfer.buffers

/- The buffers of the message are outside every dma-buf. -/
def World.OutsideMessage (w : World) (m : SpiMessage) : Prop :=
  ∀ tr ∈ m.transfers, ∀ p, tr.txBuf = some p →
    w.OutsideFbs p ∧ w.OutsideTxBuf p

variable (env : Env)

/- `spi_sync` hands over one message with all the transfers. -/
def HandsOver
    (spi : SpiDevice) (m : SpiMessage) (w : World) : Prop :=
  ∃ ret w', spiSync env spi m w = .ok ret w' ∧
    w'.handed = w.handed ++
      [m.transfers.map SpiTransfer.buffers]

/-
  `tinydrm_spi_transfer` with a header succeeds, having
  handed over a message with the header and the chunk for
  every chunk. A chunk is sent from the swap buffer when its
  bytes are exchanged.
-/
def SendsWithHeader
    (spi : SpiDevice) (speedHz : Nat) (header : SpiTransfer)
    (bpw : Nat) (buf : Ptr) (len swapBuf maxChunk : Nat)
    (w : World) : Prop :=
  ∃ w', tinydrmSpiTransfer env spi speedHz (some header) bpw
      buf len (some swapBuf) maxChunk w = .ok 0 w' ∧
    w'.handed = w.handed ++
      (Chunking.pieces maxChunk len).map fun p =>
        [header.buffers,
          (some (if swapNeeded spi bpw then .mapped swapBuf
            else buf.add p.offset), none, p.size)]

end Utinydrm

------------------------------------------------------------
-- One Message
------------------------------------------------------------

namespace Utinydrm

variable {env : Env}

theorem World.handed_afterSpidev
    (w : World) (xfers : List SpiIocTransfer) :
    (w.afterSpidev env xfers).handed =
      w.handed ++ [xfers.map SpiIocTransfer.buffers] := by
  simp [World.handed, World.messages_afterSpidev,
    World.spiRecord]

/- What is handed over of the transfers of a message. -/
def handedOf (m : SpiMessage) : List Buffers :=
  (m.first.txBuf, none, m.first.len) ::
    match m.rest with
    | [] => []
    | tr₂ :: _ => [(none, tr₂.rxBuf, tr₂.len)]

/- Nothing but a call of spidev is done to the world. -/
theorem spiSync_handed
    (env : Env) (spi : SpiDevice)
    {m : SpiMessage} {w : World}
    (hTx : w.TxOk)
    (hOutside : ∀ p, m.first.txBuf = some p →
      w.OutsideFbs p ∧ w.OutsideTxBuf p) :
    ∃ xfers, spiSync env spi m w =
        .ok ((env.spidev w.now).elim 0 Errno.ret)
          (w.afterSpidev env xfers) ∧
      xfers.map SpiIocTransfer.buffers = handedOf m := by
  rw [spiSync_eq_message spi hTx hOutside]
  unfold spiSyncMessage handedOf
  cases m.rest with
  | nil =>
      refine ⟨_, spidev_eq _ w, ?_⟩
      by_cases hSpeed : m.first.speedHz = 0 <;>
        simp [hSpeed, SpiIocTransfer.buffers]
  | cons tr₂ rest =>
      refine ⟨_, spidev_eq _ w, ?_⟩
      by_cases hSpeed : m.first.speedHz = 0 <;>
        simp [hSpeed, SpiIocTransfer.buffers]

/- When these are all its transfers. -/
theorem handedOf_eq_iff (m : SpiMessage) :
    handedOf m = m.transfers.map SpiTransfer.buffers ↔
      m.first.rxBuf = none ∧
        (m.rest = [] ∨
          ∃ tr₂, m.rest = [tr₂] ∧ tr₂.txBuf = none) := by
  rcases m with ⟨first, rest⟩
  unfold handedOf SpiMessage.transfers SpiTransfer.buffers
  cases rest with
  | nil => simp [eq_comm]
  | cons tr₂ rest =>
      cases rest with
      | nil => simp [eq_comm]
      | cons tr₃ rest => simp

end Utinydrm

------------------------------------------------------------
-- Messages With A Header
------------------------------------------------------------

namespace Utinydrm

variable {env : Env}

/- Preparing a chunk only stores into mapped memory. -/
theorem chunkSource_returns
    (swap : Bool) (swapBuf : Nat) (src : Ptr) (chunk : Nat)
    (w : World) :
    ∃ mem, chunkSource swap (some swapBuf) src chunk w =
      .ok (if swap then .mapped swapBuf else src)
        { w with mem := mem } := by
  unfold chunkSource
  cases swap with
  | false => exact ⟨w.mem, rfl⟩
  | true =>
      rcases w.swapWords_eq src swapBuf (chunk / 2) with
        ⟨mem, hMem⟩
      refine ⟨mem, ?_⟩
      rw [← hMem]
      rfl

/- One round of the loop, with the header before the chunk. -/
def headedChunk
    (env : Env) (spi : SpiDevice) (speedHz : Nat)
    (header : SpiTransfer) (bpw : Nat)
    (buf : Ptr) (swapBuf offset chunk : Nat) : Driver Int := do
  let txBuf ←
    chunkSource (swapNeeded spi bpw) (some swapBuf)
      (buf.add offset) chunk
  spiSync env spi
    (chunkMessage (some header)
      { txBuf := some txBuf
        len := chunk
        bitsPerWord := if swapNeeded spi bpw then 8 else bpw
        speedHz := speedHz })

/- What decides where a message is sent from is the same. -/
def SameBuffers (w s : World) : Prop :=
  s.fbs = w.fbs ∧ s.txBuf = w.txBuf

theorem headedChunk_handed
    (hBus : ∀ n, env.spidev n = none)
    (spi : SpiDevice) (speedHz : Nat) (header : SpiTransfer)
    (bpw : Nat) (buf : Ptr) (swapBuf : Nat)
    {w s : World} (hTx : w.TxOk)
    (hOutside : ∀ p, header.txBuf = some p →
      w.OutsideFbs p ∧ w.OutsideTxBuf p)
    (hSame : SameBuffers w s) (p : Chunking.Piece) :
    ∃ s', headedChunk env spi speedHz header bpw buf swapBuf
        p.offset p.size s = .ok 0 s' ∧
      SameBuffers w s' ∧
      s'.handed = s.handed ++
        [[(header.txBuf, none, header.len),
          (none, none, p.size)]] := by
  rcases hSame with ⟨hFbs, hTxBuf⟩
  rcases chunkSource_returns (swapNeeded spi bpw) swapBuf
      (buf.add p.offset) p.size s with ⟨mem, hSource⟩
  let s₁ : World := { s with mem := mem }
  have hTx₁ : s₁.TxOk := by
    simpa [s₁, World.TxOk, hTxBuf] using hTx
  have hOutside₁ : ∀ q, header.txBuf = some q →
      s₁.OutsideFbs q ∧ s₁.OutsideTxBuf q := by
    intro q hq
    have hHeader := hOutside q hq
    simpa [s₁, World.OutsideFbs, World.OutsideTxBuf, hFbs,
      hTxBuf] using hHeader
  let m := chunkMessage (some header)
    { txBuf := some
        (if swapNeeded spi bpw then .mapped swapBuf
          else buf.add p.offset)
      len := p.size
      bitsPerWord := if swapNeeded spi bpw then 8 else bpw
      speedHz := speedHz }
  rcases spiSync_handed env spi (w := s₁) (m := m) hTx₁
      hOutside₁ with ⟨xfers, hRun, hHanded⟩
  rw [hBus] at hRun
  refine ⟨_, (Effect.bind_of_ok hSource).trans hRun,
    ⟨hFbs, hTxBuf⟩, ?_⟩
  rw [World.handed_afterSpidev, hHanded]
  rfl

/- Of every chunk only the header is handed over. -/
theorem tinydrmSpiTransfer_handed
    (hBus : ∀ n, env.spidev n = none)
    (spi : SpiDevice) (speedHz : Nat) (header : SpiTransfer)
    {bpw : Nat} (hBpw : bpw = 8 ∨ bpw = 16)
    (buf : Ptr) (len swapBuf : Nat)
    {maxChunk : Nat} (hMax : 0 < maxChunk)
    {w : World} (hTx : w.TxOk)
    (hOutside : ∀ p, header.txBuf = some p →
      w.OutsideFbs p ∧ w.OutsideTxBuf p) :
    ∃ w', tinydrmSpiTransfer env spi speedHz (some header) bpw
        buf len (some swapBuf) maxChunk w = .ok 0 w' ∧
      w'.handed = w.handed ++
        (Chunking.pieces maxChunk len).map fun p =>
          [(header.txBuf, none, header.len),
            (none, none, p.size)] := by
  have hWidth : ¬ (bpw ≠ 8 ∧ bpw ≠ 16) := by omega
  simp only [tinydrmSpiTransfer, if_neg hWidth,
    Option.isNone_some, Bool.and_false, Bool.false_eq_true,
    if_false]
  rw [Chunking.chunkLoop_eq_runPieces _ hMax]
  rcases Chunking.runPieces_emits (SameBuffers w) World.handed
      (fun p => [[(header.txBuf, none, header.len),
        (none, none, p.size)]])
      (headedChunk env spi speedHz header bpw buf swapBuf)
      (Chunking.pieces maxChunk len)
      (fun p _ s hSame => headedChunk_handed hBus spi speedHz
        header bpw buf swapBuf hTx hOutside hSame p)
      ⟨rfl, rfl⟩ with ⟨w', hRun, _, hHanded⟩
  refine ⟨w', hRun, ?_⟩
  rw [hHanded, List.map_eq_flatMap]

/- The messages with a header are never right. -/
theorem sendsWithHeader_iff
    (hBus : ∀ n, env.spidev n = none)
    (spi : SpiDevice) (speedHz : Nat) (header : SpiTransfer)
    {bpw : Nat} (hBpw : bpw = 8 ∨ bpw = 16)
    (buf : Ptr) (len swapBuf : Nat)
    {maxChunk : Nat} (hMax : 0 < maxChunk)
    {w : World} (hTx : w.TxOk)
    (hOutside : ∀ p, header.txBuf = some p →
      w.OutsideFbs p ∧ w.OutsideTxBuf p) :
    SendsWithHeader env spi speedHz header bpw buf len swapBuf
        maxChunk w ↔
      len = 0 := by
  rcases tinydrmSpiTransfer_handed hBus spi speedHz header hBpw
      buf len swapBuf hMax hTx hOutside with
    ⟨w', hRun, hHanded⟩
  constructor
  · rintro ⟨w₂, hRun₂, hAll⟩
    cases hRun.symm.trans hRun₂
    rw [hHanded, List.append_cancel_left_eq] at hAll
    by_contra hLen
    -- the transmit buffer of the first chunk is missing
    rcases Chunking.pieces_eq_cons maxChunk
        (Nat.pos_of_ne_zero hLen) with ⟨rest, hPieces⟩
    simp [hPieces] at hAll
  · rintro rfl
    exact ⟨w', hRun, by rw [hHanded]; rfl⟩

/- What is handed over is right for a single transfer. -/
theorem handsOver_iff
    (spi : SpiDevice) {m : SpiMessage} {w : World}
    (hTx : w.TxOk)
    (hOutside : w.OutsideMessage m) :
    HandsOver env spi m w ↔
      m.first.rxBuf = none ∧
        (m.rest = [] ∨
          ∃ tr₂, m.rest = [tr₂] ∧ tr₂.txBuf = none) := by
  rcases spiSync_handed env spi hTx
      (hOutside m.first List.mem_cons_self) with
    ⟨xfers, hRun, hHanded⟩
  rw [← handedOf_eq_iff, ← hHanded]
  constructor
  · rintro ⟨ret, w', hRun', hAll⟩
    cases hRun.symm.trans hRun'
    rw [World.handed_afterSpidev,
      List.append_cancel_left_eq] at hAll
    exact List.singleton_inj.mp hAll
  · intro hAll
    refine ⟨_, _, hRun, ?_⟩
    rw [World.handed_afterSpidev, hAll]

/-
  All of a message is handed over if and only if the first
  transfer does not receive and the second, if there is one,
  is the last one and does not send. A transfer with a
  header is right only when there is nothing to send.
-/
theorem spi_sync_hands_over_iff (env : Env) :
    (∀ (spi : SpiDevice) (m : SpiMessage) (w : World),
      w.TxOk → w.OutsideMessage m →
      (HandsOver env spi m w ↔
        m.first.rxBuf = none ∧
          (m.rest = [] ∨
            ∃ tr₂, m.rest = [tr₂] ∧ tr₂.txBuf = none))) ∧
    (∀ (spi : SpiDevice) (speedHz : Nat)
      (header : SpiTransfer) (bpw : Nat) (buf : Ptr)
      (len swapBuf maxChunk : Nat) (w : World),
      (∀ n, env.spidev n = none) → (bpw = 8 ∨ bpw = 16) →
      0 < maxChunk → w.TxOk →
      (∀ p, header.txBuf = some p →
        w.OutsideFbs p ∧ w.OutsideTxBuf p) →
      (SendsWithHeader env spi speedHz header bpw buf len
          swapBuf maxChunk w ↔
        len = 0)) := by
  refine ⟨?_, ?_⟩
  · intro spi m w hTx hOutside
    exact handsOver_iff spi hTx hOutside
  · intro spi speedHz header bpw buf len swapBuf maxChunk w hBus
      hBpw hMax hTx hOutside
    exact sendsWithHeader_iff hBus spi speedHz header hBpw buf
      len swapBuf hMax hTx hOutside

/- A process without dma-bufs. -/
theorem outsideMessage_atProbe
    (bufFd : Int) (m : SpiMessage) :
    (World.atProbe bufFd).OutsideMessage m := by
  intro tr _ p _
  constructor
  · intro ufb hMem
    cases hMem
  · intro buf hBuf
    cases hBuf

/- One transfer of a byte. -/
theorem spi_sync_hands_over_byte :
    HandsOver Env.granting mainSpi
      { first := { txBuf := some (.heap fun _ => 0x2C), len := 1 } }
      (World.atProbe (-1)) :=
  ((spi_sync_hands_over_iff Env.granting).1 mainSpi _ _
    (World.txOk_atProbe (-1))
    (outsideMessage_atProbe (-1) _)).mpr ⟨rfl, Or.inl rfl⟩

/- A header and a chunk: the chunk is not handed over. -/
theorem spi_sync_drops_second :
    ¬ ∀ (env : Env) (spi : SpiDevice) (m : SpiMessage)
      (w : World),
      w.TxOk → w.OutsideMessage m → HandsOver env spi m w := by
  intro hClaim
  have hTx := World.txOk_atProbe (-1)
  let m : SpiMessage :=
    { first := { txBuf := some (.heap fun _ => 0x70), len := 1 }
      rest :=
        [{ txBuf := some (.heap fun _ => 0x2C), len := 2 }] }
  have hOutside := outsideMessage_atProbe (-1) m
  have hSent := hClaim Env.granting mainSpi m
    (World.atProbe (-1)) hTx hOutside
  rw [handsOver_iff mainSpi hTx hOutside] at hSent
  simp [m] at hSent

end Utinydrm
