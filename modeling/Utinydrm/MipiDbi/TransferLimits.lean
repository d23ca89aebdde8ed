import Utinydrm.MipiDbi.Option3
import Utinydrm.Spi.Pixels
import Utinydrm.Lib.Transition

/-
  The limits of register writes with a D/C line.

  The size of a chunk is rounded when the interface is set
  up, the buffer for exchanged words is only kept when a
  chunk fits into it, and every message is one chunk or a
  piece of one. Whatever else happens between the writes, a
  chunk therefore fits the controller and the buffer.

  Key definitions include:
    * `World.sentLens`
    * `CutsWithin`
    * `TxBufKept`

  Main declarations:
    * `spiSync_emits`
    * `tinydrmSpiTransfer_emits`
    * `option3_transfer_limits`
-/

------------------------------------------------------------
-- Messages By Length
------------------------------------------------------------

namespace Utinydrm

/- The lengths of the transfers of every message so far. -/
def World.sentLens (w : World) : List (List Nat) :=
  w.messages.map fun r => r.xfers.map SpiIocTransfer.len

/- Messages of one transfer, one for each piece. -/
def messageLens (cuts : List Chunking.Piece) :
    List (List Nat) :=
  cuts.map fun p => [p.size]

/-
  The pieces make up the length. Each starts at a multiple of
  four bytes and is no longer than the limit.
-/
structure CutsWithin
    (limit len : Nat) (cuts : List Chunking.Piece) :
    Prop where
  tiles : Chunking.Tiles 0 cuts len
  aligned : ∀ p ∈ cuts, p.offset % 4 = 0
  bounded : ∀ p ∈ cuts, p.size ≤ limit

/-
  The pieces a message is handed over in, which are several
  only for a framebuffer behind the descriptor of the kernel.
-/
def messageCuts
    (w : World) (p : Ptr) (len : Nat) : List Chunking.Piece :=
  if (w.fbs.find? (fun ufb => ufb.contains p)).isSome ∧
      0 ≤ w.bufFd then
    Chunking.pieces 30720 len
  else
    [⟨0, len⟩]

variable {env : Env}

theorem World.sentLens_afterSpidev
    (w : World) (xfers : List SpiIocTransfer) :
    (w.afterSpidev env xfers).sentLens =
      w.sentLens ++ [xfers.map SpiIocTransfer.len] := by
  rw [World.sentLens, World.messages_afterSpidev,
    List.map_append]
  rfl

theorem World.Quiet.sentLens
    {w w' : World} (hQuiet : w.Quiet w') :
    w'.sentLens = w.sentLens := by
  rw [World.sentLens, hQuiet.messages, World.sentLens]

/- A call of spidev is a message, whether it fails or not. -/
theorem spidev_emits
    (env : Env) (xfers : List SpiIocTransfer) (w : World) :
    ∃ ret w', spidev env xfers w = .ok ret w' ∧
      World.SameBus w w' ∧
      Chunking.EmitsUpTo World.sentLens w ret w'
        [xfers.map SpiIocTransfer.len] :=
  ⟨_, _, spidev_eq xfers w, (World.SameBus.refl w).afterSpidev _,
    _, w.sentLens_afterSpidev xfers, List.prefix_refl _,
    fun _ => rfl⟩

theorem spiBufTransfer_emits
    (tr : SpiTransfer) (fd : Int) (w : World) :
    ∃ ret w', spiBufTransfer env tr fd w = .ok ret w' ∧
      World.SameBus w w' ∧
      Chunking.EmitsUpTo World.sentLens w ret w'
        (messageLens (Chunking.pieces 30720 tr.len)) := by
  have hMax : 0 < 320 * 240 * 2 / 5 := by decide
  unfold spiBufTransfer messageLens
  rw [Chunking.chunkLoop_eq_runPieces _ hMax,
    List.map_eq_flatMap]
  apply Chunking.runPieces_emitsUpTo (World.SameBus w)
    World.sentLens (fun p => [[p.size]]) _ _ _
    (World.SameBus.refl w)
  intro p _ s hs
  rcases spidev_emits env
      [{ txDmaFd := fd
         speedHz := tr.speedHz
         bitsPerWord := 8
         dmaOffset := p.offset % 2 ^ 32
         len := p.size }] s with ⟨ret, s', hRun, hSame, hEmits⟩
  exact ⟨ret, s', hRun, hs.trans hSame, hEmits⟩

/-
  What `spi_sync` hands over of a single transfer, as long as
  the transmit buffer is no error pointer.
-/
theorem spiSync_emits
    (env : Env) (spi : SpiDevice) (tr : SpiTransfer) {p : Ptr}
    (hPtr : tr.txBuf = some p)
    {w : World} (hTx : w.TxOk) :
    ∃ ret w', spiSync env spi { first := tr } w = .ok ret w' ∧
      World.SameBus w w' ∧
      Chunking.EmitsUpTo World.sentLens w ret w'
        (messageLens (messageCuts w p tr.len)) := by
  cases hFind : w.fbs.find? (fun ufb => ufb.contains p) with
  | some ufb =>
      rw [spiSync_framebuffer spi hPtr hFind]
      by_cases hShared : 0 ≤ w.bufFd
      · have hCuts : messageCuts w p tr.len =
            Chunking.pieces 30720 tr.len := by
          rw [messageCuts, hFind, if_pos ⟨rfl, hShared⟩]
        rw [hCuts, if_pos hShared]
        split
        · exact spiBufTransfer_emits
            { tr with speedHz := spi.maxSpeedHz } _ w
        · exact spiBufTransfer_emits tr _ w
      · have hCuts : messageCuts w p tr.len =
            [⟨0, tr.len⟩] := by
          rw [messageCuts, if_neg fun hBoth => hShared hBoth.2]
        rw [hCuts, if_neg hShared]
        exact spidev_emits env _ w
  | none =>
      have hCuts : messageCuts w p tr.len = [⟨0, tr.len⟩] := by
        rw [messageCuts, hFind]
        exact if_neg fun hBoth => by cases hBoth.1
      have hFbs : w.OutsideFbs p := by
        intro ufb hMem
        simpa using List.find?_eq_none.mp hFind ufb hMem
      rw [hCuts]
      by_cases hOutside : w.OutsideTxBuf p
      · rw [spiSync_outside spi hPtr hTx hFbs hOutside]
        exact spidev_emits env _ w
      · rw [World.OutsideTxBuf] at hOutside
        push Not at hOutside
        rcases hOutside with ⟨buf, hBuf, hInside⟩
        rw [spiSync_txBuf spi hPtr hBuf hFbs
          (Bool.eq_true_of_not_eq_false hInside)]
        exact spidev_emits env _ w

end Utinydrm

------------------------------------------------------------
-- A Transfer In Chunks
------------------------------------------------------------

namespace Utinydrm

/-
  What decides where messages are sent from is the same, and
  so is memory outside the buffer for exchanged words.
-/
structure SwapOnly (dst size : Nat) (w s : World) : Prop where
  fbs : s.fbs = w.fbs
  bufFd : s.bufFd = w.bufFd
  txBuf : s.txBuf = w.txBuf
  mspiTxBuf : s.mspiTxBuf = w.mspiTxBuf
  memory : SameOutside dst size w s

namespace SwapOnly

variable {dst size : Nat}

theorem refl (w : World) : SwapOnly dst size w w :=
  ⟨rfl, rfl, rfl, rfl, fun _ _ => rfl⟩

theorem trans
    {w₁ w₂ w₃ : World}
    (h₁ : SwapOnly dst size w₁ w₂)
    (h₂ : SwapOnly dst size w₂ w₃) :
    SwapOnly dst size w₁ w₃ :=
  ⟨h₂.fbs.trans h₁.fbs, h₂.bufFd.trans h₁.bufFd,
    h₂.txBuf.trans h₁.txBuf, h₂.mspiTxBuf.trans h₁.mspiTxBuf,
    fun a ha => (h₂.memory a ha).trans (h₁.memory a ha)⟩

theorem of_sameBus
    {w w' : World} (hSame : World.SameBus w w') :
    SwapOnly dst size w w' :=
  ⟨hSame.fbs, hSame.bufFd, hSame.txBuf, hSame.mspiTxBuf,
    fun a _ => by rw [hSame.mem]⟩

theorem txOk
    {w w' : World} (hSame : SwapOnly dst size w w')
    (hTx : w.TxOk) :
    w'.TxOk := by
  rwa [World.TxOk, hSame.txBuf]

end SwapOnly

variable {env : Env}

/- Preparing a chunk that fits only stores into the buffer. -/
theorem chunkSource_swapOnly
    (swap : Bool) (dst : Nat) (src : Ptr)
    {chunk size : Nat} (hFits : chunk ≤ size) (w : World) :
    ∃ w', chunkSource swap (some dst) src chunk w =
        .ok (if swap then .mapped dst else src) w' ∧
      SwapOnly dst size w w' ∧ w'.log = w.log := by
  cases swap with
  | false => exact ⟨w, rfl, .refl w, rfl⟩
  | true =>
      rcases w.swapWords_eq src dst (chunk / 2) with
        ⟨mem, hMem⟩
      refine ⟨w.swapWords src dst (chunk / 2), rfl, ?_, ?_⟩
      · have hMemory : SameOutside dst size w
            (w.swapWords src dst (chunk / 2)) :=
          fun a ha => w.swapWords_outside src dst (chunk / 2) a
            (by omega)
        refine ⟨?_, ?_, ?_, ?_, hMemory⟩
        all_goals rw [hMem]
      · rw [hMem]

/- Where a chunk is sent from. -/
def chunkPtr
    (spi : SpiDevice) (bpw : Nat)
    (buf : Ptr) (dst offset : Nat) : Ptr :=
  if swapNeeded spi bpw then .mapped dst else buf.add offset

/- The pieces of a transfer, in all of its chunks. -/
def transferCuts
    (w : World) (spi : SpiDevice) (bpw : Nat)
    (buf : Ptr) (dst len maxChunk : Nat) :
    List Chunking.Piece :=
  (Chunking.pieces maxChunk len).flatMap fun q =>
    (messageCuts w (chunkPtr spi bpw buf dst q.offset)
      q.size).map fun p => ⟨q.offset + p.offset, p.size⟩

/- The pieces of a message are within it. -/
theorem cutsWithin_messageCuts
    (w : World) (p : Ptr) (len : Nat) :
    CutsWithin len len (messageCuts w p len) := by
  unfold messageCuts
  split
  · have hMax : 0 < 30720 := by decide
    have hTiles := Chunking.tiles_pieces hMax len
    refine ⟨hTiles, ?_, ?_⟩
    · intro q hq
      rcases Chunking.mem_pieces hMax hq with ⟨k, hOffset, _⟩
      omega
    · intro q hq
      have hInside := hTiles.offset_bounds hq
      omega
  · refine ⟨⟨rfl, Nat.zero_add len⟩, ?_, ?_⟩
    · simp
    · simp

/- The pieces of a transfer are within the chunks. -/
theorem cutsWithin_transferCuts
    (w : World) (spi : SpiDevice) (bpw : Nat)
    (buf : Ptr) (dst len : Nat) {maxChunk : Nat}
    (hMax : 0 < maxChunk) (hFour : maxChunk % 4 = 0) :
    CutsWithin maxChunk len
      (transferCuts w spi bpw buf dst len maxChunk) := by
  have hCuts := fun q : Chunking.Piece => cutsWithin_messageCuts
    w (chunkPtr spi bpw buf dst q.offset) q.size
  constructor
  case tiles =>
    apply (Chunking.tiles_pieces hMax len).flatMap
    intro q hq
    exact (hCuts q).tiles.shift q.offset
  all_goals
    intro p hp
    rcases List.mem_flatMap.mp hp with ⟨q, hq, hp⟩
    rcases List.mem_map.mp hp with ⟨r, hr, rfl⟩
  case aligned =>
    rcases Chunking.mem_pieces hMax hq with ⟨k, hOffset, _⟩
    have hStart : q.offset % 4 = 0 := by
      rw [hOffset, Nat.mul_mod, hFour, Nat.mul_zero,
        Nat.zero_mod]
    have hInner := (hCuts q).aligned r hr
    dsimp only
    omega
  case bounded =>
    have hSize := Chunking.size_le_of_mem_pieces hMax hq
    exact ((hCuts q).bounded r hr).trans hSize

/-
  A transfer whose chunks fit the buffer returns, having
  handed over its pieces up to the first that failed.
-/
theorem tinydrmSpiTransfer_emits
    (env : Env) (spi : SpiDevice) (speedHz : Nat) {bpw : Nat}
    (hBpw : bpw = 8 ∨ bpw = 16)
    (buf : Ptr) (len dst : Nat) {size maxChunk : Nat}
    (hMax : 0 < maxChunk) (hRoom : maxChunk ≤ size)
    {w : World} (hTx : w.TxOk) :
    ∃ ret w', tinydrmSpiTransfer env spi speedHz none bpw buf
        len (some dst) maxChunk w = .ok ret w' ∧
      SwapOnly dst size w w' ∧
      Chunking.EmitsUpTo World.sentLens w ret w'
        (messageLens
          (transferCuts w spi bpw buf dst len maxChunk)) := by
  have hWidth : ¬ (bpw ≠ 8 ∧ bpw ≠ 16) := by omega
  simp only [tinydrmSpiTransfer, if_neg hWidth,
    Option.isNone_some, Bool.and_false, Bool.false_eq_true,
    if_false, chunkMessage]
  rw [Chunking.chunkLoop_eq_runPieces _ hMax, transferCuts,
    messageLens, List.map_flatMap]
  apply Chunking.runPieces_emitsUpTo (SwapOnly dst size w)
    World.sentLens _ _ _ _ (.refl w)
  intro q hq s hs
  have hFits := Chunking.size_le_of_mem_pieces hMax hq
  rcases chunkSource_swapOnly (swapNeeded spi bpw) dst
      (buf.add q.offset) (hFits.trans hRoom) s with
    ⟨t, hSource, hSwap, hLog⟩
  have hThere := hs.trans hSwap
  rcases spiSync_emits env spi
        { txBuf := some (chunkPtr spi bpw buf dst q.offset)
          len := q.size
          bitsPerWord := if swapNeeded spi bpw then 8 else bpw
          speedHz := speedHz }
      rfl (hThere.txOk hTx) with
    ⟨ret, s', hRun, hSame, hEmits⟩
  refine ⟨ret, s', (Effect.bind_of_ok hSource).trans hRun,
    hThere.trans (.of_sameBus hSame), ?_⟩
  have hCuts : messageCuts t
      (chunkPtr spi bpw buf dst q.offset) q.size =
      messageCuts w (chunkPtr spi bpw buf dst q.offset)
        q.size := by
    rw [messageCuts, hThere.fbs, hThere.bufFd, messageCuts]
  have hLens : t.sentLens = s.sentLens := by
    rw [World.sentLens, World.messages, hLog, World.sentLens,
      World.messages]
  rw [Chunking.EmitsUpTo, hLens, hCuts, messageLens] at hEmits
  rw [Chunking.EmitsUpTo, List.map_map]
  exact hEmits

end Utinydrm

------------------------------------------------------------
-- The Buffer That Is Kept
------------------------------------------------------------

namespace Utinydrm

/-
  The buffer the interface has kept is the one in the global.
  It is of the size of a full screen, and so are the chunks
  at most.
-/
def TxBufKept (mspi : MipiDbiSpi) (w : World) : Prop :=
  ∀ addr, w.mspiTxBuf = some addr →
    mspi.chunkSize ≤ 320 * 240 * 16 / 8 ∧
      ∃ buf, w.txBuf = .valid buf ∧ buf.map = addr ∧
        320 * 240 * 16 / 8 ≤ buf.mapSize

variable {env : Env} {mspi : MipiDbiSpi}

theorem TxBufKept.of_same
    {w w' : World}
    (hKept : TxBufKept mspi w)
    (hTxBuf : w'.txBuf = w.txBuf)
    (hMspi : w'.mspiTxBuf = w.mspiTxBuf) :
    TxBufKept mspi w' := by
  intro addr hSome
  rw [hTxBuf]
  rw [hMspi] at hSome
  exact hKept addr hSome

/- The kernel creates buffers as large as it is asked for. -/
def Env.CreatesScreens (env : Env) : Prop :=
  ∀ n size, env.createDumb n = .ok size →
    320 * 240 * 16 / 8 ≤ size

/- The buffer is kept where it was or when it is created. -/
theorem mipiDbiSpi3TxBuf_kept
    (hDumb : env.CreatesScreens)
    {w w' : World} {txBuf : Option Nat}
    (hKept : TxBufKept mspi w)
    (hRun : mipiDbiSpi3TxBuf env mspi w = .ok txBuf w') :
    TxBufKept mspi w' ∧ w'.mspiTxBuf = txBuf := by
  unfold mipiDbiSpi3TxBuf at hRun
  rw [Effect.bind_of_ok (Effect.get_apply w)] at hRun
  cases hMspi : w.mspiTxBuf with
  | some addr =>
      rw [hMspi] at hRun
      cases hRun
      exact ⟨hKept, hMspi⟩
  | none =>
      rw [hMspi] at hRun
      rcases Effect.exists_of_bind_ok hRun with
        ⟨got, s, hGot, hRest⟩
      cases hRest
      refine ⟨?_, rfl⟩
      intro addr hSome
      dsimp only at hSome
      rw [hSome] at hGot
      rcases utinydrmGetTxBuf_some hGot with
        ⟨hRoom, buf, hBuf, hMap, n, hSize⟩
      exact ⟨hRoom, buf, hBuf, hMap, hDumb n _ hSize⟩

end Utinydrm

------------------------------------------------------------
-- One Write
------------------------------------------------------------

namespace Utinydrm

variable {env : Env} {mspi : MipiDbiSpi}

theorem swapOnly_afterGpio
    {dst size : Nat} (w : World) (line : GpioLine)
    (value : Bool) :
    SwapOnly dst size w (w.afterGpio env line value) :=
  ⟨rfl, rfl, rfl, rfl, fun _ _ => rfl⟩

/-
  The messages of a write are pieces of the command and then
  of the data, each made up of pieces within the limit.
-/
def SendsWithin
    (limit valLen : Nat) (w w' : World) : Prop :=
  ∃ command data, CutsWithin limit 1 command ∧
    CutsWithin limit valLen data ∧
    ∃ new, w'.sentLens = w.sentLens ++ new ∧
      new <+: messageLens (command ++ data)

/- The command and the data, when a chunk fits the buffer. -/
theorem mipiDbiSpi3Send_within
    (env : Env) (hMax : 0 < mspi.chunkSize)
    (hFour : mspi.chunkSize % 4 = 0)
    (dst : Nat) {size : Nat} (hRoom : mspi.chunkSize ≤ size)
    {width : Nat} (hWidth : width = 8 ∨ width = 16)
    (reg : Ptr) (val : Option Ptr) (valLen : Nat)
    {w : World} (hTx : w.TxOk) :
    ∃ ret w', mipiDbiSpi3Send env mspi dst width reg val
        valLen w = .ok ret w' ∧
      SwapOnly dst size w w' ∧
      SendsWithin mspi.chunkSize valLen w w' := by
  let w₁ := w.afterGpio env .dc false
  have hSame₁ : SwapOnly dst size w w₁ :=
    swapOnly_afterGpio w .dc false
  have hLens₁ : w₁.sentLens = w.sentLens :=
    (w.quiet_afterGpio .dc false).sentLens
  rcases tinydrmSpiTransfer_emits env mspi.spi 0
      (Or.inl rfl) reg 1 dst hMax hRoom (hSame₁.txOk hTx) with
    ⟨ret, w₂, hCommand, hSame₂, sent, hEmit, hPrefix, hAll⟩
  have hSame := hSame₁.trans hSame₂
  have hWithin := fun (s : World) (bpw : Nat) (buf : Ptr)
      (len : Nat) =>
    cutsWithin_transferCuts s mspi.spi bpw buf dst len hMax
      hFour
  have hOnly : SendsWithin mspi.chunkSize valLen w w₂ := by
    refine ⟨_, _, hWithin w₁ 8 reg 1, hWithin w₁ 8 reg valLen,
      sent, by rw [hEmit, hLens₁], ?_⟩
    rw [messageLens, List.map_append]
    exact hPrefix.trans (List.prefix_append _ _)
  by_cases hEnd : ret ≠ 0 ∨ val = none ∨ valLen = 0
  case pos =>
    exact ⟨ret, w₂,
      mipiDbiSpi3Send_command reg val valLen hCommand hEnd,
      hSame, hOnly⟩
  case neg =>
  -- the data, with the line high
  rw [not_or, not_or, not_not] at hEnd
  rcases hEnd with ⟨rfl, hSome, hLen⟩
  rcases Option.ne_none_iff_exists'.mp hSome with ⟨p, rfl⟩
  let w₃ := w₂.afterGpio env .dc true
  have hSame₃ : SwapOnly dst size w w₃ :=
    hSame.trans (swapOnly_afterGpio w₂ .dc true)
  have hLens₃ : w₃.sentLens = w₂.sentLens :=
    (w₂.quiet_afterGpio .dc true).sentLens
  rcases tinydrmSpiTransfer_emits env mspi.spi 0
      hWidth p valLen dst hMax hRoom (hSame₃.txOk hTx) with
    ⟨ret', w', hData, hSame₄, more, hEmit', hPrefix', _⟩
  refine ⟨ret', w',
    (mipiDbiSpi3Send_data reg valLen hCommand p hLen).trans
      hData,
    hSame₃.trans hSame₄, _, _, hWithin w₁ 8 reg 1,
    hWithin w₃ width p valLen, sent ++ more, ?_, ?_⟩
  · rw [hEmit', hLens₃, hEmit, hLens₁, List.append_assoc]
  · rw [messageLens, List.map_append, hAll rfl]
    exact (List.prefix_append_right_inj _).mpr hPrefix'

/-
  What a write does: without a buffer nothing is sent and no
  memory changes, with one what is sent is within the limit
  and what is stored is within the buffer.
-/
def WriteWithin
    (limit valLen : Nat) (ret : Int) (w w' : World) : Prop :=
  (ret = -ENOMEM ∧ w'.messages = w.messages ∧
    w'.mem = w.mem) ∨
  ∃ buf, w'.txBuf = .valid buf ∧
    320 * 240 * 16 / 8 ≤ buf.mapSize ∧
    SameOutside buf.map (320 * 240 * 16 / 8) w w' ∧
    SendsWithin limit valLen w w'

theorem mipiDbiSpi3GatherWrite_within
    (hDumb : env.CreatesScreens)
    (hMax : 0 < mspi.chunkSize)
    (hFour : mspi.chunkSize % 4 = 0)
    (reg : Ptr) (val : Option Ptr) (valLen : Nat)
    {w : World} (hKept : TxBufKept mspi w) :
    ∃ ret w', mipiDbiSpi3GatherWrite env mspi reg 1 val valLen
        w = .ok ret w' ∧
      TxBufKept mspi w' ∧
      WriteWithin mspi.chunkSize valLen ret w w' := by
  rcases mipiDbiSpi3TxBuf_returns env mspi w with
    ⟨txBuf, s, hAsked, _, hMem, hQuiet, _⟩
  rcases mipiDbiSpi3TxBuf_kept hDumb hKept hAsked with
    ⟨hKept', hMspi⟩
  cases txBuf with
  | none =>
      exact ⟨-ENOMEM, s, mipiDbiSpi3GatherWrite_noBuf _ _ _ hAsked,
        hKept', Or.inl ⟨rfl, hQuiet.messages, hMem⟩⟩
  | some addr =>
      rw [mipiDbiSpi3GatherWrite_buf _ _ _ hAsked]
      rcases hKept' addr hMspi with
        ⟨hRoom, buf, hBuf, hMap, hSize⟩
      have hTx : s.TxOk := World.txOk_of_valid hBuf
      rcases mipiDbiSpi3Send_within env hMax hFour addr hRoom
          (valWidth_cases mspi (w.byte reg 0)) reg val valLen
          hTx with
        ⟨ret, w', hRun, hSame, command, data, hCommand, hData,
          new, hSent, hPrefix⟩
      refine ⟨ret, w', hRun,
        hKept'.of_same hSame.txBuf hSame.mspiTxBuf, Or.inr
          ⟨buf, hSame.txBuf.trans hBuf, hSize, ?_, command,
            data, hCommand, hData, new, ?_, hPrefix⟩⟩
      · intro a ha
        rw [hMap] at ha
        rw [hSame.memory a ha, hMem]
      · rw [hSent, hQuiet.sentLens]

end Utinydrm

------------------------------------------------------------
-- Writes In A Run
------------------------------------------------------------

namespace Utinydrm

/-
  A write over the interface that returns, or anything else,
  which leaves the transmit buffer alone.
-/
def InterfaceStep
    (env : Env) (mspi : MipiDbiSpi)
    (w : World) (label : Option Int) (w' : World) : Prop :=
  match label with
  | some ret => ∃ reg regLen val valLen,
      mipiDbiSpi3GatherWrite env mspi reg regLen val valLen w =
        .ok ret w'
  | none => w'.txBuf = w.txBuf ∧ w'.mspiTxBuf = w.mspiTxBuf

/- The chunks of the interface fit the controller. -/
theorem mipiDbiSpiInit_chunkSize_le
    {spi : SpiDevice} (hLimit : 4 ≤ spi.master.maxDmaLen)
    (dc writeOnly : Bool) :
    (mipiDbiSpiInit spi dc writeOnly).chunkSize ≤
        spi.master.maxDmaLen ∧
      (mipiDbiSpiInit spi dc writeOnly).chunkSize % 4 = 0 := by
  have hRounded : ∀ n, n ≤ spi.master.maxDmaLen →
      (if n / 4 * 4 < 4 then 4 else n / 4 * 4) ≤
          spi.master.maxDmaLen ∧
        (if n / 4 * 4 < 4 then 4 else n / 4 * 4) % 4 = 0 := by
    intro n hn
    split <;> omega
  exact hRounded _ (Nat.min_le_right _ _)

theorem SendsWithin.mono
    {limit limit' valLen : Nat} {w w' : World}
    (hSends : SendsWithin limit valLen w w')
    (hLimit : limit ≤ limit') :
    SendsWithin limit' valLen w w' := by
  rcases hSends with ⟨command, data, hCommand, hData, hNew⟩
  exact ⟨command, data,
    ⟨hCommand.tiles, hCommand.aligned,
      fun p hp => (hCommand.bounded p hp).trans hLimit⟩,
    ⟨hData.tiles, hData.aligned,
      fun p hp => (hData.bounded p hp).trans hLimit⟩, hNew⟩

/- Whatever happens, the buffer that is kept stays usable. -/
theorem txBufKept_of_run
    {env : Env} {mspi : MipiDbiSpi}
    (hDumb : env.CreatesScreens)
    (hMax : 0 < mspi.chunkSize)
    (hFour : mspi.chunkSize % 4 = 0)
    {w₀ w : World} {history : List (Option Int)}
    (hStart : w₀.mspiTxBuf = none)
    (hRun : Transition.Run (InterfaceStep env mspi)
      Transition.unguarded w₀ history w) :
    TxBufKept mspi w := by
  apply hRun.invariant (TxBufKept mspi)
  · intro addr hSome
    rw [hStart] at hSome
    cases hSome
  · intro _ s label s' hKept _ hStep
    cases label with
    | none => exact hKept.of_same hStep.1 hStep.2
    | some ret =>
        rcases hStep with ⟨reg, regLen, val, valLen, hWrite⟩
        by_cases hLen : regLen = 1
        · subst hLen
          rcases mipiDbiSpi3GatherWrite_within hDumb hMax hFour
              reg val valLen hKept with
            ⟨ret', s'', hWrite', hKept', _⟩
          cases hWrite'.symm.trans hWrite
          exact hKept'
        · rw [mipiDbiSpi3GatherWrite_refused _ _ _ hLen]
            at hWrite
          cases hWrite
          exact hKept

/-
  Over an interface that was set up without a buffer, in
  whatever state it is used, a write of any length returns.
  It sends nothing for want of a buffer, or all its messages
  are of at most the limit of the controller, cut at
  multiples of four bytes, and it stores into the first bytes
  of the buffer only.
-/
theorem option3_transfer_limits
    (env : Env) (hDumb : env.CreatesScreens)
    (spi : SpiDevice) (hLimit : 4 ≤ spi.master.maxDmaLen)
    (writeOnly : Bool)
    (w₀ w : World) (history : List (Option Int))
    (hStart : w₀.mspiTxBuf = none)
    (hRun : Transition.Run
      (InterfaceStep env (mipiDbiSpiInit spi true writeOnly))
      Transition.unguarded w₀ history w)
    (reg : Ptr) (val : Option Ptr) (valLen : Nat) :
    ∃ ret w', mipiDbiSpi3GatherWrite env
        (mipiDbiSpiInit spi true writeOnly) reg 1 val valLen
        w = .ok ret w' ∧
      WriteWithin spi.master.maxDmaLen valLen ret w w' := by
  have hMax : 0 < (mipiDbiSpiInit spi true writeOnly).chunkSize
    := tinydrmSpiMaxTransferSize_pos spi 0
  rcases mipiDbiSpiInit_chunkSize_le hLimit true writeOnly with
    ⟨hChunk, hFour⟩
  have hKept := txBufKept_of_run hDumb hMax hFour hStart hRun
  rcases mipiDbiSpi3GatherWrite_within hDumb hMax hFour reg val
      valLen hKept with ⟨ret, w', hWrite, _, hWithin⟩
  refine ⟨ret, w', hWrite, ?_⟩
  rcases hWithin with hRefused |
    ⟨buf, hBuf, hSize, hMemory, hSends⟩
  · exact Or.inl hRefused
  · exact Or.inr ⟨buf, hBuf, hSize, hMemory, hSends.mono hChunk⟩

/- A second write of pixels, after one that asked for the buffer. -/
theorem option3_transfer_limits_second :
    ∃ w ret w',
      mipiDbiSpi3GatherWrite Env.granting
        (mipiDbiSpiInit eightBitSpi true true)
        (.heap fun _ => 0x2C) 1 (some (.heap fun _ => 0xFF)) 4
        w = .ok ret w' ∧
      w.mspiTxBuf ≠ none ∧
      WriteWithin (320 * 240 * 2) 4 ret w w' := by
  have hDumb : Env.granting.CreatesScreens := by
    intro n size hSize
    cases hSize
    decide
  have hFirst : ∃ w, mipiDbiSpi3GatherWrite Env.granting
      (mipiDbiSpiInit eightBitSpi true true)
      (.heap fun _ => 0x2C) 1 (some (.heap fun _ => 0)) 2
      (World.atProbe (-1)) = .ok 0 w ∧ w.mspiTxBuf ≠ none :=
    ⟨_, rfl, by decide⟩
  rcases hFirst with ⟨w, hWrite, hAsked⟩
  rcases option3_transfer_limits Env.granting hDumb eightBitSpi
      (by decide) true (World.atProbe (-1)) w [some 0] rfl
      (.snoc .nil trivial ⟨_, _, _, _, hWrite⟩)
      (.heap fun _ => 0x2C) (some (.heap fun _ => 0xFF)) 4 with
    ⟨ret, w', hSecond, hWithin⟩
  exact ⟨w, ret, w', hSecond, hAsked, hWithin⟩

end Utinydrm
