import Utinydrm.Spi.Transfer
import Mathlib.Data.List.Pairwise

/-
  The ranges of a dma-buf that a chunked transfer from a
  registered framebuffer hands to spidev.

  With the dma-buf of the framebuffer a chunk is sent from
  where its pointer is. With the one the kernel shares with
  the process every chunk is sent from the start, so that
  only a transfer of a single chunk comes out right.

  Key definitions include:
    * `World.MappingsDisjoint`
    * `SendsConsecutively`

  Main declarations:
    * `tinydrmSpiTransfer_submits`
    * `chunked_flush_consecutive_iff`
-/

------------------------------------------------------------
-- Ranges
------------------------------------------------------------

namespace Utinydrm

/- The range of a dma-buf that a transfer is sent from. -/
def dmaPiece (utr : SpiIocTransfer) : Chunking.Piece :=
  ⟨utr.dmaOffset, utr.len⟩

/-
  The program returns zero, and the executed transfers are
  consecutive ranges of one dma-buf of the whole length.
-/
def SendsConsecutively
    (program : Driver Int) (w : World) (len : Nat) : Prop :=
  ∃ w' xfers, program w = .ok 0 w' ∧
    w'.submitted = w.submitted ++ xfers ∧
    ∃ fd start,
      (∀ utr ∈ xfers, utr.txBuf = none ∧ utr.txDmaFd = fd) ∧
      Chunking.Tiles start (xfers.map dmaPiece) (start + len)

def UtinydrmFb.Apart (a b : UtinydrmFb) : Prop :=
  a.map + a.mapSize.toNat ≤ b.map ∨
    b.map + b.mapSize.toNat ≤ a.map

instance : Std.Symm UtinydrmFb.Apart where
  symm := fun _ _ hApart => hApart.symm

/-
  Live mappings do not overlap: `mmap` was not told where to
  put them.
-/
def World.MappingsDisjoint (w : World) : Prop :=
  w.fbs.Pairwise UtinydrmFb.Apart

/- The framebuffer that is found is the one of the mapping. -/
theorem World.MappingsDisjoint.find?_eq
    {w : World} {ufb : UtinydrmFb} {offset : Nat}
    (hDisjoint : w.MappingsDisjoint)
    (hMem : ufb ∈ w.fbs)
    (hInside : offset < ufb.mapSize.toNat) :
    w.fbs.find? (fun ufb' =>
      ufb'.contains (.mapped (ufb.map + offset))) =
      some ufb := by
  have hContains :
      ufb.contains (.mapped (ufb.map + offset)) = true := by
    simp [UtinydrmFb.contains, Ptr.within, hInside]
  cases hFound : w.fbs.find? (fun ufb' =>
      ufb'.contains (.mapped (ufb.map + offset))) with
  | none =>
      have hNone := List.find?_eq_none.mp hFound ufb hMem
      exact absurd hContains hNone
  | some other =>
      have hOther := List.find?_some hFound
      have hMemOther := List.mem_of_find?_eq_some hFound
      by_contra hNe
      have hApart := List.Pairwise.forall hDisjoint hMem
        hMemOther (fun hEq => hNe (by rw [hEq]))
      unfold UtinydrmFb.Apart at hApart
      simp only [UtinydrmFb.contains, Ptr.within,
        Bool.and_eq_true, decide_eq_true_eq] at hOther
      omega

end Utinydrm

------------------------------------------------------------
-- One Chunk
------------------------------------------------------------

namespace Utinydrm

variable {env : Env}

/- A transfer that sends a piece of a dma-buf. -/
def dmaXfer
    (fd : Int) (speedHz : Nat)
    (p : Chunking.Piece) : SpiIocTransfer where
  txDmaFd := fd
  dmaOffset := p.offset
  len := p.size
  speedHz := speedHz
  bitsPerWord := 8

/-
  `spi_buf_transfer` sends the dma-buf from its start, in
  pieces of its own.
-/
theorem spiBufTransfer_submits
    (hBus : ∀ n, env.spidev n = none)
    (tr : SpiTransfer) (fd : Int)
    (hLen : tr.len < 2 ^ 32) (w : World) :
    ∃ w', spiBufTransfer env tr fd w = .ok 0 w' ∧
      World.SameBus w w' ∧
      w'.submitted = w.submitted ++
        (Chunking.pieces 30720 tr.len).map
          (dmaXfer fd tr.speedHz) := by
  have hMax : 0 < 320 * 240 * 2 / 5 := by decide
  unfold spiBufTransfer
  rw [Chunking.chunkLoop_eq_runPieces _ hMax,
    List.map_eq_flatMap]
  refine Chunking.runPieces_emits (World.SameBus w)
    World.submitted (fun p => [dmaXfer fd tr.speedHz p]) _ _
    ?_ (World.SameBus.refl w)
  intro p hp s hs
  have hBounds := (Chunking.tiles_pieces hMax
    tr.len).offset_bounds hp
  have hOffset : p.offset % 2 ^ 32 = p.offset :=
    Nat.mod_eq_of_lt (by omega)
  refine ⟨_, ?_, hs.afterSpidev _,
    World.submitted_afterSpidev hBus s _⟩
  rw [spidev_eq, hBus, hOffset]
  rfl

/- The dma-buf a chunk of the framebuffer is sent from. -/
def flushFd (w : World) (ufb : UtinydrmFb) : Int :=
  if 0 ≤ w.bufFd then w.bufFd else ufb.bufFd

/-
  The pieces of it a chunk is sent as, when the transfer
  starts at an offset of the mapping.
-/
def flushPieces
    (w : World) (offset : Nat)
    (p : Chunking.Piece) : List Chunking.Piece :=
  if 0 ≤ w.bufFd then
    Chunking.pieces 30720 p.size
  else
    [⟨offset + p.offset, p.size⟩]

/- The speed of a transfer, filled in when it is not given. -/
def speedOr (spi : SpiDevice) (speedHz : Nat) : Nat :=
  if speedHz = 0 then spi.maxSpeedHz else speedHz

theorem spiSync_submits
    (hBus : ∀ n, env.spidev n = none)
    (spi : SpiDevice) (speedHz bpw : Nat)
    {w : World} {ufb : UtinydrmFb} {offset : Nat}
    {p : Chunking.Piece}
    (hDisjoint : w.MappingsDisjoint)
    (hMem : ufb ∈ w.fbs)
    (hStart : offset + p.offset < ufb.mapSize.toNat)
    (hSize : p.size < 2 ^ 32) :
    ∃ w', spiSync env spi
        { first :=
            { txBuf := some
                (.mapped (ufb.map + (offset + p.offset)))
              len := p.size
              bitsPerWord := bpw
              speedHz := speedHz } } w = .ok 0 w' ∧
      World.SameBus w w' ∧
      w'.submitted = w.submitted ++
        (flushPieces w offset p).map
          (dmaXfer (flushFd w ufb) (speedOr spi speedHz)) := by
  have hOffset : (offset + p.offset) % 2 ^ 32 =
      offset + p.offset := by
    have hSmall := ufb.mapSize.toNat_lt
    exact Nat.mod_eq_of_lt (by omega)
  rw [spiSync_framebuffer spi rfl
    (hDisjoint.find?_eq hMem hStart)]
  unfold flushPieces flushFd
  split
  case isTrue hShared =>
    rcases spiBufTransfer_submits hBus
        (if speedHz = 0 then
          { txBuf := some
              (.mapped (ufb.map + (offset + p.offset)))
            len := p.size
            bitsPerWord := bpw
            speedHz := spi.maxSpeedHz }
        else
          { txBuf := some
              (.mapped (ufb.map + (offset + p.offset)))
            len := p.size
            bitsPerWord := bpw
            speedHz := speedHz })
        w.bufFd (by split <;> exact hSize) w with
      ⟨w', hRun, hSame, hSubmitted⟩
    refine ⟨w', hRun, hSame, ?_⟩
    rw [hSubmitted, speedOr]
    split <;> rfl
  case isFalse hOwn =>
    refine ⟨_, ?_, (World.SameBus.refl w).afterSpidev _,
      World.submitted_afterSpidev hBus w _⟩
    rw [spidev_eq, hBus]
    simp only [iocOf, Ptr.diff, speedOr, Nat.add_sub_cancel_left,
      hOffset]
    rfl

end Utinydrm

------------------------------------------------------------
-- A Whole Transfer
------------------------------------------------------------

namespace Utinydrm

variable {env : Env}

section Flush

variable (hBus : ∀ n, env.spidev n = none)
variable {spi : SpiDevice} {bpw : Nat}
variable (hAsIs : SentAsIs spi bpw)
variable {w : World} {ufb : UtinydrmFb} {offset len : Nat}
variable (hDisjoint : w.MappingsDisjoint)
variable (hMem : ufb ∈ w.fbs)
variable (hInside : offset + len ≤ ufb.mapSize.toNat)

include hBus hAsIs hDisjoint hMem hInside

/- The pieces a transfer from the mapping is sent as. -/
theorem tinydrmSpiTransfer_submits
    (speedHz : Nat) (swapBuf : Option Nat)
    {maxChunk : Nat} (hMax : 0 < maxChunk) :
    ∃ w', tinydrmSpiTransfer env spi speedHz none bpw
        (.mapped (ufb.map + offset)) len swapBuf maxChunk w =
          .ok 0 w' ∧
      w'.submitted = w.submitted ++
        ((Chunking.pieces maxChunk len).flatMap
          (flushPieces w offset)).map
            (dmaXfer (flushFd w ufb) (speedOr spi speedHz)) := by
  have hSmall := ufb.mapSize.toNat_lt
  have hBody : ∀ p ∈ Chunking.pieces maxChunk len,
      ∀ s, World.SameBus w s →
      ∃ s', spiSync env spi
          { first :=
              { txBuf := some
                  ((Ptr.mapped (ufb.map + offset)).add p.offset)
                len := p.size
                bitsPerWord := bpw
                speedHz := speedHz } } s = .ok 0 s' ∧
        World.SameBus w s' ∧
        s'.submitted = s.submitted ++
          (flushPieces w offset p).map
            (dmaXfer (flushFd w ufb)
              (speedOr spi speedHz)) := by
    intro p hp s hs
    have hBounds := (Chunking.tiles_pieces hMax
      len).offset_bounds hp
    have hPos := Chunking.size_pos_of_mem_pieces hMax hp
    have hDisjoint' : s.MappingsDisjoint := by
      rwa [World.MappingsDisjoint, hs.fbs]
    have hMem' : ufb ∈ s.fbs := by rwa [hs.fbs]
    have hStart : offset + p.offset < ufb.mapSize.toNat := by
      omega
    rcases spiSync_submits hBus spi speedHz bpw hDisjoint'
        hMem' hStart (by omega) with
      ⟨s', hRun, hSame, hSubmitted⟩
    refine ⟨s', ?_, hs.trans hSame, ?_⟩
    · rw [← hRun]
      simp [Ptr.add, Nat.add_assoc]
    · rw [hSubmitted]
      simp [flushPieces, flushFd, hs.bufFd]
  rw [hAsIs.transfer_eq, Chunking.chunkLoop_eq_runPieces _ hMax,
    List.map_flatMap]
  rcases Chunking.runPieces_emits (World.SameBus w)
      World.submitted
      (fun p => (flushPieces w offset p).map
        (dmaXfer (flushFd w ufb) (speedOr spi speedHz)))
      (fun chunkOffset chunk =>
        spiSync env spi
          { first :=
              { txBuf := some
                  ((Ptr.mapped (ufb.map + offset)).add
                    chunkOffset)
                len := chunk
                bitsPerWord := bpw
                speedHz := speedHz } })
      _ hBody (World.SameBus.refl w) with
    ⟨w', hRun, _, hSubmitted⟩
  exact ⟨w', hRun, hSubmitted⟩

/- Nothing is sent by a transfer in chunks of no bytes. -/
theorem tinydrmSpiTransfer_stuck
    (speedHz : Nat) (swapBuf : Option Nat)
    (hLen : 0 < len) :
    ∃ w', tinydrmSpiTransfer env spi speedHz none bpw
        (.mapped (ufb.map + offset)) len swapBuf 0 w =
          .error .hang w' := by
  rw [hAsIs.transfer_eq]
  refine Chunking.chunkLoop_zero Fault.hang (World.SameBus w) ?_
    hLen (World.SameBus.refl w)
  intro s hs
  have hDisjoint' : s.MappingsDisjoint := by
    rwa [World.MappingsDisjoint, hs.fbs]
  have hMem' : ufb ∈ s.fbs := by rwa [hs.fbs]
  have hStart : offset + 0 < ufb.mapSize.toNat := by omega
  rcases spiSync_submits (p := ⟨0, 0⟩) hBus spi speedHz bpw
      hDisjoint' hMem' hStart (by decide) with
    ⟨s', hRun, hSame, _⟩
  exact ⟨s', hRun, hs.trans hSame⟩

end Flush

/- The pieces of a tiling, as transfers of one dma-buf. -/
theorem map_dmaPiece_dmaXfer
    (fd : Int) (speedHz : Nat) (ps : List Chunking.Piece) :
    (ps.map (dmaXfer fd speedHz)).map dmaPiece = ps := by
  have hPiece : dmaPiece ∘ dmaXfer fd speedHz = id := rfl
  rw [List.map_map, hPiece, List.map_id]

/-
  With a descriptor of the framebuffer every chunk is sent
  from its place in the mapping.
-/
theorem tiles_flushPieces_ownFd
    {w : World} {offset maxChunk len : Nat}
    (hOwn : w.bufFd < 0)
    (hMax : 0 < maxChunk) :
    Chunking.Tiles offset
      ((Chunking.pieces maxChunk len).flatMap
        (flushPieces w offset)) (offset + len) := by
  have hCut : flushPieces w offset =
      fun p => [⟨offset + p.offset, p.size⟩] := by
    funext p
    rw [flushPieces, if_neg (by omega)]
  rw [hCut, ← List.map_eq_flatMap]
  exact (Chunking.tiles_pieces hMax len).shift offset

/- With the shared one, a single chunk is. -/
theorem tiles_flushPieces_single
    {w : World} {offset maxChunk len : Nat}
    (hShared : 0 ≤ w.bufFd)
    (hLen : 0 < len) (hFits : len ≤ maxChunk) :
    Chunking.Tiles 0
      ((Chunking.pieces maxChunk len).flatMap
        (flushPieces w offset)) len := by
  simp only [Chunking.pieces_of_le hLen hFits,
    List.flatMap_singleton, flushPieces, if_pos hShared]
  exact Chunking.tiles_pieces (by decide) len

/- The second of two chunks is sent from the start again. -/
theorem not_tiles_flushPieces
    {w : World} {offset maxChunk len start stop : Nat}
    (hShared : 0 ≤ w.bufFd)
    (hMax : 0 < maxChunk) (hLong : maxChunk < len) :
    ¬ Chunking.Tiles start
      ((Chunking.pieces maxChunk len).flatMap
        (flushPieces w offset)) stop := by
  intro hTiles
  rcases Chunking.pieces_of_lt hMax hLong with
    ⟨size, rest, hSize, hPieces⟩
  simp only [hPieces, List.flatMap_cons, flushPieces,
    if_pos hShared] at hTiles
  rcases hTiles.of_append with ⟨middle, hFirst, hRest⟩
  -- the first chunk ends where it is long, not at the start
  have hInner : 0 < 30720 := by decide
  have hEnd :=
    (Chunking.tiles_pieces hInner maxChunk).stop_eq
  have hMiddle := hFirst.stop_eq
  have hSecond : ∃ more, Chunking.pieces 30720 size =
      ⟨0, min size 30720⟩ :: more :=
    Chunking.pieces_eq_cons 30720 hSize
  rcases hSecond with ⟨more, hSecond⟩
  rw [hSecond] at hRest
  have hBack : 0 = middle := hRest.1
  omega

/-
  A transfer from a framebuffer of the process is sent as
  consecutive ranges if and only if it is empty, or the
  process has no descriptor of the kernel's, or a single
  chunk is enough.
-/
theorem chunked_flush_consecutive_iff
    (env : Env) (hBus : ∀ n, env.spidev n = none)
    (spi : SpiDevice) (speedHz bpw : Nat)
    (hAsIs : SentAsIs spi bpw)
    (w : World) (ufb : UtinydrmFb)
    (hDisjoint : w.MappingsDisjoint) (hMem : ufb ∈ w.fbs)
    (offset len : Nat)
    (hInside : offset + len ≤ ufb.mapSize.toNat)
    (swapBuf : Option Nat) (maxChunk : Nat) :
    SendsConsecutively
        (tinydrmSpiTransfer env spi speedHz none bpw
          (.mapped (ufb.map + offset)) len swapBuf maxChunk)
        w len ↔
      len = 0 ∨
        (0 < maxChunk ∧ (w.bufFd < 0 ∨ len ≤ maxChunk)) := by
  rcases Nat.eq_zero_or_pos len with hLen | hLen
  · -- an empty transfer sends nothing
    subst hLen
    refine iff_of_true ⟨w, [], ?_, by simp, 0, 0, by simp, rfl⟩
      (Or.inl rfl)
    rw [hAsIs.transfer_eq]
    rfl
  rcases Nat.eq_zero_or_pos maxChunk with hMax | hMax
  · subst hMax
    refine iff_of_false ?_ (by omega)
    rintro ⟨w', _, hRun, _⟩
    rcases tinydrmSpiTransfer_stuck hBus hAsIs hDisjoint hMem
        hInside speedHz swapBuf hLen with ⟨s, hStuck⟩
    cases hStuck.symm.trans hRun
  rcases tinydrmSpiTransfer_submits hBus hAsIs hDisjoint hMem
      hInside speedHz swapBuf hMax with
    ⟨w', hRun, hSubmitted⟩
  have hRanges : ∀ ps : List Chunking.Piece,
      ∀ utr ∈ ps.map
        (dmaXfer (flushFd w ufb) (speedOr spi speedHz)),
        utr.txBuf = none ∧ utr.txDmaFd = flushFd w ufb := by
    intro ps utr hUtr
    rcases List.mem_map.mp hUtr with ⟨p, _, rfl⟩
    exact ⟨rfl, rfl⟩
  constructor
  · rintro ⟨s, xfers, hRun', hXfers, _, start, _, hTiles⟩
    cases hRun.symm.trans hRun'
    rw [hSubmitted, List.append_cancel_left_eq] at hXfers
    rw [← hXfers, map_dmaPiece_dmaXfer] at hTiles
    by_contra hNot
    exact not_tiles_flushPieces (by omega) hMax (by omega)
      hTiles
  · intro hCond
    refine ⟨w', _, hRun, hSubmitted, flushFd w ufb,
      if 0 ≤ w.bufFd then 0 else offset, hRanges _, ?_⟩
    rw [map_dmaPiece_dmaXfer]
    split
    case isTrue hShared =>
      rw [Nat.zero_add]
      exact tiles_flushPieces_single hShared hLen (by omega)
    case isFalse hOwn =>
      exact tiles_flushPieces_ownFd (by omega) hMax

/- The whole of it, with its own descriptor. -/
theorem chunked_flush_consecutive_display :
    SendsConsecutively
      (tinydrmSpiTransfer Env.granting mainSpi 0 none 16
        (.mapped (2 ^ 20 + 0)) 153600 none 4096)
      { World.atProbe (-1) with fbs := [.display] } 153600 :=
  (chunked_flush_consecutive_iff Env.granting (fun _ => rfl)
    mainSpi 0 16 ⟨Or.inr rfl, rfl⟩
    { World.atProbe (-1) with fbs := [.display] } .display
    (List.pairwise_singleton _ _) (List.mem_singleton.mpr rfl)
    0 153600 (by decide) none 4096).mpr
    (Or.inr ⟨by decide, Or.inl (by decide)⟩)

/-
  Two chunks of four bytes with a descriptor of the kernel's
  are both sent from the start.
-/
theorem chunked_flush_not_consecutive :
    ¬ ∀ (env : Env) (spi : SpiDevice) (speedHz bpw : Nat)
      (w : World) (ufb : UtinydrmFb) (offset len : Nat)
      (swapBuf : Option Nat) (maxChunk : Nat),
      (∀ n, env.spidev n = none) →
      SentAsIs spi bpw → w.MappingsDisjoint → ufb ∈ w.fbs →
      offset + len ≤ ufb.mapSize.toNat → 0 < maxChunk →
      SendsConsecutively
        (tinydrmSpiTransfer env spi speedHz none bpw
          (.mapped (ufb.map + offset)) len swapBuf maxChunk)
        w len := by
  intro hClaim
  rcases hClaim Env.granting mainSpi 0 8
      { World.atProbe 3 with fbs := [.display] } .display
      0 8 none 4 (fun _ => rfl) ⟨Or.inl rfl, rfl⟩
      (List.pairwise_singleton _ _)
      (List.mem_singleton.mpr rfl) (by decide) (by decide) with
    ⟨w', xfers, hRun, hXfers, _, start, _, hTiles⟩
  have hBoth : ∃ s, tinydrmSpiTransfer Env.granting mainSpi 0
      none 8 (.mapped (2 ^ 20 + 0)) 8 none 4
      { World.atProbe 3 with fbs := [.display] } = .ok 0 s ∧
      s.submitted.map dmaPiece = [⟨0, 4⟩, ⟨0, 4⟩] :=
    ⟨_, rfl, rfl⟩
  rcases hBoth with ⟨s, hRun', hPieces⟩
  cases hRun'.symm.trans hRun
  rw [hXfers, List.map_append] at hPieces
  have hNone : ({ World.atProbe 3 with
      fbs := [UtinydrmFb.display] } : World).submitted = [] :=
    rfl
  rw [hNone, List.map_nil, List.nil_append] at hPieces
  rw [hPieces] at hTiles
  have hFirst : 0 = start := hTiles.1
  have hSecond : 0 = start + 4 := hTiles.2.1
  omega

end Utinydrm
