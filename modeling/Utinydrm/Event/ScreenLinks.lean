import Utinydrm.Event.Screen
import Utinydrm.Event.SerialFlush

/-
  The panel as a screen over each of the options.

  Over option 3 every pixel arrives, with its bytes swapped
  where the controller does not swap them. Over option 1 with
  messages of bytes they arrive as they are, and those clips
  are left out of which the last pixel would be lost.

  Main declarations:
    * `wireLink_paints`, `serialLink_paints`
    * `panel_refines_screen`
    * `panel_refines_screen_serially`
-/

------------------------------------------------------------
-- Option 3
------------------------------------------------------------

namespace Utinydrm

variable {env : Env} {mspi : MipiDbiSpi} {w w' : World}

/- The buffers are ready when they are apart. -/
theorem TxBufIs.ready
    {buf : UdmaBuf} (hIs : TxBufIs w buf)
    (hFits : mspi.ChunkFits) (hApart : w.BuffersApart)
    (hOwn : tinydrmSpiBpwSupported mspi.spi 16 = true →
      w.bufFd < 0) :
    BuffersReady mspi w buf where
  asked := hIs.asked
  global := hIs.global
  large := hFits.trans hIs.large
  fd := hApart.txBufFd buf hIs.global
  disjoint := hApart.disjoint
  apart := fun ufb hMem =>
    (hApart.txBufApart buf hIs.global ufb hMem).2
  fds := hApart.fds
  fdsApart := fun ufb hMem => ⟨hApart.fdsUsed ufb hMem,
    (hApart.txBufApart buf hIs.global ufb hMem).1⟩
  own := hOwn

end Utinydrm

------------------------------------------------------------
-- Option 1
------------------------------------------------------------

namespace Utinydrm

variable {env : Env}

theorem serialLink_paints
    (hEnv : env.Delivers)
    (spi : SpiDevice) (writeOnly : Bool) (mipi : MipiDbi)
    (hMspi : mipi.mspi = mipiDbiSpiInit spi false writeOnly)
    (hNine : tinydrmSpiBpwSupported spi 9 = false)
    (hRoom : 9 ≤ mipiDbiSpiClampSize spi 4096) :
    serialLink.Paints env mipi id fun clip =>
      ¬ TailLost spi (clip.width * clip.height) where
  works := by
    rw [hMspi]
    exact serialLink_works hEnv spi writeOnly hNine hRoom
  flush := by
    intro w w' fb clip ret hTx hMem hSize hInside hWhole hRun _
    rcases mipiDbiFbFlush_serial hEnv spi writeOnly hNine hRoom
        hTx hMem hSize hInside mipi hMspi with
      ⟨s, sent, hRun', hStep, hCarries⟩
    cases hRun.symm.trans hRun'
    rw [serialPixels_of_whole hWhole] at hCarries
    rw [List.map_id]
    exact hStep.sends hTx hCarries

/-
  So it does when the words of 9 bits are packed into bytes,
  as long as no flush leaves two or three pixels for its last
  message.
-/
theorem panel_refines_screen_serially
    (env : Env) (hEnv : env.Delivers)
    (spi : SpiDevice) (reset backlight regulator : Bool)
    (hNine : tinydrmSpiBpwSupported spi 9 = false)
    (hRoom : 9 ≤ mipiDbiSpiClampSize spi 4096)
    (w₀ : World) (hProbed : w₀.Probed)
    (panel : Panel) (history : List Happening)
    (s : World × Raster.Picture UInt16)
    (hRun : Transition.Run
      (ScreenStep env
        (mi0283qtProbe spi false reset backlight regulator) id)
      (FlushesShowable fun clip =>
        ¬ TailLost spi (clip.width * clip.height))
      (w₀, (panel.run w₀.serial).picture) history s) :
    (panel.run s.1.serial).picture = s.2 :=
  (serialLink_paints hEnv spi false
    (mi0283qtProbe spi false reset backlight regulator) rfl
    hNine hRoom).shows rfl
      (World.txOk_of_null hProbed.txBuf) hRun

/- The white pixel again. -/
theorem panel_refines_screen_serially_white :
    ∃ (w : World) (picture : Raster.Picture UInt16),
      ((Panel.plain 0).run w.serial).picture = picture ∧
      picture 0 0 = 0xFFFF := by
  rcases exists_whiteRun
      (mi0283qtProbe mainSpi false true false false) id
      (fun clip => ¬ TailLost mainSpi (clip.width * clip.height))
      (by decide +kernel) (by decide) with
    ⟨w, picture, hRun, hWhite⟩
  refine ⟨w, picture, ?_, hWhite⟩
  exact panel_refines_screen_serially Env.onePixel
    grants_onePixel.toDelivers mainSpi true false false rfl
    (by decide) (World.atProbe (-1))
    (World.probed_atProbe (-1)) (.plain 0) whiteRun
    (w, picture) hRun

end Utinydrm
