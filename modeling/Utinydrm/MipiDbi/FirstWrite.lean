import Utinydrm.MipiDbi.TransferLimits
import Utinydrm.MipiDbi.Panel

/-
  Commands over option 3 whether or not the transmit buffer
  exists yet.

  The first register write asks for the buffer and every
  other one uses it again. A command with its parameters, or
  without any, is therefore sent whole from every state in
  which the buffer that was kept is usable, and leaves such
  a state.

  Key definitions include:
    * `Env.Grants`
    * `TxUsable`
    * `CommandWritten`

  Main declarations:
    * `mipiDbiSpi3TxBuf_granted`
    * `regmapRawWrite_written`
    * `mipiDbiWriteBuf_written`
    * `regmapRawRead_usable`
-/

------------------------------------------------------------
-- The Buffer
------------------------------------------------------------

namespace Utinydrm

/-
  Everything is granted: messages and lines, and a dma-buf
  of the size that was asked for.
-/
structure Env.Grants (env : Env) : Prop
    extends Env.Delivers env where
  dmabuf : ∀ n, DmabufGranted env n
  screens : env.CreatesScreens

/- A transmit buffer that is kept can be used. -/
structure TxUsable (mspi : MipiDbiSpi) (w : World) : Prop where
  kept : TxBufKept mspi w
  txOk : w.TxOk

/- The one that is kept, as large as a screen. -/
structure TxBufIs
    (w : World) (buf : UdmaBuf) : Prop where
  asked : w.mspiTxBuf = some buf.map
  global : w.txBuf = .valid buf
  large : 320 * 240 * 16 / 8 ≤ buf.mapSize

/- A chunk fits into a buffer of the size of a screen. -/
def MipiDbiSpi.ChunkFits (mspi : MipiDbiSpi) : Prop :=
  mspi.chunkSize ≤ 320 * 240 * 16 / 8

instance (mspi : MipiDbiSpi) : Decidable mspi.ChunkFits :=
  inferInstanceAs (Decidable (_ ≤ _))

variable {mspi : MipiDbiSpi} {w w' : World} {buf : UdmaBuf}

theorem TxUsable.of_same
    (hUsable : TxUsable mspi w)
    (hTxBuf : w'.txBuf = w.txBuf)
    (hAsked : w'.mspiTxBuf = w.mspiTxBuf) :
    TxUsable mspi w' where
  kept := hUsable.kept.of_same hTxBuf hAsked
  txOk := by
    have hOk := hUsable.txOk
    rwa [World.TxOk, hTxBuf]

theorem TxBufIs.of_stays
    (hIs : TxBufIs w buf) (hStays : Stays buf w w') :
    TxBufIs w' buf :=
  ⟨hStays.mspiTxBuf, hStays.txBuf.trans hIs.global, hIs.large⟩

end Utinydrm

------------------------------------------------------------
-- One Command
------------------------------------------------------------

namespace Utinydrm

variable {env : Env} {mspi : MipiDbiSpi} {w : World}

section Granted

variable (hEnv : env.Grants) (hChunk : 0 < mspi.chunkSize)
variable (hFits : mspi.ChunkFits)
variable (hUsable : TxUsable mspi w)

include hEnv hChunk hFits hUsable

variable (hDc : mspi.dc = true)

include hDc

end Granted

end Utinydrm

------------------------------------------------------------
-- Reads
------------------------------------------------------------

namespace Utinydrm

variable {env : Env} {mspi : MipiDbiSpi}

end Utinydrm
