import Utinydrm.MipiDbi.Regmap

/-
  Setting up a register map, in `include/linux/regmap.h`.

  Key definitions include:
    * `RegmapConfig`, `RegmapFormat`
    * `regmapFormatOf`

  Main declarations:
    * `regmapFormatOf_ok`
-/

------------------------------------------------------------
-- Formats
------------------------------------------------------------

namespace Utinydrm

/- `struct regmap_config`, less the caches. -/
structure RegmapConfig where
  regBits : Nat
  regStride : Nat
  padBits : Nat
  valBits : Nat
deriving DecidableEq, Repr

/- `struct regmap_format`, with the shift of the registers. -/
structure RegmapFormat where
  bufSize : Nat
  regBytes : Nat
  padBytes : Nat
  valBytes : Nat
  regShift : Nat
  regStride : Nat
deriving DecidableEq, Repr

/- `DIV_ROUND_UP`. -/
def divRoundUp (n d : Nat) : Nat := (n + d - 1) / d

/-
  `__regmap_init`, between its two allocations. Registers of
  eight bits with their shift are formatted, and values of
  eight bits.
-/
def regmapFormatOf
    (config : RegmapConfig) : Except Int RegmapFormat :=
  let regShift := config.padBits % 8
  if config.regBits + regShift ≠ 8 then
    .error (-EINVAL)
  else if config.valBits ≠ 8 then
    .error (-EINVAL)
  else
    .ok
      { bufSize := divRoundUp
          (config.regBits + config.valBits + config.padBits) 8
        regBytes := divRoundUp config.regBits 8
        padBytes := config.padBits / 8
        valBytes := divRoundUp config.valBits 8
        regShift := regShift
        regStride :=
          if config.regStride ≠ 0 then config.regStride else 1 }

/- The configuration of `mipi_dbi_spi_init`. -/
def mipiDbiRegmapConfig : RegmapConfig where
  regBits := 8
  regStride := 0
  padBits := 0
  valBits := 8

/-
  The buffer of a map that is set up holds a register byte,
  the padding and a value byte, and nothing more.
-/
theorem regmapFormatOf_ok
    {config : RegmapConfig} {format : RegmapFormat}
    (hFormat : regmapFormatOf config = .ok format) :
    format.regBytes = 1 ∧ format.valBytes = 1 ∧
      format.bufSize = 1 + format.padBytes + 1 ∧
      format.regShift < 8 ∧ 0 < format.regStride := by
  unfold regmapFormatOf at hFormat
  simp only at hFormat
  split at hFormat
  case isTrue => cases hFormat
  case isFalse hReg =>
    split at hFormat
    case isTrue => cases hFormat
    case isFalse hVal =>
      cases hFormat
      simp only [divRoundUp]
      refine ⟨by omega, by omega, by omega, by omega, ?_⟩
      split
      case isTrue hStride => exact Nat.pos_of_ne_zero hStride
      case isFalse => exact Nat.one_pos

/- That of the driver has no padding and does not shift. -/
theorem regmapFormatOf_mipiDbi :
    regmapFormatOf mipiDbiRegmapConfig =
      .ok
        { bufSize := regBytes + padBytes + valBytes
          regBytes := regBytes
          padBytes := padBytes
          valBytes := valBytes
          regShift := 0
          regStride := 1 } := rfl

end Utinydrm
