import Utinydrm.Lib.Effect
import Mathlib.Data.List.Basic
import Mathlib.Algebra.GroupWithZero.Nat
import Mathlib.Data.List.Infix
import Mathlib.Algebra.Order.Group.Nat

/-
  Cutting a length into pieces of a bounded size, and the
  loop that works through them.

  The loop is the one C programs write as
    `while (len) { chunk = min(len, max); ..; len -= chunk; }`
  with an early exit on the first result that is not zero.
  For a positive bound it is a walk over the list `pieces`,
  so that what it does is proved by induction on that list.
  For the bound zero and a positive length it never ends.

  Main declarations:
    * `Chunking.Tiles` and `Chunking.Tiles.flatMap_slice`
    * `Chunking.pieces` and `Chunking.tiles_pieces`
    * `Chunking.CutInto` and `Chunking.cutInto_pieces`
    * `Chunking.chunkLoop` and
      `Chunking.chunkLoop_eq_runPieces`
    * `Chunking.runPieces_emits`
    * `Chunking.runPieces_emits_prefix`
    * `Chunking.runPieces_emitsUpTo`
-/

------------------------------------------------------------
-- Tilings
------------------------------------------------------------

namespace Chunking

/- A piece of a buffer: where it starts and how long it is. -/
structure Piece where
  offset : Nat
  size : Nat
deriving DecidableEq, Repr

/-
  The pieces follow each other without a gap or an overlap
  from `start` to `stop`.
-/
def Tiles : Nat → List Piece → Nat → Prop
| start, [], stop => start = stop
| start, piece :: rest, stop =>
    piece.offset = start ∧
      Tiles (start + piece.size) rest stop

/- The total length of a list of pieces. -/
def total (ps : List Piece) : Nat :=
  (ps.map Piece.size).sum

/- The values of `f` at the indices of a piece. -/
def slice {α : Type} (f : Nat → α) (piece : Piece) :
    List α :=
  (List.range piece.size).map fun i => f (piece.offset + i)

namespace Tiles

theorem stop_eq
    {start stop : Nat} {ps : List Piece}
    (hTiles : Tiles start ps stop) :
    stop = start + total ps := by
  induction ps generalizing start with
  | nil =>
      simp only [Tiles] at hTiles
      simp [total, hTiles]
  | cons piece rest ih =>
      have hRest := ih hTiles.2
      simp only [total, List.map_cons, List.sum_cons]
        at hRest ⊢
      omega

theorem append
    {start middle stop : Nat}
    {left right : List Piece}
    (hLeft : Tiles start left middle)
    (hRight : Tiles middle right stop) :
    Tiles start (left ++ right) stop := by
  induction left generalizing start with
  | nil =>
      simp only [Tiles] at hLeft
      simpa [hLeft] using hRight
  | cons piece rest ih =>
      exact ⟨hLeft.1, ih hLeft.2⟩

/- Moving every piece by the same distance keeps a tiling. -/
theorem shift
    {start stop : Nat} {ps : List Piece}
    (hTiles : Tiles start ps stop)
    (distance : Nat) :
    Tiles (distance + start)
      (ps.map fun p => ⟨distance + p.offset, p.size⟩)
      (distance + stop) := by
  induction ps generalizing start with
  | nil =>
      simp only [Tiles] at hTiles
      simp [Tiles, hTiles]
  | cons piece rest ih =>
      refine ⟨by simp [hTiles.1], ?_⟩
      have hRest := ih hTiles.2
      rwa [← Nat.add_assoc] at hRest

/-
  Replacing every piece of a tiling by a tiling of that
  piece gives a tiling.
-/
theorem flatMap
    {start stop : Nat} {ps : List Piece}
    {cut : Piece → List Piece}
    (hTiles : Tiles start ps stop)
    (hCut : ∀ p ∈ ps,
      Tiles p.offset (cut p) (p.offset + p.size)) :
    Tiles start (ps.flatMap cut) stop := by
  induction ps generalizing start with
  | nil => exact hTiles
  | cons piece rest ih =>
      have hPiece := hCut piece (by simp)
      rw [hTiles.1] at hPiece
      exact hPiece.append
        (ih hTiles.2 fun p hp => hCut p (by simp [hp]))

/- Both parts of a tiling tile, with a point in common. -/
theorem of_append
    {start stop : Nat} {left right : List Piece}
    (hTiles : Tiles start (left ++ right) stop) :
    ∃ middle, Tiles start left middle ∧
      Tiles middle right stop := by
  induction left generalizing start with
  | nil => exact ⟨start, rfl, hTiles⟩
  | cons piece rest ih =>
      rcases ih hTiles.2 with ⟨middle, hLeft, hRight⟩
      exact ⟨middle, ⟨hTiles.1, hLeft⟩, hRight⟩

theorem start_le_stop
    {start stop : Nat} {ps : List Piece}
    (hTiles : Tiles start ps stop) :
    start ≤ stop := by
  have hStop := hTiles.stop_eq
  omega

/- Every piece lies between the two ends. -/
theorem offset_bounds
    {start stop : Nat} {ps : List Piece}
    (hTiles : Tiles start ps stop)
    {p : Piece}
    (hp : p ∈ ps) :
    start ≤ p.offset ∧ p.offset + p.size ≤ stop := by
  induction ps generalizing start with
  | nil => simp at hp
  | cons piece rest ih =>
      rcases List.mem_cons.mp hp with hHead | hTail
      · subst hHead
        have hRest := hTiles.2.start_le_stop
        have hOffset := hTiles.1
        omega
      · have hRest := ih hTiles.2 hTail
        omega

/- What comes before a piece is tiled up to that piece. -/
theorem before
    {start stop : Nat} {p : Piece}
    {left right : List Piece}
    (hTiles : Tiles start (left ++ p :: right) stop) :
    Tiles start left p.offset := by
  induction left generalizing start with
  | nil => exact hTiles.1.symm
  | cons piece rest ih => exact ⟨hTiles.1, ih hTiles.2⟩

/- The slices of a tiling put together are one slice. -/
theorem flatMap_slice
    {α : Type} (f : Nat → α)
    {start stop : Nat} {ps : List Piece}
    (hTiles : Tiles start ps stop) :
    ps.flatMap (slice f) =
      slice f ⟨start, stop - start⟩ := by
  induction ps generalizing start with
  | nil =>
      simp only [Tiles] at hTiles
      simp [slice, hTiles]
  | cons piece rest ih =>
      have hOffset := hTiles.1
      have hStop := hTiles.2.start_le_stop
      have hSize : stop - start =
          piece.size + (stop - (start + piece.size)) := by
        omega
      rw [List.flatMap_cons, ih hTiles.2]
      simp only [slice, hOffset]
      rw [hSize, List.range_add, List.map_append,
        List.map_map]
      congr 2
      funext i
      simp [Nat.add_assoc]

end Tiles

end Chunking

------------------------------------------------------------
-- The Pieces Of A Length
------------------------------------------------------------

namespace Chunking

/- Cut `len` bytes from `offset` on, for at most `fuel` steps. -/
def piecesFrom (max : Nat) : Nat → Nat → Nat → List Piece
| 0, _, _ => []
| fuel + 1, offset, len =>
    if len = 0 then
      []
    else
      ⟨offset, min len max⟩ ::
        piecesFrom max fuel (offset + min len max)
          (len - min len max)

/- The pieces of at most `max` that make up `len`. -/
def pieces (max len : Nat) : List Piece :=
  piecesFrom max len 0 len

variable {max : Nat}

theorem tiles_piecesFrom
    (hMax : 0 < max) :
    ∀ fuel offset len, len ≤ fuel →
      Tiles offset (piecesFrom max fuel offset len)
        (offset + len)
| 0, offset, len, hFuel => by
    have hLen : len = 0 := by omega
    simp [piecesFrom, Tiles, hLen]
| fuel + 1, offset, len, hFuel => by
    by_cases hLen : len = 0
    · simp [piecesFrom, Tiles, hLen]
    · simp only [piecesFrom, hLen, if_false]
      refine ⟨rfl, ?_⟩
      have hRest := tiles_piecesFrom hMax fuel
        (offset + min len max) (len - min len max)
        (by omega)
      have hStop : offset + min len max +
          (len - min len max) = offset + len := by
        omega
      rwa [hStop] at hRest

theorem tiles_pieces
    (hMax : 0 < max) (len : Nat) :
    Tiles 0 (pieces max len) len := by
  simpa [pieces] using
    tiles_piecesFrom hMax len 0 len (le_refl len)

/-
  A piece is not empty, starts a whole number of chunks
  after the first one, and is as long as the chunk size and
  the rest of the length allow.
-/
theorem mem_piecesFrom
    (hMax : 0 < max)
    {p : Piece} :
    ∀ fuel offset len, p ∈ piecesFrom max fuel offset len →
      ∃ k, p.offset = offset + k * max ∧
        k * max < len ∧
        p.size = min (len - k * max) max
| 0, offset, len, hp => by
    simp [piecesFrom] at hp
| fuel + 1, offset, len, hp => by
    by_cases hLen : len = 0
    · simp [piecesFrom, hLen] at hp
    · simp only [piecesFrom, hLen, if_false,
        List.mem_cons] at hp
      rcases hp with hHead | hTail
      · refine ⟨0, ?_⟩
        subst hHead
        simp
        omega
      · rcases mem_piecesFrom hMax fuel _ _ hTail with
          ⟨k, hOffset, hLess, hSize⟩
        have hFull : min len max = max := by
          have hPos : 0 < len - min len max := by omega
          omega
        rw [hFull] at hOffset hLess hSize
        refine ⟨k + 1, ?_, ?_, ?_⟩
        · rw [Nat.succ_mul]
          omega
        · rw [Nat.succ_mul]
          omega
        · rw [hSize, Nat.succ_mul]
          congr 1
          omega

theorem mem_pieces
    (hMax : 0 < max)
    {p : Piece} {len : Nat}
    (hp : p ∈ pieces max len) :
    ∃ k, p.offset = k * max ∧ k * max < len ∧
      p.size = min (len - k * max) max := by
  simpa using mem_piecesFrom hMax len 0 len hp

theorem size_pos_of_mem_pieces
    (hMax : 0 < max)
    {p : Piece} {len : Nat}
    (hp : p ∈ pieces max len) :
    0 < p.size := by
  rcases mem_pieces hMax hp with ⟨k, _, hLess, hSize⟩
  omega

theorem size_le_of_mem_pieces
    (hMax : 0 < max)
    {p : Piece} {len : Nat}
    (hp : p ∈ pieces max len) :
    p.size ≤ max := by
  rcases mem_pieces hMax hp with ⟨k, _, _, hSize⟩
  omega

/- What is cut into whole units has pieces of whole units. -/
theorem unit_dvd_of_mem_pieces
    (hMax : 0 < max)
    {p : Piece} {unit len : Nat}
    (hUnitMax : unit ∣ max) (hUnitLen : unit ∣ len)
    (hp : p ∈ pieces max len) :
    unit ∣ p.offset ∧ unit ∣ p.size := by
  rcases mem_pieces hMax hp with ⟨k, hOffset, _, hSize⟩
  have hStart : unit ∣ k * max := Nat.dvd_mul_left_of_dvd hUnitMax k
  have hRest : unit ∣ len - k * max :=
    Nat.dvd_sub hUnitLen hStart
  constructor
  · rw [hOffset]
    exact hStart
  · rw [hSize]
    rcases min_choice (len - k * max) max with hMin | hMin
    · rw [hMin]
      exact hRest
    · rw [hMin]
      exact hUnitMax

theorem pieces_zero : pieces max 0 = [] := rfl

/- The first piece starts at the start. -/
theorem pieces_eq_cons
    (max : Nat) {len : Nat}
    (hLen : 0 < len) :
    ∃ rest, pieces max len = ⟨0, min len max⟩ :: rest := by
  rcases Nat.exists_eq_add_of_lt hLen with ⟨n, hn⟩
  refine ⟨piecesFrom max n (min len max)
    (len - min len max), ?_⟩
  simp [pieces, piecesFrom, hn]

/- A length that fits is one piece. -/
theorem pieces_of_le
    {len : Nat}
    (hLen : 0 < len)
    (hFits : len ≤ max) :
    pieces max len = [⟨0, len⟩] := by
  obtain ⟨n, rfl⟩ : ∃ n, len = n + 1 :=
    ⟨len - 1, by omega⟩
  have hMin : min (n + 1) max = n + 1 := by omega
  have hRest : piecesFrom max n (n + 1) 0 = [] := by
    cases n <;> simp [piecesFrom]
  simp [pieces, piecesFrom, hMin, hRest]

/- What is left behind the pieces that are full. -/
def tailPiece (max offset len : Nat) : List Piece :=
  if len % max = 0 then []
  else [⟨offset + len / max * max, len % max⟩]

theorem piecesFrom_split
    (hMax : 0 < max) :
    ∀ fuel offset len, len ≤ fuel →
      ∃ full, piecesFrom max fuel offset len =
          full ++ tailPiece max offset len ∧
        Tiles offset full (offset + len / max * max) ∧
        ∀ p ∈ full, p.size = max
| 0, offset, len, hFuel => by
    have hLen : len = 0 := by omega
    exact ⟨[], by simp [piecesFrom, tailPiece, hLen],
      by simp [Tiles, hLen], by simp⟩
| fuel + 1, offset, len, hFuel => by
    by_cases hLen : len = 0
    · exact ⟨[], by simp [piecesFrom, tailPiece, hLen],
        by simp [Tiles, hLen], by simp⟩
    by_cases hShort : len < max
    · have hMin : min len max = len := by omega
      have hRest : piecesFrom max fuel (offset + len) 0 = [] := by
        cases fuel <;> simp [piecesFrom]
      refine ⟨[], ?_, ?_, by simp⟩
      · simp [piecesFrom, hLen, hMin, hRest, tailPiece,
          Nat.mod_eq_of_lt hShort, Nat.div_eq_of_lt hShort]
      · simp [Tiles, Nat.div_eq_of_lt hShort]
    · have hLe : max ≤ len := by omega
      have hMin : min len max = max := by omega
      have hDiv := Nat.div_eq_sub_div hMax hLe
      have hMod := Nat.mod_eq_sub_mod hLe
      rcases piecesFrom_split hMax fuel (offset + max)
          (len - max) (by omega) with
        ⟨full, hPieces, hTiles, hSize⟩
      have hEnd : offset + max + (len - max) / max * max =
          offset + len / max * max := by
        rw [hDiv, Nat.succ_mul]
        omega
      refine ⟨⟨offset, max⟩ :: full, ?_, ⟨rfl, ?_⟩, ?_⟩
      · simp only [piecesFrom, hLen, if_false, hMin, hPieces,
          tailPiece, ← hMod, hEnd, List.cons_append]
      · rwa [hEnd] at hTiles
      · intro p hp
        rcases List.mem_cons.mp hp with hHead | hTail
        · rw [hHead]
        · exact hSize p hTail

/- The pieces are full ones and what is left. -/
theorem pieces_split
    (hMax : 0 < max) (len : Nat) :
    ∃ full, pieces max len =
        full ++ tailPiece max 0 len ∧
      Tiles 0 full (len / max * max) ∧
      ∀ p ∈ full, p.size = max := by
  simpa [pieces] using
    piecesFrom_split hMax len 0 len (le_refl len)

/-
  A longer one starts with two pieces, the first of them as
  long as the bound.
-/
theorem pieces_of_lt
    {len : Nat}
    (hMax : 0 < max)
    (hLong : max < len) :
    ∃ size rest, 0 < size ∧
      pieces max len = ⟨0, max⟩ :: ⟨max, size⟩ :: rest := by
  obtain ⟨n, rfl⟩ : ∃ n, len = n + 2 :=
    ⟨len - 2, by omega⟩
  have hMin : min (n + 2) max = max := by omega
  have hLeft : n + 2 - max ≠ 0 := by omega
  refine ⟨min (n + 2 - max) max,
    piecesFrom max n (max + min (n + 2 - max) max)
      (n + 2 - max - min (n + 2 - max) max),
    by omega, ?_⟩
  simp [pieces, piecesFrom, hMin, hLeft]

end Chunking

------------------------------------------------------------
-- Chunks
------------------------------------------------------------

namespace Chunking

variable {α : Type} {max : Nat}

/-
  The parts make up the list, and are full, except for the
  last, which need only fit and not be empty.
-/
structure CutInto
    (max : Nat) (whole : List α) (parts : List (List α)) :
    Prop where
  flatten : parts.flatten = whole
  nonempty : ∀ part ∈ parts, part ≠ []
  bounded : ∀ part ∈ parts, part.length ≤ max
  full : ∀ part ∈ parts.dropLast, part.length = max

@[simp] theorem length_slice (f : Nat → α) (p : Piece) :
    (slice f p).length = p.size := by
  simp [slice]

/- Every piece but the last has the full size. -/
theorem size_of_mem_dropLast_pieces
    (hMax : 0 < max)
    {p : Piece} {len : Nat}
    (hp : p ∈ (pieces max len).dropLast) :
    p.size = max := by
  rcases pieces_split hMax len with ⟨full, hSplit, _, hFull⟩
  rw [hSplit] at hp
  unfold tailPiece at hp
  split at hp
  · rw [List.append_nil] at hp
    exact hFull p (List.mem_of_mem_dropLast hp)
  · rw [List.dropLast_concat] at hp
    exact hFull p hp

/- The pieces of a length cut its slice. -/
theorem cutInto_pieces
    (hMax : 0 < max)
    (f : Nat → α) (len : Nat) :
    CutInto max (slice f ⟨0, len⟩)
      ((pieces max len).map (slice f)) where
  flatten := by
    rw [← List.flatMap_def,
      (tiles_pieces hMax len).flatMap_slice, Nat.sub_zero]
  nonempty := by
    intro part hPart
    rcases List.mem_map.mp hPart with ⟨p, hp, rfl⟩
    have hPos := size_pos_of_mem_pieces hMax hp
    rw [← length_slice f p] at hPos
    exact List.ne_nil_of_length_pos hPos
  bounded := by
    intro part hPart
    rcases List.mem_map.mp hPart with ⟨p, hp, rfl⟩
    rw [length_slice]
    exact size_le_of_mem_pieces hMax hp
  full := by
    intro part hPart
    rw [← List.map_dropLast] at hPart
    rcases List.mem_map.mp hPart with ⟨p, hp, rfl⟩
    rw [length_slice]
    exact size_of_mem_dropLast_pieces hMax hp

end Chunking

------------------------------------------------------------
-- The Loop
------------------------------------------------------------

namespace Chunking

variable {ε σ : Type}

/- Work through `len` bytes from `offset` on. -/
def chunkLoopFrom
    (stuck : ε)
    (max : Nat)
    (body : Nat → Nat → EStateM ε σ Int) :
    Nat → Nat → Nat → EStateM ε σ Int
| 0, _, len => if len = 0 then pure 0 else throw stuck
| fuel + 1, offset, len =>
    if len = 0 then
      pure 0
    else do
      let ret ← body offset (min len max)
      if ret = 0 then
        chunkLoopFrom stuck max body fuel
          (offset + min len max) (len - min len max)
      else
        pure ret

/-
  `while (len) { chunk = min(len, max); ret = body(..);
  if (ret) return ret; len -= chunk; } return 0;` where the
  body is given what was consumed before and the chunk. An
  iteration that consumes something uses one unit of fuel,
  so `len` units are enough unless the loop makes no
  progress: that is the fault `stuck`.
-/
def chunkLoop
    (stuck : ε)
    (max : Nat)
    (body : Nat → Nat → EStateM ε σ Int)
    (len : Nat) : EStateM ε σ Int :=
  chunkLoopFrom stuck max body len 0 len

/- Run the body over the pieces up to the first failure. -/
def runPieces
    (body : Nat → Nat → EStateM ε σ Int) :
    List Piece → EStateM ε σ Int
| [] => pure 0
| piece :: rest => do
    let ret ← body piece.offset piece.size
    if ret = 0 then runPieces body rest else pure ret

theorem chunkLoopFrom_eq_runPieces
    (stuck : ε)
    {max : Nat}
    (hMax : 0 < max)
    (body : Nat → Nat → EStateM ε σ Int) :
    ∀ fuel offset len, len ≤ fuel →
      chunkLoopFrom stuck max body fuel offset len =
        runPieces body (piecesFrom max fuel offset len)
| 0, offset, len, hFuel => by
    have hLen : len = 0 := by omega
    simp [chunkLoopFrom, piecesFrom, runPieces, hLen]
| fuel + 1, offset, len, hFuel => by
    by_cases hLen : len = 0
    · simp [chunkLoopFrom, piecesFrom, runPieces, hLen]
    · simp only [chunkLoopFrom, piecesFrom, hLen, if_false,
        runPieces]
      rw [chunkLoopFrom_eq_runPieces stuck hMax body fuel
        (offset + min len max) (len - min len max)
        (by omega)]

/- A loop with a positive bound walks over the pieces. -/
theorem chunkLoop_eq_runPieces
    (stuck : ε)
    {max : Nat}
    (hMax : 0 < max)
    (body : Nat → Nat → EStateM ε σ Int)
    (len : Nat) :
    chunkLoop stuck max body len =
      runPieces body (pieces max len) :=
  chunkLoopFrom_eq_runPieces stuck hMax body len 0 len
    (le_refl len)

/-
  A loop with the bound zero gets stuck on a positive length
  when nothing it does fails.
-/
theorem chunkLoop_zero
    (stuck : ε)
    (I : σ → Prop)
    {body : Nat → Nat → EStateM ε σ Int}
    (hBody : ∀ s, I s → ∃ s', body 0 0 s = .ok 0 s' ∧ I s')
    {len : Nat} (hLen : 0 < len)
    {s : σ} (hs : I s) :
    ∃ s', chunkLoop stuck 0 body len s =
      .error stuck s' := by
  have hFrom : ∀ fuel s, I s →
      ∃ s', chunkLoopFrom stuck 0 body fuel 0 len s =
        .error stuck s' := by
    intro fuel
    induction fuel with
    | zero =>
        intro s _
        exact ⟨s, by simp [chunkLoopFrom, hLen.ne']⟩
    | succ fuel ih =>
        intro s hs
        rcases hBody s hs with ⟨s₁, hRun, hKeep⟩
        rcases ih s₁ hKeep with ⟨s', hRest⟩
        refine ⟨s', ?_⟩
        rw [chunkLoopFrom, if_neg hLen.ne', Nat.min_zero,
          Effect.bind_of_ok hRun]
        simpa using hRest
  exact hFrom len s hs

/-
  What the body keeps from every state, given a chunk within
  the bound, the loop keeps. Only a loop with the bound zero
  can get stuck, and only when there is something to do.
-/
theorem meets_chunkLoop_le
    {C : Effect.Contract ε σ}
    {stuck : ε} {max len : Nat}
    {body : Nat → Nat → EStateM ε σ Int}
    (hStuck : max = 0 → 0 < len → ∀ s, C.fault stuck s)
    (hBody : ∀ offset chunk s, chunk ≤ max →
      Effect.Meets C (body offset chunk) s)
    (s : σ) :
    Effect.Meets C (chunkLoop stuck max body len) s := by
  rcases Nat.eq_zero_or_pos len with hNone | hSome
  · subst hNone
    exact Effect.meets_pure 0 s
  have hFrom : ∀ fuel offset rest s,
      (0 < max → rest ≤ fuel) → Effect.Meets C
        (chunkLoopFrom stuck max body fuel offset rest) s := by
    intro fuel
    induction fuel with
    | zero =>
        intro offset rest s hFuel
        exact Effect.meets_ite
          (fun _ => Effect.meets_pure _ _)
          (fun hRest =>
            Effect.meets_throw (hStuck (by omega) hSome s))
    | succ fuel ih =>
        intro offset rest s hFuel
        refine Effect.meets_ite
          (fun _ => Effect.meets_pure _ _) (fun _ => ?_)
        refine Effect.meets_bind
          (hBody _ _ _ (Nat.min_le_right _ _))
          fun ret s' _ => ?_
        exact Effect.meets_ite (fun _ => ih _ _ _ (by omega))
          (fun _ => Effect.meets_pure _ _)
  exact hFrom len 0 len s fun _ => le_refl len

/- What it keeps for all chunks. -/
theorem meets_chunkLoop
    {C : Effect.Contract ε σ}
    {stuck : ε} {max len : Nat}
    {body : Nat → Nat → EStateM ε σ Int}
    (hStuck : max = 0 → 0 < len → ∀ s, C.fault stuck s)
    (hBody : ∀ offset chunk s,
      Effect.Meets C (body offset chunk) s)
    (s : σ) :
    Effect.Meets C (chunkLoop stuck max body len) s :=
  meets_chunkLoop_le hStuck
    (fun offset chunk s _ => hBody offset chunk s) s

/- The loop returns zero or what the body returns. -/
theorem returns_chunkLoop
    {Q : Int → Prop}
    {stuck : ε} {max : Nat}
    {body : Nat → Nat → EStateM ε σ Int}
    (hZero : Q 0)
    (hBody : ∀ offset chunk,
      Effect.Returns Q (body offset chunk))
    (len : Nat) :
    Effect.Returns Q (chunkLoop stuck max body len) := by
  have hFrom : ∀ fuel offset rest, Effect.Returns Q
      (chunkLoopFrom stuck max body fuel offset rest) := by
    intro fuel
    induction fuel with
    | zero =>
        intro offset rest
        exact Effect.returns_ite
          (fun _ => Effect.returns_pure hZero)
          (fun _ => Effect.returns_throw stuck)
    | succ fuel ih =>
        intro offset rest
        refine Effect.returns_ite
          (fun _ => Effect.returns_pure hZero) (fun _ => ?_)
        intro s ret s' hRun
        rcases Effect.exists_of_bind_ok hRun with
          ⟨ret₁, s₁, hFirst, hRest⟩
        have hRet := hBody _ _ _ _ _ hFirst
        revert hRest
        split
        · exact ih _ _ s₁ ret s'
        · exact Effect.returns_pure hRet s₁ ret s'
  exact hFrom len 0 len

/-
  The body always succeeds from states satisfying `I`, which
  it keeps, and adds `out` of its piece to what is observed
  of the state: the walk adds the output of every piece.
-/
theorem runPieces_emits
    {γ : Type}
    (I : σ → Prop)
    (emitted : σ → List γ)
    (out : Piece → List γ)
    (body : Nat → Nat → EStateM ε σ Int)
    (ps : List Piece)
    (hBody : ∀ p ∈ ps, ∀ s, I s →
      ∃ s', body p.offset p.size s = .ok 0 s' ∧ I s' ∧
        emitted s' = emitted s ++ out p)
    {s : σ} (hs : I s) :
    ∃ s', runPieces body ps s = .ok 0 s' ∧ I s' ∧
      emitted s' = emitted s ++ ps.flatMap out := by
  induction ps generalizing s with
  | nil => exact ⟨s, rfl, hs, by simp⟩
  | cons piece rest ih =>
      rcases hBody piece (by simp) s hs with
        ⟨s₁, hRun, hKeep, hEmit⟩
      rcases ih (fun p hp => hBody p (by simp [hp])) hKeep with
        ⟨s₂, hRest, hKeep₂, hEmit₂⟩
      refine ⟨s₂, ?_, hKeep₂, ?_⟩
      · rw [runPieces, Effect.bind_of_ok hRun]
        simpa using hRest
      · rw [hEmit₂, hEmit, List.flatMap_cons,
          List.append_assoc]

/-
  The body may fail with a result satisfying `Bad`, adding
  nothing: the walk then stops there, having added the
  output of a proper initial part of the pieces.
-/
theorem runPieces_emits_prefix
    {γ : Type}
    (I : σ → Prop)
    (Bad : Int → Prop)
    (emitted : σ → List γ)
    (out : Piece → List γ)
    (body : Nat → Nat → EStateM ε σ Int)
    (ps : List Piece)
    (hBody : ∀ p ∈ ps, ∀ s, I s →
      ∃ ret s', body p.offset p.size s = .ok ret s' ∧
        I s' ∧
        ((ret = 0 ∧ emitted s' = emitted s ++ out p) ∨
          (ret ≠ 0 ∧ Bad ret ∧ emitted s' = emitted s)))
    {s : σ} (hs : I s) :
    ∃ ret s', runPieces body ps s = .ok ret s' ∧ I s' ∧
      ((ret = 0 ∧
          emitted s' = emitted s ++ ps.flatMap out) ∨
        (ret ≠ 0 ∧ Bad ret ∧
          ∃ sent p unsent, ps = sent ++ p :: unsent ∧
            emitted s' =
              emitted s ++ sent.flatMap out)) := by
  induction ps generalizing s with
  | nil => exact ⟨0, s, rfl, hs, Or.inl ⟨rfl, by simp⟩⟩
  | cons piece rest ih =>
      rcases hBody piece (by simp) s hs with
        ⟨ret, s₁, hRun, hKeep, hResult⟩
      rcases hResult with ⟨hZero, hEmit⟩ | ⟨hNe, hBad, hEmit⟩
      · rcases ih (fun p hp => hBody p (by simp [hp])) hKeep
          with ⟨ret₂, s₂, hRest, hKeep₂, hResult₂⟩
        refine ⟨ret₂, s₂, ?_, hKeep₂, ?_⟩
        · rw [runPieces, Effect.bind_of_ok hRun, hZero]
          simpa using hRest
        rcases hResult₂ with ⟨hZero₂, hEmit₂⟩ |
          ⟨hNe₂, hBad₂, sent, p, unsent, hSplit, hEmit₂⟩
        · refine Or.inl ⟨hZero₂, ?_⟩
          rw [hEmit₂, hEmit, List.flatMap_cons,
            List.append_assoc]
        · refine Or.inr ⟨hNe₂, hBad₂, piece :: sent, p,
            unsent, by simp [hSplit], ?_⟩
          rw [hEmit₂, hEmit, List.flatMap_cons,
            List.append_assoc]
      · refine ⟨ret, s₁, ?_, hKeep, Or.inr ⟨hNe, hBad, [],
          piece, rest, rfl, by simpa using hEmit⟩⟩
        rw [runPieces, Effect.bind_of_ok hRun]
        simp [hNe]

/-
  Part of an output was added to what is observed, from its
  start on, and all of it when the result is zero.
-/
def EmitsUpTo
    {γ : Type}
    (emitted : σ → List γ)
    (s : σ) (ret : Int) (s' : σ) (out : List γ) : Prop :=
  ∃ new, emitted s' = emitted s ++ new ∧ new <+: out ∧
    (ret = 0 → new = out)

/-
  The body returns, having added its output up to some point:
  so does the walk.
-/
theorem runPieces_emitsUpTo
    {γ : Type}
    (I : σ → Prop)
    (emitted : σ → List γ)
    (out : Piece → List γ)
    (body : Nat → Nat → EStateM ε σ Int)
    (ps : List Piece)
    (hBody : ∀ p ∈ ps, ∀ s, I s →
      ∃ ret s', body p.offset p.size s = .ok ret s' ∧
        I s' ∧ EmitsUpTo emitted s ret s' (out p))
    {s : σ} (hs : I s) :
    ∃ ret s', runPieces body ps s = .ok ret s' ∧ I s' ∧
      EmitsUpTo emitted s ret s' (ps.flatMap out) := by
  induction ps generalizing s with
  | nil => exact ⟨0, s, rfl, hs, [], by simp⟩
  | cons piece rest ih =>
      rcases hBody piece (by simp) s hs with
        ⟨ret, s₁, hRun, hKeep, new, hEmit, hPrefix, hAll⟩
      by_cases hZero : ret = 0
      · rcases ih (fun p hp => hBody p (by simp [hp])) hKeep
          with ⟨ret₂, s₂, hRest, hKeep₂, new₂, hEmit₂,
            hPrefix₂, hAll₂⟩
        refine ⟨ret₂, s₂, ?_, hKeep₂, new ++ new₂, ?_, ?_, ?_⟩
        · rw [runPieces, Effect.bind_of_ok hRun, hZero]
          simpa using hRest
        · rw [hEmit₂, hEmit, List.append_assoc]
        · rw [List.flatMap_cons, hAll hZero]
          exact List.prefix_append_right_inj _ |>.mpr hPrefix₂
        · intro hDone
          rw [List.flatMap_cons, hAll hZero, hAll₂ hDone]
      · refine ⟨ret, s₁, ?_, hKeep, new, hEmit, ?_, ?_⟩
        · rw [runPieces, Effect.bind_of_ok hRun]
          simp [hZero]
        · rw [List.flatMap_cons]
          exact hPrefix.trans (List.prefix_append _ _)
        · exact fun hDone => absurd hDone hZero

end Chunking
