import Utinydrm.MipiDbi.Option3
import Utinydrm.Lib.BitStream

/-
  Reading a register back with the D/C bit on a line of its
  own.

  The controller clocks its reply out most significant bit
  first. After two of the commands it sends a dummy bit in
  front, so a byte more is received and every byte that is
  given back takes its last bit from the byte after it.

  Key definitions include:
    * `readLen` and `replyBits`
    * `bufReads`
    * `ReadsReply`

  Main declarations:
    * `ofBytes_shifted`, the shift over a whole stream
    * `readBack_replyBits`
    * `mipiDbiSpi3Read_replies`
-/

------------------------------------------------------------
-- Replies
------------------------------------------------------------

namespace Utinydrm

/- The length of the second transfer, `tr[1].len`. -/
def readLen (cmd : UInt8) (valLen : Nat) : Nat :=
  if hasDummyClock cmd then valLen + 1 else valLen

/- The bits a reply starts with, behind the dummy bit if any. -/
def replyBits
    (cmd : UInt8) (dummy : Bool)
    (reply : List UInt8) : List Bool :=
  if hasDummyClock cmd then
    dummy :: BitStream.ofBytes reply
  else
    BitStream.ofBytes reply

/- The bytes that a message receives in its second transfer. -/
def clockedIn (env : Env) (t len : Nat) : List UInt8 :=
  (List.range len).map (env.miso t 1)

/- The indices at which `buf` is read for the result. -/
def bufReads (trLen valLen : Nat) : List Nat :=
  if trLen = valLen then
    -- `memcpy(val, buf, val_len)`
    List.range valLen
  else
    -- `buf[i]` and `buf[i + 1]`
    (List.range valLen).flatMap fun i => [i, i + 1]

/-
  What a read that succeeds has done: one message, with its
  second transfer into the buffer allocated before, of which
  no byte beyond those received is read. The result is the
  reply, whatever the dummy bit and the bits behind are.
-/
structure ReadsReply
    (env : Env) (cmd : UInt8) (valLen : Nat)
    (data : List UInt8) (w w' : World) : Prop where
  message : ∃ written record,
    w'.log = w.log ++
      [.kmalloc true, .gpio .dc false written,
        .spidev record] ∧
    record.result = none ∧
    record.xfers.map (fun utr => (utr.rxBuf, utr.len)) =
      [(none, 1), (some w.now, readLen cmd valLen)]
  inside : ∀ i ∈ bufReads (readLen cmd valLen) valLen,
    i < readLen cmd valLen
  received : ∀ buf : Nat → UInt8,
    (∀ i < readLen cmd valLen,
      buf i = env.miso (w.now + 2) 1 i) →
    data = readBack (readLen cmd valLen) valLen buf
  length : data.length = valLen
  clocked : ∃ dummy further,
    BitStream.ofBytes
      (clockedIn env (w.now + 2) (readLen cmd valLen)) =
      replyBits cmd dummy data ++ further
  reply : ∀ dummy reply further, reply.length = valLen →
    BitStream.ofBytes
      (clockedIn env (w.now + 2) (readLen cmd valLen)) <+:
      replyBits cmd dummy reply ++ further →
    data = reply
  unshifted : hasDummyClock cmd = false →
    data = clockedIn env (w.now + 2) valLen

end Utinydrm

------------------------------------------------------------
-- The Shift
------------------------------------------------------------

namespace Utinydrm

open BitStream

variable (buf : Nat → UInt8)

/- `!!(buf[i + 1] & BIT(7))`, as the top bit of a byte. -/
theorem topBit_eq (b : UInt8) :
    (if b &&& 0x80 ≠ 0 then 1 else 0 : UInt8).toNat =
      b.toNat >>> 7 := by
  revert b
  apply BitStream.forall_byte
  decide +kernel

/- A byte given back: seven bits of one and one of the next. -/
theorem bits_shiftDummyClock (i : Nat) :
    bits 8 (shiftDummyClock buf i).toNat =
      bits 7 (buf i).toNat ++
        bits 1 ((buf (i + 1)).toNat >>> 7) := by
  have hTop : (buf (i + 1)).toNat >>> 7 < 2 ^ 1 := by
    have hByte := (buf (i + 1)).toNat_lt
    rw [Nat.shiftRight_eq_div_pow]
    omega
  have hShift :
      (buf i <<< 1).toNat = (buf i).toNat <<< 1 % 2 ^ 8 := by
    simp
  rw [shiftDummyClock, UInt8.toNat_or, topBit_eq, hShift,
    ← bits_append 7 (buf i).toNat hTop]
  apply bits_congr
  intro j hj
  simp only [Nat.testBit_or, Nat.testBit_mod_two_pow, hj,
    decide_true, Bool.true_and]

/-
  The bytes of a buffer are the top bit of the first one, the
  shifted bytes, and what is left of the last one.
-/
theorem ofBytes_shifted (n : Nat) :
    ofBytes ((List.range (n + 1)).map buf) =
      bits 1 ((buf 0).toNat >>> 7) ++
        ofBytes ((List.range n).map (shiftDummyClock buf)) ++
        bits 7 (buf n).toNat := by
  have hByte : ∀ i, bits 8 (buf i).toNat =
      bits 1 ((buf i).toNat >>> 7) ++ bits 7 (buf i).toNat :=
    fun i => bits_add 1 7 (buf i).toNat
  induction n with
  | zero => simp [hByte]
  | succ n ih =>
      calc
        ofBytes ((List.range (n + 2)).map buf) =
            ofBytes ((List.range (n + 1)).map buf) ++
              bits 8 (buf (n + 1)).toNat := by
          simp [List.range_succ]
        _ = bits 1 ((buf 0).toNat >>> 7) ++
              (ofBytes
                ((List.range n).map (shiftDummyClock buf)) ++
              bits 8 (shiftDummyClock buf n).toNat) ++
              bits 7 (buf (n + 1)).toNat := by
          rw [ih, hByte, bits_shiftDummyClock]
          simp only [List.append_assoc]
        _ = _ := by
          simp [List.range_succ]

/- Both ways to give the bytes back keep the bits in order. -/
theorem readBack_replyBits
    (cmd : UInt8) (valLen : Nat) :
    ∃ dummy further,
      ofBytes ((List.range (readLen cmd valLen)).map buf) =
        replyBits cmd dummy
          (readBack (readLen cmd valLen) valLen buf) ++
          further := by
  cases hDummy : hasDummyClock cmd with
  | false =>
      refine ⟨false, [], ?_⟩
      simp [readLen, replyBits, readBack, hDummy]
  | true =>
      refine ⟨((buf 0).toNat >>> 7).testBit 0,
        bits 7 (buf valLen).toNat, ?_⟩
      simp [readLen, replyBits, readBack, hDummy,
        ofBytes_shifted, bits]

/- The result looks at the received bytes only. -/
theorem readBack_congr
    {trLen valLen : Nat} {buf other : Nat → UInt8}
    (hSame : ∀ i ∈ bufReads trLen valLen,
      buf i = other i) :
    readBack trLen valLen buf = readBack trLen valLen other := by
  unfold readBack
  unfold bufReads at hSame
  apply List.map_congr_left
  intro i hi
  split at hSame
  case isTrue hEq =>
    rw [if_pos hEq, if_pos hEq]
    exact hSame i hi
  case isFalse hNe =>
    rw [if_neg hNe, if_neg hNe]
    have hPair : ∀ j ∈ [i, i + 1], buf j = other j :=
      fun j hj => hSame j (List.mem_flatMap.mpr ⟨i, hi, hj⟩)
    rw [shiftDummyClock, shiftDummyClock, hPair i (by simp),
      hPair (i + 1) (by simp)]

theorem bufReads_lt
    (cmd : UInt8) (valLen : Nat) :
    ∀ i ∈ bufReads (readLen cmd valLen) valLen,
      i < readLen cmd valLen := by
  intro i hi
  unfold bufReads readLen at *
  cases hDummy : hasDummyClock cmd with
  | false => simpa [hDummy] using hi
  | true =>
      simp only [hDummy, if_true, Nat.add_eq_left,
        Nat.one_ne_zero, if_false, List.mem_flatMap,
        List.mem_range, List.mem_cons, List.not_mem_nil,
        or_false] at hi ⊢
      rcases hi with ⟨k, hk, rfl | rfl⟩ <;> omega

end Utinydrm

------------------------------------------------------------
-- Replies Are Unique
------------------------------------------------------------

namespace Utinydrm

open BitStream

/- The bits sent tell the reply, for all dummy and last bits. -/
theorem eq_of_replyBits_prefix
    {cmd : UInt8} {dummy dummy' : Bool}
    {reply reply' : List UInt8} {further further' : List Bool}
    (hLength : reply.length = reply'.length)
    (hPrefix :
      replyBits cmd dummy reply ++ further <+:
        replyBits cmd dummy' reply' ++ further') :
    reply = reply' := by
  unfold replyBits at hPrefix
  split at hPrefix
  case isTrue =>
    rw [List.cons_append, List.cons_append,
      List.cons_prefix_cons] at hPrefix
    exact eq_of_ofBytes_append_prefix hLength hPrefix.2
  case isFalse =>
    exact eq_of_ofBytes_append_prefix hLength hPrefix

end Utinydrm

------------------------------------------------------------
-- Reading
------------------------------------------------------------

namespace Utinydrm

variable {env : Env}

/- What the message of a read stores in its buffer. -/
theorem rx_readXfers
    (mspi : MipiDbiSpi) (reg : Nat → UInt8)
    {w : World} {t trLen i : Nat}
    (hNow : w.now = t)
    (hSent : env.spidev t = none)
    (buf : Nat)
    (hi : i < trLen) :
    (w.afterSpidev env (readXfers mspi reg buf trLen)).rx
      buf i = env.miso t 1 i := by
  simp [World.afterSpidev, receive, readXfers, iocOf,
    receiveOf, hNow, hSent, hi]

/- A read that succeeds passed the checks of the source. -/
theorem receive_of_mipiDbiSpi3Read
    {mspi : MipiDbiSpi} {reg : Nat → UInt8} {valLen : Nat}
    {data : List UInt8} {w w' : World}
    (hRead : mipiDbiSpi3Read env mspi (.heap reg) valLen w =
      .ok (0, data) w') :
    mipiDbiSpi3Receive env mspi (.heap reg)
      (readLen (reg 0) valLen) valLen w =
      .ok (0, data) w' := by
  unfold mipiDbiSpi3Read at hRead
  rw [Effect.bind_of_ok (Effect.get_apply w)] at hRead
  split at hRead
  · cases hRead
  split at hRead
  case isTrue hCmd =>
    have hDummy : hasDummyClock (reg 0) = true := hCmd
    split at hRead
    · rw [readLen, if_pos hDummy]
      exact hRead
    · cases hRead
  case isFalse hCmd =>
    have hDummy : ¬ hasDummyClock (reg 0) = true := hCmd
    rw [readLen, if_neg hDummy]
    exact hRead

/-
  One that succeeds got its memory, its message was sent, and
  the result is made of the receive buffer.
-/
theorem mipiDbiSpi3Receive_ok
    {mspi : MipiDbiSpi} {reg : Nat → UInt8}
    {trLen valLen : Nat} {data : List UInt8} {w w' : World}
    (hReceive : mipiDbiSpi3Receive env mspi (.heap reg) trLen
      valLen w = .ok (0, data) w') :
    env.kmalloc w.now = true ∧ env.spidev (w.now + 2) = none ∧
      w' = (w.beforeRead env).afterSpidev env
        (readXfers mspi reg w.now trLen) ∧
      data = readBack trLen valLen (w'.rx w.now) := by
  rcases granted_of_mipiDbiSpi3Receive hReceive with
    ⟨hGranted, hTx⟩
  have hRun := mipiDbiSpi3Receive_eq mspi reg trLen valLen
    hGranted hTx rfl
  rcases EStateM.Result.ok.inj (hReceive.symm.trans hRun) with
    ⟨hPair, hAfter⟩
  rcases Prod.mk.inj hPair with ⟨hRet, hData⟩
  rw [← hAfter] at hData
  refine ⟨hGranted, ?_, hAfter, hData⟩
  -- a message that fails has a result that is not zero
  cases hResult : env.spidev (w.now + 2) with
  | none => rfl
  | some e =>
      rw [hResult] at hRet
      exact absurd hRet.symm e.ret_ne_zero

/-
  A read of any command and length that succeeds returns the
  reply of the controller.
-/
theorem mipiDbiSpi3Read_replies
    (env : Env) (mspi : MipiDbiSpi)
    (reg : Nat → UInt8) (valLen : Nat)
    {data : List UInt8} {w w' : World}
    (hRead : mipiDbiSpi3Read env mspi (.heap reg) valLen w =
      .ok (0, data) w') :
    ReadsReply env (reg 0) valLen data w w' := by
  let trLen := readLen (reg 0) valLen
  let t := w.now + 2
  rcases mipiDbiSpi3Receive_ok
      (receive_of_mipiDbiSpi3Read hRead) with
    ⟨hGranted, hSent, hAfter, hData⟩
  have hNow : (w.beforeRead env).now = t :=
    World.beforeRead_now w
  -- only what was received is looked at
  have hReceived : ∀ buf : Nat → UInt8,
      (∀ i < trLen, buf i = env.miso t 1 i) →
      data = readBack trLen valLen buf := by
    intro buf hSame
    rw [hData, hAfter]
    apply readBack_congr
    intro i hi
    have hInside := bufReads_lt _ _ i hi
    rw [hSame i hInside]
    exact rx_readXfers mspi reg hNow hSent w.now hInside
  have hMiso := hReceived _ fun _ _ => rfl
  have hLength : data.length = valLen := by
    simp [hMiso, readBack]
  have hClocked := readBack_replyBits (env.miso t 1) (reg 0)
    valLen
  rw [← hMiso] at hClocked
  refine ⟨?_, bufReads_lt _ _, hReceived, hLength, hClocked,
    ?_, ?_⟩
  · refine ⟨env.gpio .dc (w.now + 1),
      (w.beforeRead env).spiRecord env
      (readXfers mspi reg w.now trLen), ?_, ?_, rfl⟩
    · rw [hAfter, World.afterSpidev_log, World.beforeRead_log,
        hGranted, List.append_assoc]
      rfl
    · rw [World.spiRecord, hNow]
      exact hSent
  · intro dummy reply further hReply hPrefix
    rcases hClocked with ⟨dummy', further', hBits⟩
    apply eq_of_replyBits_prefix (hLength.trans hReply.symm)
    rw [← hBits]
    exact hPrefix
  · intro hStandard
    rw [hMiso]
    simp [readBack, trLen, readLen, hStandard, clockedIn, t]

/- A controller that sends its ID behind a dummy bit. -/
def Env.displayId : Env :=
  { Env.granting with
    miso := fun _ _ i => [0xAA, 0xB2, 0xB3, 0x80].getD i 0 }

theorem mipiDbiSpi3Read_replies_displayId :
    ∃ w', ReadsReply Env.displayId 0x04 3 [0x55, 0x65, 0x67]
      (World.atProbe (-1)) w' := by
  let mspi := mipiDbiSpiInit mainSpi true false
  let w := World.atProbe (-1)
  let w' := (w.beforeRead Env.displayId).afterSpidev
    Env.displayId (readXfers mspi (fun _ => 0x04) 0 4)
  have hTx : w.TxOk := World.txOk_atProbe (-1)
  have hData :
      readBack 4 3 (w'.rx 0) = [0x55, 0x65, 0x67] := by
    decide +kernel
  have hRun : mipiDbiSpi3Read Env.displayId mspi
      (.heap fun _ => 0x04) 3 w =
        .ok (0, [0x55, 0x65, 0x67]) w' := by
    have hGranted : Env.displayId.kmalloc w.now = true := rfl
    rw [← hData]
    exact mipiDbiSpi3Receive_eq mspi _ 4 3 hGranted hTx rfl
  exact ⟨w', mipiDbiSpi3Read_replies _ _ _ _ hRun⟩

end Utinydrm
