import Utinydrm.Linux.List
import Utinydrm.Tinydrm.Hexdump

/-
  SPI messages as the lists of transfers they are in memory.

  A message is a list head, and each transfer has a cell.
  Building a message and reading it are calls of the list
  functions. What is read are the transfers that were added,
  in the order they were added.

  Key definitions include:
    * `spiMessageInit`, `spiMessageAddTail`,
      `spiMessageInitWithTransfers`
    * `listedMessage`
    * `tinydrmSpiTransferListed`

  Main declarations:
    * `readsAs_initWithTransfers`
    * `spi_message_order`
    * `tinydrm_spi_transfer_listed`
-/

------------------------------------------------------------
-- Messages In Memory
------------------------------------------------------------

namespace Utinydrm

open LinkedRing (Links)

variable {α : Type} [DecidableEq α]

/-
  `spi_message_init`. It also clears the message, which is
  the two pointers that are set then.
-/
def spiMessageInit (links : Links α) (m : α) : Links α :=
  initListHead links m

/- `spi_message_add_tail`, with the cell of the transfer. -/
def spiMessageAddTail (links : Links α) (t m : α) : Links α :=
  listAddTail links t m

/- `spi_message_init_with_transfers`. -/
def spiMessageInitWithTransfers
    (links : Links α) (m : α) (xfers : List α) : Links α :=
  xfers.foldl (fun links t => spiMessageAddTail links t m)
    (spiMessageInit links m)

/-
  The transfers `spi_sync` reads of a message: the first
  entry, and the one after it unless the list has one entry.
  `list_entry` gives the transfer of a cell.
-/
def listedMessage
    (listEntry : α → SpiTransfer) (links : Links α) (m : α) :
    SpiMessage :=
  let tr := links.next m
  { first := listEntry tr
    rest :=
      if ¬ listIsSingular links m then
        [listEntry (links.next tr)]
      else
        [] }

/-
  `_tinydrm_dbg_spi_message` over the list of a message, with
  fuel for its loop.
-/
def tinydrmDbgSpiMessageListed
    (w : World) (canDma : Option (SpiTransfer → Bool))
    (listEntry : α → SpiTransfer) (links : Links α) (m : α)
    (linebuf : CString.Buffer) (fuel : Nat) :
    Option (List TransferLine) :=
  (listForEach links m fuel).map fun cells =>
    dumpTransfers w canDma (cells.map listEntry) 0 linebuf

/- The message `tinydrm_spi_transfer` builds. -/
def chunkMessageListed
    (links : Links α) (m tr : α) (header : Option α) :
    Links α :=
  let links := spiMessageInit links m
  let links := match header with
    | some h => spiMessageAddTail links h m
    | none => links
  spiMessageAddTail links tr m

variable (env : Env)

/-
  `tinydrm_spi_transfer` with the message it builds, for the
  cells of the message, of its transfer and of the header,
  in memory of any content. The loop changes the transfer
  and sends the message again.
-/
def tinydrmSpiTransferListed
    (links : Links α) (m tr : α)
    (spi : SpiDevice) (speedHz : Nat)
    (header : Option (α × SpiTransfer)) (bpw : Nat)
    (buf : Ptr) (len : Nat)
    (swapBuf : Option Nat) (maxChunk : Nat) : Driver Int :=
  let swap := swapNeeded spi bpw
  if bpw ≠ 8 ∧ bpw ≠ 16 then
    pure (-EINVAL)
  else if swap && swapBuf.isNone then
    pure (-EINVAL)
  else
    let links :=
      chunkMessageListed links m tr (header.map Prod.fst)
    Chunking.chunkLoop .hang maxChunk
      (fun offset chunk => do
        let txBuf ←
          chunkSource swap swapBuf (buf.add offset) chunk
        let transfer : SpiTransfer :=
          { txBuf := some txBuf
            len := chunk
            bitsPerWord := if swap then 8 else bpw
            speedHz := speedHz }
        let listEntry := fun cell =>
          if cell = tr then
            transfer
          else
            header.elim transfer Prod.snd
        spiSync env spi (listedMessage listEntry links m))
      len

end Utinydrm

------------------------------------------------------------
-- Building Messages
------------------------------------------------------------

namespace Utinydrm

open LinkedRing (Links HoldsLists)
open LinkedRing.HoldsLists (Free)

variable {α : Type} [DecidableEq α]

/- One message, and no other list. -/
def onlyList (m : α) (cells : List α) : α → Option (List α) :=
  Function.update (fun _ => none) m (some cells)

theorem onlyList_self (m : α) (cells : List α) :
    onlyList m cells m = some cells :=
  Function.update_self _ _ _

theorem free_onlyList
    {m x : α} {cells : List α} (hNew : x ∉ m :: cells) :
    Free (onlyList m cells) x := by
  intro g l hEq
  rw [onlyList, Function.update_apply] at hEq
  split at hEq
  case isTrue hHead =>
    cases hHead
    cases hEq
    exact hNew
  case isFalse => cases hEq

/- An initialised message, whatever memory held before. -/
theorem holdsLists_init (links : Links α) (m : α) :
    HoldsLists (spiMessageInit links m) (onlyList m []) := by
  have hNone : HoldsLists links (fun _ => none) :=
    ⟨fun _ _ h => (nomatch h), fun _ _ _ _ _ h => (nomatch h)⟩
  exact hNone.init fun _ _ _ h => nomatch h

/- One transfer more. -/
theorem holdsLists_addTail
    {links : Links α} {m t : α} {cells : List α}
    (hHolds : HoldsLists links (onlyList m cells))
    (hNew : t ∉ m :: cells) :
    HoldsLists (spiMessageAddTail links t m)
      (onlyList m (cells ++ [t])) := by
  have hAdded := holdsLists_listAddTail hHolds
    (onlyList_self m cells) (free_onlyList hNew)
  rwa [onlyList, Function.update_idem] at hAdded

/- All of them, in order. -/
theorem holdsLists_initWithTransfers
    (links : Links α) {m : α} {xfers : List α}
    (hNodup : (m :: xfers).Nodup) :
    HoldsLists (spiMessageInitWithTransfers links m xfers)
      (onlyList m xfers) := by
  -- behind those that are added already
  have hFrom : ∀ (after before : List α) (links : Links α),
      (m :: (before ++ after)).Nodup →
      HoldsLists links (onlyList m before) →
      HoldsLists (after.foldl
        (fun links t => spiMessageAddTail links t m) links)
        (onlyList m (before ++ after)) := by
    intro after
    induction after with
    | nil =>
        intro before links _ hHolds
        rw [List.append_nil]
        exact hHolds
    | cons t after ih =>
        intro before links hNodup hHolds
        have hSplit : before ++ t :: after =
            before ++ [t] ++ after := by simp
        have hNew : t ∉ m :: before := by
          rw [← List.cons_append, List.nodup_append] at hNodup
          exact fun h => hNodup.2.2 t h t List.mem_cons_self rfl
        rw [hSplit] at hNodup ⊢
        exact ih _ _ hNodup (holdsLists_addTail hHolds hNew)
  exact hFrom xfers [] _ hNodup (holdsLists_init links m)

/- The pointers of a message read as its transfers. -/
theorem listedMessage_eq
    {links : Links α} {m t : α} {rest : List α}
    (listEntry : α → SpiTransfer)
    (hHolds : HoldsLists links (onlyList m (t :: rest))) :
    listedMessage listEntry links m =
      { first := listEntry t
        rest := (rest.map listEntry).take 1 } := by
  have hList := onlyList_self m (t :: rest)
  have hSingular := listIsSingular_iff hHolds hList
  have hRing := hHolds.ring _ _ hList
  have hFirst : links.next m = t := hRing.next_head
  have hNext : links.next t = rest.headD m := by
    have hHere : LinkedRing.IsRing links m ([] ++ t :: rest) :=
      hRing
    exact hHere.neighbours.2
  rw [listedMessage, hFirst, hNext]
  cases rest with
  | nil => simp [hSingular]
  | cons t₂ rest => simp [hSingular]

end Utinydrm

------------------------------------------------------------
-- Sending Them
------------------------------------------------------------

namespace Utinydrm

open LinkedRing (Links HoldsLists)

variable {α : Type} [DecidableEq α]
variable (env : Env)

/- A message is sent up to its second transfer. -/
theorem spiSync_take
    (spi : SpiDevice) (first : SpiTransfer)
    (rest : List SpiTransfer) :
    spiSync env spi { first := first, rest := rest.take 1 } =
      spiSync env spi { first := first, rest := rest } := by
  cases rest <;> rfl

/-
  Whatever memory held before, a message that is initialised
  with some transfers, whose cells are different, is sent and
  dumped as these transfers in this order.
-/
theorem spi_message_order
    (links : Links α) (m t : α) (rest : List α)
    (hNodup : (m :: t :: rest).Nodup)
    (listEntry : α → SpiTransfer) :
    let links' :=
      spiMessageInitWithTransfers links m (t :: rest)
    let message : SpiMessage :=
      { first := listEntry t, rest := rest.map listEntry }
    (∀ spi, spiSync env spi (listedMessage listEntry links' m) =
      spiSync env spi message) ∧
    ∀ w canDma linebuf fuel, rest.length + 1 < fuel →
      tinydrmDbgSpiMessageListed w canDma listEntry links' m
          linebuf fuel =
        some (tinydrmDbgSpiMessage w canDma message linebuf) := by
  have hHolds := holdsLists_initWithTransfers links hNodup
  have hList := onlyList_self m (t :: rest)
  constructor
  · intro spi
    rw [listedMessage_eq listEntry hHolds, spiSync_take]
  · intro w canDma linebuf fuel hFuel
    have hReads := readsAs_of_holdsLists hHolds hList
    rw [tinydrmDbgSpiMessageListed, hReads.forEach fuel hFuel]
    rfl

/- The message of a chunk, with what its transfer is then. -/
theorem listedMessage_chunk
    (links : Links α) {m tr : α}
    {header : Option (α × SpiTransfer)} (hTr : tr ≠ m)
    (hHeader : ∀ h ∈ header, h.1 ≠ m ∧ h.1 ≠ tr)
    (transfer : SpiTransfer) :
    listedMessage
        (fun cell =>
          if cell = tr then
            transfer
          else
            header.elim transfer Prod.snd)
        (chunkMessageListed links m tr (header.map Prod.fst))
        m =
      chunkMessage (header.map Prod.snd) transfer := by
  have hInit := holdsLists_init links m
  cases header with
  | none =>
      have hAdded := holdsLists_addTail hInit
        (t := tr) (by simpa using hTr)
      have hList : chunkMessageListed links m tr none =
          spiMessageAddTail (spiMessageInit links m) tr m := rfl
      rw [Option.map_none, hList, listedMessage_eq _ hAdded]
      simp [chunkMessage]
  | some h =>
      rcases hHeader h rfl with ⟨hNe, hOther⟩
      have hFirst := holdsLists_addTail hInit
        (t := h.1) (by simpa using hNe)
      have hAdded := holdsLists_addTail hFirst
        (t := tr) (by simp [hTr, hOther.symm])
      have hList : chunkMessageListed links m tr (some h.1) =
          spiMessageAddTail
            (spiMessageAddTail (spiMessageInit links m) h.1 m)
            tr m := rfl
      rw [Option.map_some, hList, listedMessage_eq _ hAdded]
      simp [chunkMessage, hOther]

/-
  `tinydrm_spi_transfer` with the message as a list is the
  same function, for all memory and all cells: each chunk is
  sent by itself, after the header if there is one.
-/
theorem tinydrm_spi_transfer_listed
    (links : Links α) (m tr : α) (hTr : tr ≠ m)
    (header : Option (α × SpiTransfer))
    (hHeader : ∀ h ∈ header, h.1 ≠ m ∧ h.1 ≠ tr)
    (spi : SpiDevice) (speedHz bpw : Nat) (buf : Ptr)
    (len : Nat) (swapBuf : Option Nat) (maxChunk : Nat) :
    tinydrmSpiTransferListed env links m tr spi speedHz header
        bpw buf len swapBuf maxChunk =
      tinydrmSpiTransfer env spi speedHz
        (header.map Prod.snd) bpw buf len swapBuf maxChunk := by
  unfold tinydrmSpiTransferListed tinydrmSpiTransfer
  have hMessage := listedMessage_chunk links hTr hHeader
  simp only [hMessage]

/- A header before a chunk, and the message of a read. -/
theorem spi_message_order_two :
    spiSync Env.granting mainSpi
        (listedMessage (fun cell => { len := cell })
          (spiMessageInitWithTransfers ⟨id, id⟩ 0 [1, 2]) 0) =
      spiSync Env.granting mainSpi
        { first := { len := 1 }, rest := [{ len := 2 }] } :=
  (spi_message_order Env.granting ⟨id, id⟩ 0 1 [2] (by decide)
    fun cell => { len := cell }).1 mainSpi

theorem tinydrm_spi_transfer_listed_header :
    tinydrmSpiTransferListed Env.granting ⟨id, id⟩ 0 1 mainSpi
        0 (some (2, { len := 1 })) 8 (.mapped 0) 4 none 4 =
      tinydrmSpiTransfer Env.granting mainSpi 0
        (some { len := 1 }) 8 (.mapped 0) 4 none 4 :=
  tinydrm_spi_transfer_listed Env.granting ⟨id, id⟩ 0 1
    (by decide) (some (2, { len := 1 }))
    (fun h hMem => by
      cases hMem
      decide) mainSpi 0 8 (.mapped 0) 4 none 4

end Utinydrm
