import Utinydrm.Event.CurrentFb
import Utinydrm.Lib.LinkedChain

/-
  `udev->fbs` as the linked list it is in memory.

  The list is followed through the `next` fields of the
  structures. Creating puts a structure in front, and
  destroying walks with two pointers to pointers and stores
  through one of them. In every run, the loops end and find
  what they find in the list of the model.

  Key definitions include:
    * `FbMemory`, `FbSlot`
    * `FbMemory.link`, `FbMemory.findSlots`, `FbMemory.unlink`
    * `FbMemoryStep`

  Main declarations:
    * `listsFbs_link`
    * `findSlots_pointers`
    * `listsFbs_unlink`
    * `fb_list_pointers`
-/

------------------------------------------------------------
-- The List In Memory
------------------------------------------------------------

namespace Utinydrm

/-
  `udev->fbs`, the `next` field of the structure at an
  address, and the rest of it.
-/
structure FbMemory where
  fbs : Option Nat
  next : Nat → Option Nat
  ufbAt : Nat → UtinydrmFb

/- What a `struct utinydrm_fb **` points at. -/
inductive FbSlot where
| fbs
| next (addr : Nat)
deriving DecidableEq, Repr

namespace FbMemory

/- `*slot`. -/
def read (mem : FbMemory) : FbSlot → Option Nat
| .fbs => mem.fbs
| .next addr => mem.next addr

/- `*slot = p`. -/
def store (mem : FbMemory) (p : Option Nat) :
    FbSlot → FbMemory
| .fbs => { mem with fbs := p }
| .next addr =>
    { mem with next := Function.update mem.next addr p }

/-
  The end of `utinydrm_fb_create`, with the structure as it
  is filled in: `ufb->next = udev->fbs; udev->fbs = ufb`.
-/
def link (mem : FbMemory) (ufb : UtinydrmFb) : FbMemory where
  fbs := some ufb.addr
  next := Function.update mem.next ufb.addr mem.fbs
  ufbAt := Function.update mem.ufbAt ufb.addr ufb

/-
  The loop of `utinydrm_fb_destroy` from two slots on, with
  fuel: the slots and the structure it stops with, if any.
-/
def findSlots (mem : FbMemory) (id : UInt32) :
    Nat → FbSlot → FbSlot →
      Option (Option (FbSlot × FbSlot × Nat))
| 0, _, _ => none
| fuel + 1, prev, curr =>
    match mem.read curr with
    | none => some none
    | some addr =>
        if (mem.ufbAt addr).id = id then
          some (some (prev, curr, addr))
        else
          findSlots mem id fuel curr (.next addr)

/- `*prev = (*curr)->next`, for a structure in `*curr`. -/
def unlink (mem : FbMemory) (prev : FbSlot) (addr : Nat) :
    FbMemory :=
  mem.store (mem.next addr) prev

/-
  `for (ufb = udev->fbs; ufb != NULL; ufb = ufb->next)` up to
  the first structure that passes a test, with fuel.
-/
def find (mem : FbMemory) (test : UtinydrmFb → Bool)
    (fuel : Nat) : Option (Option UtinydrmFb) :=
  (LinkedChain.search mem.next
    (fun addr => test (mem.ufbAt addr)) fuel mem.fbs).map
    (Option.map mem.ufbAt)

end FbMemory

/- The pointers list these structures, in this order. -/
structure ListsFbs
    (mem : FbMemory) (fbs : List UtinydrmFb) : Prop where
  leads : LinkedChain.Leads mem.next mem.fbs
    (fbs.map UtinydrmFb.addr) none
  distinct : (fbs.map UtinydrmFb.addr).Nodup
  stored : ∀ ufb ∈ fbs, mem.ufbAt ufb.addr = ufb

/- The slot behind some entries. -/
def slotBehind (before : List UtinydrmFb) : FbSlot :=
  match before.getLast? with
  | none => .fbs
  | some ufb => .next ufb.addr

end Utinydrm

------------------------------------------------------------
-- The Loops
------------------------------------------------------------

namespace Utinydrm

open LinkedChain (Leads)

variable {mem : FbMemory} {fbs : List UtinydrmFb}

/- A structure at a new address is put in front. -/
theorem listsFbs_link
    (hLists : ListsFbs mem fbs) {ufb : UtinydrmFb}
    (hNew : ufb.addr ∉ fbs.map UtinydrmFb.addr) :
    ListsFbs (mem.link ufb) (ufb :: fbs) where
  leads := by
    have hNext : (mem.link ufb).next ufb.addr = mem.fbs :=
      Function.update_self _ _ _
    refine ⟨rfl, ?_⟩
    rw [hNext]
    exact hLists.leads.update hNew
  distinct := List.nodup_cons.mpr ⟨hNew, hLists.distinct⟩
  stored other hMem := by
    rcases List.mem_cons.mp hMem with rfl | hOld
    · exact Function.update_self _ _ _
    · have hNe : other.addr ≠ ufb.addr := fun h =>
        hNew (h ▸ List.mem_map_of_mem hOld)
      exact (Function.update_of_ne hNe _ _).trans
        (hLists.stored other hOld)

/- The loops that look for a structure. -/
theorem find_eq
    (hLists : ListsFbs mem fbs) (test : UtinydrmFb → Bool)
    {fuel : Nat} (hFuel : fbs.length < fuel) :
    mem.find test fuel = some (fbs.find? test) := by
  have hStored : ∀ rest : List UtinydrmFb,
      (∀ ufb ∈ rest, mem.ufbAt ufb.addr = ufb) →
      ((rest.map UtinydrmFb.addr).find?
        fun addr => test (mem.ufbAt addr)).map mem.ufbAt =
        rest.find? test := by
    intro rest hRest
    induction rest with
    | nil => rfl
    | cons ufb rest ih =>
        have hHere := hRest ufb List.mem_cons_self
        rw [List.map_cons, List.find?_cons, List.find?_cons,
          hHere]
        cases test ufb with
        | true => exact congrArg some hHere
        | false =>
            exact ih fun other hMem =>
              hRest other (List.mem_cons_of_mem ufb hMem)
  rw [FbMemory.find, hLists.leads.search_eq _
    (by rw [List.length_map]; exact hFuel), Option.map_some,
    hStored fbs hLists.stored]

/- What the slot behind some entries holds. -/
theorem read_slotBehind
    {before after : List UtinydrmFb}
    (hLists : ListsFbs mem (before ++ after)) :
    Leads mem.next (mem.read (slotBehind before))
      (after.map UtinydrmFb.addr) none := by
  have hLeads := hLists.leads
  rw [List.map_append, LinkedChain.leads_append] at hLeads
  rcases hLeads with ⟨r, hBefore, hAfter⟩
  rcases List.eq_nil_or_concat before with rfl | ⟨front, z, rfl⟩
  · cases hBefore
    exact hAfter
  · rw [List.concat_eq_append, List.map_append, List.map_cons,
      List.map_nil, LinkedChain.leads_concat] at hBefore
    rw [slotBehind, List.concat_eq_append,
      List.getLast?_concat]
    change Leads mem.next (mem.next z.addr) _ none
    rw [hBefore.2]
    exact hAfter

/- The pointers go past entries with other ids. -/
theorem findSlots_passed
    {id : UInt32} {before after passed : List UtinydrmFb}
    (hLists : ListsFbs mem (passed ++ (before ++ after)))
    (hBefore : id ∉ fbIds before) (fuel : Nat) :
    mem.findSlots id (fuel + before.length)
        (slotBehind passed.dropLast) (slotBehind passed) =
      mem.findSlots id fuel
        (slotBehind (passed ++ before).dropLast)
        (slotBehind (passed ++ before)) := by
  induction before generalizing passed with
  | nil => simp
  | cons ufb before ih =>
      have hHere := read_slotBehind hLists
      have hStored := hLists.stored ufb (by simp)
      simp only [fbIds, List.map_cons, List.mem_cons, not_or]
        at hBefore
      have hSplit : passed ++ (ufb :: before ++ after) =
          passed ++ [ufb] ++ (before ++ after) := by simp
      have hBehind : slotBehind (passed ++ [ufb]) =
          .next ufb.addr := by
        rw [slotBehind, List.getLast?_concat]
      rw [hSplit] at hLists
      have hRest := ih hLists hBefore.2
      rw [List.dropLast_concat, hBehind, List.append_assoc,
        List.singleton_append] at hRest
      rw [List.length_cons, ← Nat.add_assoc,
        FbMemory.findSlots, hHere.1]
      dsimp only
      rw [hStored, if_neg (Ne.symm hBefore.1)]
      exact hRest

/- No entry has the id: the loop ends with none. -/
theorem findSlots_unlisted
    {id : UInt32} (hLists : ListsFbs mem fbs)
    (hUnlisted : id ∉ fbIds fbs) {fuel : Nat}
    (hFuel : fbs.length < fuel) :
    mem.findSlots id fuel .fbs .fbs = some none := by
  obtain ⟨extra, rfl⟩ := Nat.exists_eq_add_of_lt hFuel
  have hWhole : ListsFbs mem ([] ++ (fbs ++ [])) := by
    rw [List.append_nil]
    exact hLists
  have hPassed := findSlots_passed hWhole hUnlisted (extra + 1)
  rw [List.nil_append] at hPassed
  have hNoneBehind : ListsFbs mem (fbs ++ []) := by
    rw [List.append_nil]
    exact hLists
  have hEnd := read_slotBehind hNoneBehind
  have hFuelEq : fbs.length + extra + 1 =
      extra + 1 + fbs.length := by omega
  have hStart : slotBehind [] = .fbs := rfl
  rw [List.dropLast_nil, hStart] at hPassed
  rw [hFuelEq, hPassed, FbMemory.findSlots, hEnd]

/- It stops at the first entry with the id. -/
theorem findSlots_listed
    {id : UInt32} {before after : List UtinydrmFb}
    {ufb : UtinydrmFb}
    (hLists : ListsFbs mem (before ++ ufb :: after))
    (hId : ufb.id = id) (hBefore : id ∉ fbIds before)
    {fuel : Nat} (hFuel : before.length < fuel) :
    mem.findSlots id fuel .fbs .fbs =
      some (some (slotBehind before.dropLast,
        slotBehind before, ufb.addr)) := by
  obtain ⟨extra, rfl⟩ := Nat.exists_eq_add_of_lt hFuel
  have hWhole : ListsFbs mem ([] ++ (before ++ ufb :: after)) :=
    hLists
  have hPassed := findSlots_passed hWhole hBefore (extra + 1)
  rw [List.nil_append] at hPassed
  have hHere := read_slotBehind hLists
  have hStored := hLists.stored ufb (by simp)
  have hFuelEq : before.length + extra + 1 =
      extra + 1 + before.length := by omega
  have hStart : slotBehind [] = .fbs := rfl
  rw [List.dropLast_nil, hStart] at hPassed
  rw [hFuelEq, hPassed, FbMemory.findSlots, hHere.1]
  dsimp only
  rw [hStored, if_pos hId]

/-
  Storing through the first of the slots cuts off the entry
  before the one that is destroyed, if there is one.
-/
theorem listsFbs_unlink
    {before after : List UtinydrmFb} {ufb : UtinydrmFb}
    (hLists : ListsFbs mem (before ++ ufb :: after)) :
    ListsFbs
      (mem.unlink (slotBehind before.dropLast) ufb.addr)
      (before.dropLast ++ after) := by
  have hBehind := (read_slotBehind hLists).2
  have hSub : (before.dropLast ++ after).Sublist
      (before ++ ufb :: after) :=
    (List.dropLast_sublist before).append
      (List.sublist_cons_self ufb after)
  have hDistinct :
      ((before.dropLast ++ after).map UtinydrmFb.addr).Nodup :=
    hLists.distinct.sublist (hSub.map _)
  have hStored : ∀ other ∈ before.dropLast ++ after,
      mem.ufbAt other.addr = other :=
    fun other hMem => hLists.stored other (hSub.subset hMem)
  -- the entries in front of the slot still lead to it
  have hPassed : ∃ r, Leads mem.next mem.fbs
      (before.dropLast.map UtinydrmFb.addr) r := by
    have hLeads := hLists.leads
    rcases List.eq_nil_or_concat before with
      rfl | ⟨front, last, rfl⟩
    · exact ⟨_, rfl⟩
    · rw [List.concat_eq_append, List.append_assoc,
        List.map_append, LinkedChain.leads_append] at hLeads
      rcases hLeads with ⟨r, hFront, _⟩
      rw [List.concat_eq_append, List.dropLast_concat]
      exact ⟨r, hFront⟩
  rcases hPassed with ⟨r, hPassed⟩
  revert hPassed hDistinct hStored
  generalize before.dropLast = front
  intro hDistinct hStored hPassed
  rcases List.eq_nil_or_concat front with rfl | ⟨front, z, rfl⟩
  · exact ⟨hBehind, hDistinct, hStored⟩
  · rw [List.concat_eq_append] at hDistinct hStored hPassed ⊢
    have hSlot : slotBehind (front ++ [z]) = .next z.addr := by
      rw [slotBehind, List.getLast?_concat]
    rw [List.map_append, List.map_cons, List.map_nil,
      LinkedChain.leads_concat] at hPassed
    have hApart := hDistinct
    simp only [List.map_append, List.map_cons, List.map_nil]
      at hApart
    rw [List.nodup_append, List.nodup_append] at hApart
    rcases hApart with ⟨⟨_, _, hFront⟩, _, hAfter⟩
    have hNotFront : z.addr ∉ front.map UtinydrmFb.addr :=
      fun h => hFront _ h _ (List.mem_singleton_self _) rfl
    have hNotAfter : z.addr ∉ after.map UtinydrmFb.addr :=
      fun h => hAfter _ (by simp) _ h rfl
    rw [hSlot]
    refine ⟨?_, hDistinct, hStored⟩
    rw [List.map_append, LinkedChain.leads_append]
    refine ⟨mem.next ufb.addr, ?_, ?_⟩
    · rw [List.map_append, List.map_cons, List.map_nil,
        LinkedChain.leads_concat]
      exact ⟨hPassed.1.update hNotFront,
        Function.update_self _ _ _⟩
    · exact hBehind.update hNotAfter

end Utinydrm

------------------------------------------------------------
-- Runs
------------------------------------------------------------

namespace Utinydrm

variable {env : Env} {mipi : MipiDbi}

/- More fuel makes no difference once the loop has ended. -/
theorem FbMemory.findSlots_mono
    {mem : FbMemory} {id : UInt32} {fuel : Nat}
    {prev curr : FbSlot}
    {found : Option (FbSlot × FbSlot × Nat)}
    (hFound : mem.findSlots id fuel prev curr = some found)
    (extra : Nat) :
    mem.findSlots id (fuel + extra) prev curr = some found := by
  induction fuel generalizing prev curr with
  | zero => cases hFound
  | succ fuel ih =>
      rw [Nat.add_right_comm, FbMemory.findSlots]
      rw [FbMemory.findSlots] at hFound
      cases hRead : mem.read curr with
      | none =>
          rw [hRead] at hFound
          exact hFound
      | some addr =>
          rw [hRead] at hFound
          dsimp only at hFound ⊢
          split at hFound
          case isTrue hId => rw [if_pos hId, hFound]
          case isFalse hNe =>
            rw [if_neg hNe]
            exact ih hFound

/-
  An event on the pointers: a creation that succeeds links
  the structure it filled in, and a destruction stores where
  its loop has stopped, if the loop ends.
-/
def FbMemoryStep
    (env : Env) (mipi : MipiDbi)
    (s : World × FbMemory) (label : Event × Int)
    (s' : World × FbMemory) : Prop :=
  EventStep env mipi s.1 label s'.1 ∧
  match label with
  | (.fbCreate _, ret) =>
      if ret = 0 then
        ∃ ufb ∈ s'.1.fbs.head?, s'.2 = s.2.link ufb
      else
        s'.2 = s.2
  | (.fbDestroy fbId, _) =>
      ∃ fuel found,
        s.2.findSlots fbId fuel .fbs .fbs = some found ∧
        s'.2 = found.elim s.2 fun (prev, _, addr) =>
          s.2.unlink prev addr
  | _ => s'.2 = s.2

/-
  The pointers list the framebuffers of the model, which are
  at addresses that were allocated before.
-/
structure FbMemoryOk (s : World × FbMemory) : Prop where
  lists : ListsFbs s.2 s.1.fbs
  allocated : ∀ fb ∈ s.1.fbs, fb.addr < s.1.now

/- What a creation does to the list, by its result. -/
theorem fbs_of_create
    {w w' : World} {fbId : UInt32} {ret : Int}
    (hRun : EventStep env mipi w (.fbCreate fbId, ret) w') :
    w.now ≤ w'.now ∧
      ((ret ≠ 0 ∧ w'.fbs = w.fbs) ∨
        ret = 0 ∧ ∃ fb : UtinydrmFb, fb.AllocatedSince w w' ∧
          w'.fbs = fb :: w.fbs) := by
  rcases utinydrmFbCreate_cases env fbId w with
    ⟨code, s, ⟨calls, rfl, _⟩, ⟨hCode, hFailed⟩ |
      ⟨fb, n, info, _, _, hNew, hDone⟩⟩
  · cases hFailed.symm.trans hRun
    exact ⟨by simp [World.now], Or.inl ⟨hCode, rfl⟩⟩
  · cases hDone.symm.trans hRun
    exact ⟨hNew.later.le, Or.inr ⟨rfl, fb,
      ⟨hNew.addr, hNew.later⟩, rfl⟩⟩

/- A destruction lists nothing new. -/
theorem mem_fbs_of_destroy
    {w w' : World} {fbId : UInt32} {ret : Int}
    (hRun : EventStep env mipi w (.fbDestroy fbId, ret) w')
    {fb : UtinydrmFb} (hMem : fb ∈ w'.fbs) : fb ∈ w.fbs := by
  rcases utinydrmFbDestroy_cases env fbId w with
    hRefused | ⟨prev, curr, map, size, result, hDone⟩
  · cases hRefused.symm.trans hRun
    exact hMem
  · cases hDone.symm.trans hRun
    exact mem_of_mem_unlinkSlot hMem

/- Where the loop of a destruction stops. -/
theorem findSlots_of_destroy
    {s : World × FbMemory} (hOk : FbMemoryOk s)
    {fbId : UInt32} {ret : Int} {w' : World}
    (hRun : EventStep env mipi s.1 (.fbDestroy fbId, ret) w') :
    ∃ found, (∀ fuel, s.1.fbs.length < fuel →
        s.2.findSlots fbId fuel .fbs .fbs = some found) ∧
      ListsFbs (found.elim s.2 fun (prev, _, addr) =>
        s.2.unlink prev addr) w'.fbs := by
  by_cases hListed : fbId ∈ fbIds s.1.fbs
  case neg =>
    have hSame := utinydrmFbDestroy_unlisted env hListed
    cases hSame.symm.trans hRun
    exact ⟨none, fun fuel hFuel =>
      findSlots_unlisted hOk.lists hListed hFuel, hOk.lists⟩
  case pos =>
    rcases exists_split hListed with
      ⟨before, ufb, after, hSplit, hId, hBefore⟩
    rcases utinydrmFbDestroy_split env hSplit hId hBefore with
      ⟨s', hDone, hFbs⟩
    cases hDone.symm.trans hRun
    have hLists := hOk.lists
    rw [hSplit] at hLists ⊢
    refine ⟨some (slotBehind before.dropLast,
      slotBehind before, ufb.addr), ?_, ?_⟩
    · intro fuel hFuel
      rw [List.length_append] at hFuel
      exact findSlots_listed hLists hId hBefore (by omega)
    · rw [hFbs]
      exact listsFbs_unlink hLists

/- The loop of a destruction has stopped there. -/
theorem findSlots_unique
    {mem : FbMemory} {id : UInt32} {prev curr : FbSlot}
    {found stopped : Option (FbSlot × FbSlot × Nat)} {n : Nat}
    (hFound : ∀ fuel, n < fuel →
      mem.findSlots id fuel prev curr = some found)
    {fuel : Nat}
    (hStopped : mem.findSlots id fuel prev curr =
      some stopped) :
    stopped = found := by
  have hMore := FbMemory.findSlots_mono hStopped (n + 1)
  have hLess : n < fuel + (n + 1) := by omega
  exact Option.some.inj (hMore.symm.trans (hFound _ hLess))

/- Every event of the model is one on the pointers, too. -/
theorem exists_fbMemoryStep
    {s : World × FbMemory} (hOk : FbMemoryOk s)
    {label : Event × Int} {w' : World}
    (hRun : EventStep env mipi s.1 label w') :
    ∃ mem', FbMemoryStep env mipi s label (w', mem') := by
  rcases label with ⟨event, ret⟩
  cases event with
  | fbCreate fbId =>
      rcases (fbs_of_create hRun).2 with
        ⟨hRet, _⟩ | ⟨rfl, fb, _, hFbs⟩
      · refine ⟨s.2, hRun, ?_⟩
        dsimp only
        rw [if_neg hRet]
      · refine ⟨s.2.link fb, hRun, ?_⟩
        dsimp only
        rw [if_pos rfl, hFbs]
        exact ⟨fb, rfl, rfl⟩
  | fbDestroy fbId =>
      rcases findSlots_of_destroy hOk hRun with
        ⟨found, hFound, _⟩
      exact ⟨_, hRun, _, found,
        hFound (s.1.fbs.length + 1) (Nat.lt_succ_self _), rfl⟩
  | pipeEnable => exact ⟨s.2, hRun, rfl⟩
  | pipeDisable => exact ⟨s.2, hRun, rfl⟩
  | fbDirty dirty clips => exact ⟨s.2, hRun, rfl⟩
  | unknown => exact ⟨s.2, hRun, rfl⟩

/- The pointers stay true to the list of the model. -/
theorem fbMemoryOk_step
    {s s' : World × FbMemory} {label : Event × Int}
    (hOk : FbMemoryOk s)
    (hStep : FbMemoryStep env mipi s label s') :
    FbMemoryOk s' := by
  rcases label with ⟨event, ret⟩
  rcases hStep with ⟨hRun, hMem⟩
  have hUnmap : UnmapStep env mipi s.1
      (event, ret, unmappedBy s.1 event) s'.1 := ⟨hRun, rfl⟩
  have hNow := (fbOutcome_of_step hUnmap).2
  -- an event that leaves the list and the pointers alone
  have hOther : s'.1.fbs = s.1.fbs → s'.2 = s.2 →
      FbMemoryOk s' := by
    intro hFbs hSame
    refine ⟨by rw [hFbs, hSame]; exact hOk.lists, ?_⟩
    rw [hFbs]
    exact fun fb hListed =>
      (hOk.allocated fb hListed).trans_le hNow
  cases event with
  | fbCreate fbId =>
      dsimp only at hMem
      rcases (fbs_of_create hRun).2 with
        ⟨hRet, hFbs⟩ | ⟨hRet, fb, hNew, hFbs⟩
      · rw [if_neg hRet] at hMem
        exact hOther hFbs hMem
      · rw [if_pos hRet, hFbs] at hMem
        rcases hMem with ⟨ufb, hHead, hLink⟩
        cases hHead
        have hFresh : fb.addr ∉
            s.1.fbs.map UtinydrmFb.addr := by
          rw [hNew.addr, List.mem_map]
          rintro ⟨other, hListed, hAddr⟩
          have hPast := hOk.allocated other hListed
          omega
        refine ⟨?_, ?_⟩
        · rw [hFbs, hLink]
          exact listsFbs_link hOk.lists hFresh
        · rw [hFbs]
          intro other hListed
          rcases List.mem_cons.mp hListed with rfl | hOld
          · rw [hNew.addr]
            exact hNew.later
          · exact (hOk.allocated other hOld).trans_le hNow
  | fbDestroy fbId =>
      rcases hMem with ⟨fuel, stopped, hStopped, hSame⟩
      rcases findSlots_of_destroy hOk hRun with
        ⟨found, hFound, hLists⟩
      cases findSlots_unique hFound hStopped
      refine ⟨by rw [hSame]; exact hLists, ?_⟩
      intro fb hListed
      exact (hOk.allocated fb
        (mem_fbs_of_destroy hRun hListed)).trans_le hNow
  | pipeEnable =>
      exact hOther (fbs_of_pipe_event (by simp) hRun) hMem
  | pipeDisable =>
      exact hOther (fbs_of_pipe_event (by simp) hRun) hMem
  | fbDirty dirty clips =>
      exact hOther (fbs_of_pipe_event (by simp) hRun) hMem
  | unknown =>
      exact hOther (fbs_of_pipe_event (by simp) hRun) hMem

section Run

variable {w₀ : World} {mem₀ : FbMemory}
variable {history : List (Event × Int)}

/- They are in every run from an empty list. -/
theorem fbMemoryOk_run
    (hEmpty : w₀.fbs = []) (hNull : mem₀.fbs = none)
    {s : World × FbMemory}
    (hRun : Transition.Run (FbMemoryStep env mipi)
      Transition.unguarded (w₀, mem₀) history s) :
    FbMemoryOk s := by
  refine hRun.invariant FbMemoryOk ?_ ?_
  · refine ⟨⟨?_, ?_, ?_⟩, ?_⟩
    all_goals simp [hEmpty, hNull, LinkedChain.Leads]
  · intro history s label s' hOk _ hStep
    exact fbMemoryOk_step hOk hStep

/- Every run of the model is one on the pointers. -/
theorem exists_fbMemoryRun
    (hEmpty : w₀.fbs = []) (hNull : mem₀.fbs = none)
    {w : World}
    (hRun : Transition.Run (EventStep env mipi)
      Transition.unguarded w₀ history w) :
    ∃ mem, Transition.Run (FbMemoryStep env mipi)
      Transition.unguarded (w₀, mem₀) history (w, mem) := by
  induction hRun with
  | nil => exact ⟨mem₀, .nil⟩
  | snoc _ _ hStep ih =>
      rcases ih with ⟨mem, hBefore⟩
      rcases exists_fbMemoryStep
        (fbMemoryOk_run hEmpty hNull hBefore) hStep with
        ⟨mem', hTaken⟩
      exact ⟨mem', .snoc hBefore trivial hTaken⟩

end Run

/-
  In every run of events since the list was empty, the loops
  over the pointers end, each finds what it finds in the list
  of the model, and every event the model takes is taken on
  the pointers.
-/
theorem fb_list_pointers
    (env : Env) (mipi : MipiDbi)
    (w₀ : World) (hEmpty : w₀.fbs = [])
    (mem₀ : FbMemory) (hNull : mem₀.fbs = none)
    (history : List (Event × Int)) (s : World × FbMemory)
    (hRun : Transition.Run (FbMemoryStep env mipi)
      Transition.unguarded (w₀, mem₀) history s) :
    ListsFbs s.2 s.1.fbs ∧
    (∀ test fuel, s.1.fbs.length < fuel →
      s.2.find test fuel = some (s.1.fbs.find? test)) ∧
    ∀ label w', EventStep env mipi s.1 label w' →
      ∃ mem', FbMemoryStep env mipi s label (w', mem') ∧
        ListsFbs mem' w'.fbs := by
  have hOk := fbMemoryOk_run hEmpty hNull hRun
  refine ⟨hOk.lists, fun test fuel hFuel =>
    find_eq hOk.lists test hFuel, ?_⟩
  intro label w' hEvent
  rcases exists_fbMemoryStep hOk hEvent with ⟨mem', hStep⟩
  exact ⟨mem', hStep, (fbMemoryOk_step hOk hStep).lists⟩

/- After two creations, the older one is destroyed. -/
theorem fb_list_pointers_two :
    ∃ s : World × FbMemory, fbIds s.1.fbs = [2, 1] ∧
      s.2.find (fun ufb => ufb.id = 1) 3 =
        some (s.1.fbs.find? fun ufb => ufb.id = 1) ∧
      ∃ w' mem', EventStep Env.granting
          (mi0283qtProbe mainSpi true true true false) s.1
          (.fbDestroy 1, 0) w' ∧
        FbMemoryStep Env.granting
          (mi0283qtProbe mainSpi true true true false) s
          (.fbDestroy 1, 0) (w', mem') := by
  let mem₀ : FbMemory :=
    ⟨none, fun _ => none, fun _ => .display⟩
  have hNull : mem₀.fbs = none := rfl
  rcases run_two_creates with ⟨w, hRun, hIds⟩
  rcases exists_fbMemoryRun rfl hNull
      (hRun.weaken fun _ _ _ _ => trivial) with ⟨mem, hRun'⟩
  have hPointers := fb_list_pointers Env.granting _ _ rfl mem₀
    rfl _ _ hRun'
  have hListed : 1 ∈ fbIds w.fbs := by
    rw [hIds]
    decide
  have hLength : w.fbs.length = 2 := by
    rw [← List.length_map (f := UtinydrmFb.id)]
    exact congrArg List.length hIds
  rcases exists_split hListed with
    ⟨before, ufb, after, hSplit, hId, hBefore⟩
  rcases utinydrmFbDestroy_split Env.granting hSplit hId
      hBefore with ⟨w', hDestroy, _⟩
  have hEvent : EventStep Env.granting
      (mi0283qtProbe mainSpi true true true false) w
      (.fbDestroy 1, 0) w' := hDestroy
  rcases hPointers.2.2 _ w' hEvent with ⟨mem', hStep, _⟩
  exact ⟨(w, mem), hIds, hPointers.2.1 _ 3 (by simp [hLength]),
    w', mem', hEvent, hStep⟩

end Utinydrm
