import Mathlib.Data.List.Rotate
import Utinydrm.Lib.LinkedRing
import Utinydrm.Lib.Transition

/-
  `include/linux/list.h`: circular lists whose pointers are
  in the structures that are listed.

  Each function is a few stores. In every run of them on any
  number of lists, the pointers hold the lists that a reader
  of the documentation expects.

  Key definitions include:
    * the functions of the header, under its names
    * `ListCall`, `ListStep`

  Main declarations:
    * `holdsLists_step`
    * `list_calls_hold`
-/

------------------------------------------------------------
-- The Functions
------------------------------------------------------------

namespace Utinydrm

open LinkedRing (Links)

variable {α : Type} [DecidableEq α]

/- `INIT_LIST_HEAD`. -/
def initListHead (links : Links α) (list : α) : Links α :=
  (links.setNext list list).setPrev list list

/- `__list_add`. -/
def listAddBetween
    (links : Links α) (new prev next : α) : Links α :=
  let links := links.setPrev next new
  let links := links.setNext new next
  let links := links.setPrev new prev
  links.setNext prev new

/- `list_add`. -/
def listAdd (links : Links α) (new head : α) : Links α :=
  listAddBetween links new head (links.next head)

/- `list_add_tail`. -/
def listAddTail (links : Links α) (new head : α) : Links α :=
  listAddBetween links new (links.prev head) head

/- `__list_del`. -/
def listDelBetween (links : Links α) (prev next : α) :
    Links α :=
  let links := links.setPrev next prev
  links.setNext prev next

/- `__list_del_entry`. -/
def listDelEntry (links : Links α) (entry : α) : Links α :=
  listDelBetween links (links.prev entry) (links.next entry)

/- `list_del`, with the two values it leaves in the entry. -/
def listDel
    (poison₁ poison₂ : α) (links : Links α) (entry : α) :
    Links α :=
  let links := listDelEntry links entry
  let links := links.setNext entry poison₁
  links.setPrev entry poison₂

/- `list_replace`. -/
def listReplace (links : Links α) (old new : α) : Links α :=
  let links := links.setNext new (links.next old)
  let links := links.setPrev (links.next new) new
  let links := links.setPrev new (links.prev old)
  links.setNext (links.prev new) new

/- `list_replace_init`. -/
def listReplaceInit (links : Links α) (old new : α) :
    Links α :=
  initListHead (listReplace links old new) old

/- `list_del_init`. -/
def listDelInit (links : Links α) (entry : α) : Links α :=
  initListHead (listDelEntry links entry) entry

/- `list_move`. -/
def listMove (links : Links α) (list head : α) : Links α :=
  listAdd (listDelEntry links list) list head

/- `list_move_tail`. -/
def listMoveTail (links : Links α) (list head : α) : Links α :=
  listAddTail (listDelEntry links list) list head

/- `list_is_last`. -/
def listIsLast (links : Links α) (list head : α) : Bool :=
  links.next list = head

/- `list_empty`. -/
def listEmpty (links : Links α) (head : α) : Bool :=
  links.next head = head

/- `list_empty_careful`. -/
def listEmptyCareful (links : Links α) (head : α) : Bool :=
  let next := links.next head
  next = head && next = links.prev head

/- `list_rotate_left`. -/
def listRotateLeft (links : Links α) (head : α) : Links α :=
  if ¬ listEmpty links head then
    listMoveTail links (links.next head) head
  else
    links

/- `list_is_singular`. -/
def listIsSingular (links : Links α) (head : α) : Bool :=
  !listEmpty links head && links.next head = links.prev head

/- `__list_cut_position`. -/
def listCutAt (links : Links α) (list head entry : α) :
    Links α :=
  let newFirst := links.next entry
  let links := links.setNext list (links.next head)
  let links := links.setPrev (links.next list) list
  let links := links.setPrev list entry
  let links := links.setNext entry list
  let links := links.setNext head newFirst
  links.setPrev newFirst head

/- `list_cut_position`. -/
def listCutPosition
    (links : Links α) (list head entry : α) : Links α :=
  if listEmpty links head then
    links
  else if listIsSingular links head ∧
      links.next head ≠ entry ∧ head ≠ entry then
    links
  else if entry = head then
    initListHead links list
  else
    listCutAt links list head entry

/- `__list_splice`. -/
def listSpliceBetween
    (links : Links α) (list prev next : α) : Links α :=
  let first := links.next list
  let last := links.prev list
  let links := links.setPrev first prev
  let links := links.setNext prev first
  let links := links.setNext last next
  links.setPrev next last

/- `list_splice`. -/
def listSplice (links : Links α) (list head : α) : Links α :=
  if ¬ listEmpty links list then
    listSpliceBetween links list head (links.next head)
  else
    links

/- `list_splice_tail`. -/
def listSpliceTail (links : Links α) (list head : α) :
    Links α :=
  if ¬ listEmpty links list then
    listSpliceBetween links list (links.prev head) head
  else
    links

/- `list_splice_init`. -/
def listSpliceInit (links : Links α) (list head : α) :
    Links α :=
  if ¬ listEmpty links list then
    initListHead
      (listSpliceBetween links list head (links.next head))
      list
  else
    links

/- `list_splice_tail_init`. -/
def listSpliceTailInit (links : Links α) (list head : α) :
    Links α :=
  if ¬ listEmpty links list then
    initListHead
      (listSpliceBetween links list (links.prev head) head)
      list
  else
    links

/-
  `list_for_each`, as the cells `pos` takes, with fuel for
  the loop, which ends only at the head.
-/
def listForEach
    (links : Links α) (head : α) (fuel : Nat) :
    Option (List α) :=
  LinkedRing.walk links.next head fuel (links.next head)

/- `list_for_each_prev`. -/
def listForEachPrev
    (links : Links α) (head : α) (fuel : Nat) :
    Option (List α) :=
  LinkedRing.walk links.prev head fuel (links.prev head)

end Utinydrm

------------------------------------------------------------
-- What They Are For
------------------------------------------------------------

namespace Utinydrm

open LinkedRing (Links HoldsLists)
open LinkedRing.HoldsLists (Free OnlyIn)

variable {α : Type}

/- The calls that store into a list. -/
inductive ListCall (α : Type) where
| init (list : α)
| add (new head : α)
| addTail (new head : α)
| del (entry : α)
| replace (old new : α)
| replaceInit (old new : α)
| delInit (entry : α)
| move (list head : α)
| moveTail (list head : α)
| rotateLeft (head : α)
| cutPosition (list head entry : α)
| splice (list head : α)
| spliceTail (list head : α)
| spliceInit (list head : α)
| spliceTailInit (list head : α)

variable [DecidableEq α]

/- What a call stores. -/
def ListCall.run
    (poison₁ poison₂ : α) (links : Links α) :
    ListCall α → Links α
| .init list => initListHead links list
| .add new head => listAdd links new head
| .addTail new head => listAddTail links new head
| .del entry => listDel poison₁ poison₂ links entry
| .replace old new => listReplace links old new
| .replaceInit old new => listReplaceInit links old new
| .delInit entry => listDelInit links entry
| .move list head => listMove links list head
| .moveTail list head => listMoveTail links list head
| .rotateLeft head => listRotateLeft links head
| .cutPosition list head entry =>
    listCutPosition links list head entry
| .splice list head => listSplice links list head
| .spliceTail list head => listSpliceTail links list head
| .spliceInit list head => listSpliceInit links list head
| .spliceTailInit list head =>
    listSpliceTailInit links list head

/-
  What a call makes of the lists, by the comments of the
  header. A head that is taken over, or emptied and not
  reinitialised, is no head any more.
-/
inductive ListStep :
    (α → Option (List α)) → ListCall α →
      (α → Option (List α)) → Prop
| init {lists list} :
    OnlyIn lists list list →
    ListStep lists (.init list)
      (Function.update lists list (some []))
| add {lists new head l} :
    lists head = some l → Free lists new →
    ListStep lists (.add new head)
      (Function.update lists head (some (new :: l)))
| addTail {lists new head l} :
    lists head = some l → Free lists new →
    ListStep lists (.addTail new head)
      (Function.update lists head (some (l ++ [new])))
| del {lists head before entry after} :
    lists head = some (before ++ entry :: after) →
    ListStep lists (.del entry)
      (Function.update lists head (some (before ++ after)))
| replaceEntry {lists head before old after new} :
    lists head = some (before ++ old :: after) →
    Free lists new →
    ListStep lists (.replace old new)
      (Function.update lists head
        (some (before ++ new :: after)))
| replaceHead {lists old l new} :
    lists old = some l → Free lists new →
    ListStep lists (.replace old new)
      (Function.update (Function.update lists old none) new
        (some l))
| replaceInit {lists old new lists'} :
    ListStep lists (.replace old new) lists' →
    ListStep lists (.replaceInit old new)
      (Function.update lists' old (some []))
| delInit {lists entry lists'} :
    ListStep lists (.del entry) lists' →
    ListStep lists (.delInit entry)
      (Function.update lists' entry (some []))
| move {lists list lists' head l} :
    ListStep lists (.del list) lists' →
    lists' head = some l →
    ListStep lists (.move list head)
      (Function.update lists' head (some (list :: l)))
| moveTail {lists list lists' head l} :
    ListStep lists (.del list) lists' →
    lists' head = some l →
    ListStep lists (.moveTail list head)
      (Function.update lists' head (some (l ++ [list])))
| rotateLeft {lists head l} :
    lists head = some l →
    ListStep lists (.rotateLeft head)
      (Function.update lists head (some (l.rotate 1)))
| cutNothing {lists list head entry} :
    lists head = some [] →
    ListStep lists (.cutPosition list head entry) lists
| cutForeign {lists list head x entry} :
    lists head = some [x] → entry ≠ x → entry ≠ head →
    ListStep lists (.cutPosition list head entry) lists
| cutAtHead {lists list head x rest} :
    lists head = some (x :: rest) →
    OnlyIn lists list list →
    ListStep lists (.cutPosition list head head)
      (Function.update lists list (some []))
| cut {lists list head before entry after} :
    lists head = some (before ++ entry :: after) →
    OnlyIn lists list list → list ≠ head →
    ListStep lists (.cutPosition list head entry)
      (Function.update
        (Function.update lists head (some after)) list
        (some (before ++ [entry])))
| spliceNothing {lists list head} :
    lists list = some [] →
    ListStep lists (.splice list head) lists
| splice {lists list x rest head l} :
    lists list = some (x :: rest) → lists head = some l →
    list ≠ head →
    ListStep lists (.splice list head)
      (Function.update (Function.update lists list none) head
        (some (x :: rest ++ l)))
| spliceTailNothing {lists list head} :
    lists list = some [] →
    ListStep lists (.spliceTail list head) lists
| spliceTail {lists list x rest head l} :
    lists list = some (x :: rest) → lists head = some l →
    list ≠ head →
    ListStep lists (.spliceTail list head)
      (Function.update (Function.update lists list none) head
        (some (l ++ x :: rest)))
| spliceInit {lists list m head l} :
    lists list = some m → lists head = some l →
    list ≠ head →
    ListStep lists (.spliceInit list head)
      (Function.update
        (Function.update lists head (some (m ++ l))) list
        (some []))
| spliceTailInit {lists list m head l} :
    lists list = some m → lists head = some l →
    list ≠ head →
    ListStep lists (.spliceTailInit list head)
      (Function.update
        (Function.update lists head (some (l ++ m))) list
        (some []))

end Utinydrm

------------------------------------------------------------
-- One Call
------------------------------------------------------------

namespace Utinydrm

open LinkedRing (Links HoldsLists)
open LinkedRing.HoldsLists (Free OnlyIn)

variable {α : Type} [DecidableEq α]
variable {links : Links α} {lists : α → Option (List α)}

/- The stores of a function, as joins. -/
theorem listAddBetween_eq
    (links : Links α) (new prev next : α) :
    listAddBetween links new prev next =
      (links.join new next).join prev new := rfl

theorem listDelBetween_eq
    (links : Links α) (prev next : α) :
    listDelBetween links prev next = links.join prev next :=
  rfl

theorem listSpliceBetween_eq
    (links : Links α) (list prev next : α) :
    listSpliceBetween links list prev next =
      (links.join prev (links.next list)).join
        (links.prev list) next := rfl

theorem listCutAt_eq
    (links : Links α) (list head entry : α) :
    listCutAt links list head entry =
      ((links.join list (links.next head)).join entry
        list).join head (links.next entry) := by
  simp [listCutAt, Links.join, Links.setPrev_setNext]

theorem listReplace_eq
    (links : Links α) {old new : α}
    (hNext : links.next old ≠ old) :
    listReplace links old new =
      (links.join new (links.next old)).join (links.prev old)
        new := by
  simp [listReplace, Links.join, Links.setPrev_setNext,
    hNext.symm]

section Step

variable (hHolds : HoldsLists links lists)

include hHolds

theorem holdsLists_listDelEntry
    {head entry : α} {before after : List α}
    (hList : lists head = some (before ++ entry :: after)) :
    HoldsLists (listDelEntry links entry)
      (Function.update lists head (some (before ++ after))) := by
  rcases (hHolds.ring _ _ hList).neighbours with
    ⟨hPrev, hNext⟩
  rw [listDelEntry, listDelBetween_eq, hPrev, hNext]
  exact hHolds.remove hList

theorem holdsLists_listAdd
    {head new : α} {l : List α} (hList : lists head = some l)
    (hFree : Free lists new) :
    HoldsLists (listAdd links new head)
      (Function.update lists head (some (new :: l))) := by
  rw [listAdd, listAddBetween_eq,
    (hHolds.ring _ _ hList).next_head]
  have hSplit : lists head = some ([] ++ l) := hList
  exact hHolds.insert hSplit hFree

theorem holdsLists_listAddTail
    {head new : α} {l : List α} (hList : lists head = some l)
    (hFree : Free lists new) :
    HoldsLists (listAddTail links new head)
      (Function.update lists head (some (l ++ [new]))) := by
  rw [listAddTail, listAddBetween_eq,
    (hHolds.ring _ _ hList).prev_head]
  rw [← List.append_nil l] at hList
  exact hHolds.insert hList hFree

theorem holdsLists_listDel
    (poison₁ poison₂ : α)
    {head entry : α} {before after : List α}
    (hList : lists head = some (before ++ entry :: after)) :
    HoldsLists (listDel poison₁ poison₂ links entry)
      (Function.update lists head (some (before ++ after))) := by
  refine (holdsLists_listDelEntry hHolds hList).of_sameAt ?_
  intro g l hOther a hMem
  have hFree := hHolds.free_of_remove hList g l hOther
  have hNe : a ≠ entry := fun h => hFree (h ▸ hMem)
  simp [listDel, hNe]

theorem holdsLists_listMoveTail
    {g entry head : α} {before after l : List α}
    (hList : lists g = some (before ++ entry :: after))
    (hHead : Function.update lists g (some (before ++ after))
      head = some l) :
    HoldsLists (listMoveTail links entry head)
      (Function.update (Function.update lists g
        (some (before ++ after))) head
        (some (l ++ [entry]))) :=
  holdsLists_listAddTail (holdsLists_listDelEntry hHolds hList)
    hHead (hHolds.free_of_remove hList)

/- The tests of a list. -/
theorem listEmpty_iff
    {head : α} {l : List α} (hList : lists head = some l) :
    listEmpty links head = true ↔ l = [] := by
  have hRing := hHolds.ring _ _ hList
  rw [listEmpty, hRing.next_head, decide_eq_true_iff]
  cases l with
  | nil => simp
  | cons x rest =>
      have hNe : x ≠ head := by
        rintro rfl
        have hNodup := hRing.path.nodup
        simp at hNodup
      simp [hNe]

theorem listIsSingular_iff
    {head : α} {l : List α} (hList : lists head = some l) :
    listIsSingular links head = true ↔ l.length = 1 := by
  have hRing := hHolds.ring _ _ hList
  have hEmpty := listEmpty_iff hHolds hList
  rw [listIsSingular, Bool.and_eq_true, Bool.not_eq_true',
    ← Bool.not_eq_true, hEmpty, decide_eq_true_iff,
    hRing.next_head, hRing.prev_head]
  rcases l with _ | ⟨x, _ | ⟨y, rest⟩⟩
  case nil => simp
  case cons.nil => simp
  case cons.cons =>
    have hNodup := hRing.path.nodup
    have hLast : rest.getLastD y ∈ y :: rest :=
      List.getLastD_mem_cons
    rw [List.getLastD_cons, List.getLastD_cons, List.headD_cons]
    constructor
    · rintro ⟨_, hSame⟩
      rw [← hSame] at hLast
      rw [List.nodup_cons, List.nodup_cons] at hNodup
      exact absurd hLast hNodup.2.1
    · intro hLength
      simp at hLength

theorem listIsLast_iff
    {head entry : α} {before after : List α}
    (hList : lists head = some (before ++ entry :: after)) :
    listIsLast links entry head = true ↔ after = [] := by
  have hRing := hHolds.ring _ _ hList
  rw [listIsLast, decide_eq_true_iff, hRing.neighbours.2]
  cases after with
  | nil => simp
  | cons x rest =>
      have hNe : x ≠ head := by
        rintro rfl
        have hNodup := hRing.path.nodup
        simp at hNodup
      simp [hNe]

theorem holdsLists_listRotateLeft
    {head : α} {l : List α} (hList : lists head = some l) :
    HoldsLists (listRotateLeft links head)
      (Function.update lists head (some (l.rotate 1))) := by
  have hEmpty := listEmpty_iff hHolds hList
  rw [listRotateLeft]
  cases l with
  | nil =>
      rw [if_neg (by rw [hEmpty]; simp), List.rotate_nil,
        ← hList, Function.update_eq_self]
      exact hHolds
  | cons x rest =>
      have hHead : Function.update lists head
          (some ([] ++ rest)) head = some rest :=
        Function.update_self _ _ _
      have hSplit : lists head = some ([] ++ x :: rest) := hList
      have hMoved := holdsLists_listMoveTail hHolds hSplit hHead
      rw [Function.update_idem] at hMoved
      rw [if_pos (by rw [hEmpty]; simp), List.rotate_cons_succ,
        List.rotate_zero, (hHolds.ring _ _ hList).next_head,
        List.headD_cons]
      exact hMoved

theorem holdsLists_listReplace_entry
    {head old new : α} {before after : List α}
    (hList : lists head = some (before ++ old :: after))
    (hFree : Free lists new) :
    HoldsLists (listReplace links old new)
      (Function.update lists head
        (some (before ++ new :: after))) := by
  have hRing := hHolds.ring _ _ hList
  have hSelf : links.next old ≠ old := by
    rw [hRing.neighbours.2]
    intro hSame
    have hNodup := hRing.path.nodup
    have hFirst : after.headD head ∈ head :: after := by
      cases after <;> simp
    rw [hSame] at hFirst
    have hPerm : (head :: (before ++ old :: after)).Perm
        (old :: (before ++ head :: after)) := by
      refine (List.perm_middle.cons head).trans ?_
      refine (List.Perm.swap ..).trans ?_
      exact List.perm_middle.symm.cons old
    have hOut := (List.nodup_cons.mp (hPerm.nodup hNodup)).1
    exact hOut (List.mem_append_right before hFirst)
  rw [listReplace_eq links hSelf, hRing.neighbours.1,
    hRing.neighbours.2]
  exact hHolds.replace hList hFree

theorem holdsLists_listReplace_head
    {old new : α} {l : List α} (hList : lists old = some l)
    (hFree : Free lists new) :
    HoldsLists (listReplace links old new)
      (Function.update (Function.update lists old none) new
        (some l)) := by
  have hRing := hHolds.ring _ _ hList
  have hNew := hFree _ _ hList
  cases l with
  | nil =>
      have hNe : new ≠ old := fun h => hNew (by simp [h])
      have hStored : listReplace links old new =
          (links.setPrev old new).join new new := by
        have hNext : links.next old = old := hRing.next_head
        simp [listReplace, Links.join, Links.setNext,
          Links.setPrev, hNext]
      -- the old head is in no list any more
      have hErased : HoldsLists (links.setPrev old new)
          (Function.update lists old none) := by
        refine (hHolds.erase old).of_sameAt ?_
        intro g l hEq a hMem
        rw [Function.update_apply] at hEq
        split at hEq
        case isTrue => cases hEq
        case isFalse hOther =>
          have hOld : a ≠ old := fun h =>
            hHolds.onlyIn hList List.mem_cons_self g l hOther hEq
              (h ▸ hMem)
          simp [hOld]
      rw [hStored]
      refine hErased.init fun g l hOther hEq => ?_
      rw [Function.update_apply] at hEq
      split at hEq
      · cases hEq
      · exact hFree g l hEq
  | cons x rest =>
      have hSelf : links.next old ≠ old := by
        rw [hRing.next_head, List.headD_cons]
        rintro rfl
        have hNodup := hRing.path.nodup
        simp at hNodup
      rw [listReplace_eq links hSelf, hRing.next_head,
        hRing.prev_head]
      exact hHolds.adopt hList hFree

/- An entry or a head that is replaced is in no list. -/
theorem free_of_listReplace
    {old new : α} {lists' : α → Option (List α)}
    (hStep : ListStep lists (.replace old new) lists') :
    Free lists' old := by
  cases hStep with
  | replaceEntry hList hNew =>
      have hOut := hHolds.free_of_remove hList
      have hOld : old ≠ new := fun h =>
        hNew _ _ hList (by simp [h])
      intro g l hEq hMem
      rw [Function.update_apply] at hEq
      split at hEq
      case isTrue hHead =>
        cases hHead
        cases hEq
        refine hOut _ _ (Function.update_self _ _ lists) ?_
        simp only [List.mem_cons, List.mem_append] at hMem ⊢
        tauto
      case isFalse hOther =>
        refine hOut g l ?_ hMem
        rw [Function.update_of_ne hOther]
        exact hEq
  | replaceHead hList hNew =>
      have hNodup := (hHolds.ring _ _ hList).path.nodup
      have hOld : old ≠ new := fun h =>
        hNew _ _ hList (by simp [h])
      intro g l hEq hMem
      rw [Function.update_apply] at hEq
      split at hEq
      case isTrue hHead =>
        cases hHead
        cases hEq
        rcases List.mem_cons.mp hMem with hSame | hMem
        · exact hOld hSame
        · exact (List.nodup_cons.mp hNodup).1 hMem
      case isFalse =>
        rw [Function.update_apply] at hEq
        split at hEq
        case isTrue => cases hEq
        case isFalse hOther =>
          exact hHolds.onlyIn hList List.mem_cons_self g l
            hOther hEq hMem

theorem holdsLists_listCutPosition
    {list head entry : α} {before after : List α}
    (hList : lists head = some (before ++ entry :: after))
    (hOnly : OnlyIn lists list list) (hNe : list ≠ head) :
    HoldsLists (listCutPosition links list head entry)
      (Function.update
        (Function.update lists head (some after)) list
        (some (before ++ [entry]))) := by
  have hRing := hHolds.ring _ _ hList
  have hNodup := hRing.path.nodup
  have hEmpty := listEmpty_iff hHolds hList
  have hSingular := listIsSingular_iff hHolds hList
  have hEntry : entry ≠ head := by
    rintro rfl
    simp at hNodup
  have hNotEmpty : ¬ listEmpty links head = true := by
    rw [hEmpty]
    simp
  have hInside : ¬ (listIsSingular links head = true ∧
      links.next head ≠ entry ∧ head ≠ entry) := by
    rintro ⟨hOne, hNext, _⟩
    rw [hSingular] at hOne
    rw [hRing.next_head] at hNext
    cases before with
    | nil => exact hNext rfl
    | cons x rest => simp at hOne
  rw [listCutPosition, if_neg hNotEmpty, if_neg hInside,
    if_neg hEntry, listCutAt_eq]
  have hNext := hRing.neighbours.2
  cases before with
  | nil =>
      rw [hRing.next_head, hNext]
      have hSplit : lists head = some (entry :: [] ++ after) :=
        hList
      exact hHolds.cut hSplit hOnly hNe
  | cons x rest =>
      have hSplit : x :: rest ++ entry :: after =
          x :: (rest ++ [entry]) ++ after := by simp
      have hFirst := hRing.next_head
      rw [hSplit] at hList
      have hCut := hHolds.cut hList hOnly hNe
      rw [List.getLastD_concat] at hCut
      rw [hFirst, hNext]
      exact hCut

/- The cells of a list that is not empty, after a head. -/
theorem holdsLists_listSplice
    {list head x : α} {rest l : List α}
    (hOther : lists list = some (x :: rest))
    (hList : lists head = some l) (hNe : list ≠ head) :
    HoldsLists
      (listSpliceBetween links list head (links.next head))
      (Function.update (Function.update lists list none) head
        (some (x :: rest ++ l))) := by
  have hFrom := hHolds.ring _ _ hOther
  rw [listSpliceBetween_eq, hFrom.next_head, hFrom.prev_head,
    (hHolds.ring _ _ hList).next_head, List.headD_cons,
    List.getLastD_cons]
  have hSplit : lists head = some ([] ++ l) := hList
  exact hHolds.splice hSplit hOther hNe

/- Or before it. -/
theorem holdsLists_listSpliceTail
    {list head x : α} {rest l : List α}
    (hOther : lists list = some (x :: rest))
    (hList : lists head = some l) (hNe : list ≠ head) :
    HoldsLists
      (listSpliceBetween links list (links.prev head) head)
      (Function.update (Function.update lists list none) head
        (some (l ++ x :: rest))) := by
  have hFrom := hHolds.ring _ _ hOther
  rw [listSpliceBetween_eq, hFrom.next_head, hFrom.prev_head,
    (hHolds.ring _ _ hList).prev_head, List.headD_cons,
    List.getLastD_cons]
  have hSplit : lists head = some (l ++ []) := by
    rw [List.append_nil]
    exact hList
  have hSplice := hHolds.splice hSplit hOther hNe
  rwa [List.append_nil] at hSplice

/- The emptied head is initialised again. -/
theorem holdsLists_reinit
    {links' : Links α} {list head x : α} {rest l spliced : List α}
    (hOther : lists list = some (x :: rest))
    (hList : lists head = some l) (hNe : list ≠ head)
    (hCells : ∀ a ∈ spliced, a ∈ x :: rest ∨ a ∈ l)
    (hSpliced : HoldsLists links'
      (Function.update (Function.update lists list none) head
        (some spliced))) :
    HoldsLists (initListHead links' list)
      (Function.update
        (Function.update lists head (some spliced)) list
        (some [])) := by
  have hOnly : OnlyIn (Function.update
      (Function.update lists list none) head (some spliced))
      list list := by
    have hHere := hHolds.onlyIn hOther List.mem_cons_self
    have hNodup := (hHolds.ring _ _ hOther).path.nodup
    have hOut := hHere head l hNe.symm hList
    intro g k hNeList hEq hMem
    rw [Function.update_apply] at hEq
    split at hEq
    case isTrue hHead =>
      cases hHead
      cases hEq
      rcases List.mem_cons.mp hMem with hSame | hMem
      · exact hNe hSame
      · rcases hCells _ hMem with hFrom | hInto
        · exact (List.nodup_cons.mp hNodup).1 hFrom
        · exact hOut (List.mem_cons_of_mem head hInto)
    case isFalse =>
      rw [Function.update_of_ne hNeList] at hEq
      exact hHere g k hNeList hEq hMem
  have hInit := hSpliced.init hOnly
  rwa [Function.update_comm hNe, Function.update_idem]
    at hInit

end Step

/-
  Each call stores what makes the pointers hold the lists
  that its comment says.
-/
theorem holdsLists_step
    (poison₁ poison₂ : α) (hHolds : HoldsLists links lists)
    {call : ListCall α} {lists' : α → Option (List α)}
    (hStep : ListStep lists call lists') :
    HoldsLists (call.run poison₁ poison₂ links) lists' := by
  induction hStep generalizing links with
  | init hOnly => exact hHolds.init hOnly
  | add hList hFree =>
      exact holdsLists_listAdd hHolds hList hFree
  | addTail hList hFree =>
      exact holdsLists_listAddTail hHolds hList hFree
  | del hList =>
      exact holdsLists_listDel hHolds poison₁ poison₂ hList
  | replaceEntry hList hFree =>
      exact holdsLists_listReplace_entry hHolds hList hFree
  | replaceHead hList hFree =>
      exact holdsLists_listReplace_head hHolds hList hFree
  | replaceInit hReplace ih =>
      exact (ih hHolds).init
        ((free_of_listReplace hHolds hReplace).onlyIn _)
  | delInit hDel =>
      cases hDel with
      | del hList =>
          exact (holdsLists_listDelEntry hHolds hList).init
            ((hHolds.free_of_remove hList).onlyIn _)
  | move hDel hHead =>
      cases hDel with
      | del hList =>
          exact holdsLists_listAdd
            (holdsLists_listDelEntry hHolds hList) hHead
            (hHolds.free_of_remove hList)
  | moveTail hDel hHead =>
      cases hDel with
      | del hList =>
          exact holdsLists_listMoveTail hHolds hList hHead
  | rotateLeft hList =>
      exact holdsLists_listRotateLeft hHolds hList
  | cutNothing hList =>
      have hEmpty := (listEmpty_iff hHolds hList).mpr rfl
      rw [ListCall.run, listCutPosition, if_pos hEmpty]
      exact hHolds
  | cutForeign hList hEntry hHead =>
      have hEmpty := listEmpty_iff hHolds hList
      have hSingular := (listIsSingular_iff hHolds hList).mpr rfl
      have hNext := (hHolds.ring _ _ hList).next_head
      rw [ListCall.run, listCutPosition,
        if_neg (by rw [hEmpty]; simp),
        if_pos ⟨hSingular, by rw [hNext]; exact hEntry.symm,
          hHead.symm⟩]
      exact hHolds
  | cutAtHead hList hOnly =>
      have hEmpty := listEmpty_iff hHolds hList
      rw [ListCall.run, listCutPosition,
        if_neg (by rw [hEmpty]; simp),
        if_neg (by rintro ⟨_, _, h⟩; exact h rfl), if_pos rfl]
      exact hHolds.init hOnly
  | cut hList hOnly hNe =>
      exact holdsLists_listCutPosition hHolds hList hOnly hNe
  | spliceNothing hOther =>
      have hEmpty := (listEmpty_iff hHolds hOther).mpr rfl
      rw [ListCall.run, listSplice, if_neg (not_not.mpr hEmpty)]
      exact hHolds
  | splice hOther hList hNe =>
      have hEmpty := listEmpty_iff hHolds hOther
      rw [ListCall.run, listSplice,
        if_pos (by rw [hEmpty]; simp)]
      exact holdsLists_listSplice hHolds hOther hList hNe
  | spliceTailNothing hOther =>
      have hEmpty := (listEmpty_iff hHolds hOther).mpr rfl
      rw [ListCall.run, listSpliceTail,
        if_neg (not_not.mpr hEmpty)]
      exact hHolds
  | spliceTail hOther hList hNe =>
      have hEmpty := listEmpty_iff hHolds hOther
      rw [ListCall.run, listSpliceTail,
        if_pos (by rw [hEmpty]; simp)]
      exact holdsLists_listSpliceTail hHolds hOther hList hNe
  | @spliceInit list m head l hOther hList hNe =>
      have hEmpty := listEmpty_iff hHolds hOther
      cases m with
      | nil =>
          have hTest := hEmpty.mpr rfl
          rw [ListCall.run, listSpliceInit,
            if_neg (not_not.mpr hTest), List.nil_append,
            ← hList, Function.update_eq_self, ← hOther,
            Function.update_eq_self]
          exact hHolds
      | cons x rest =>
          rw [ListCall.run, listSpliceInit,
            if_pos (by rw [hEmpty]; simp)]
          exact holdsLists_reinit hHolds hOther hList hNe
            (fun a ha => List.mem_append.mp ha)
            (holdsLists_listSplice hHolds hOther hList hNe)
  | @spliceTailInit list m head l hOther hList hNe =>
      have hEmpty := listEmpty_iff hHolds hOther
      cases m with
      | nil =>
          have hTest := hEmpty.mpr rfl
          rw [ListCall.run, listSpliceTailInit,
            if_neg (not_not.mpr hTest), List.append_nil,
            ← hList, Function.update_eq_self, ← hOther,
            Function.update_eq_self]
          exact hHolds
      | cons x rest =>
          rw [ListCall.run, listSpliceTailInit,
            if_pos (by rw [hEmpty]; simp)]
          exact holdsLists_reinit hHolds hOther hList hNe
            (fun a ha => (List.mem_append.mp ha).symm)
            (holdsLists_listSpliceTail hHolds hOther hList hNe)

end Utinydrm

------------------------------------------------------------
-- Runs
------------------------------------------------------------

namespace Utinydrm

open LinkedRing (Links HoldsLists)

variable {α : Type} [DecidableEq α]

/- What the functions that read a list make of it. -/
structure ReadsAs
    (links : Links α) (head : α) (l : List α) : Prop where
  forEach : ∀ fuel, l.length < fuel →
    listForEach links head fuel = some l
  forEachPrev : ∀ fuel, l.length < fuel →
    listForEachPrev links head fuel = some l.reverse
  empty : listEmpty links head = true ↔ l = []
  emptyCareful : listEmptyCareful links head = true ↔ l = []
  singular : listIsSingular links head = true ↔ l.length = 1
  isLast : ∀ before entry after,
    l = before ++ entry :: after →
    (listIsLast links entry head = true ↔ after = [])

/- The pointers of a list read as the list. -/
theorem readsAs_of_holdsLists
    {links : Links α} {lists : α → Option (List α)}
    (hHolds : HoldsLists links lists) {head : α}
    {l : List α} (hList : lists head = some l) :
    ReadsAs links head l where
  forEach fuel hFuel := (hHolds.ring _ _ hList).walk_eq hFuel
  forEachPrev fuel hFuel := by
    have hReverse := (hHolds.ring _ _ hList).reverse
    apply hReverse.walk_eq
    rw [List.length_reverse]
    exact hFuel
  empty := listEmpty_iff hHolds hList
  emptyCareful := by
    have hEmpty := listEmpty_iff hHolds hList
    have hRing := hHolds.ring _ _ hList
    rw [listEmpty, decide_eq_true_iff] at hEmpty
    rw [listEmptyCareful, Bool.and_eq_true,
      decide_eq_true_iff, decide_eq_true_iff, hEmpty]
    constructor
    · exact And.left
    · rintro rfl
      exact ⟨rfl, hRing.next_head.trans hRing.prev_head.symm⟩
  singular := listIsSingular_iff hHolds hList
  isLast before entry after hSplit :=
    listIsLast_iff hHolds (hSplit ▸ hList)

/- The pointers, with the lists they are meant to hold. -/
def ListsStep
    (poison₁ poison₂ : α)
    (s : Links α × (α → Option (List α))) (call : ListCall α)
    (s' : Links α × (α → Option (List α))) : Prop :=
  s'.1 = call.run poison₁ poison₂ s.1 ∧ ListStep s.2 call s'.2

/-
  In every run of calls, from memory of any content with no
  list in it, each list reads as what the calls made of it.
-/
theorem list_calls_hold
    (poison₁ poison₂ : α) (links₀ : Links α)
    (calls : List (ListCall α))
    (s : Links α × (α → Option (List α)))
    (hRun : Transition.Run (ListsStep poison₁ poison₂)
      Transition.unguarded (links₀, fun _ => none) calls s)
    (head : α) (l : List α) (hList : s.2 head = some l) :
    ReadsAs s.1 head l := by
  have hHolds : HoldsLists s.1 s.2 := by
    refine hRun.invariant (fun s => HoldsLists s.1 s.2) ?_ ?_
    · constructor
      · exact fun _ _ hNone => nomatch hNone
      · exact fun _ _ _ _ _ hNone => nomatch hNone
    · intro history s call s' hHolds _ hStep
      rw [hStep.1]
      exact holdsLists_step poison₁ poison₂ hHolds hStep.2
  exact readsAs_of_holdsLists hHolds hList

/- A queue of two cells, whose first one goes to the end. -/
theorem list_calls_hold_rotated :
    ∃ s, Transition.Run (ListsStep 100 200)
        Transition.unguarded (⟨id, id⟩, fun _ => none)
        [.init 0, .addTail 1 0, .addTail 2 0, .rotateLeft 0]
        s ∧
      ReadsAs s.1 (0 : Nat) [2, 1] := by
  let step (s : Links Nat × (Nat → Option (List Nat)))
      (call : ListCall Nat) (l : List Nat) :
      Links Nat × (Nat → Option (List Nat)) :=
    (call.run 100 200 s.1, Function.update s.2 0 (some l))
  let s₁ := step (⟨id, id⟩, fun _ => none) (.init 0) []
  let s₂ := step s₁ (.addTail 1 0) [1]
  let s₃ := step s₂ (.addTail 2 0) [1, 2]
  let s₄ := step s₃ (.rotateLeft 0) [2, 1]
  -- there is no other list
  have hFree : ∀ lists : Nat → Option (List Nat), ∀ l x,
      lists 0 = some l → x ∉ 0 :: l →
      (∀ g, g ≠ 0 → lists g = none) →
      HoldsLists.Free lists x := by
    intro lists l x hList hNew hNone g k hEq
    by_cases hHead : g = 0
    · subst hHead
      cases hList.symm.trans hEq
      exact hNew
    · rw [hNone g hHead] at hEq
      cases hEq
  have hInit : ListsStep 100 200 (⟨id, id⟩, fun _ => none)
      (.init 0) s₁ :=
    ⟨rfl, .init fun _ _ _ hNone => nomatch hNone⟩
  have hFirst : ListsStep 100 200 s₁ (.addTail 1 0) s₂ := by
    refine ⟨rfl, .addTail (l := []) rfl ?_⟩
    exact hFree _ [] 1 rfl (by decide) fun g hNe => by
      simp [s₁, step, hNe]
  have hSecond : ListsStep 100 200 s₂ (.addTail 2 0) s₃ := by
    refine ⟨rfl, .addTail (l := [1]) rfl ?_⟩
    exact hFree _ [1] 2 rfl (by decide) fun g hNe => by
      simp [s₂, s₁, step, hNe]
  have hRotate : ListsStep 100 200 s₃ (.rotateLeft 0) s₄ :=
    ⟨rfl, .rotateLeft (l := [1, 2]) rfl⟩
  exact ⟨s₄, .snoc (.snoc (.snoc (.snoc .nil trivial hInit)
    trivial hFirst) trivial hSecond) trivial hRotate,
    list_calls_hold 100 200 _ _ _ (.snoc (.snoc (.snoc (.snoc
      .nil trivial hInit) trivial hFirst) trivial hSecond)
      trivial hRotate) 0 [2, 1] rfl⟩

end Utinydrm
