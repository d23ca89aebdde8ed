import Mathlib.Data.List.Basic
import Mathlib.Data.List.Chain
import Mathlib.Data.List.Nodup
import Mathlib.Logic.Function.Basic

/-
  Doubly linked lists in memory: a ring of cells, one of them
  the head, each of which points to the next and the previous
  one.

  All that changes a ring is the joining of two cells. Paths
  are joined to a longer path or closed to a ring, and a ring
  is the same seen from any of its cells.

  Key definitions include:
    * `LinkedRing.Links`, `LinkedRing.Links.join`
    * `LinkedRing.IsPath`, `LinkedRing.IsRing`

  Main declarations:
    * `LinkedRing.IsPath.join`, `LinkedRing.IsPath.close`
    * `LinkedRing.IsRing.rotate`
    * `LinkedRing.IsRing.insert`, `LinkedRing.IsRing.remove`
    * `LinkedRing.IsRing.splice`, `LinkedRing.IsRing.cut`
-/

------------------------------------------------------------
-- Links
------------------------------------------------------------

namespace LinkedRing

/- What the two pointers of each cell point to. -/
structure Links (α : Type) where
  next : α → α
  prev : α → α

variable {α : Type} [DecidableEq α]

namespace Links

def setNext (links : Links α) (a b : α) : Links α :=
  { links with next := Function.update links.next a b }

def setPrev (links : Links α) (a b : α) : Links α :=
  { links with prev := Function.update links.prev a b }

/- Two cells are made to point to each other. -/
def join (links : Links α) (a b : α) : Links α :=
  (links.setNext a b).setPrev b a

/- They do. -/
omit [DecidableEq α] in
def Joined (links : Links α) (a b : α) : Prop :=
  links.next a = b ∧ links.prev b = a

@[simp] theorem setNext_next
    (links : Links α) (a b x : α) :
    (links.setNext a b).next x =
      if x = a then b else links.next x := by
  exact Function.update_apply _ _ _ _

@[simp] theorem setNext_prev
    (links : Links α) (a b x : α) :
    (links.setNext a b).prev x = links.prev x := rfl

@[simp] theorem setPrev_prev
    (links : Links α) (a b x : α) :
    (links.setPrev a b).prev x =
      if x = a then b else links.prev x := by
  exact Function.update_apply _ _ _ _

@[simp] theorem setPrev_next
    (links : Links α) (a b x : α) :
    (links.setPrev a b).next x = links.next x := rfl

@[simp] theorem join_next
    (links : Links α) (a b x : α) :
    (links.join a b).next x =
      if x = a then b else links.next x := by
  rw [join, setPrev_next, setNext_next]

@[simp] theorem join_prev
    (links : Links α) (a b x : α) :
    (links.join a b).prev x =
      if x = b then a else links.prev x := by
  rw [join, setPrev_prev, setNext_prev]

/- The two kinds of pointers are set in any order. -/
theorem setPrev_setNext
    (links : Links α) (a b c d : α) :
    (links.setPrev a b).setNext c d =
      (links.setNext c d).setPrev a b := rfl

theorem joined_join (links : Links α) (a b : α) :
    (links.join a b).Joined a b := by
  simp [Joined]

/- Other cells stay joined. -/
theorem Joined.join
    {links : Links α} {a b x y : α}
    (hJoined : links.Joined x y) (hNext : x ≠ a)
    (hPrev : y ≠ b) :
    (links.join a b).Joined x y := by
  simpa [Joined, hNext, hPrev] using hJoined

/- Joins of different cells are made in any order. -/
theorem join_comm
    (links : Links α) {a b c d : α}
    (hNext : a ≠ c) (hPrev : b ≠ d) :
    (links.join a b).join c d = (links.join c d).join a b := by
  simp only [join, setNext, setPrev,
    Function.update_comm hNext, Function.update_comm hPrev]

/- What is put between two cells need not find them joined. -/
theorem join_between
    (links : Links α) (a b x : α) :
    ((links.join a b).join x b).join a x =
      (links.join x b).join a x := by
  simp only [join, setNext, setPrev, Function.update_idem,
    mk.injEq]
  constructor
  · by_cases hSame : a = x
    · rw [hSame, Function.update_idem]
    · rw [Function.update_comm hSame, Function.update_idem]
  · trivial

/- The pointers of these cells are the same. -/
omit [DecidableEq α] in
def SameAt (links links' : Links α) (cells : List α) : Prop :=
  ∀ a ∈ cells, links'.next a = links.next a ∧
    links'.prev a = links.prev a

omit [DecidableEq α] in
theorem SameAt.trans
    {links₁ links₂ links₃ : Links α} {cells : List α}
    (h₁ : links₁.SameAt links₂ cells)
    (h₂ : links₂.SameAt links₃ cells) :
    links₁.SameAt links₃ cells :=
  fun a ha => ⟨(h₂ a ha).1.trans (h₁ a ha).1,
    (h₂ a ha).2.trans (h₁ a ha).2⟩

theorem sameAt_join
    (links : Links α) {a b : α} {cells : List α}
    (hFirst : a ∉ cells) (hSecond : b ∉ cells) :
    links.SameAt (links.join a b) cells := by
  intro x hX
  have hNext : x ≠ a := fun h => hFirst (h ▸ hX)
  have hPrev : x ≠ b := fun h => hSecond (h ▸ hX)
  simp [hNext, hPrev]

end Links

end LinkedRing

------------------------------------------------------------
-- Paths
------------------------------------------------------------

namespace LinkedRing

variable {α : Type}

/- The last cell, whatever would be it without these. -/
theorem getLastD_append_cons
    (before after : List α) (x d : α) :
    (before ++ x :: after).getLastD d = after.getLastD x := by
  rw [List.getLastD_eq_getLast?, List.getLast?_append_cons,
    List.getLast?_cons, Option.getD_some,
    List.getLastD_eq_getLast?]

/- Different cells, each of them joined to the one after it. -/
structure IsPath
    (links : Links α) (path : List α) : Prop where
  nodup : path.Nodup
  joined : path.IsChain links.Joined

namespace IsPath

variable {links : Links α}

theorem nil : IsPath links [] :=
  ⟨List.nodup_nil, .nil⟩

theorem singleton (a : α) : IsPath links [a] :=
  ⟨List.nodup_singleton a, .singleton a⟩

theorem append_left
    {first second : List α}
    (hPath : IsPath links (first ++ second)) :
    IsPath links first :=
  ⟨hPath.nodup.of_append_left, hPath.joined.left_of_append⟩

theorem append_right
    {first second : List α}
    (hPath : IsPath links (first ++ second)) :
    IsPath links second :=
  ⟨hPath.nodup.of_append_right, hPath.joined.right_of_append⟩

theorem tail
    {x : α} {path : List α} (hPath : IsPath links (x :: path)) :
    IsPath links path :=
  ⟨hPath.nodup.of_cons, hPath.joined.tail⟩

/- A path depends on the pointers of its cells. -/
theorem of_sameAt
    {links' : Links α} {path : List α}
    (hPath : IsPath links path)
    (hSame : links.SameAt links' path) :
    IsPath links' path := by
  refine ⟨hPath.nodup, hPath.joined.imp_of_mem_imp ?_⟩
  intro x y hX hY hJoined
  exact ⟨(hSame x hX).1.trans hJoined.1,
    (hSame y hY).2.trans hJoined.2⟩

variable [DecidableEq α]

/- A join elsewhere. -/
theorem join_other
    {path : List α} {a b : α}
    (hPath : IsPath links path)
    (hLast : a ∉ path.dropLast) (hFirst : b ∉ path.tail) :
    IsPath (links.join a b) path := by
  refine ⟨hPath.nodup, ?_⟩
  induction path with
  | nil => exact .nil
  | cons x rest ih =>
      cases rest with
      | nil => exact .singleton x
      | cons y rest =>
          have hRest := hPath.tail
          have hJoined := hPath.joined
          rw [List.isChain_cons_cons] at hJoined ⊢
          rw [List.dropLast_cons_cons, List.mem_cons,
            not_or] at hLast
          rw [List.tail_cons, List.mem_cons, not_or] at hFirst
          have hElsewhere : b ∉ (y :: rest).tail := hFirst.2
          exact ⟨hJoined.1.join (Ne.symm hLast.1)
            (Ne.symm hFirst.1),
            ih hRest hLast.2 hElsewhere⟩

/- The last cell is at the end of the path only. -/
omit [DecidableEq α] in
theorem last_not_mem
    {a : α} {path : List α} (hPath : IsPath links (a :: path)) :
    path.getLastD a ∉ (a :: path).dropLast := by
  rcases List.eq_nil_or_concat path with rfl | ⟨front, b, rfl⟩
  · simp
  · have hNodup := hPath.nodup
    rw [List.concat_eq_append] at hNodup ⊢
    rw [List.getLastD_concat, ← List.cons_append,
      List.dropLast_concat]
    rw [← List.cons_append, List.nodup_append] at hNodup
    intro hMem
    exact hNodup.2.2 b hMem b (List.mem_singleton_self b) rfl

/- Two paths become one. -/
theorem join
    {a b : α} {first second : List α}
    (hFirst : IsPath links (a :: first))
    (hSecond : IsPath links (b :: second))
    (hApart : List.Disjoint (a :: first) (b :: second)) :
    IsPath (links.join (first.getLastD a) b)
      (a :: first ++ b :: second) := by
  have hLast : first.getLastD a ∈ a :: first :=
    List.getLastD_mem_cons
  have hFirst' := hFirst.join_other hFirst.last_not_mem
    (b := b) fun h => hApart (List.mem_of_mem_tail h)
      List.mem_cons_self
  have hSecond' := hSecond.join_other (a := first.getLastD a)
    (fun h => hApart hLast (List.dropLast_subset _ h))
    (List.nodup_cons.mp hSecond.nodup).1
  refine ⟨hFirst.nodup.append hSecond.nodup hApart, ?_⟩
  refine hFirst'.joined.append hSecond'.joined ?_
  intro x hX y hY
  rw [List.getLast?_cons, ← List.getLastD_eq_getLast?,
    Option.mem_some] at hX
  rw [List.head?_cons, Option.mem_some] at hY
  subst hX hY
  exact links.joined_join _ _

end IsPath

end LinkedRing

------------------------------------------------------------
-- Rings
------------------------------------------------------------

namespace LinkedRing

variable {α : Type}

/-
  A head and the cells of its list, in order: a path whose
  last cell is joined to the head.
-/
structure IsRing
    (links : Links α) (head : α) (list : List α) : Prop where
  path : IsPath links (head :: list)
  closed : links.Joined (list.getLastD head) head

namespace IsRing

variable {links : Links α} {head : α} {list : List α}

/- The first cell, which is the head if there is none. -/
theorem next_head (hRing : IsRing links head list) :
    links.next head = list.headD head := by
  cases list with
  | nil => exact hRing.closed.1
  | cons x rest =>
      exact (List.isChain_cons_cons.mp hRing.path.joined).1.1

/- The last cell. -/
theorem prev_head (hRing : IsRing links head list) :
    links.prev head = list.getLastD head :=
  hRing.closed.2

/- The same ring, seen from another cell of it. -/
theorem rotate
    {x : α} {before after : List α}
    (hRing : IsRing links head (before ++ x :: after)) :
    IsRing links x (after ++ head :: before) := by
  have hPath := hRing.path
  rw [← List.cons_append] at hPath
  have hClosed := hRing.closed
  rw [getLastD_append_cons] at hClosed
  have hPerm : (head :: before ++ x :: after).Perm
      (x :: after ++ head :: before) := List.perm_append_comm
  refine ⟨⟨hPerm.nodup hPath.nodup, ?_⟩, ?_⟩
  · rw [← List.cons_append]
    refine hPath.append_right.joined.append
      hPath.append_left.joined ?_
    intro y hY z hZ
    rw [List.getLast?_cons, ← List.getLastD_eq_getLast?,
      Option.mem_some] at hY
    rw [List.head?_cons, Option.mem_some] at hZ
    subst hY hZ
    exact hClosed
  · have hJoint := (List.isChain_append.mp hPath.joined).2.2
    rw [getLastD_append_cons]
    refine hJoint _ ?_ x ?_
    · rw [List.getLast?_cons, ← List.getLastD_eq_getLast?,
        Option.mem_some]
    · rw [List.head?_cons, Option.mem_some]

/- A ring depends on the pointers of its cells. -/
theorem of_sameAt
    {links' : Links α} (hRing : IsRing links head list)
    (hSame : links.SameAt links' (head :: list)) :
    IsRing links' head list := by
  have hHead := hSame head List.mem_cons_self
  have hLast := hSame _ (List.getLastD_mem_cons)
  exact ⟨hRing.path.of_sameAt hSame,
    hLast.1.trans hRing.closed.1, hHead.2.trans hRing.closed.2⟩

end IsRing

variable [DecidableEq α]

/- A path is closed to a ring. -/
theorem IsPath.close
    {links : Links α} {head : α} {list : List α}
    (hPath : IsPath links (head :: list)) :
    IsRing (links.join (list.getLastD head) head) head list :=
  ⟨hPath.join_other hPath.last_not_mem
      (List.nodup_cons.mp hPath.nodup).1,
    links.joined_join _ _⟩

end LinkedRing

------------------------------------------------------------
-- Changing Rings
------------------------------------------------------------

namespace LinkedRing

variable {α : Type} [DecidableEq α]

namespace IsRing

variable {links : Links α} {head : α}

/- The cells on both sides of one. -/
omit [DecidableEq α] in
theorem neighbours
    {x : α} {before after : List α}
    (hRing : IsRing links head (before ++ x :: after)) :
    links.prev x = before.getLastD head ∧
      links.next x = after.headD head := by
  have hHere := hRing.rotate
  constructor
  · rw [hHere.prev_head, getLastD_append_cons]
  · rw [hHere.next_head]
    cases after <;> rfl

/- A path is put between two cells of a ring. -/
theorem splice
    {before after : List α}
    (hRing : IsRing links head (before ++ after))
    {x : α} {rest : List α} (hPath : IsPath links (x :: rest))
    (hApart :
      List.Disjoint (head :: (before ++ after)) (x :: rest)) :
    IsRing ((links.join (before.getLastD head) x).join
        (rest.getLastD x) (after.headD head))
      head (before ++ x :: rest ++ after) := by
  cases after with
  | nil =>
      rw [List.append_nil] at hRing hApart ⊢
      have hLong := hRing.path.join hPath hApart
      rw [List.cons_append] at hLong
      have hClosed := hLong.close
      rwa [getLastD_append_cons] at hClosed
  | cons y after =>
      have hSeen := hRing.rotate
      have hPerm : (head :: (before ++ y :: after)).Perm
          (y :: (after ++ head :: before)) := by
        rw [← List.cons_append, ← List.cons_append]
        exact List.perm_append_comm
      have hLong := hSeen.path.join hPath
        fun a ha => hApart (hPerm.mem_iff.mpr ha)
      rw [List.cons_append] at hLong
      have hClosed := hLong.close
      rw [getLastD_append_cons, getLastD_append_cons,
        List.append_assoc, List.cons_append] at hClosed
      exact hClosed.rotate

/- A cell is put between two. -/
theorem insert
    {before after : List α}
    (hRing : IsRing links head (before ++ after))
    {x : α} (hNew : x ∉ head :: (before ++ after)) :
    IsRing ((links.join x (after.headD head)).join
        (before.getLastD head) x)
      head (before ++ x :: after) := by
  have hBefore : before.getLastD head ≠ x := by
    intro h
    have hMem : before.getLastD head ∈ head :: before :=
      List.getLastD_mem_cons
    exact hNew (List.mem_append_left after (h ▸ hMem))
  have hAfter : x ≠ after.headD head := by
    rintro rfl
    cases after <;> simp at hNew
  have hSplice := hRing.splice (IsPath.singleton x)
    (List.disjoint_singleton.mpr hNew)
  rw [links.join_comm hBefore.symm hAfter.symm]
  rwa [List.append_assoc] at hSplice

/- A cell is taken out. -/
theorem remove
    {x : α} {before after : List α}
    (hRing : IsRing links head (before ++ x :: after)) :
    IsRing
      (links.join (before.getLastD head) (after.headD head))
      head (before ++ after) := by
  have hRest : IsPath links (after ++ head :: before) :=
    hRing.rotate.path.tail
  cases after with
  | nil =>
      rw [List.append_nil]
      exact hRest.close
  | cons y after =>
      rw [List.cons_append] at hRest
      have hClosed := hRest.close
      rw [getLastD_append_cons] at hClosed
      exact hClosed.rotate

/- A cell takes the place of another. -/
theorem replace
    {x : α} {before after : List α}
    (hRing : IsRing links head (before ++ x :: after))
    {y : α} (hNew : y ∉ head :: (before ++ after)) :
    IsRing ((links.join y (after.headD head)).join
        (before.getLastD head) y)
      head (before ++ y :: after) := by
  have hInsert := hRing.remove.insert hNew
  rwa [Links.join_between] at hInsert

/- A cell takes the place of the head. -/
theorem adopt
    {list : List α} (hRing : IsRing links head list)
    {y : α} (hNew : y ∉ head :: list) :
    IsRing ((links.join y (list.headD y)).join
        (list.getLastD y) y)
      y list := by
  cases list with
  | nil => exact (IsPath.singleton y).close
  | cons x rest =>
      have hHere : IsRing links head ([] ++ x :: rest) := hRing
      have hSeen := hHere.rotate
      have hOther : y ∉ x :: (rest ++ []) := by
        rw [List.append_nil]
        exact fun h => hNew (List.mem_cons_of_mem _ h)
      have hTaken := (hSeen.replace hOther).rotate
      rw [List.headD_nil] at hTaken
      rw [List.getLastD_cons]
      exact hTaken

/- The cells of both parts, with a new head for the first. -/
omit [DecidableEq α] in
theorem apart_of_cut
    {front after : List α}
    (hRing : IsRing links head (front ++ after))
    {y : α} (hNew : y ∉ head :: (front ++ after)) :
    List.Disjoint (y :: front) (head :: after) := by
  have hPerm : (head :: (front ++ after)).Perm
      (front ++ head :: after) := List.perm_middle.symm
  have hSplit := List.disjoint_of_nodup_append
    (hPerm.nodup hRing.path.nodup)
  rw [List.disjoint_cons_left]
  refine ⟨fun h => hNew ?_, hSplit⟩
  exact hPerm.mem_iff.mpr (List.mem_append_right _ h)

/-
  The cells up to one become a ring of their own, with a new
  head, and those behind it stay with the old one.
-/
theorem cut
    {x : α} {rest after : List α}
    (hRing : IsRing links head (x :: rest ++ after))
    {y : α} (hNew : y ∉ head :: (x :: rest ++ after)) :
    IsRing (((links.join y x).join (rest.getLastD x) y).join
        head (after.headD head)) y (x :: rest) ∧
      IsRing (((links.join y x).join (rest.getLastD x) y).join
        head (after.headD head)) head after := by
  have hFront : IsPath links (x :: rest) :=
    hRing.path.tail.append_left
  have hLast : rest.getLastD x ∈ x :: rest :=
    List.getLastD_mem_cons
  have hFirst : after.headD head ∈ head :: after := by
    cases after <;> simp
  have hApart := hRing.apart_of_cut hNew
  have hNotRest : y ∉ x :: rest := fun h =>
    hNew (List.mem_cons_of_mem _ (List.mem_append_left _ h))
  constructor
  · -- the new ring, which the last join does not touch
    have hLong := (IsPath.singleton y).join hFront
      (List.singleton_disjoint.mpr hNotRest)
    rw [List.cons_append, List.nil_append,
      List.getLastD_nil] at hLong
    have hClosed := hLong.close
    rw [List.getLastD_cons] at hClosed
    refine hClosed.of_sameAt (Links.sameAt_join _ ?_ ?_)
    · exact fun h => hApart h List.mem_cons_self
    · exact fun h => hApart h hFirst
  · -- the old one, which the first two joins do not touch
    cases after with
    | nil => exact (IsPath.singleton head).close
    | cons z after =>
        have hSeen := hRing.rotate.path
        have hBehind : IsPath links (z :: (after ++ [head])) := by
          have hSplit : z :: (after ++ head :: x :: rest) =
              z :: (after ++ [head]) ++ x :: rest := by simp
          rw [hSplit] at hSeen
          exact hSeen.append_left
        have hOther : ∀ a ∈ y :: x :: rest,
            a ∉ z :: (after ++ [head]) := fun a ha h =>
          hApart ha (by simpa [or_comm, or_left_comm] using h)
        have hSame := (links.sameAt_join
          (hOther y List.mem_cons_self)
          (hOther x (by simp))).trans
          (Links.sameAt_join _
            (hOther _ (List.mem_cons_of_mem y hLast))
            (hOther y List.mem_cons_self))
        have hClosed := (hBehind.of_sameAt hSame).close
        rw [List.getLastD_concat] at hClosed
        exact hClosed.rotate

end IsRing

end LinkedRing

------------------------------------------------------------
-- Walking
------------------------------------------------------------

namespace LinkedRing

variable {α : Type} [DecidableEq α]

/- The cells that are met before the head, from one on. -/
def walk
    (step : α → α) (head : α) : Nat → α → Option (List α)
| 0, _ => none
| fuel + 1, pos =>
    if pos = head then
      some []
    else
      (walk step head fuel (step pos)).map (pos :: ·)

namespace IsRing

variable {links : Links α} {head : α} {list : List α}

/- With enough fuel every cell is met, in order. -/
theorem walk_eq
    (hRing : IsRing links head list) {fuel : Nat}
    (hFuel : list.length < fuel) :
    walk links.next head fuel (links.next head) = some list := by
  -- from any cell on
  have hFrom : ∀ (after before : List α) (fuel : Nat),
      before ++ after = list → after.length < fuel →
      walk links.next head fuel (after.headD head) =
        some after := by
    intro after
    induction after with
    | nil =>
        intro before fuel _ hFuel
        cases fuel with
        | zero => exact absurd hFuel (Nat.not_lt_zero _)
        | succ fuel => simp [walk]
    | cons x after ih =>
        intro before fuel hSplit hFuel
        cases fuel with
        | zero => exact absurd hFuel (Nat.not_lt_zero _)
        | succ fuel =>
            rw [List.length_cons] at hFuel
            have hNext : links.next x = after.headD head := by
              rw [← hSplit] at hRing
              exact hRing.neighbours.2
            have hNotHead : x ≠ head := by
              rintro rfl
              refine (List.nodup_cons.mp hRing.path.nodup).1 ?_
              rw [← hSplit]
              simp
            have hRest := ih (before ++ [x]) fuel
              (by rw [List.append_assoc]; exact hSplit)
              (by omega)
            rw [List.headD_cons, walk, if_neg hNotHead, hNext,
              hRest, Option.map_some]
  rw [hRing.next_head]
  exact hFrom list [] fuel rfl hFuel

/- The other way round it is a ring too. -/
omit [DecidableEq α] in
theorem reverse (hRing : IsRing links head list) :
    IsRing ⟨links.prev, links.next⟩ head list.reverse := by
  have hTurn : ∀ x y, links.Joined x y ↔
      Links.Joined ⟨links.prev, links.next⟩ y x :=
    fun _ _ => And.comm
  have hPath : IsPath ⟨links.prev, links.next⟩
      (head :: list).reverse := by
    refine ⟨List.nodup_reverse.mpr hRing.path.nodup, ?_⟩
    rw [List.isChain_reverse]
    exact hRing.path.joined.imp fun x y => (hTurn x y).mp
  rcases List.eq_nil_or_concat list with rfl | ⟨front, z, rfl⟩
  · exact ⟨hPath, (hTurn _ _).mp hRing.closed⟩
  · have hClosed := hRing.closed
    rw [List.concat_eq_append, List.getLastD_concat] at hClosed
    rw [List.concat_eq_append, List.reverse_append,
      List.reverse_singleton, List.singleton_append]
    rw [List.concat_eq_append, List.reverse_cons,
      List.reverse_append, List.reverse_singleton,
      List.singleton_append, List.cons_append] at hPath
    have hHere : IsRing ⟨links.prev, links.next⟩ z
        (front.reverse ++ [head]) := by
      refine ⟨hPath, ?_⟩
      rw [List.getLastD_concat]
      exact (hTurn _ _).mp hClosed
    exact hHere.rotate

end IsRing

end LinkedRing

------------------------------------------------------------
-- Families Of Lists
------------------------------------------------------------

namespace LinkedRing

variable {α : Type}

/-
  Some cells are heads, and the list of each is a ring. No
  cell is in two of them.
-/
structure HoldsLists
    (links : Links α) (lists : α → Option (List α)) :
    Prop where
  ring : ∀ head list, lists head = some list →
    IsRing links head list
  apart : ∀ g h k l, g ≠ h → lists g = some k →
    lists h = some l → List.Disjoint (g :: k) (h :: l)

namespace HoldsLists

variable {links links' : Links α}
variable {lists : α → Option (List α)}

/- No list but that of the head has the cell. -/
def OnlyIn
    (lists : α → Option (List α)) (head x : α) : Prop :=
  ∀ g l, g ≠ head → lists g = some l → x ∉ g :: l

/- The cells of a list are in no other. -/
theorem onlyIn
    (hHolds : HoldsLists links lists) {head x : α}
    {list : List α} (hList : lists head = some list)
    (hMem : x ∈ head :: list) : OnlyIn lists head x :=
  fun g l hNe hOther hX =>
    hHolds.apart g head l list hNe hOther hList hX hMem

variable [DecidableEq α]

/- One head less. -/
theorem erase (hHolds : HoldsLists links lists) (head : α) :
    HoldsLists links (Function.update lists head none) := by
  constructor
  · intro g l hList
    rw [Function.update_apply] at hList
    split at hList
    · cases hList
    · exact hHolds.ring g l hList
  · intro g h k l hNe hFirst hSecond
    rw [Function.update_apply] at hFirst hSecond
    split at hFirst
    · cases hFirst
    split at hSecond
    · cases hSecond
    exact hHolds.apart g h k l hNe hFirst hSecond

/- A cell in no list. -/
def Free (lists : α → Option (List α)) (x : α) : Prop :=
  ∀ g l, lists g = some l → x ∉ g :: l

omit [DecidableEq α] in
theorem Free.onlyIn
    {x : α} (hFree : Free lists x) (head : α) :
    OnlyIn lists head x :=
  fun g l _ hList => hFree g l hList

/- The pointers of all other lists stay. -/
def SameElsewhere
    (lists : α → Option (List α)) (head : α)
    (links links' : Links α) : Prop :=
  ∀ g l, g ≠ head → lists g = some l →
    links.SameAt links' (g :: l)

omit [DecidableEq α] in
theorem SameElsewhere.refl (head : α) :
    SameElsewhere lists head links links :=
  fun _ _ _ _ _ _ => ⟨rfl, rfl⟩

theorem SameElsewhere.join
    {head a b : α}
    (hSame : SameElsewhere lists head links links')
    (hFirst : OnlyIn lists head a)
    (hSecond : OnlyIn lists head b) :
    SameElsewhere lists head links (links'.join a b) :=
  fun g l hNe hList => (hSame g l hNe hList).trans
    (links'.sameAt_join (hFirst g l hNe hList)
      (hSecond g l hNe hList))

/- Pointers that are in no list. -/
omit [DecidableEq α] in
theorem of_sameAt
    (hHolds : HoldsLists links lists)
    (hSame : ∀ g l, lists g = some l →
      links.SameAt links' (g :: l)) :
    HoldsLists links' lists :=
  ⟨fun g l hList => (hHolds.ring g l hList).of_sameAt
    (hSame g l hList), hHolds.apart⟩

/-
  The list of one head changes, or becomes one. All others
  stay, since their cells keep their pointers.
-/
theorem update
    (hHolds : HoldsLists links lists) {head : α}
    {list : List α} (hRing : IsRing links' head list)
    (hOnly : ∀ x ∈ head :: list, OnlyIn lists head x)
    (hSame : SameElsewhere lists head links links') :
    HoldsLists links'
      (Function.update lists head (some list)) := by
  have hApart : ∀ g l, g ≠ head → lists g = some l →
      List.Disjoint (g :: l) (head :: list) :=
    fun g l hNe hList x hX hMem =>
      hOnly x hMem g l hNe hList hX
  constructor
  · intro g l hList
    rw [Function.update_apply] at hList
    split at hList
    case isTrue hHead =>
      cases hHead
      cases hList
      exact hRing
    case isFalse hNe =>
      exact (hHolds.ring g l hList).of_sameAt
        (hSame g l hNe hList)
  · intro g h k l hNe hFirst hSecond
    rw [Function.update_apply] at hFirst hSecond
    split at hFirst
    case isTrue hHead =>
      cases hHead
      cases hFirst
      rw [if_neg hNe.symm] at hSecond
      exact List.disjoint_symm (hApart h l hNe.symm hSecond)
    case isFalse hNeFirst =>
      split at hSecond
      case isTrue hHead =>
        cases hHead
        cases hSecond
        exact hApart g k hNeFirst hFirst
      case isFalse hNeSecond =>
        exact hHolds.apart g h k l hNe hFirst hSecond

section Changes

variable (hHolds : HoldsLists links lists) {head : α}

include hHolds

/- The neighbours of a place in a list are in no other. -/
omit [DecidableEq α] in
theorem onlyIn_neighbours
    {before after : List α}
    (hList : lists head = some (before ++ after)) :
    OnlyIn lists head (before.getLastD head) ∧
      OnlyIn lists head (after.headD head) := by
  have hLast : before.getLastD head ∈ head :: before :=
    List.getLastD_mem_cons
  have hFirst : after.headD head ∈ head :: after := by
    cases after <;> simp
  constructor
  · exact hHolds.onlyIn hList (List.mem_append_left after hLast)
  · refine hHolds.onlyIn hList ?_
    rw [List.mem_cons] at hFirst ⊢
    exact hFirst.imp_right (List.mem_append_right before)

/- A cell becomes the head of an empty list. -/
theorem init (hOnly : OnlyIn lists head head) :
    HoldsLists (links.join head head)
      (Function.update lists head (some [])) := by
  refine hHolds.update (IsPath.singleton head).close ?_
    ((SameElsewhere.refl head).join hOnly hOnly)
  intro x hX
  rw [List.mem_singleton] at hX
  subst hX
  exact hOnly

theorem insert
    {before after : List α} {x : α}
    (hList : lists head = some (before ++ after))
    (hFree : Free lists x) :
    HoldsLists ((links.join x (after.headD head)).join
        (before.getLastD head) x)
      (Function.update lists head
        (some (before ++ x :: after))) := by
  rcases hHolds.onlyIn_neighbours hList with ⟨hLast, hFirst⟩
  refine hHolds.update
    ((hHolds.ring _ _ hList).insert (hFree _ _ hList)) ?_
    (((SameElsewhere.refl head).join (hFree.onlyIn _)
      hFirst).join hLast (hFree.onlyIn _))
  intro y hY
  by_cases hNew : y = x
  · subst hNew
    exact hFree.onlyIn head
  · refine hHolds.onlyIn hList ?_
    simpa [hNew] using hY

theorem remove
    {before after : List α} {x : α}
    (hList : lists head = some (before ++ x :: after)) :
    HoldsLists
      (links.join (before.getLastD head) (after.headD head))
      (Function.update lists head (some (before ++ after))) := by
  have hLast := (hHolds.onlyIn_neighbours hList).1
  have hFirst : OnlyIn lists head (after.headD head) := by
    have hSplit : before ++ x :: after =
        before ++ [x] ++ after := by simp
    rw [hSplit] at hList
    exact (hHolds.onlyIn_neighbours hList).2
  refine hHolds.update (hHolds.ring _ _ hList).remove ?_
    ((SameElsewhere.refl head).join hLast hFirst)
  intro y hY
  refine hHolds.onlyIn hList ?_
  simp only [List.mem_cons, List.mem_append] at hY ⊢
  tauto

/- A cell that is taken out is in no list. -/
theorem free_of_remove
    {before after : List α} {x : α}
    (hList : lists head = some (before ++ x :: after)) :
    Free (Function.update lists head (some (before ++ after)))
      x := by
  have hNodup := (hHolds.ring _ _ hList).path.nodup
  have hOnly : OnlyIn lists head x :=
    hHolds.onlyIn hList (by simp)
  intro g l hOther
  rw [Function.update_apply] at hOther
  split at hOther
  case isTrue hHead =>
    cases hHead
    cases hOther
    have hPerm : (head :: (before ++ x :: after)).Perm
        (x :: head :: (before ++ after)) :=
      (List.perm_middle.cons head).trans (List.Perm.swap ..)
    exact (List.nodup_cons.mp (hPerm.nodup hNodup)).1
  case isFalse hNe => exact hOnly g l hNe hOther

theorem replace
    {before after : List α} {x y : α}
    (hList : lists head = some (before ++ x :: after))
    (hFree : Free lists y) :
    HoldsLists ((links.join y (after.headD head)).join
        (before.getLastD head) y)
      (Function.update lists head
        (some (before ++ y :: after))) := by
  have hRemoved := hHolds.remove hList
  have hOther : Free (Function.update lists head
      (some (before ++ after))) y := by
    intro g l hEq
    rw [Function.update_apply] at hEq
    split at hEq
    case isTrue hHead =>
      cases hHead
      cases hEq
      intro hMem
      refine hFree _ _ hList ?_
      simp only [List.mem_cons, List.mem_append] at hMem ⊢
      tauto
    case isFalse hNe => exact hFree g l hEq
  have hInserted := hRemoved.insert
    (Function.update_self head _ lists) hOther
  rwa [Links.join_between, Function.update_idem] at hInserted

/- A list gets another head. -/
theorem adopt
    {list : List α} {y : α} (hList : lists head = some list)
    (hFree : Free lists y) :
    HoldsLists ((links.join y (list.headD y)).join
        (list.getLastD y) y)
      (Function.update (Function.update lists head none) y
        (some list)) := by
  have hRing := (hHolds.ring _ _ hList).adopt
    (hFree _ _ hList)
  have hOnly : ∀ x ∈ y :: list, OnlyIn
      (Function.update lists head none) y x := by
    intro x hX g l hNe hOther
    rw [Function.update_apply] at hOther
    split at hOther
    case isTrue => cases hOther
    case isFalse hNotHead =>
      rcases List.mem_cons.mp hX with rfl | hMem
      · exact hFree g l hOther
      · exact hHolds.onlyIn hList (List.mem_cons_of_mem _ hMem)
          g l hNotHead hOther
  have hFirst : list.headD y ∈ y :: list := by
    cases list <;> simp
  refine (hHolds.erase head).update hRing hOnly
    (((SameElsewhere.refl y).join
      (hOnly y List.mem_cons_self) (hOnly _ hFirst)).join
      (hOnly _ List.getLastD_mem_cons)
      (hOnly y List.mem_cons_self))

/- The cells of one list are put into another. -/
theorem splice
    {before after rest : List α} {list x : α}
    (hList : lists head = some (before ++ after))
    (hOther : lists list = some (x :: rest))
    (hNe : list ≠ head) :
    HoldsLists ((links.join (before.getLastD head) x).join
        (rest.getLastD x) (after.headD head))
      (Function.update (Function.update lists list none) head
        (some (before ++ x :: rest ++ after))) := by
  have hPath : IsPath links (x :: rest) :=
    (hHolds.ring _ _ hOther).path.tail
  have hApart := hHolds.apart _ _ _ _ hNe hOther hList
  have hRing := (hHolds.ring _ _ hList).splice hPath
    fun a ha hMem => hApart (List.mem_cons_of_mem list hMem) ha
  have hOnly : ∀ a, a ∈ head :: (before ++ after) ∨
      a ∈ x :: rest →
      OnlyIn (Function.update lists list none) head a := by
    intro a hMem g l hNeHead hEq
    rw [Function.update_apply] at hEq
    split at hEq
    case isTrue => cases hEq
    case isFalse hNeList =>
      rcases hMem with hMem | hMem
      · exact hHolds.onlyIn hList hMem g l hNeHead hEq
      · exact hHolds.onlyIn hOther
          (List.mem_cons_of_mem list hMem) g l hNeList hEq
  have hLast : before.getLastD head ∈
      head :: (before ++ after) :=
    List.mem_append_left after
      (List.getLastD_mem_cons (l := before))
  have hFirst : after.headD head ∈
      head :: (before ++ after) := by
    cases after <;> simp
  refine (hHolds.erase list).update hRing ?_
    (((SameElsewhere.refl head).join (hOnly _ (.inl hLast))
      (hOnly x (.inr List.mem_cons_self))).join
      (hOnly _ (.inr List.getLastD_mem_cons))
      (hOnly _ (.inl hFirst)))
  intro a hA
  refine hOnly a ?_
  simp only [List.mem_cons, List.mem_append] at hA ⊢
  tauto

/- The first cells of a list become one of their own. -/
theorem cut
    {rest after : List α} {list x : α}
    (hList : lists head = some (x :: rest ++ after))
    (hOnly : OnlyIn lists list list) (hNe : list ≠ head) :
    HoldsLists (((links.join list x).join (rest.getLastD x)
        list).join head (after.headD head))
      (Function.update
        (Function.update lists head (some after)) list
        (some (x :: rest))) := by
  have hNew : list ∉ head :: (x :: rest ++ after) :=
    hOnly head _ hNe.symm hList
  rcases (hHolds.ring _ _ hList).cut hNew with ⟨hCut, hRest⟩
  have hCell : ∀ a, a ∈ list :: head :: (x :: rest ++ after) →
      OnlyIn (Function.update lists list none) head a := by
    intro a hMem g l hNeHead hEq
    rw [Function.update_apply] at hEq
    split at hEq
    case isTrue => cases hEq
    case isFalse hNeList =>
      rcases List.mem_cons.mp hMem with rfl | hMem
      · exact hOnly g l hNeList hEq
      · exact hHolds.onlyIn hList hMem g l hNeHead hEq
  have hLast : rest.getLastD x ∈
      list :: head :: (x :: rest ++ after) := by
    have hMem : rest.getLastD x ∈ x :: rest :=
      List.getLastD_mem_cons
    exact List.mem_cons_of_mem _ (List.mem_cons_of_mem _
      (List.mem_append_left after hMem))
  have hFirst : after.headD head ∈
      list :: head :: (x :: rest ++ after) := by
    cases after <;> simp
  have hSame : SameElsewhere (Function.update lists list none)
      head links (((links.join list x).join (rest.getLastD x)
        list).join head (after.headD head)) :=
    (((SameElsewhere.refl head).join (hCell list (by simp))
      (hCell x (by simp))).join (hCell _ hLast)
      (hCell list (by simp))).join (hCell head (by simp))
      (hCell _ hFirst)
  have hHead := (hHolds.erase list).update hRest
    (fun a ha => hCell a (by
      simp only [List.mem_cons, List.mem_append] at ha ⊢
      tauto)) hSame
  have hBoth := hHead.update hCut ?_ (SameElsewhere.refl list)
  · rwa [Function.update_comm hNe, Function.update_idem]
      at hBoth
  · intro a ha g l hNeList hEq hMem
    rw [Function.update_apply] at hEq
    split at hEq
    case isTrue hHeadEq =>
      cases hHeadEq
      cases hEq
      exact (hHolds.ring _ _ hList).apart_of_cut hNew ha hMem
    case isFalse hNeHead =>
      refine hCell a ?_ g l hNeHead hEq hMem
      simp only [List.mem_cons, List.mem_append] at ha ⊢
      tauto

end Changes

end HoldsLists

end LinkedRing
