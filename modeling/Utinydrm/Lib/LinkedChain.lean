import Mathlib.Data.List.Basic
import Mathlib.Logic.Function.Basic

/-
  Singly linked lists in memory: cells that are followed from
  a pointer to the null pointer, and the loops over them.

  Key definitions include:
    * `LinkedChain.Leads`
    * `LinkedChain.search`

  Main declarations:
    * `LinkedChain.leads_append`
    * `LinkedChain.Leads.update`
    * `LinkedChain.Leads.search_eq`
-/

------------------------------------------------------------
-- Following Pointers
------------------------------------------------------------

namespace LinkedChain

variable {α : Type}

/-
  From a pointer these cells are met one after another, and
  then another pointer is reached.
-/
def Leads (next : α → Option α) :
    Option α → List α → Option α → Prop
| p, [], q => p = q
| p, a :: rest, q => p = some a ∧ Leads next (next a) rest q

variable {next : α → Option α}

/- Some of the cells are met first. -/
theorem leads_append
    {p q : Option α} {first second : List α} :
    Leads next p (first ++ second) q ↔
      ∃ r, Leads next p first r ∧ Leads next r second q := by
  induction first generalizing p with
  | nil => simp [Leads]
  | cons a rest ih => simp [Leads, ih, and_assoc]

/- The pointer of the last one is the one that is reached. -/
theorem leads_concat
    {p q : Option α} {a : α} {cells : List α} :
    Leads next p (cells ++ [a]) q ↔
      Leads next p cells (some a) ∧ next a = q := by
  rw [leads_append]
  simp [Leads]

/- A pointer that is stored in none of the cells. -/
theorem Leads.update [DecidableEq α]
    {p q v : Option α} {a : α} {cells : List α}
    (hLeads : Leads next p cells q) (hNew : a ∉ cells) :
    Leads (Function.update next a v) p cells q := by
  induction cells generalizing p with
  | nil => exact hLeads
  | cons b rest ih =>
      rw [List.mem_cons, not_or] at hNew
      refine ⟨hLeads.1, ?_⟩
      rw [Function.update_of_ne (Ne.symm hNew.1)]
      exact ih hLeads.2 hNew.2

/-
  A loop that follows the pointers to the first cell that
  passes a test, with fuel: which cell, if any.
-/
def search (next : α → Option α) (test : α → Bool) :
    Nat → Option α → Option (Option α)
| 0, _ => none
| _ + 1, none => some none
| fuel + 1, some a =>
    if test a then
      some (some a)
    else
      search next test fuel (next a)

/- It ends, and finds the first of the cells. -/
theorem Leads.search_eq
    {p : Option α} {cells : List α}
    (hLeads : Leads next p cells none) (test : α → Bool)
    {fuel : Nat} (hFuel : cells.length < fuel) :
    search next test fuel p = some (cells.find? test) := by
  induction cells generalizing p fuel with
  | nil =>
      cases fuel with
      | zero => exact absurd hFuel (Nat.not_lt_zero _)
      | succ fuel =>
          cases hLeads
          rfl
  | cons a rest ih =>
      cases fuel with
      | zero => exact absurd hFuel (Nat.not_lt_zero _)
      | succ fuel =>
          rcases hLeads with ⟨rfl, hRest⟩
          rw [search, List.find?_cons]
          cases test a with
          | true => rfl
          | false => exact ih hRest (Nat.lt_of_succ_lt_succ hFuel)

end LinkedChain
