import Mathlib.Data.List.Sort
import Mathlib.Tactic.Common

/-! Stable sorting by a total preorder: what it keeps, and when it does not depend on the order
in which the elements arrive. -/

namespace Sorting

open List

variable {α : Type} {r : α → α → Prop} [DecidableRel r]

/-- Elements of which none is above another keep their order. -/
theorem filter_insertionSort (kept : α → Bool) {list : List α}
    (ties : (list.filter kept).Pairwise r) :
    (list.insertionSort r).filter kept = list.filter kept := by
  have sublist := (sublist_insertionSort ties filter_sublist).filter kept
  simp only [filter_filter, Bool.and_self] at sublist
  have sizes := ((perm_insertionSort r list).filter kept).length_eq
  exact (sublist.eq_of_length_le (le_of_eq sizes)).symm

/-- A sorted list tells which elements it was made of. -/
theorem eq_of_added {list : List α} {a b : α}
    (same : (a :: list).insertionSort r = (b :: list).insertionSort r) : a = b := by
  have permuted : a :: list ~ b :: list :=
    calc a :: list
      _ ~ (a :: list).insertionSort r := (perm_insertionSort r _).symm
      _ ~ b :: list := same ▸ perm_insertionSort r _
  exact singleton_perm_singleton.mp ((perm_append_right_iff list).mp permuted)

variable [IsTrans α r]

/-- The elements on the level of `a` keep their order. -/
theorem level_insertionSort (a : α) (list : List α) :
    (list.insertionSort r).filter (fun x => r a x ∧ r x a) =
      list.filter (fun x => r a x ∧ r x a) := by
  apply filter_insertionSort
  apply List.pairwise_of_forall_mem_list
  intro x first y second
  have above : r x a := (of_decide_eq_true (mem_filter.mp first).2).2
  have below : r a y := (of_decide_eq_true (mem_filter.mp second).2).1
  exact trans_of r above below

/-- Two arrivals on one level that can be told apart are told apart by the sorted list. -/
theorem eq_of_swapped {front back : List α} {a b : α} (up : r a b) (down : r b a)
    (same : (front ++ a :: b :: back).insertionSort r = (front ++ b :: a :: back).insertionSort r) :
    a = b := by
  have self : r a a := trans_of r up down
  have levels : (front ++ a :: b :: back).filter (fun x => r a x ∧ r x a) =
      (front ++ b :: a :: back).filter (fun x => r a x ∧ r x a) := by
    rw [← level_insertionSort a, same, level_insertionSort]
  simp only [filter_append, filter_cons, self, up, down, and_self, decide_true, if_true] at levels
  exact (cons.inj (append_cancel_left levels)).1

variable [Std.Total r]

/-- Where no two elements are on one level, a sorted list does not depend on the arrivals. -/
theorem insertionSort_eq_of_perm {list arrived : List α} (permuted : arrived.Perm list)
    (levels : ∀ a ∈ list, ∀ b ∈ list, r a b → r b a → a = b) :
    arrived.insertionSort r = list.insertionSort r := by
  have sorted (l : List α) : (l.insertionSort r).Pairwise r := pairwise_insertionSort r l
  have same : (arrived.insertionSort r).Perm (list.insertionSort r) :=
    calc arrived.insertionSort r
      _ ~ arrived := perm_insertionSort r arrived
      _ ~ list := permuted
      _ ~ list.insertionSort r := (perm_insertionSort r list).symm
  refine Perm.eq_of_pairwise ?_ (sorted arrived) (sorted list) same
  intro a b first second up down
  have here : a ∈ list := permuted.mem_iff.mp ((mem_insertionSort r).mp first)
  exact levels a here b ((mem_insertionSort r).mp second) up down

/-- A sorted list of keyed elements is ascending in another key exactly if the keys agree. -/
theorem insertionSort_ascending {below : α → α → Prop} {list : List α}
    (levels : ∀ a ∈ list, ∀ b ∈ list, r a b → r b a → a = b) (reflexive : ∀ a, below a a) :
    (list.insertionSort r).Pairwise below ↔
      ∀ a ∈ list, ∀ b ∈ list, r a b → below a b := by
  constructor
  · intro ascending
    have order := (pairwise_insertionSort r list).and ascending
    have upward : (list.insertionSort r).Pairwise (fun a b => r a b → below a b) :=
      order.imp (fun both _ => both.2)
    have downward : (list.insertionSort r).Pairwise (flip (fun a b => r a b → below a b)) := by
      apply order.imp_of_mem
      intro a b first second both down
      have here : a ∈ list := (mem_insertionSort r).mp first
      rw [levels a here b ((mem_insertionSort r).mp second) both.1 down]
      exact reflexive b
    intro a first b second
    exact Pairwise.forall_of_forall_of_flip (fun x _ _ => reflexive x) upward downward
      ((mem_insertionSort r).mpr first) ((mem_insertionSort r).mpr second)
  · intro agree
    apply (pairwise_insertionSort r list).imp_of_mem
    intro a b first second order
    exact agree a ((mem_insertionSort r).mp first) b ((mem_insertionSort r).mp second) order

end Sorting
