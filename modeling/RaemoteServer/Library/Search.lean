import Mathlib.Data.List.Basic
import Mathlib.Data.List.Infix
import Mathlib.Data.List.TakeWhile
import Mathlib.Data.Nat.Find

/-! The first place at which one list occurs in another, and a list cut at the first occurrence
of an element. -/

namespace Search

variable {α : Type}

/-- An occurrence without the stopping element ends before it. -/
theorem prefix_before {needle front back : List α} {stop : α} (absent : stop ∉ needle)
    (here : needle <+: front ++ stop :: back) : needle <+: front := by
  induction front generalizing needle with
  | nil =>
      cases needle with
      | nil => exact List.nil_prefix
      | cons h t =>
          exact absurd (List.mem_cons.mpr (Or.inl (List.cons_prefix_cons.mp here).1.symm)) absent
  | cons c rest ih =>
      cases needle with
      | nil => exact List.nil_prefix
      | cons h t =>
          obtain ⟨same, later⟩ := List.cons_prefix_cons.mp here
          rw [List.mem_cons, not_or] at absent
          exact List.cons_prefix_cons.mpr ⟨same, ih absent.2 later⟩

/-- What begins in the front part and fits into it, occurs in it. -/
theorem prefix_drop_iff {needle : List α} (present : needle ≠ []) {front : List α} (back : List α)
    (j : Nat) :
    needle <+: front.drop j ↔
      needle <+: (front ++ back).drop j ∧ j + needle.length ≤ front.length := by
  have positive := List.length_pos_iff.mpr present
  constructor
  · intro here
    have bound := here.length_le
    rw [List.length_drop] at bound
    rw [List.drop_append_of_le_length (by omega)]
    exact ⟨here.trans (List.prefix_append _ _), by omega⟩
  · rintro ⟨here, fits⟩
    rw [List.drop_append_of_le_length (by omega)] at here
    exact List.prefix_of_prefix_length_le here (List.prefix_append _ _) (by
      rw [List.length_drop]
      omega)

variable [DecidableEq α]

section

variable {stop : α} {s : List α}

theorem others_of_absent (absent : stop ∉ s) : ∀ a ∈ s, decide (a ≠ stop) = true := by
  intro a member
  exact decide_eq_true fun same => absent (same ▸ member)

theorem takeWhile_absent (absent : stop ∉ s) : s.takeWhile (· ≠ stop) = s :=
  List.takeWhile_eq_self_iff.mpr (others_of_absent absent)

theorem dropWhile_absent (absent : stop ∉ s) : s.dropWhile (· ≠ stop) = [] :=
  List.dropWhile_eq_nil_iff.mpr (others_of_absent absent)

theorem takeWhile_stop (absent : stop ∉ s) (back : List α) :
    (s ++ stop :: back).takeWhile (· ≠ stop) = s := by
  rw [List.takeWhile_append_of_pos (others_of_absent absent)]
  simp

theorem dropWhile_stop (absent : stop ∉ s) (back : List α) :
    (s ++ stop :: back).dropWhile (· ≠ stop) = stop :: back := by
  rw [List.dropWhile_append_of_pos (others_of_absent absent)]
  simp

theorem cut_of_mem (present : stop ∈ s) :
    s = s.takeWhile (· ≠ stop) ++ stop :: (s.dropWhile (· ≠ stop)).tail := by
  obtain ⟨front, back, rfl, absent⟩ := List.eq_append_cons_of_mem present
  rw [takeWhile_stop absent, dropWhile_stop absent, List.tail_cons]

end

/-- `windows(needle.len()).position(|window| window == needle)` -/
def position (needle : List α) : List α → Option Nat
  | [] => none
  | c :: rest => if needle <+: c :: rest then some 0 else (position needle rest).map (· + 1)

variable {needle : List α}

theorem position_eq_some (present : needle ≠ []) {s : List α} {i : Nat} :
    position needle s = some i ↔ needle <+: s.drop i ∧ ∀ j < i, ¬ needle <+: s.drop j := by
  induction s generalizing i with
  | nil => simp [position, present]
  | cons c rest ih =>
      rw [position]
      split
      · rename_i here
        constructor
        · intro first
          obtain rfl := Option.some.inj first
          exact ⟨here, nofun⟩
        · rintro ⟨-, before⟩
          cases i with
          | zero => rfl
          | succ i => exact absurd here (before 0 (Nat.succ_pos i))
      · rename_i other
        cases i with
        | zero =>
            simp only [Option.map_eq_some_iff, Nat.add_eq_zero_iff, Nat.one_ne_zero, and_false,
              exists_false, false_iff, not_and]
            exact fun here => absurd here other
        | succ i =>
            rw [Option.map_eq_some_iff]
            simp only [Nat.add_right_cancel_iff, exists_eq_right, ih, List.drop_succ_cons]
            refine and_congr_right fun _ => ⟨?_, ?_⟩
            · intro before j below
              cases j with
              | zero => exact other
              | succ j => exact before j (Nat.lt_of_succ_lt_succ below)
            · intro before j below
              exact before (j + 1) (Nat.succ_lt_succ below)

theorem position_eq_none (present : needle ≠ []) {s : List α} :
    position needle s = none ↔ ∀ j, ¬ needle <+: s.drop j := by
  constructor
  · intro nowhere j here
    have found : ∃ i, needle <+: s.drop i := ⟨j, here⟩
    have first := (position_eq_some present).mpr
      ⟨Nat.find_spec found, fun k below => Nat.find_min found below⟩
    rw [nowhere] at first
    cases first
  · intro nowhere
    rw [Option.eq_none_iff_forall_ne_some]
    intro i found
    exact nowhere i ((position_eq_some present).mp found).1

theorem position_fits (present : needle ≠ []) {s : List α} {i : Nat}
    (found : position needle s = some i) : i + needle.length ≤ s.length := by
  have here := ((position_eq_some present).mp found).1.length_le
  have positive := List.length_pos_iff.mpr present
  rw [List.length_drop] at here
  omega

/-- A part from the front has the first occurrence as soon as it is long enough. -/
theorem position_front (present : needle ≠ []) {front back : List α} {i : Nat}
    (found : position needle (front ++ back) = some i) :
    position needle front = if i + needle.length ≤ front.length then some i else none := by
  obtain ⟨here, before⟩ := (position_eq_some present).mp found
  split
  · rename_i fits
    refine (position_eq_some present).mpr ⟨(prefix_drop_iff present back i).mpr ⟨here, fits⟩, ?_⟩
    intro j below early
    exact before j below ((prefix_drop_iff present back j).mp early).1
  · rename_i short
    refine (position_eq_none present).mpr fun j early => ?_
    obtain ⟨occurs, fits⟩ := (prefix_drop_iff present back j).mp early
    by_cases below : j < i
    · exact before j below occurs
    · omega

end Search
