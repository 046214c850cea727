import Mathlib.Data.List.AList
import Mathlib.Data.List.Perm.Subperm
import Mathlib.Tactic.Common

/-! `std::collections`: sets as lists without repetition, maps as Mathlib's association lists.
The order of a list stands for the unspecified iteration order. -/

namespace Collections

structure HashSet (α : Type) where
  elems : List α
  nodup : elems.Nodup
  deriving DecidableEq

namespace HashSet

variable {α : Type} [DecidableEq α]

instance : Membership α (HashSet α) := ⟨fun set a => a ∈ set.elems⟩

instance (a : α) (set : HashSet α) : Decidable (a ∈ set) :=
  inferInstanceAs (Decidable (a ∈ set.elems))

def empty : HashSet α := ⟨[], List.nodup_nil⟩

def insert (set : HashSet α) (a : α) : HashSet α :=
  ⟨List.insert a set.elems, set.nodup.insert⟩

def remove (set : HashSet α) (a : α) : HashSet α :=
  ⟨set.elems.filter (· ≠ a), set.nodup.filter _⟩

/-- `collect` into a set. -/
def ofList (elems : List α) : HashSet α := elems.foldl insert empty

omit [DecidableEq α] in
@[simp] theorem not_mem_empty (a : α) : a ∉ (empty : HashSet α) := List.not_mem_nil

@[simp] theorem mem_insert {a b : α} {set : HashSet α} : a ∈ set.insert b ↔ a = b ∨ a ∈ set :=
  List.mem_insert_iff

theorem insert_of_mem {a : α} (set : HashSet α) (present : a ∈ set) : set.insert a = set := by
  cases set with
  | mk elems nodup => simp only [insert, List.insert_of_mem present]

@[simp] theorem mem_remove {a b : α} {set : HashSet α} : a ∈ set.remove b ↔ a ≠ b ∧ a ∈ set := by
  change a ∈ set.elems.filter (· ≠ b) ↔ _
  rw [List.mem_filter, decide_eq_true_eq, and_comm]
  rfl

@[simp] theorem mem_ofList {a : α} {elems : List α} : a ∈ ofList elems ↔ a ∈ elems := by
  have step : ∀ set : HashSet α, a ∈ elems.foldl insert set ↔ a ∈ elems ∨ a ∈ set := by
    induction elems with
    | nil => simp
    | cons head tail ih =>
        intro set
        rw [List.foldl_cons, ih, mem_insert, List.mem_cons]
        tauto
  rw [ofList, step empty]
  simp

/-- `HashSet::insert` with what it returns: whether the value is new. -/
def insertNew (set : HashSet α) (a : α) : Bool × HashSet α := (decide (a ∉ set), set.insert a)

theorem insertNew_free {a : α} {set : HashSet α} (free : a ∉ set) :
    set.insertNew a = (true, set.insert a) := by
  rw [insertNew, decide_eq_true free]

theorem insertNew_taken {a : α} {set : HashSet α} (taken : a ∈ set) :
    set.insertNew a = (false, set) := by
  rw [insertNew, insert_of_mem set taken, decide_eq_false (not_not.mpr taken)]

/-- The first of `candidate n`, `candidate (n + 1)`, .. that is not in the set, after at most
`fuel` tries that failed. -/
def firstFree (set : HashSet α) (candidate : Nat → α) : Nat → Nat → α
  | 0, n => candidate n
  | fuel + 1, n => if candidate n ∈ set then set.firstFree candidate fuel (n + 1) else candidate n

theorem firstFree_shape (set : HashSet α) (candidate : Nat → α) (fuel n : Nat) :
    ∃ k ≤ fuel, set.firstFree candidate fuel n = candidate (n + k) ∧
      (∀ j < k, candidate (n + j) ∈ set) ∧ (candidate (n + k) ∈ set → k = fuel) := by
  induction fuel generalizing n with
  | zero => exact ⟨0, le_refl 0, rfl, nofun, fun _ => rfl⟩
  | succ fuel ih =>
      by_cases taken : candidate n ∈ set
      · obtain ⟨k, bound, shape, tried, last⟩ := ih (n + 1)
        rw [Nat.add_right_comm, Nat.add_assoc] at shape last
        refine ⟨k + 1, by omega, by rw [firstFree, if_pos taken, shape], ?_, ?_⟩
        · intro j order
          cases j with
          | zero => exact taken
          | succ j =>
              have next := tried j (by omega)
              rwa [Nat.add_right_comm, Nat.add_assoc] at next
        · intro inside
          rw [last inside]
      · exact ⟨0, Nat.zero_le _, by rw [firstFree, if_neg taken]; rfl, nofun,
          fun inside => absurd inside taken⟩

/-- Among more candidates than the set has elements one is free. -/
theorem firstFree_fresh {set : HashSet α} {candidate : Nat → α}
    (distinct : Function.Injective candidate) {fuel : Nat} (enough : set.elems.length ≤ fuel)
    (n : Nat) : set.firstFree candidate fuel n ∉ set := by
  obtain ⟨k, bound, shape, tried, last⟩ := set.firstFree_shape candidate fuel n
  rw [shape]
  intro inside
  obtain rfl := last inside
  have all : (List.range (k + 1)).map (fun j => candidate (n + j)) ⊆ set.elems := by
    intro value member
    obtain ⟨j, small, rfl⟩ := List.mem_map.mp member
    rcases Nat.lt_succ_iff_lt_or_eq.mp (List.mem_range.mp small) with order | rfl
    · exact tried j order
    · exact inside
  have injective : Function.Injective (fun j => candidate (n + j)) :=
    fun i j same => Nat.add_left_cancel (distinct same)
  have count := (List.subperm_of_subset (List.nodup_range.map injective) all).length_le
  rw [List.length_map, List.length_range] at count
  omega

theorem firstFree_eq {set : HashSet α} {candidate : Nat → α} {fuel n k : Nat} (enough : k ≤ fuel)
    (taken : ∀ j < k, candidate (n + j) ∈ set) (free : candidate (n + k) ∉ set) :
    set.firstFree candidate fuel n = candidate (n + k) := by
  induction k generalizing fuel n with
  | zero =>
      cases fuel with
      | zero => rfl
      | succ fuel => exact if_neg free
  | succ k ih =>
      obtain ⟨fuel, rfl⟩ := Nat.exists_eq_add_of_lt enough
      have shift (j : Nat) : n + 1 + j = n + (j + 1) := by omega
      have first : candidate n ∈ set := taken 0 (Nat.succ_pos k)
      have rest : set.firstFree candidate (k + fuel) (n + 1) = candidate (n + 1 + k) := by
        apply ih (Nat.le_add_right k fuel)
        · intro j order
          rw [shift]
          exact taken (j + 1) (Nat.succ_lt_succ order)
        · rw [shift]
          exact free
      rw [firstFree, if_pos first, rest, shift]

/-- An injective sequence has a first member that is free, behind at most as many as the set has. -/
theorem exists_free (set : HashSet α) {candidate : Nat → α}
    (distinct : Function.Injective candidate) :
    ∃ k ≤ set.elems.length, candidate k ∉ set ∧ ∀ j < k, candidate j ∈ set := by
  obtain ⟨k, bound, shape, taken, -⟩ := set.firstFree_shape candidate set.elems.length 0
  have free := firstFree_fresh distinct (le_refl set.elems.length) 0
  simp only [Nat.zero_add] at shape taken
  rw [shape] at free
  exact ⟨k, bound, free, taken⟩

end HashSet

/-! Lists in which no two elements have one key. -/

theorem find?_key {α Key : Type} [DecidableEq Key] {key : α → Key} {list : List α}
    (distinct : (list.map key).Nodup) {a : α} (member : a ∈ list) :
    list.find? (fun other => key other = key a) = some a := by
  induction list with
  | nil => cases member
  | cons head tail ih =>
      rw [List.map_cons, List.nodup_cons] at distinct
      rcases List.mem_cons.mp member with rfl | later
      · simp
      · have other : key head ≠ key a :=
          fun same => distinct.1 (same ▸ List.mem_map_of_mem later)
        rw [List.find?_cons_of_neg (by simpa using other)]
        exact ih distinct.2 later

/-! Lists with one place replaced. -/

theorem getElem?_set_some {α : Type} {list : List α} {i j : Nat} {new found : α}
    (present : (list.set i new)[j]? = some found) :
    j = i ∧ found = new ∨ j ≠ i ∧ list[j]? = some found := by
  by_cases same : j = i
  · subst same
    have inside : j < list.length := by
      have bound := (List.getElem?_eq_some_iff.mp present).1
      simpa using bound
    rw [List.getElem?_set_self inside] at present
    exact Or.inl ⟨rfl, (Option.some.inj present).symm⟩
  · rw [List.getElem?_set_ne (Ne.symm same)] at present
    exact Or.inr ⟨same, present⟩

theorem getElem?_concat_some {α : Type} {list : List α} {i : Nat} {new found : α}
    (present : (list ++ [new])[i]? = some found) :
    list[i]? = some found ∨ i = list.length ∧ found = new := by
  by_cases old : i < list.length
  · rw [List.getElem?_append_left old] at present
    exact Or.inl present
  · have inside := (List.getElem?_eq_some_iff.mp present).1
    simp only [List.length_append, List.length_singleton] at inside
    obtain rfl : i = list.length := by omega
    rw [List.getElem?_concat_length] at present
    exact Or.inr ⟨rfl, (Option.some.inj present).symm⟩

theorem forall_mem_set {α : Type} {p : α → Prop} {list : List α} {i : Nat} {new : α}
    (all : ∀ a ∈ list, p a) (holds : p new) : ∀ a ∈ list.set i new, p a := by
  intro a member
  rcases List.mem_or_eq_of_mem_set member with old | rfl
  · exact all a old
  · exact holds

theorem forall_mem_of_set {α : Type} {p : α → Prop} {list : List α} {i : Nat} {old new : α}
    (present : list[i]? = some old) (holds : p old) (all : ∀ a ∈ list.set i new, p a) :
    ∀ a ∈ list, p a := by
  intro a member
  obtain ⟨j, here⟩ := List.mem_iff_getElem?.mp member
  by_cases same : i = j
  · subst same
    obtain rfl := Option.some.inj (present.symm.trans here)
    exact holds
  · apply all
    rw [List.mem_iff_getElem?]
    exact ⟨j, by rw [List.getElem?_set_ne same, here]⟩

theorem countP_set_add {α : Type} (counted : α → Bool) {list : List α} {i : Nat} {old : α}
    (new : α) (present : list[i]? = some old) :
    (list.set i new).countP counted + (counted old).toNat =
      list.countP counted + (counted new).toNat := by
  obtain ⟨inside, same⟩ := List.getElem?_eq_some_iff.mp present
  rw [List.countP_set inside, same]
  cases was : counted old with
  | false => cases counted new <;> simp
  | true =>
      have least : 0 < list.countP counted :=
        List.countP_pos_iff.mpr ⟨old, List.mem_of_getElem? present, was⟩
      cases counted new <;> simp <;> omega

theorem countP_add_diff {α : Type} (p q : α → Bool) (list : List α) :
    list.countP p + list.countP (fun a => q a && !p a) =
      list.countP q + list.countP (fun a => p a && !q a) := by
  induction list with
  | nil => rfl
  | cons head tail ih =>
      simp only [List.countP_cons]
      cases p head <;> cases q head <;> simp <;> omega

abbrev HashMap (Key Value : Type) := AList (fun _ : Key => Value)

namespace HashMap

variable {Key Value : Type}

/-- `HashMap::retain`. -/
def retain (map : HashMap Key Value) (keep : Key → Value → Bool) : HashMap Key Value :=
  ⟨map.entries.filter (fun item => keep item.1 item.2),
    map.nodupKeys.sublist List.filter_sublist⟩

def len (map : HashMap Key Value) : Nat := map.entries.length

variable [DecidableEq Key]

theorem lookup_retain {map : HashMap Key Value} {keep : Key → Value → Bool} {key : Key}
    {value : Value} : (map.retain keep).lookup key = some value ↔
      map.lookup key = some value ∧ keep key value = true := by
  rw [← Option.mem_def, AList.mem_lookup_iff, ← Option.mem_def, AList.mem_lookup_iff]
  exact List.mem_filter

theorem lookup_insert_iff {map : HashMap Key Value} {key other : Key} {value found : Value} :
    (map.insert key value).lookup other = some found ↔
      other = key ∧ found = value ∨ other ≠ key ∧ map.lookup other = some found := by
  by_cases same : other = key
  · subst same
    simp [AList.lookup_insert, eq_comm]
  · simp [AList.lookup_insert_ne same, same]

theorem lookup_erase_iff {map : HashMap Key Value} {key other : Key} {found : Value} :
    (map.erase key).lookup other = some found ↔
      other ≠ key ∧ map.lookup other = some found := by
  by_cases same : other = key
  · subst same
    simp [AList.lookup_erase]
  · simp [AList.lookup_erase_ne same, same]

theorem len_insert_le (map : HashMap Key Value) (key : Key) (value : Value) :
    HashMap.len (map.insert key value) ≤ map.len + 1 := by
  rw [len, AList.entries_insert, List.length_cons]
  exact Nat.succ_le_succ (List.kerase_sublist key map.entries).length_le

end HashMap

end Collections
