import RaemoteServer.Catalog

/-! The search for a name that no app has. It ends, with the first name that is free. -/

namespace RaemoteServer

open Text Collections

/-- What a call returns, the set it leaves, and the names it has tried to insert. -/
structure Chosen where
  name : Str
  used : HashSet Str
  tried : List Str
  deriving DecidableEq

def Chosen.after (candidate : Str) (chosen : Chosen) : Chosen :=
  { chosen with tried := candidate :: chosen.tried }

/-- The loop over the counter, of so many turns at most. -/
def counterLoop (base : Str) (port : UInt16) : Nat → Nat → HashSet Str → Option Chosen
  | 0, _, _ => none
  | turns + 1, n, used =>
      let candidate := withCounter base port n
      let (inserted, used) := used.insertNew candidate
      if inserted then some ⟨candidate, used, [candidate]⟩
      else (counterLoop base port turns (n + 1) used).map (Chosen.after candidate)

def uniqueNameLoop (turns : Nat) (base : Str) (port : UInt16)
    (used : HashSet Str) : Option Chosen :=
  let (inserted, used) := used.insertNew base
  if inserted then some ⟨base, used, [base]⟩
  else
    let numbered := withPort base port
    let (inserted, used) := used.insertNew numbered
    if inserted then some ⟨numbered, used, [base, numbered]⟩
    else ((counterLoop base port turns 2 used).map (Chosen.after numbered)).map (Chosen.after base)

/-- The sequence of names: `base`, `base-port`, `base-port-2`, `base-port-3`, and so on. -/
def nameAt (base : Str) (port : UInt16) : Nat → Str
  | 0 => base
  | 1 => withPort base port
  | n + 2 => withCounter base port (n + 2)

theorem counter_name (base : Str) (port : UInt16) (j : Nat) :
    withCounter base port (2 + j) = nameAt base port (j + 2) := by
  rw [nameAt, Nat.add_comm]

theorem nameAt_injective (base : Str) (port : UInt16) : Function.Injective (nameAt base port) := by
  have first : base.length < (withPort base port).length := by
    rw [withPort, List.length_append, List.length_cons]
    omega
  have later (n : Nat) : (withPort base port).length < (withCounter base port n).length := by
    rw [withCounter, List.length_append, List.length_cons]
    omega
  intro n m same
  have lengths := congrArg List.length same
  match n, m with
  | 0, 0 => rfl
  | 1, 1 => rfl
  | n + 2, m + 2 => exact withCounter_injective base port same
  | 0, 1 => exact absurd lengths (Nat.ne_of_lt first)
  | 1, 0 => exact absurd lengths (Nat.ne_of_gt first)
  | 0, m + 2 => exact absurd lengths (Nat.ne_of_lt (first.trans (later _)))
  | n + 2, 0 => exact absurd lengths (Nat.ne_of_gt (first.trans (later _)))
  | 1, m + 2 => exact absurd lengths (Nat.ne_of_lt (later _))
  | n + 2, 1 => exact absurd lengths (Nat.ne_of_gt (later _))

/-- What is chosen when the candidate at `k` is the first that is free. -/
def chosenAt (used : HashSet Str) (candidate : Nat → Str) (k : Nat) : Chosen where
  name := candidate k
  used := used.insert (candidate k)
  tried := (List.range (k + 1)).map candidate

theorem chosenAt_succ (used : HashSet Str) (candidate : Nat → Str) (k : Nat) :
    (chosenAt used (fun j => candidate (j + 1)) k).after (candidate 0) =
      chosenAt used candidate (k + 1) := by
  simp [Chosen.after, chosenAt, List.range_succ_eq_map, Function.comp_def]

section

variable {base : Str} {port : UInt16} {used : HashSet Str}

theorem counterLoop_free {n : Nat} (free : withCounter base port n ∉ used) (turns : Nat) :
    counterLoop base port (turns + 1) n used =
      some (chosenAt used (fun j => withCounter base port (n + j)) 0) := by
  rw [counterLoop, HashSet.insertNew_free free]
  rfl

theorem counterLoop_taken {n : Nat} (taken : withCounter base port n ∈ used) (turns : Nat) :
    counterLoop base port (turns + 1) n used =
      (counterLoop base port turns (n + 1) used).map (Chosen.after (withCounter base port n)) := by
  rw [counterLoop, HashSet.insertNew_taken taken]
  rfl

theorem counterLoop_found {k turns n : Nat} (enough : k < turns)
    (taken : ∀ j < k, withCounter base port (n + j) ∈ used)
    (free : withCounter base port (n + k) ∉ used) :
    counterLoop base port turns n used =
      some (chosenAt used (fun j => withCounter base port (n + j)) k) := by
  induction k generalizing turns n with
  | zero =>
      obtain ⟨turns, rfl⟩ := Nat.exists_eq_add_of_lt enough
      exact counterLoop_free free _
  | succ k ih =>
      obtain ⟨turns, rfl⟩ := Nat.exists_eq_add_of_lt enough
      have shift (j : Nat) : n + 1 + j = n + (j + 1) := by omega
      have rest : counterLoop base port (k + 1 + turns) (n + 1) used =
          some (chosenAt used (fun j => withCounter base port (n + 1 + j)) k) := by
        apply ih (by omega)
        · intro j order
          rw [shift]
          exact taken (j + 1) (Nat.succ_lt_succ order)
        · rw [shift]
          exact free
      have first : withCounter base port n ∈ used := taken 0 (Nat.succ_pos k)
      simp only [shift] at rest
      rw [counterLoop_taken first, rest]
      exact congrArg some (chosenAt_succ used (fun j => withCounter base port (n + j)) k)

/-- Behind the first two names are those with a counter. -/
theorem counted_names {k : Nat} (taken : ∀ j < k + 2, nameAt base port j ∈ used)
    (free : nameAt base port (k + 2) ∉ used) :
    (∀ j < k, withCounter base port (2 + j) ∈ used) ∧ withCounter base port (2 + k) ∉ used := by
  simp only [counter_name]
  exact ⟨fun j order => taken (j + 2) (Nat.add_lt_add_right order 2), free⟩

/-- The counter needs as many turns as there are used names, less one. -/
theorem uniqueNameLoop_found {k turns : Nat} (enough : k ≤ turns + 1)
    (taken : ∀ j < k, nameAt base port j ∈ used) (free : nameAt base port k ∉ used) :
    uniqueNameLoop turns base port used = some (chosenAt used (nameAt base port) k) := by
  match k with
  | 0 =>
      have first : base ∉ used := free
      rw [uniqueNameLoop, HashSet.insertNew_free first]
      rfl
  | 1 =>
      have first : base ∈ used := taken 0 Nat.one_pos
      have second : withPort base port ∉ used := free
      simp only [uniqueNameLoop, HashSet.insertNew_taken first, HashSet.insertNew_free second]
      rfl
  | k + 2 =>
      have first : base ∈ used := taken 0 (Nat.succ_pos _)
      have second : withPort base port ∈ used := taken 1 (by omega)
      obtain ⟨earlier, unused⟩ := counted_names taken free
      have rest : counterLoop base port turns 2 used =
          some (chosenAt used (fun j => withCounter base port (2 + j)) k) :=
        counterLoop_found (by omega) earlier unused
      simp only [counter_name] at rest
      simp only [uniqueNameLoop, HashSet.insertNew_taken first,
        HashSet.insertNew_taken second, rest,
        Option.map_some, Bool.false_eq_true, if_false]
      rw [← chosenAt_succ used (nameAt base port) (k + 1),
        ← chosenAt_succ used (fun j => nameAt base port (j + 1)) k]
      rfl

theorem uniqueName_found {k : Nat} (enough : k ≤ used.elems.length)
    (taken : ∀ j < k, nameAt base port j ∈ used) (free : nameAt base port k ∉ used) :
    uniqueName base port used = (nameAt base port k, used.insert (nameAt base port k)) := by
  match k with
  | 0 =>
      have first : base ∉ used := free
      rw [uniqueName, if_pos first]
      rfl
  | 1 =>
      have first : base ∈ used := taken 0 Nat.one_pos
      have second : withPort base port ∉ used := free
      rw [uniqueName, if_neg (not_not.mpr first), if_pos second]
      rfl
  | k + 2 =>
      have first : base ∈ used := taken 0 (Nat.succ_pos _)
      have second : withPort base port ∈ used := taken 1 (by omega)
      obtain ⟨earlier, unused⟩ := counted_names taken free
      have counted : used.firstFree (withCounter base port) used.elems.length 2 =
          withCounter base port (2 + k) :=
        HashSet.firstFree_eq (by omega) earlier unused
      rw [uniqueName, if_neg (not_not.mpr first), if_neg (not_not.mpr second), counted,
        counter_name]

end

/-- The loop of the source finds the names that the catalog is merged with. -/
theorem uniqueName_eq (base : Str) (port : UInt16) (used : HashSet Str) {turns : Nat}
    (enough : used.elems.length ≤ turns + 1) :
    (uniqueNameLoop turns base port used).map (fun chosen => (chosen.name, chosen.used)) =
      some (uniqueName base port used) := by
  obtain ⟨k, bound, free, taken⟩ := used.exists_free (nameAt_injective base port)
  rw [uniqueNameLoop_found (bound.trans enough) taken free, uniqueName_found bound taken free]
  rfl

/-- The first name of the sequence that is not used is found behind at most as many as are used, and
is the only one that is added to them. -/
theorem fresh_name_found (base : Str) (port : UInt16) (used : HashSet Str) :
    ∃ k ≤ used.elems.length,
      nameAt base port k ∉ used ∧ (∀ j < k, nameAt base port j ∈ used) ∧
      ∀ turns, used.elems.length ≤ turns + 1 →
        uniqueNameLoop turns base port used = some
          { name := nameAt base port k
            used := used.insert (nameAt base port k)
            tried := (List.range (k + 1)).map (nameAt base port) } := by
  obtain ⟨k, bound, free, taken⟩ := used.exists_free (nameAt_injective base port)
  exact ⟨k, bound, free, taken, fun _ enough =>
    uniqueNameLoop_found (bound.trans enough) taken free⟩

example : uniqueNameLoop 2 "vite".toList 5173
    (HashSet.ofList ["vite-5173".toList, "vite".toList, "vite-5173-2".toList]) = some
      { name := "vite-5173-3".toList
        used := HashSet.ofList ["vite-5173".toList, "vite".toList, "vite-5173-2".toList,
          "vite-5173-3".toList]
        tried :=
          ["vite".toList, "vite-5173".toList, "vite-5173-2".toList, "vite-5173-3".toList] } := by
  decide

end RaemoteServer
