import RaemoteServer.Auth.State

/-! The names in their file: what is read is what was saved. -/

namespace RaemoteServer.Auth

open Text Collections

/-- A table that was written is read back, in whatever order. -/
def TomlStrings.RoundTrips (toml : TomlStrings) : Prop :=
  ∀ names text, (names.map Prod.fst).Nodup → toml.toString names = some text →
    ∃ raw, toml.fromStr text = some raw ∧ raw.Perm names

/-! `toml` at tables whose keys are bare and whose values need no escapes. -/

def isBareKey (key : Str) : Bool :=
  !key.isEmpty && key.all (fun c => c.isAlphanum || c == '-' || c == '_')

def isPlainValue (value : Str) : Bool :=
  value.all (fun c => c != '"' && c != '\\' && !isControl c)

def isPlainEntry (item : Str × Str) : Bool := isBareKey item.1 && isPlainValue item.2

def tomlLine (item : Str × Str) : Str := item.1 ++ ' ' :: '=' :: ' ' :: '"' :: item.2 ++ ['"']

def parseTomlLine (line : Str) : Option (Str × Str) :=
  match splitOnce ' ' line with
  | (key, some ('=' :: ' ' :: '"' :: quoted)) =>
      match splitOnce '"' quoted with
      | (value, some []) => if isPlainEntry (key, value) then some (key, value) else none
      | _ => none
  | _ => none

def TomlStrings.basic : TomlStrings where
  toString names :=
    if names.all isPlainEntry then some (names.flatMap (fun item =>
      tomlLine item ++ ['\n'])) else none
  fromStr text :=
    ((lines text).mapM parseTomlLine).filter (fun raw => decide (raw.map Prod.fst).Nodup)

theorem isPlainEntry_iff {item : Str × Str} : isPlainEntry item = true ↔
    (item.1 ≠ [] ∧ ∀ c ∈ item.1, c.isAlphanum = true ∨ c = '-' ∨ c = '_') ∧
      ∀ c ∈ item.2, c ≠ '"' ∧ c ≠ '\\' ∧ isControl c = false := by
  simp [isPlainEntry, isBareKey, isPlainValue, or_assoc, and_assoc]

theorem parseTomlLine_tomlLine {item : Str × Str} (plain : isPlainEntry item = true) :
    parseTomlLine (tomlLine item) = some item := by
  obtain ⟨⟨-, key⟩, value⟩ := isPlainEntry_iff.mp plain
  have noSpace : ' ' ∉ item.1 := by
    intro inside
    exact absurd (key ' ' inside) (by decide)
  have noQuote : '"' ∉ item.2 := fun inside => (value '"' inside).1 rfl
  have shape : tomlLine item = item.1 ++ ' ' :: ('=' :: ' ' :: '"' :: (item.2 ++ '"' :: [])) := by
    simp [tomlLine]
  rw [parseTomlLine, shape, splitOnce_append ' ' _ _ noSpace]
  simp only [splitOnce_append '"' _ _ noQuote, plain, if_true]

theorem lines_tomlLine {item : Str × Str} (plain : isPlainEntry item = true) (rest : Str) :
    lines (tomlLine item ++ '\n' :: rest) = tomlLine item :: lines rest := by
  obtain ⟨⟨-, key⟩, value⟩ := isPlainEntry_iff.mp plain
  have unbroken : '\n' ∉ tomlLine item := by
    intro inside
    simp only [tomlLine, List.mem_append, List.mem_cons, List.not_mem_nil, or_false] at inside
    rcases inside with (inside | inside) | inside
    · exact absurd (key '\n' inside) (by decide)
    · rcases inside with same | same | same | same | inside
      · exact absurd same (by decide)
      · exact absurd same (by decide)
      · exact absurd same (by decide)
      · exact absurd same (by decide)
      · exact absurd (value '\n' inside).2.2 (by decide)
    · exact absurd inside (by decide)
  have quoted : stripCarriageReturn (tomlLine item) = tomlLine item := by
    have last : (tomlLine item).getLast? = some '"' := List.getLast?_concat
    rw [stripCarriageReturn, if_neg]
    rw [last]
    decide
  rw [lines_append, List.splitOn_eq_singleton unbroken, List.map_singleton, quoted,
    List.singleton_append]

theorem basic_roundTrips : TomlStrings.basic.RoundTrips := by
  intro names text distinct written
  simp only [TomlStrings.basic] at written
  split at written
  · rename_i plain
    obtain rfl := Option.some.inj written
    refine ⟨names, ?_, List.Perm.refl names⟩
    have read : (lines (names.flatMap (fun item => tomlLine item ++ ['\n']))).mapM parseTomlLine =
        some names := by
      clear distinct written
      induction names with
      | nil => rfl
      | cons item rest ih =>
          obtain ⟨here, later⟩ := Bool.and_eq_true_iff.mp plain
          have shape : (item :: rest).flatMap (fun item => tomlLine item ++ ['\n']) =
              tomlLine item ++ '\n' :: rest.flatMap (fun item => tomlLine item ++ ['\n']) := by
            simp
          rw [shape, lines_tomlLine here, List.mapM_cons, parseTomlLine_tomlLine here, ih later]
          rfl
    simp [TomlStrings.basic, read, Option.filter, distinct]
  · cases written

/-! Loading. -/

/-- `collect` of entries with distinct keys. -/
theorem lookup_collect {Key Value : Type} [DecidableEq Key] {items : List (Key × Value)}
    (distinct : (items.map Prod.fst).Nodup) {map : HashMap Key Value} {key : Key} {value : Value} :
    (items.foldl (fun map item => map.insert item.1 item.2) map).lookup key = some value ↔
      (key, value) ∈ items ∨ key ∉ items.map Prod.fst ∧ map.lookup key = some value := by
  induction items generalizing map with
  | nil => simp
  | cons item rest ih =>
      obtain ⟨first, found⟩ := item
      obtain ⟨fresh, later⟩ := List.nodup_cons.mp distinct
      rw [List.foldl_cons, ih later, HashMap.lookup_insert_iff, List.map_cons, List.mem_cons,
        List.mem_cons, Prod.mk.injEq]
      by_cases same : key = first
      · subst same
        have absent : (key, value) ∉ rest := fun member =>
          fresh (List.mem_map.mpr ⟨(key, value), member, rfl⟩)
        have none : key ∉ rest.map Prod.fst := fresh
        simp only [absent, none, not_false_eq_true, true_and, ne_eq, not_true_eq_false, false_and,
          or_false, false_or]
      · simp [same]

variable {Node : Type} [DecidableEq Node] [EndpointId Node]

def parseName (item : Str × Str) : Option (Node × Str) := (ofText item.1).map (·, item.2)

theorem loadNames_some {toml : TomlStrings} {text : Str} {raw : List (Str × Str)}
    (read : toml.fromStr text = some raw) :
    (loadNames toml (some text) : HashMap Node Str) =
      (raw.filterMap parseName).foldl (fun map item => map.insert item.1 item.2) ∅ := by
  rw [loadNames, List.foldl_filterMap]
  simp only [read]
  congr 1
  funext names item
  cases read : (ofText item.1 : Option Node) <;> simp [parseName, read]

omit [DecidableEq Node] in
theorem toText_injective : Function.Injective (toText : Node → Str) := by
  intro a b same
  have read : (ofText (toText a) : Option Node) = ofText (toText b) := congrArg ofText same
  simpa only [EndpointId.ofText_toText, Option.some.injEq] using read

omit [DecidableEq Node] in
theorem filterMap_nameEntries (names : HashMap Node Str) :
    (nameEntries names).filterMap parseName = names.entries.map (fun item => (item.1, item.2)) := by
  rw [nameEntries, List.filterMap_map]
  have same : parseName ∘ (fun item : (_ : Node) × Str => (toText item.1, item.2)) =
      some ∘ fun item => (item.1, item.2) := by
    funext item
    simp [parseName, EndpointId.ofText_toText]
  rw [same, List.filterMap_eq_map]

omit [DecidableEq Node] in
theorem nameEntries_distinct (names : HashMap Node Str) :
    ((nameEntries names).map Prod.fst).Nodup := by
  rw [nameEntries, List.map_map]
  have keys := names.keys_nodup.map toText_injective
  rwa [AList.keys, List.keys, List.map_map] at keys

/-- The names that were saved are the names that are loaded. -/
theorem loadNames_saved {toml : TomlStrings} (trips : toml.RoundTrips) {names : HashMap Node Str}
    {text : Str} (saved : namesContent toml (nameEntries names) = some text) (node : Node) :
    (loadNames toml (some text)).lookup node = names.lookup node := by
  obtain ⟨raw, read, permuted⟩ := trips _ _ (nameEntries_distinct names) saved
  have parsed := permuted.filterMap (parseName : Str × Str → Option (Node × Str))
  rw [filterMap_nameEntries] at parsed
  have distinct : ((raw.filterMap parseName).map fun entry : Node × Str => entry.1).Nodup := by
    rw [(parsed.map Prod.fst).nodup_iff, List.map_map]
    exact names.keys_nodup
  rw [loadNames_some read]
  ext name
  rw [lookup_collect distinct, AList.lookup_empty, parsed.mem_iff, List.mem_map]
  simp only [reduceCtorEq, and_false, or_false, Prod.mk.injEq]
  constructor
  · rintro ⟨item, member, rfl, rfl⟩
    exact AList.mem_lookup_iff.mpr member
  · intro found
    exact ⟨⟨node, name⟩, AList.mem_lookup_iff.mp found, rfl, rfl⟩

end RaemoteServer.Auth
