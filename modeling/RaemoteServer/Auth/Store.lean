import RaemoteServer.EndpointId
import RaemoteServer.Library.Collections

/-! The two files of the trust store: one node id a line, and a TOML table of names. -/

namespace RaemoteServer.Auth

open Text Collections

variable {Node : Type} [DecidableEq Node] [EndpointId Node]

/-- `toml::to_string` and `toml::from_str` at a map from strings to strings. -/
structure TomlStrings where
  toString : List (Str × Str) → Option Str
  fromStr : Str → Option (List (Str × Str))

/-- `toml` at the empty table, whose text is empty. -/
def TomlStrings.emptyOnly : TomlStrings where
  toString names := if names = [] then some [] else none
  fromStr text := if text = [] then some [] else none

/-- What an operation persists once it has dropped the lock. -/
inductive Save where
  | authorized (entries : List Str)
  | names (names : List (Str × Str))
  deriving DecidableEq

def parseAuthorizedLine (line : Str) : Option Node :=
  let line := trim line
  if line = [] then none else ofText line

/-- An unreadable file is read as an empty set. -/
def loadAuthorized (file : Option Str) : HashSet Node :=
  match file with
  | none => HashSet.empty
  | some content => HashSet.ofList ((lines content).filterMap parseAuthorizedLine)

/-- The text `save_authorized` writes. -/
def authorizedContent (entries : List Str) : Str := join ['\n'] entries ++ ['\n']

def loadNames (toml : TomlStrings) (file : Option Str) : HashMap Node Str :=
  match file with
  | none => ∅
  | some content =>
      match toml.fromStr content with
      | none => ∅
      | some raw =>
          raw.foldl (fun names item =>
            match ofText item.1 with
            | some id => names.insert id item.2
            | none => names) ∅

/-- The text `save_names` writes, unless the map cannot be serialized. -/
def namesContent (toml : TomlStrings) (names : List (Str × Str)) : Option Str :=
  toml.toString names

omit [DecidableEq Node] in
theorem parseAuthorizedLine_toText (node : Node) :
    parseAuthorizedLine (toText node) = some node := by
  simp only [parseAuthorizedLine, trim_plain _ (EndpointId.toText_plain node),
    EndpointId.toText_ne_nil node, if_false, EndpointId.ofText_toText]

omit [DecidableEq Node] in
theorem parse_entries (nodes : List Node) :
    (lines (authorizedContent (nodes.map toText))).filterMap parseAuthorizedLine = nodes := by
  by_cases none : nodes = []
  · subst none
    rfl
  · have plain : ∀ line ∈ nodes.map toText, ∀ c ∈ line, isWhitespace c = false := by
      intro line member
      obtain ⟨node, -, rfl⟩ := List.mem_map.mp member
      exact EndpointId.toText_plain node
    rw [authorizedContent, lines_join _ (by simpa using none) plain, List.filterMap_map]
    have same : parseAuthorizedLine ∘ toText = (some : Node → Option Node) :=
      funext parseAuthorizedLine_toText
    rw [same, List.filterMap_some]

/-- Node ids saved by `save_authorized` are read back by `load_authorized`. -/
theorem mem_loadAuthorized_content (nodes : List Node) (node : Node) :
    node ∈ loadAuthorized (some (authorizedContent (nodes.map toText))) ↔ node ∈ nodes := by
  simp only [loadAuthorized, HashSet.mem_ofList, parse_entries]

end RaemoteServer.Auth
