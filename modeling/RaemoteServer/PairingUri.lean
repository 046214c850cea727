import RaemoteServer.Auth.State
import RaemoteServer.Config

/-! The pairing URI, as the daemon prints it and as the client reads it. -/

namespace RaemoteServer

open Text Collections Auth

variable {Node : Type} [EndpointId Node]

/-- The token stands in the URI as it is. -/
def Auth.TokenInfo.uri (info : TokenInfo) (node : Node) : Str :=
  "raemote://bind?node=".toList ++ toText node ++ "&token=".toList ++ info.tokenHex ++
    "&exp=".toList ++ decimal info.expiresAtUnix

/-- The loop over the pairs; a later pair with the same key wins. -/
def bindPairs (found : Option Node × Option Str) :
    List Str → Except Str (Option Node × Option Str)
  | [] => .ok found
  | pair :: rest =>
      match splitOnce '=' pair with
      | (_, none) => .error "malformed bind URI".toList
      | (key, some value) =>
          if key = "node".toList then
            match ofText value with
            | none => .error "invalid node id".toList
            | some node => bindPairs (some node, found.2) rest
          else if key = "token".toList then bindPairs (found.1, some value) rest
          else bindPairs found rest

def parseBindUri (uri : Str) : Except Str (Node × Str) :=
  match stripPrefix "raemote://bind?".toList uri with
  | none => .error "not a raemote bind URI".toList
  | some query =>
      match bindPairs (none, none) (query.splitOn '&') with
      | .error message => .error message
      | .ok (none, _) => .error "bind URI is missing the node id".toList
      | .ok (some _, none) => .error "bind URI is missing the token".toList
      | .ok (some node, some token) => .ok (node, token)

/-! A token that is read is a part of the URI between two separators. -/

theorem splitOnce_mem {separator c : Char} {s key value : Str}
    (split : splitOnce separator s = (key, some value)) (member : c ∈ value) : c ∈ s := by
  unfold splitOnce at split
  split at split
  · cases split
  · rename_i rest dropped
    obtain rfl := Option.some.inj (Prod.mk.inj split).2
    apply (List.dropWhile_sublist (· ≠ separator)).subset
    rw [dropped]
    exact List.mem_cons_of_mem _ member

theorem bindPairs_token {pairs : List Str} {found result : Option Node × Option Str}
    (parsed : bindPairs found pairs = .ok result) {token : Str} (last : result.2 = some token) :
    found.2 = some token ∨ ∃ pair ∈ pairs, ∀ c ∈ token, c ∈ pair := by
  induction pairs generalizing found with
  | nil =>
      obtain rfl := Except.ok.inj parsed
      exact Or.inl last
  | cons pair rest ih =>
      have later (before : Option Node × Option Str) (parsed : bindPairs before rest = .ok result) :
          before.2 = some token ∨ ∃ other ∈ pair :: rest, ∀ c ∈ token, c ∈ other := by
        rcases ih parsed with old | ⟨other, member, parts⟩
        · exact Or.inl old
        · exact Or.inr ⟨other, List.mem_cons_of_mem _ member, parts⟩
      rw [bindPairs] at parsed
      split at parsed
      · cases parsed
      · rename_i key value split
        split at parsed
        · split at parsed
          · cases parsed
          · rename_i node read
            exact later (some node, found.2) parsed
        · split at parsed
          · rcases later _ parsed with here | there
            · obtain rfl := Option.some.inj here
              exact Or.inr ⟨pair, List.mem_cons_self, fun c member => splitOnce_mem split member⟩
            · exact Or.inr there
          · exact later _ parsed

theorem parsed_token_plain {uri : Str} {node : Node} {token : Str}
    (parsed : parseBindUri uri = .ok (node, token)) : '&' ∉ token := by
  unfold parseBindUri at parsed
  split at parsed
  · cases parsed
  · rename_i query stripped
    split at parsed
    · cases parsed
    · cases parsed
    · cases parsed
    · rename_i found value pairs
      obtain ⟨rfl, rfl⟩ := Prod.mk.inj (Except.ok.inj parsed)
      rcases bindPairs_token pairs rfl with start | ⟨pair, member, parts⟩
      · cases start
      · exact fun inside => not_mem_of_mem_splitOn member (parts '&' inside)

/-- The query of a URI and its pairs. -/
theorem uri_query (node token expires : Str) :
    "raemote://bind?node=".toList ++ node ++ "&token=".toList ++ token ++ "&exp=".toList ++
      expires =
      "raemote://bind?".toList ++ (("node=".toList ++ node) ++
        '&' :: (("token=".toList ++ token) ++ '&' :: ("exp=".toList ++ expires))) := by
  have start : "raemote://bind?node=".toList = "raemote://bind?".toList ++ "node=".toList := by
    decide
  have tokenPair : "&token=".toList = '&' :: "token=".toList := by decide
  have expPair : "&exp=".toList = '&' :: "exp=".toList := by decide
  simp only [start, tokenPair, expPair, List.append_assoc, List.cons_append]

/-- The three pairs of a URI whose token has no separator. -/
theorem uri_pairs (info : TokenInfo) (node : Node) (word : '&' ∉ toText node)
    (plain : '&' ∉ info.tokenHex) :
    ∃ query, stripPrefix "raemote://bind?".toList (info.uri node) = some query ∧
      query.splitOn '&' = ["node=".toList ++ toText node, "token=".toList ++ info.tokenHex,
        "exp=".toList ++ decimal info.expiresAtUnix] := by
  have first : '&' ∉ "node=".toList ++ toText node := by simpa using word
  have second : '&' ∉ "token=".toList ++ info.tokenHex := by simpa using plain
  have third : '&' ∉ "exp=".toList ++ decimal info.expiresAtUnix := by
    intro member
    rcases List.mem_append.mp member with key | digit
    · exact absurd key (by decide)
    · exact absurd (isDigit_of_mem_decimal digit) (by decide)
  refine ⟨("node=".toList ++ toText node) ++ '&' :: (("token=".toList ++ info.tokenHex) ++ '&' ::
    ("exp=".toList ++ decimal info.expiresAtUnix)), ?_, ?_⟩
  · have shape := uri_query (toText node) info.tokenHex (decimal info.expiresAtUnix)
    exact (congrArg (stripPrefix "raemote://bind?".toList) shape).trans (stripPrefix_append _ _)
  · rw [List.splitOn_append_cons_self_of_not_mem first,
      List.splitOn_append_cons_self_of_not_mem second, List.splitOn_eq_singleton third]

theorem parse_uri (info : TokenInfo) (node : Node) (word : '&' ∉ toText node)
    (plain : '&' ∉ info.tokenHex) : parseBindUri (info.uri node) = .ok (node, info.tokenHex) := by
  obtain ⟨query, stripped, pieces⟩ := uri_pairs info node word plain
  have pair (key value : Str) (absent : '=' ∉ key) :
      splitOnce '=' (key ++ '=' :: value) = (key, some value) :=
        splitOnce_append '=' key value absent
  have nodePair := pair "node".toList (toText node) (by decide)
  have tokenPair := pair "token".toList info.tokenHex (by decide)
  have expPair := pair "exp".toList (decimal info.expiresAtUnix) (by decide)
  have found : bindPairs ((none, none) : Option Node × Option Str)
      ["node".toList ++ '=' :: toText node, "token".toList ++ '=' :: info.tokenHex,
        "exp".toList ++ '=' :: decimal info.expiresAtUnix] =
          .ok (some node, some info.tokenHex) := by
    simp only [bindPairs, nodePair, tokenPair, expPair, EndpointId.ofText_toText]
    rfl
  have same : query.splitOn '&' =
      ["node".toList ++ '=' :: toText node, "token".toList ++ '=' :: info.tokenHex,
        "exp".toList ++ '=' :: decimal info.expiresAtUnix] := pieces
  simp only [parseBindUri, stripped, same, found]

/-- What the client reads from the URI of a minted token is the node and the token exactly if a
configured token has no `&`. The text of a node id has none. -/
theorem pairing_uri_iff (word : ∀ node : Node, '&' ∉ toText node) (auth : AuthState Node)
    (now : Instant) (unixNow : Nat) (random : Bytes32) (ttl : Duration) (fixed : Option Str)
    (node : Node) :
    let info := (auth.mintTokenWith now unixNow random ttl fixed).1
    parseBindUri (info.uri node) = .ok (node, info.tokenHex) ↔
      ∀ token, fixed = some token → '&' ∉ token := by
  intro info
  have shape : info.tokenHex = fixed.getD (toHex random.bytes) := rfl
  constructor
  · rintro parsed token rfl
    exact parsed_token_plain parsed
  · intro plain
    apply parse_uri info node (word node)
    rw [shape]
    cases fixed with
    | none => exact fun member => absurd (toHex_digits random.bytes '&' member) (by decide)
    | some token => exact plain token rfl

theorem hexadecimal_word (node : Bytes32) : '&' ∉ toText node :=
  fun member => absurd (toHex_digits node.bytes '&' member) (by decide)

def unpaired : AuthState Bytes32 := loadAt TomlStrings.emptyOnly none none 10

/-- A fixed token with an equals sign in it is read back. -/
theorem fixed_token_read_back :
    parseBindUri ((unpaired.mintTokenWith 0 1700000000 (Bytes32.filled 3) (fromSecs 300)
      (some "0123456789abcd==".toList)).1.uri (Bytes32.filled 1)) =
        .ok (Bytes32.filled 1, "0123456789abcd==".toList) := by
  apply (pairing_uri_iff hexadecimal_word unpaired 0 1700000000 (Bytes32.filled 3) (fromSecs 300)
    (some "0123456789abcd==".toList) (Bytes32.filled 1)).mpr
  intro token fixed
  obtain rfl := Option.some.inj fixed
  decide

def fixedToken (token : String) : Config :=
  { Config.default with bind := { BindConfig.default with token := some token.toList } }

/-- The config accepts a token with separators in it; the client stops at the first one, and takes
what follows for pairs of its own. -/
theorem ampersand_token_cut : validate (fixedToken "0123456789abcdef&token=x") = .ok () ∧
    validate (fixedToken "0123456789abcdef&x") = .ok () ∧
    parseBindUri ((unpaired.mintTokenWith 0 1700000000 (Bytes32.filled 3) (fromSecs 300)
      (fixedToken "0123456789abcdef&token=x").bind.token).1.uri (Bytes32.filled 1)) =
        .ok (Bytes32.filled 1, "x".toList) ∧
    (parseBindUri ((unpaired.mintTokenWith 0 1700000000 (Bytes32.filled 3) (fromSecs 300)
      (fixedToken "0123456789abcdef&x").bind.token).1.uri (Bytes32.filled 1)) :
        Except Str (Bytes32 × Str)) = .error "malformed bind URI".toList := by
  refine ⟨by decide, by decide, ?_, ?_⟩
  · rfl
  · rfl

end RaemoteServer
