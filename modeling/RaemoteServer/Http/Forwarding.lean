import RaemoteServer.Library.Utf8
import RaemoteServer.Http.Proxy
import RaemoteServer.Http.Redirects
import RaemoteServer.Library.HttpHead
import RaemoteServer.Library.IpText

/-! How a request is forwarded to an app: through the HTTP client, or, for an upgrade, as text
that is written to a socket. -/

namespace RaemoteServer.Http

open Text Discovery Net HttpHead

/-! Headers, as in the `http` crate. -/

def validByte (byte : UInt8) : Bool := (32 ≤ byte && byte != 127) || byte == 9

def visibleByte (byte : UInt8) : Bool := (32 ≤ byte && byte < 127) || byte == 9

structure HeaderValue where
  bytes : List UInt8
  valid : ∀ byte ∈ bytes, validByte byte = true
  deriving DecidableEq

/-- Only values of visible ASCII are texts. -/
def HeaderValue.toStr (value : HeaderValue) : Option Str :=
  if value.bytes.all visibleByte then some (value.bytes.map (fun byte => Char.ofNat byte.toNat))
  else none

def HeaderValue.fromStr (s : Str) : Option HeaderValue :=
  if valid : ∀ byte ∈ utf8 s, validByte byte = true then some ⟨utf8 s, valid⟩ else none

/-- The characters of tokens, in lower case. -/
def nameChar (c : Char) : Bool := c.isDigit || c.isLower || c ∈ "!#$%&'*+-.^_`|~".toList

structure HeaderName where
  asStr : Str
  token : asStr ≠ [] ∧ ∀ c ∈ asStr, nameChar c = true
  deriving DecidableEq

abbrev Header := HeaderName × HeaderValue

def isHopByHop (name : Str) : Bool :=
  ["connection".toList, "keep-alive".toList, "proxy-authenticate".toList,
    "proxy-authorization".toList, "te".toList, "trailer".toList, "transfer-encoding".toList,
    "upgrade".toList].contains (asciiLower name)

section

variable (parse : Str → Option Url)

/-- The host of a URL is the client's own machine. -/
def ofClient (url : Url) : Bool := url.hostStr.any isLoopbackHost

/-- `parse` is `url::Url::parse`. -/
def rewriteOrigin (value : Str) (origin : Origin) : Str :=
  match parse value with
  | some url => if ofClient url then upstreamBase origin else value
  | none => value

def rewriteReferer (value : Str) (origin : Origin) : Str :=
  match parse value with
  | some url =>
      if ofClient url then upstreamBase origin ++ url.path ++ querySuffix url.query else value
  | none => value

/-- A request that is routed to an app, as hyper has accepted it: its parts have no spaces and no
line ends, and there is no white space around its header values. -/
structure Routed where
  method : Str
  subPath : Str
  query : Option Str
  headers : List Header
  origin : Origin
  methodChars : ∀ c ∈ method, 0x21 ≤ c.toNat
  targetChars : ∀ c ∈ subPath ++ querySuffix query, 0x21 ≤ c.toNat ∧ c ≠ '#'
  trimmed : ∀ header ∈ headers, ∀ byte, byte ∈ header.2.bytes.head? ∨
    byte ∈ header.2.bytes.getLast? → byte ≠ 32 ∧ byte ≠ 9
  hosted : ∃ ip : IpAddr, origin.host = ip.text

def Routed.target (req : Routed) : Str := '/' :: (req.subPath ++ querySuffix req.query)

/-! Through the client. -/

def proxyValue (origin : Origin) (name : HeaderName) (value : HeaderValue) : HeaderValue :=
  match value.toStr with
  | none => value
  | some text =>
      if name.asStr = "origin".toList then
        (HeaderValue.fromStr (rewriteOrigin parse text origin)).getD value
      else if name.asStr = "referer".toList then
        (HeaderValue.fromStr (rewriteReferer parse text origin)).getD value
      else value

def proxyHeaders (req : Routed) : List Header :=
  req.headers.filterMap (fun header =>
    if header.1.asStr = "host".toList || isHopByHop header.1.asStr then none
    else some (header.1, proxyValue parse req.origin header.1 header.2))

/-- What the client is given to send. -/
structure Sent where
  method : Str
  target : Str
  headers : List Header

/-- `uriTarget` is the path and query of a URI that the `http` crate accepts; the request builder
panics on another. -/
def proxyRequest (uriTarget : Str → Option Str) (req : Routed) : Option Sent :=
  (uriTarget (upstreamUri req.origin req.subPath req.query)).map
    (fun target => ⟨req.method, target, proxyHeaders parse req⟩)

/-! Through a socket. -/

def upgradeLine (origin : Origin) (name : HeaderName) (text : Str) : Str :=
  if name.asStr = "origin".toList then "origin: ".toList ++ rewriteOrigin parse text origin
  else if name.asStr = "referer".toList then "referer: ".toList ++ rewriteReferer parse text origin
  else name.asStr ++ ": ".toList ++ text

def pushHeader (origin : Origin) (head : Str) (header : Header) : Str :=
  if header.1.asStr = "host".toList then head
  else
    match header.2.toStr with
    | none => head
    | some text => head ++ upgradeLine parse origin header.1 text ++ "\r\n".toList

def upgradeHead (req : Routed) : Str :=
  let head := req.method ++ ' ' :: req.target ++ " HTTP/1.1\r\n".toList
  let head := head ++ "Host: ".toList ++ req.origin.authority ++ "\r\n".toList
  req.headers.foldl (pushHeader parse req.origin) head ++ "\r\n".toList

/-! The same request. -/

/-- The values of one header, in their order. -/
def valuesOf (name : Str) (fields : List (Str × List UInt8)) : List (List UInt8) :=
  (fields.filter (·.1 = name)).map Prod.snd

def Sent.fields (sent : Sent) : List (Str × List UInt8) :=
  sent.headers.map (fun header => (header.1.asStr, header.2.bytes))

/-- The bytes of the fields that the app reads. -/
def fieldBytes (head : RequestHead) : List (Str × List UInt8) :=
  head.fields.map (fun field => (field.1, utf8 field.2))

/-- Both ways send one request: the method, the target, and the values of each end-to-end header
but `Host`, in their order. -/
def SameForwarded (uriTarget : Str → Option Str) (req : Routed) : Prop :=
  ∃ sent head, proxyRequest parse uriTarget req = some sent ∧
    readHead (upgradeHead parse req) = some head ∧
    sent.method = head.method ∧ sent.target = head.target ∧ head.target = req.target ∧
    ∀ name, name ≠ "host".toList → isHopByHop name = false →
      valuesOf name (fieldBytes head) = valuesOf name sent.fields

/-- Paths and queries of URLs with a host are percent-encoded. -/
structure UrlTexts : Prop where
  path : ∀ value url, parse value = some url → url.hostStr ≠ none →
    ∀ c ∈ url.path, 0x21 ≤ c.toNat ∧ c.toNat < 0x7F
  query : ∀ value url text, parse value = some url → url.hostStr ≠ none → url.query = some text →
    ∀ c ∈ text, 0x21 ≤ c.toNat ∧ c.toNat < 0x7F

end

/-- What stands behind the authority of an accepted URI without a fragment is its path and query. -/
def UriTargets (uriTarget : Str → Option Str) : Prop :=
  ∀ (origin : Origin) (rest target : Str), (∃ ip : IpAddr, origin.host = ip.text) → '#' ∉ rest →
    uriTarget (upstreamBase origin ++ '/' :: rest) = some target → target = '/' :: rest

/-! Texts that can be sent as values. -/

def Visible (s : Str) : Prop := ∀ c ∈ s, (32 ≤ c.toNat ∧ c.toNat < 127) ∨ c.toNat = 9

/-- Visible and without white space. -/
def Solid (s : Str) : Prop := ∀ c ∈ s, 0x21 ≤ c.toNat ∧ c.toNat < 0x7F

theorem Solid.append {s t : Str} (first : Solid s) (second : Solid t) : Solid (s ++ t) := by
  intro c member
  exact (List.mem_append.mp member).elim (first c) (second c)

theorem Solid.visible {s : Str} (solid : Solid s) : Visible s := by
  intro c member
  have range := solid c member
  omega

theorem Solid.trimmed {s : Str} (solid : Solid s) : Trimmed s := by
  have other : ∀ c ∈ s, isBlank c = false := by
    intro c member
    have range := solid c member
    rw [isBlank, Bool.or_eq_false_iff, beq_eq_false_iff_ne, beq_eq_false_iff_ne]
    refine ⟨?_, ?_⟩ <;> rintro rfl <;> revert range <;> decide
  exact ⟨fun c front => other c (List.mem_of_mem_head? front),
    fun c back => other c (List.mem_of_mem_getLast? back)⟩

theorem Visible.unbroken {s : Str} (visible : Visible s) : Unbroken s := by
  intro member
  have range := visible '\r' member
  revert range
  decide

theorem mem_utf8_visible {s : Str} (visible : Visible s) {byte : UInt8} (member : byte ∈ utf8 s) :
    validByte byte = true := by
  obtain ⟨c, inside, here⟩ := List.mem_flatMap.mp member
  have range := visible c inside
  rw [utf8_ascii (by omega), List.mem_singleton] at here
  have number : byte.toNat = c.toNat := by
    rw [here, UInt8.toNat_ofNat', Nat.mod_eq_of_lt (by omega)]
  simp only [validByte, Bool.or_eq_true, Bool.and_eq_true, decide_eq_true_eq, bne_iff_ne,
    beq_iff_eq, UInt8.le_iff_toNat_le, ne_eq, ← UInt8.toNat_inj, number, UInt8.reduceToNat]
  omega

theorem fromStr_visible {s : Str} (visible : Visible s) :
    ∃ value, HeaderValue.fromStr s = some value ∧ value.bytes = utf8 s :=
  ⟨_, dif_pos (fun _ member => mem_utf8_visible visible member), rfl⟩

theorem toNat_byteChar (byte : UInt8) : (Char.ofNat byte.toNat).toNat = byte.toNat := by
  have small := byte.toNat_lt
  rw [Char.toNat_ofNat, if_pos (Or.inl (by omega))]

theorem toStr_eq_some {value : HeaderValue} {text : Str} (found : value.toStr = some text) :
    text = value.bytes.map (fun byte => Char.ofNat byte.toNat) ∧ utf8 text = value.bytes ∧
      Visible text := by
  unfold HeaderValue.toStr at found
  split at found
  · rename_i visible
    obtain rfl := Option.some.inj found
    have range : ∀ byte ∈ value.bytes,
        (32 ≤ byte.toNat ∧ byte.toNat < 127) ∨ byte.toNat = 9 := by
      intro byte member
      have own := List.all_eq_true.mp visible byte member
      simp only [visibleByte, Bool.or_eq_true, Bool.and_eq_true, decide_eq_true_eq, beq_iff_eq,
        UInt8.le_iff_toNat_le, UInt8.lt_iff_toNat_lt, ← UInt8.toNat_inj, UInt8.reduceToNat] at own
      exact own
    refine ⟨rfl, ?_, ?_⟩
    · rw [utf8, List.flatMap_map]
      calc value.bytes.flatMap (fun byte => String.utf8EncodeChar (Char.ofNat byte.toNat))
          _ = value.bytes.flatMap (fun byte => [byte]) := by
            apply List.flatMap_congr
            intro byte member
            have low := range byte member
            rw [utf8_ascii (by rw [toNat_byteChar]; omega), toNat_byteChar, UInt8.ofNat_toNat]
          _ = value.bytes := List.flatMap_singleton' _
    · intro c member
      obtain ⟨byte, inside, rfl⟩ := List.mem_map.mp member
      rw [toNat_byteChar]
      exact range byte inside
  · cases found

theorem toStr_isSome (value : HeaderValue) :
    value.toStr.isSome = value.bytes.all visibleByte := by
  unfold HeaderValue.toStr
  split
  · rename_i visible
    exact visible.symm
  · rename_i hidden
    exact (Bool.eq_false_iff.mpr hidden).symm

/-! What is rewritten. -/

variable {parse : Str → Option Url}

/-- The text that stands for a value. -/
def forwarded (parse : Str → Option Url) (origin : Origin) (name : HeaderName) (text : Str) : Str :=
  if name.asStr = "origin".toList then rewriteOrigin parse text origin
  else if name.asStr = "referer".toList then rewriteReferer parse text origin
  else text

theorem solid_base {origin : Origin} (hosted : ∃ ip : IpAddr, origin.host = ip.text) :
    Solid origin.authority ∧ Solid (upstreamBase origin) := by
  obtain ⟨ip, host⟩ := hosted
  have digits : Solid (decimal origin.port.toNat) := by
    intro c member
    have digit := isDigit_of_mem_decimal member
    simp only [Char.isDigit, Bool.and_eq_true, decide_eq_true_eq, UInt32.le_iff_toNat_le] at digit
    have low : 48 ≤ c.toNat := digit.1
    have high : c.toNat ≤ 57 := digit.2
    omega
  have address : Solid origin.host := by
    intro c member
    rw [host] at member
    have range := addressChar_range (IpAddr.mem_text member)
    omega
  have fixed : Solid "http://".toList ∧ Solid ['['] ∧ Solid "]:".toList ∧ Solid [':'] := by
    simp [Solid]
  have authority : Solid origin.authority := by
    unfold Origin.authority
    split
    · exact ((fixed.2.1.append address).append fixed.2.2.1).append digits
    · exact address.append (fixed.2.2.2.append digits)
  have scheme : upstreamBase origin = "http://".toList ++ origin.authority := by
    rw [upstreamBase]
    cases origin.scheme
    rfl
  exact ⟨authority, scheme ▸ fixed.1.append authority⟩

theorem solid_query {query : Option Str} (solid : ∀ text, query = some text → Solid text) :
    Solid (querySuffix query) := by
  cases query with
  | none => exact nofun
  | some text =>
      intro c member
      rcases List.mem_cons.mp member with rfl | inside
      · decide
      · exact solid text rfl c inside

/-- What is forwarded for a text is the text, or has no white space. -/
theorem forwarded_cases (texts : UrlTexts parse) {origin : Origin}
    (hosted : ∃ ip : IpAddr, origin.host = ip.text) (name : HeaderName) (text : Str) :
    forwarded parse origin name text = text ∨ Solid (forwarded parse origin name text) := by
  have base := (solid_base hosted).2
  unfold forwarded
  split
  · unfold rewriteOrigin
    split
    · split
      · exact Or.inr base
      · exact Or.inl rfl
    · exact Or.inl rfl
  · split
    · unfold rewriteReferer
      split
      · rename_i url parsed
        split
        · rename_i client
          have host : url.hostStr ≠ none := by
            intro absent
            rw [ofClient, absent] at client
            cases client
          exact Or.inr ((base.append (texts.path _ url parsed host)).append
            (solid_query (fun query found => texts.query _ url query parsed host found)))
        · exact Or.inl rfl
      · exact Or.inl rfl
    · exact Or.inl rfl

theorem forwarded_visible (texts : UrlTexts parse) {origin : Origin}
    (hosted : ∃ ip : IpAddr, origin.host = ip.text) (name : HeaderName) {text : Str}
    (visible : Visible text) : Visible (forwarded parse origin name text) := by
  rcases forwarded_cases texts hosted name text with same | solid
  · rwa [same]
  · exact solid.visible

theorem proxyValue_bytes (texts : UrlTexts parse) {origin : Origin}
    (hosted : ∃ ip : IpAddr, origin.host = ip.text) (name : HeaderName) {value : HeaderValue}
    {text : Str} (found : value.toStr = some text) :
    (proxyValue parse origin name value).bytes = utf8 (forwarded parse origin name text) := by
  obtain ⟨-, bytes, visible⟩ := toStr_eq_some found
  have rewritten := forwarded_visible texts hosted name visible
  obtain ⟨stored, read, same⟩ := fromStr_visible rewritten
  unfold proxyValue
  unfold forwarded at read same ⊢
  rw [found]
  dsimp only
  split
  · rename_i own
    rw [if_pos own] at read same
    rw [read, Option.getD_some, same]
  · rename_i other
    rw [if_neg other] at read same
    split
    · rename_i own
      rw [if_pos own] at read same
      rw [read, Option.getD_some, same]
    · exact bytes.symm

/-! What is written to the socket. -/

theorem name_plain (name : HeaderName) :
    (':' ∉ name.asStr ∧ Unbroken name.asStr) ∧ name.asStr.map Char.toLower = name.asStr := by
  have other {c : Char} (special : nameChar c = false) : c ∉ name.asStr := by
    intro member
    rw [name.token.2 c member] at special
    cases special
  refine ⟨⟨other (by decide), other (by decide)⟩, ?_⟩
  have small : ∀ c ∈ name.asStr, c.toLower = c := by
    intro c member
    apply Char.toLower_eq_of_not_isUpper
    intro upper
    have token := name.token.2 c member
    simp only [Char.isUpper, decide_eq_true_eq, UInt32.le_iff_toNat_le, ge_iff_le] at upper
    have low : 65 ≤ c.toNat := upper.1
    have high : c.toNat ≤ 90 := upper.2
    simp only [nameChar, Bool.or_eq_true, Char.isDigit, Char.isLower, Bool.and_eq_true,
      decide_eq_true_eq, UInt32.le_iff_toNat_le, ge_iff_le] at token
    rcases token with (digit | lower) | mark
    · have bound : c.toNat ≤ 57 := digit.2
      omega
    · have bound : 97 ≤ c.toNat := lower.1
      omega
    · have marks : ∀ c ∈ "!#$%&'*+-.^_`|~".toList, c.toNat < 65 ∨ 90 < c.toNat := by simp
      have range := marks c mark
      omega
  calc name.asStr.map Char.toLower
      _ = name.asStr.map id := List.map_congr_left small
      _ = name.asStr := List.map_id _

/-- The headers that an upgrade is written with, but for `Host`. -/
def upgradeFields (parse : Str → Option Url) (origin : Origin) (headers : List Header) :
    List (Str × Str) :=
  headers.filterMap (fun header =>
    if header.1.asStr = "host".toList then none
    else header.2.toStr.map
      (fun text => (header.1.asStr, forwarded parse origin header.1 text)))

theorem upgradeLine_eq (origin : Origin) (name : HeaderName) (text : Str) :
    upgradeLine parse origin name text ++ "\r\n".toList =
      fieldText (name.asStr, forwarded parse origin name text) := by
  unfold upgradeLine fieldText forwarded
  split
  · rename_i own
    rw [own]
    simp
  · split
    · rename_i own
      rw [own]
      simp
    · rfl

theorem foldl_pushHeader (origin : Origin) (head : Str) (headers : List Header) :
    headers.foldl (pushHeader parse origin) head =
      head ++ (upgradeFields parse origin headers).flatMap fieldText := by
  induction headers generalizing head with
  | nil => simp [upgradeFields]
  | cons header rest ih =>
      rw [List.foldl_cons, ih, pushHeader]
      by_cases host : header.1.asStr = "host".toList
      · simp [upgradeFields, host]
      · cases found : header.2.toStr with
        | none => simp [upgradeFields, found]
        | some text =>
            simp only [host, if_false, upgradeFields, found, Option.map_some,
              List.filterMap_cons, List.flatMap_cons, ← upgradeLine_eq, List.append_assoc]

theorem upgradeHead_text (req : Routed) : upgradeHead parse req =
    RequestHead.text ⟨req.method, req.target,
      ("Host".toList, req.origin.authority) :: upgradeFields parse req.origin req.headers⟩ := by
  rw [upgradeHead, foldl_pushHeader, RequestHead.text]
  simp [fieldText]

theorem mem_upgradeFields {origin : Origin} {headers : List Header} {field : Str × Str}
    (member : field ∈ upgradeFields parse origin headers) :
    ∃ header ∈ headers, header.1.asStr ≠ "host".toList ∧ ∃ text, header.2.toStr = some text ∧
      field = (header.1.asStr, forwarded parse origin header.1 text) := by
  obtain ⟨header, inside, here⟩ := List.mem_filterMap.mp member
  split at here
  · cases here
  · rename_i other
    obtain ⟨text, found, rfl⟩ := Option.map_eq_some_iff.mp here
    exact ⟨header, inside, other, text, found, rfl⟩

/-- hyper leaves no white space around a value. -/
theorem trimmed_text (req : Routed) {header : Header} (member : header ∈ req.headers) {text : Str}
    (found : header.2.toStr = some text) : Trimmed text := by
  have shape := (toStr_eq_some found).1
  have solid {byte : UInt8} (other : byte ≠ 32 ∧ byte ≠ 9) :
      isBlank (Char.ofNat byte.toNat) = false := by
    rw [isBlank, Bool.or_eq_false_iff, beq_eq_false_iff_ne, beq_eq_false_iff_ne]
    constructor
    · intro same
      have number := congrArg Char.toNat same
      rw [toNat_byteChar] at number
      exact other.1 (UInt8.toNat_inj.mp number)
    · intro same
      have number := congrArg Char.toNat same
      rw [toNat_byteChar] at number
      exact other.2 (UInt8.toNat_inj.mp number)
  constructor
  · intro c front
    rw [shape, List.head?_map] at front
    obtain ⟨byte, first, rfl⟩ := Option.map_eq_some_iff.mp front
    exact solid (req.trimmed _ member byte (Or.inl first))
  · intro c back
    rw [shape, List.getLast?_map] at back
    obtain ⟨byte, last, rfl⟩ := Option.map_eq_some_iff.mp back
    exact solid (req.trimmed _ member byte (Or.inr last))

theorem upgrade_formed (texts : UrlTexts parse) (req : Routed) :
    RequestHead.WellFormed ⟨req.method, req.target,
      ("Host".toList, req.origin.authority) :: upgradeFields parse req.origin req.headers⟩ := by
  have authority := (solid_base req.hosted).1
  have target : ∀ c ∈ req.target, 0x21 ≤ c.toNat := by
    intro c member
    rcases List.mem_cons.mp member with rfl | inside
    · decide
    · exact (req.targetChars c inside).1
  have apart {c : Char} (low : c.toNat < 0x21) {s : Str} (above : ∀ c ∈ s, 0x21 ≤ c.toNat) :
      c ∉ s := fun member => absurd (above c member) (by omega)
  constructor
  · exact ⟨apart (by decide) req.methodChars, apart (by decide) req.methodChars⟩
  · exact ⟨apart (by decide) target, apart (by decide) target⟩
  · rw [List.forall_mem_cons]
    refine ⟨by simp [Unbroken], ?_⟩
    intro field member
    obtain ⟨header, -, -, text, -, rfl⟩ := mem_upgradeFields member
    exact (name_plain header.1).1
  · rw [List.forall_mem_cons]
    refine ⟨⟨authority.trimmed, authority.visible.unbroken⟩, ?_⟩
    intro field member
    obtain ⟨header, inside, -, text, found, rfl⟩ := mem_upgradeFields member
    have visible := (toStr_eq_some found).2.2
    refine ⟨?_, (forwarded_visible texts req.hosted header.1 visible).unbroken⟩
    rcases forwarded_cases texts req.hosted header.1 text with same | solid
    · rw [same]
      exact trimmed_text req inside found
    · exact solid.trimmed

/-- What the app reads of an upgrade. -/
theorem read_upgrade (texts : UrlTexts parse) (req : Routed) :
    readHead (upgradeHead parse req) = some ⟨req.method, req.target,
      ("host".toList, req.origin.authority) :: upgradeFields parse req.origin req.headers⟩ := by
  rw [upgradeHead_text, readHead_text (upgrade_formed texts req)]
  have lower : (upgradeFields parse req.origin req.headers).map
      (fun field => (field.1.map Char.toLower, field.2)) =
        upgradeFields parse req.origin req.headers := by
    calc (upgradeFields parse req.origin req.headers).map
          (fun field => (field.1.map Char.toLower, field.2))
        _ = (upgradeFields parse req.origin req.headers).map id := by
          apply List.map_congr_left
          intro field member
          obtain ⟨header, -, -, text, -, rfl⟩ := mem_upgradeFields member
          rw [(name_plain header.1).2]
          rfl
        _ = upgradeFields parse req.origin req.headers := List.map_id _
  simp only [List.map_cons, lower]
  rfl

/-! One header. -/

def headersNamed (name : Str) (headers : List Header) : List Header :=
  headers.filter (·.1.asStr = name)

/-- The values of a header come from the headers of that name. -/
theorem valuesOf_filterMap (name : Str) {field : Header → Option (Str × List UInt8)}
    (own : ∀ header made, field header = some made → made.1 = header.1.asStr)
    (headers : List Header) : valuesOf name (headers.filterMap field) =
      (headersNamed name headers).filterMap (fun header => (field header).map Prod.snd) := by
  induction headers with
  | nil => rfl
  | cons header rest ih =>
      simp only [valuesOf, headersNamed] at ih ⊢
      cases made : field header with
      | none =>
          rw [List.filterMap_cons_none made, ih]
          by_cases named : header.1.asStr = name
          · simp [named, made]
          · simp [named]
      | some entry =>
          have same := own header entry made
          rw [List.filterMap_cons_some made]
          by_cases named : header.1.asStr = name
          · simp [same, named, made, ih]
          · simp [same, named, ih]

/-- The value of `Host` is among those of no other header. -/
theorem values_read {method target host name : Str} (fields : List (Str × Str))
    (other : name ≠ "host".toList) :
    valuesOf name (fieldBytes ⟨method, target, ("host".toList, host) :: fields⟩) =
      valuesOf name (fields.map (fun field => (field.1, utf8 field.2))) := by
  rw [fieldBytes, List.map_cons, valuesOf, List.filter_cons_of_neg]
  · rfl
  · simpa using other.symm

theorem values_written (req : Routed) {name : Str} (other : name ≠ "host".toList) :
    valuesOf name ((upgradeFields parse req.origin req.headers).map
        (fun field => (field.1, utf8 field.2))) =
      (headersNamed name req.headers).filterMap (fun header =>
        header.2.toStr.map (fun text => utf8 (forwarded parse req.origin header.1 text))) := by
  rw [upgradeFields, List.map_filterMap, valuesOf_filterMap]
  · apply List.filterMap_congr
    intro header member
    have named : header.1.asStr = name := of_decide_eq_true (List.mem_filter.mp member).2
    rw [named, if_neg other, Option.map_map, Option.map_map]
    rfl
  · intro header made shape
    split at shape
    · cases shape
    · obtain ⟨field, found, rfl⟩ := Option.map_eq_some_iff.mp shape
      obtain ⟨text, -, rfl⟩ := Option.map_eq_some_iff.mp found
      rfl

theorem values_sent (req : Routed) {name : Str} (other : name ≠ "host".toList)
    (endToEnd : isHopByHop name = false) :
    valuesOf name ((proxyHeaders parse req).map (fun header => (header.1.asStr, header.2.bytes))) =
      (headersNamed name req.headers).map (fun header =>
        (proxyValue parse req.origin header.1 header.2).bytes) := by
  rw [proxyHeaders, List.map_filterMap, valuesOf_filterMap, ← List.filterMap_eq_map']
  · apply List.filterMap_congr
    intro header member
    have named : header.1.asStr = name := of_decide_eq_true (List.mem_filter.mp member).2
    have kept : (decide (name = "host".toList) || isHopByHop name) = false := by
      rw [decide_eq_false other, endToEnd]
      rfl
    simp only [named, kept, Bool.false_eq_true, if_false, Option.map_some]
  · intro header made shape
    split at shape
    · cases shape
    · cases shape
      rfl

/-- Every end-to-end header but `Host` has a value of visible ASCII. -/
def Routed.AllVisible (req : Routed) : Prop :=
  ∀ header ∈ req.headers, header.1.asStr ≠ "host".toList → isHopByHop header.1.asStr = false →
    header.2.bytes.all visibleByte = true

theorem same_values_iff (texts : UrlTexts parse) (req : Routed) :
    (∀ name, name ≠ "host".toList → isHopByHop name = false →
      valuesOf name ((upgradeFields parse req.origin req.headers).map
          (fun field => (field.1, utf8 field.2))) =
        valuesOf name ((proxyHeaders parse req).map
          (fun header => (header.1.asStr, header.2.bytes)))) ↔ req.AllVisible := by
  have text (header : Header) : header.2.toStr.map
      (fun text => utf8 (forwarded parse req.origin header.1 text)) =
        some (proxyValue parse req.origin header.1 header.2).bytes ↔
      header.2.bytes.all visibleByte = true := by
    rw [← toStr_isSome]
    cases found : header.2.toStr with
    | none => simp
    | some text =>
        simp only [Option.map_some, proxyValue_bytes texts req.hosted header.1 found,
          Option.isSome_some]
  constructor
  · intro same header member other endToEnd
    have lists := same header.1.asStr other endToEnd
    rw [values_written req other, values_sent req other endToEnd,
      List.filterMap_eq_map_iff_forall_eq_some] at lists
    exact (text header).mp (lists header (List.mem_filter.mpr ⟨member, decide_eq_true rfl⟩))
  · intro visible name other endToEnd
    rw [values_written req other, values_sent req other endToEnd,
      List.filterMap_eq_map_iff_forall_eq_some]
    intro header member
    obtain ⟨inside, named⟩ := List.mem_filter.mp member
    have same : header.1.asStr = name := of_decide_eq_true named
    exact (text header).mpr (visible header inside (same ▸ other) (same ▸ endToEnd))

/-- The two ways send one request exactly if the client's URI is accepted and every end-to-end
header has a value of visible ASCII. -/
theorem same_forwarded_iff {uriTarget : Str → Option Str} (texts : UrlTexts parse)
    (targets : UriTargets uriTarget) (req : Routed) :
    SameForwarded parse uriTarget req ↔
      (uriTarget (upstreamUri req.origin req.subPath req.query)).isSome = true ∧
          req.AllVisible := by
  have read := read_upgrade texts req
  have fragment : '#' ∉ req.subPath ++ querySuffix req.query :=
    fun member => (req.targetChars _ member).2 rfl
  rw [← same_values_iff texts req]
  constructor
  · rintro ⟨sent, head, made, again, -, -, -, values⟩
    obtain rfl := Option.some.inj (read.symm.trans again)
    obtain ⟨target, accepted, rfl⟩ := Option.map_eq_some_iff.mp made
    refine ⟨by rw [accepted]; rfl, ?_⟩
    intro name other endToEnd
    exact (values_read _ other).symm.trans (values name other endToEnd)
  · rintro ⟨accepted, values⟩
    obtain ⟨target, accepted⟩ := Option.isSome_iff_exists.mp accepted
    have own : target = req.target := targets req.origin _ target req.hosted fragment accepted
    refine ⟨_, _, congrArg (Option.map _) accepted, read, rfl, own, rfl, ?_⟩
    intro name other endToEnd
    exact (values_read _ other).trans (values name other endToEnd)

/-- The path and query of an absolute URI. -/
def pathAndQuery (uri : Str) : Option Str :=
  (stripPrefix "http://".toList uri).map (·.dropWhile (· ≠ '/'))

theorem pathAndQuery_targets : UriTargets pathAndQuery := by
  intro origin rest target hosted _ found
  obtain ⟨ip, host⟩ := hosted
  have whole : ∀ c ∈ origin.authority, c ≠ '/' := by
    rintro c member rfl
    have address : '/' ∉ origin.host := by
      rw [host]
      exact fun inside => absurd (IpAddr.mem_text inside) (by decide)
    have digits : '/' ∉ decimal origin.port.toNat :=
      fun inside => absurd (isDigit_of_mem_decimal inside) (by decide)
    unfold Origin.authority at member
    split at member
    · simp [address, digits] at member
    · simp [address, digits] at member
  have uri : upstreamBase origin ++ '/' :: rest =
      "http://".toList ++ (origin.authority ++ '/' :: rest) := by
    rw [upstreamBase]
    cases origin.scheme
    rfl
  rw [uri, pathAndQuery, stripPrefix_append, Option.map_some,
    List.dropWhile_append_of_pos (fun c member => decide_eq_true (whole c member))] at found
  exact (Option.some.inj found).symm

def originName : HeaderName := ⟨"origin".toList, by simp [nameChar]⟩
def cookieName : HeaderName := ⟨"cookie".toList, by simp [nameChar]⟩

/-- An upgrade that a page of the client asks for, with one more header. -/
def socketRequest (name : HeaderName) (value : HeaderValue)
    (trimmed : ∀ byte, byte ∈ value.bytes.head? ∨ byte ∈ value.bytes.getLast? →
      byte ≠ 32 ∧ byte ≠ 9) : Routed where
  method := "GET".toList
  subPath := "ws".toList
  query := some "v=2".toList
  headers := [(name, value)]
  origin := .http "127.0.0.1".toList 8096
  methodChars := by simp
  targetChars := by simp [querySuffix]
  trimmed := by simpa using trimmed
  hosted := ⟨.v4 ⟨127, 0, 0, 1⟩, by decide⟩

def pageText : Str := "http://127.0.0.1:5523".toList

def pageUrl : Url := ⟨some "127.0.0.1".toList, some 5523, ['/'], none, none⟩

def pageOrigin : HeaderValue := ⟨utf8 pageText, by decide +kernel⟩

theorem pageUrl_texts : UrlTexts (parseOnly pageText pageUrl) := by
  constructor
  · intro value url parsed _
    rw [parseOnly_eq parsed]
    simp [pageUrl]
  · intro value url text parsed _ found
    rw [parseOnly_eq parsed] at found
    cases found

theorem page_upgrade_same : SameForwarded (parseOnly pageText pageUrl) pathAndQuery
    (socketRequest originName pageOrigin (by decide +kernel)) := by
  apply (same_forwarded_iff pageUrl_texts pathAndQuery_targets _).mpr
  exact ⟨by decide +kernel, by unfold Routed.AllVisible; decide +kernel⟩

/-- `n=ë` in UTF-8. -/
def accented : HeaderValue := ⟨[110, 61, 0xC3, 0xAB], by decide +kernel⟩

def cookieRequest : Routed := socketRequest cookieName accented (by decide +kernel)

/-- The cookie goes through the client and is left out of the upgrade. -/
theorem accented_cookie_dropped :
    (proxyRequest (fun _ => none) pathAndQuery cookieRequest).map Sent.fields =
      some [("cookie".toList, [110, 61, 0xC3, 0xAB])] ∧
    upgradeHead (fun _ => none) cookieRequest =
      "GET /ws?v=2 HTTP/1.1\r\nHost: 127.0.0.1:8096\r\n\r\n".toList ∧
    ¬ SameForwarded (fun _ => none) pathAndQuery cookieRequest := by
  have read : (readHead (upgradeHead (fun _ => none) cookieRequest)).map fieldBytes =
      some [("host".toList, utf8 "127.0.0.1:8096".toList)] := by decide +kernel
  have sent : (proxyRequest (fun _ => none) pathAndQuery cookieRequest).map Sent.fields =
      some [("cookie".toList, [110, 61, 0xC3, 0xAB])] := by decide +kernel
  refine ⟨sent, by decide +kernel, ?_⟩
  rintro ⟨request, head, made, found, -, -, -, values⟩
  rw [found, Option.map_some, Option.some.injEq] at read
  rw [made, Option.map_some, Option.some.injEq] at sent
  have cookies := values "cookie".toList (by decide) (by decide)
  rw [read, sent] at cookies
  exact absurd cookies (by decide)

end RaemoteServer.Http
