import RaemoteServer.Library.Numbers

/-! Data types shared by the discovery pipeline. -/

namespace RaemoteServer.Discovery

open Text

inductive Scheme where
  | http
  deriving DecidableEq

def Scheme.asStr : Scheme → Str
  | .http => "http".toList

/-- The host is stored without brackets. -/
structure Origin where
  scheme : Scheme
  host : Str
  port : UInt16
  deriving DecidableEq

def Origin.http (host : Str) (port : UInt16) : Origin := ⟨.http, host, port⟩

/-- `host:port`, with brackets around an IPv6 literal. -/
def Origin.authority (origin : Origin) : Str :=
  if ':' ∈ origin.host then
    '[' :: origin.host ++ "]:".toList ++ decimal origin.port.toNat
  else origin.host ++ ':' :: decimal origin.port.toNat

/-- The host and the text of the port, of `[host]:port` or of `host:port`. -/
def splitHostPort (s : Str) : Option (Str × Str) :=
  match stripPrefix ['['] s with
  | some rest =>
      match splitOnce ']' rest with
      | (_, none) => none
      | (host, some rest) => (stripPrefix [':'] rest).map (fun port => (host, port))
  | none => rsplitOnce ':' s

/-- `localhost` and the wildcard addresses are written as discovery reports them. -/
def normalHost (host : Str) : Str :=
  if host ∈ ["localhost".toList, "0.0.0.0".toList, "::".toList] then "127.0.0.1".toList else host

def Origin.parseAuthority (s : Str) : Option Origin := do
  let (host, port) ← splitHostPort (trim s)
  let port ← parseU16 port
  if port = 0 ∨ host = [] then none else some (.http (normalHost host) port)

example : Origin.parseAuthority "[::1]:8080".toList = some (.http "::1".toList 8080) := by decide
example : Origin.parseAuthority " localhost:3000 ".toList =
    some (.http "127.0.0.1".toList 3000) := by decide

/-- What an accepted authority is made of. -/
theorem parseAuthority_eq_some {s : Str} {origin : Origin} :
    Origin.parseAuthority s = some origin ↔
      ∃ host portText port, splitHostPort (trim s) = some (host, portText) ∧
        parseU16 portText = some port ∧ port ≠ 0 ∧ host ≠ [] ∧
        origin = .http (normalHost host) port := by
  unfold Origin.parseAuthority
  constructor
  · intro parsed
    obtain ⟨⟨host, portText⟩, split, parsed⟩ := Option.bind_eq_some_iff.mp parsed
    obtain ⟨port, number, parsed⟩ := Option.bind_eq_some_iff.mp parsed
    split at parsed
    · cases parsed
    · rename_i present
      rw [not_or] at present
      exact ⟨host, portText, port, split, number, present.1, present.2,
        (Option.some.inj parsed).symm⟩
  · rintro ⟨host, portText, port, split, number, some, named, rfl⟩
    simp [split, number, some, named]

/-! Authorities are read back. -/

theorem authority_eq (host : Str) (port : UInt16) :
    (Origin.http host port).authority =
      if ':' ∈ host then ['['] ++ (host ++ ']' :: ([':'] ++ decimal port.toNat))
      else host ++ ':' :: decimal port.toNat := by
  unfold Origin.authority
  split
  · rename_i colon
    rw [if_pos (show ':' ∈ host from colon)]
    simp [Origin.http]
  · rename_i none
    rw [if_neg (show ¬ ':' ∈ host from none)]
    rfl

theorem trim_authority {host : Str} (plain : ∀ c ∈ host, isWhitespace c = false) (port : UInt16) :
    trim (Origin.http host port).authority = (Origin.http host port).authority := by
  have digit {c : Char} (member : c ∈ decimal port.toNat) : isWhitespace c = false :=
    isWhitespace_of_isDigit (isDigit_of_mem_decimal member)
  apply trim_plain
  intro c member
  rw [authority_eq] at member
  split at member
  · simp only [List.mem_append, List.mem_cons, List.not_mem_nil, or_false] at member
    rcases member with rfl | inside | rfl | rfl | last
    · rfl
    · exact plain c inside
    · rfl
    · rfl
    · exact digit last
  · simp only [List.mem_append, List.mem_cons] at member
    rcases member with inside | rfl | last
    · exact plain c inside
    · rfl
    · exact digit last

theorem splitHostPort_authority {host : Str} (plain : ∀ c ∈ host, c ≠ '[' ∧ c ≠ ']')
    (named : host ≠ []) (port : UInt16) :
    splitHostPort (Origin.http host port).authority = some (host, decimal port.toNat) := by
  rw [authority_eq]
  by_cases colon : ':' ∈ host
  · have whole : ']' ∉ host := fun member => (plain _ member).2 rfl
    simp only [if_pos colon, splitHostPort, stripPrefix_append, splitOnce_append ']' host _ whole,
      Option.map_some]
  · have bare : stripPrefix ['['] (host ++ ':' :: decimal port.toNat) = none := by
      rw [Option.eq_none_iff_forall_ne_some]
      intro rest found
      have shape := List.isPrefixOf?_eq_some_iff_append_eq.mp found
      cases host with
      | nil => exact named rfl
      | cons first others =>
          obtain ⟨same, -⟩ := List.cons.inj shape
          exact (plain first List.mem_cons_self).1 same.symm
    have digits : ':' ∉ decimal port.toNat :=
      fun member => absurd (isDigit_of_mem_decimal member) (by decide)
    simp only [if_neg colon, splitHostPort, bare, rsplitOnce_append ':' host _ digits]

theorem parseAuthority_authority {host : Str}
    (plain : ∀ c ∈ host, isWhitespace c = false ∧ c ≠ '[' ∧ c ≠ ']')
    (normal : normalHost host = host) (named : host ≠ []) {port : UInt16} (numbered : port ≠ 0) :
    Origin.parseAuthority (Origin.http host port).authority = some (.http host port) := by
  apply parseAuthority_eq_some.mpr
  refine ⟨host, decimal port.toNat, port, ?_, parseU16_decimal port, numbered, named,
    by rw [normal]⟩
  rw [trim_authority (fun c member => (plain c member).1)]
  exact splitHostPort_authority (fun c member => (plain c member).2) named port

/-- The brackets keep the last colon apart from those of the host. -/
theorem authority_injective : Function.Injective Origin.authority := by
  have digits (port : UInt16) : ':' ∉ decimal port.toNat :=
    fun member => absurd (isDigit_of_mem_decimal member) (by decide)
  have split (origin : Origin) : rsplitOnce ':' origin.authority =
      some (if ':' ∈ origin.host then '[' :: origin.host ++ [']'] else origin.host,
        decimal origin.port.toNat) := by
    unfold Origin.authority
    split
    · have literal : '[' :: origin.host ++ "]:".toList ++ decimal origin.port.toNat =
          ('[' :: origin.host ++ [']']) ++ ':' :: decimal origin.port.toNat := by simp
      rw [literal, rsplitOnce_append ':' _ _ (digits origin.port)]
    · rw [rsplitOnce_append ':' _ _ (digits origin.port)]
  rintro ⟨⟨⟩, first, firstPort⟩ ⟨⟨⟩, second, secondPort⟩ same
  have parts := congrArg (rsplitOnce ':') same
  rw [split, split] at parts
  obtain ⟨hosts, ports⟩ := Prod.mk.inj (Option.some.inj parts)
  have port : firstPort = secondPort := UInt16.toNat_inj.mp (decimal_injective ports)
  have host : first = second := by
    dsimp only at hosts
    split at hosts <;> split at hosts
    · exact List.append_cancel_right (List.cons.inj hosts).2
    · rename_i colon none
      exact absurd (hosts ▸ by simp [colon]) none
    · rename_i none colon
      exact absurd (hosts ▸ by simp [colon]) none
    · exact hosts
  rw [port, host]

/-- An app that was found, before naming and merging. -/
structure DiscoveredApp where
  origin : Origin
  title : Option Str
  process : Option Str
  pid : Option UInt32
  deriving DecidableEq

end RaemoteServer.Discovery
