import RaemoteServer.Library.Text

namespace RaemoteServer

open Text

/-- Node ids are the transport's public keys. Only their text matters here: `Display` gives a
non-empty word without white space, and `FromStr` reads it back. -/
class EndpointId (Node : Type) where
  toText : Node → Str
  ofText : Str → Option Node
  fmtShort : Node → Str
  ofText_toText : ∀ node, ofText (toText node) = some node
  toText_plain : ∀ node, ∀ c ∈ toText node, isWhitespace c = false
  toText_ne_nil : ∀ node, toText node ≠ []

export EndpointId (toText ofText fmtShort)

/-- `[u8; 32]`. -/
structure Bytes32 where
  bytes : List UInt8
  length_eq : bytes.length = 32
  deriving DecidableEq

def Bytes32.ofList (bytes : List UInt8) : Option Bytes32 :=
  if length_eq : bytes.length = 32 then some ⟨bytes, length_eq⟩ else none

def Bytes32.filled (byte : UInt8) : Bytes32 := ⟨List.replicate 32 byte, rfl⟩

/-- Keys of thirty-two bytes, written in lowercase hexadecimal. -/
instance : EndpointId Bytes32 where
  toText key := toHex key.bytes
  ofText text := (ofHex text).bind Bytes32.ofList
  fmtShort key := toHex (key.bytes.take 5)
  ofText_toText key := by simp [ofHex_toHex, Bytes32.ofList, key.length_eq]
  toText_plain key := toHex_plain key.bytes
  toText_ne_nil key := by
    intro none
    have bytes : key.bytes = [] := toHex_injective (none.trans rfl)
    simpa [bytes] using key.length_eq

end RaemoteServer
