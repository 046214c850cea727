import RaemoteServer.Library.Text

/-! `std::net`: addresses, and the texts they are printed as. -/

namespace Net

open Text

structure Ipv4Addr where
  a : UInt8
  b : UInt8
  c : UInt8
  d : UInt8
  deriving DecidableEq

structure Ipv6Addr where
  octets : List UInt8
  sixteen : octets.length = 16
  deriving DecidableEq

inductive IpAddr where
  | v4 (ip : Ipv4Addr)
  | v6 (ip : Ipv6Addr)
  deriving DecidableEq

inductive SocketAddr where
  | v4 (ip : Ipv4Addr) (port : UInt16)
  | v6 (ip : Ipv6Addr) (port : UInt16) (flowinfo scopeId : UInt32)
  deriving DecidableEq

/-- `to_le_bytes` -/
def leBytes (word : UInt32) : List UInt8 :=
  [word.toUInt8, (word >>> 8).toUInt8, (word >>> 16).toUInt8, (word >>> 24).toUInt8]

/-- The address whose octets are the bytes of a little-endian word. -/
def Ipv4Addr.ofWord (word : UInt32) : Ipv4Addr :=
  ⟨word.toUInt8, (word >>> 8).toUInt8, (word >>> 16).toUInt8, (word >>> 24).toUInt8⟩

def Ipv6Addr.ofWords (first second third fourth : UInt32) : Ipv6Addr :=
  ⟨leBytes first ++ leBytes second ++ leBytes third ++ leBytes fourth, rfl⟩

def Ipv6Addr.localhost : Ipv6Addr := ⟨[0, 0, 0, 0, 0, 0, 0, 0, 0, 0, 0, 0, 0, 0, 0, 1], rfl⟩
def Ipv6Addr.unspecified : Ipv6Addr := ⟨[0, 0, 0, 0, 0, 0, 0, 0, 0, 0, 0, 0, 0, 0, 0, 0], rfl⟩

def IpAddr.isLoopback : IpAddr → Bool
  | .v4 ip => ip.a == 127
  | .v6 ip => ip = .localhost

def IpAddr.isUnspecified : IpAddr → Bool
  | .v4 ip => ip = ⟨0, 0, 0, 0⟩
  | .v6 ip => ip = .unspecified

def SocketAddr.ip : SocketAddr → IpAddr
  | .v4 ip _ => .v4 ip
  | .v6 ip _ _ _ => .v6 ip

def SocketAddr.port : SocketAddr → UInt16
  | .v4 _ port => port
  | .v6 _ port _ _ => port

/-- `SocketAddr::new` -/
def SocketAddr.new : IpAddr → UInt16 → SocketAddr
  | .v4 ip, port => .v4 ip port
  | .v6 ip, port => .v6 ip port 0 0

/-! Printing. -/

def Ipv4Addr.text (ip : Ipv4Addr) : Str :=
  decimal ip.a.toNat ++ '.' :: decimal ip.b.toNat ++ '.' :: decimal ip.c.toNat ++
    '.' :: decimal ip.d.toNat

def segmentsOf : List UInt8 → List UInt16
  | high :: low :: rest => UInt16.ofNat (high.toNat * 256 + low.toNat) :: segmentsOf rest
  | _ => []

def segmentsText (segments : List UInt16) : Str :=
  join [':'] (segments.map (fun segment => Nat.toDigits 16 segment.toNat))

structure Span where
  start : Nat
  len : Nat
  deriving DecidableEq

/-- The first of the longest runs of zeros; `current` is the run that ends before `index`. -/
def longestZeros (index : Nat) (current longest : Span) : List UInt16 → Span
  | [] => longest
  | segment :: rest =>
      if segment = 0 then
        let current := ⟨if current.len = 0 then index else current.start, current.len + 1⟩
        longestZeros (index + 1) current
          (if current.len > longest.len then current else longest) rest
      else longestZeros (index + 1) ⟨0, 0⟩ longest rest

/-- An IPv4 address that is mapped into `::ffff:0:0/96` is printed as such. -/
def Ipv6Addr.text (ip : Ipv6Addr) : Str :=
  match ip.octets with
  | [0, 0, 0, 0, 0, 0, 0, 0, 0, 0, 0xff, 0xff, a, b, c, d] =>
      "::ffff:".toList ++ (Ipv4Addr.mk a b c d).text
  | octets =>
      let segments := segmentsOf octets
      let zeros := longestZeros 0 ⟨0, 0⟩ ⟨0, 0⟩ segments
      if zeros.len > 1 then
        segmentsText (segments.take zeros.start) ++ "::".toList ++
          segmentsText (segments.drop (zeros.start + zeros.len))
      else segmentsText segments

def IpAddr.text : IpAddr → Str
  | .v4 ip => ip.text
  | .v6 ip => ip.text

def SocketAddr.text : SocketAddr → Str
  | .v4 ip port => ip.text ++ ':' :: decimal port.toNat
  | .v6 ip port _ scopeId =>
      '[' :: ip.text ++ (if scopeId = 0 then [] else '%' :: decimal scopeId.toNat) ++
        "]:".toList ++ decimal port.toNat

example : (SocketAddr.v6 (.ofWords 0xB80D0120 0 0x01000000 0x01000000) 443 0 0).text =
    "[2001:db8::1:0:1]:443".toList := by decide

theorem Ipv4Addr.mem_text {ip : Ipv4Addr} {c : Char} (member : c ∈ ip.text) :
    c.isDigit = true ∨ c = '.' := by
  simp only [Ipv4Addr.text, List.mem_append, List.mem_cons] at member
  have digit {n : Nat} : c ∈ decimal n → c.isDigit = true := isDigit_of_mem_decimal
  tauto

/-- The text of a loopback address has only digits and dots, or it is `::1`. -/
theorem loopback_text {ip : IpAddr} (loopback : ip.isLoopback = true) :
    (∀ c ∈ ip.text, c.isDigit = true ∨ c = '.') ∨ ip.text = "::1".toList := by
  cases ip with
  | v4 ip => exact Or.inl (fun c member => Ipv4Addr.mem_text member)
  | v6 ip =>
      have same : ip = .localhost := of_decide_eq_true loopback
      apply Or.inr
      rw [same]
      decide

end Net
