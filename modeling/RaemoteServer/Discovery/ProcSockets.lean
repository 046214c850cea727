import RaemoteServer.Library.Numbers
import RaemoteServer.Library.SocketAddr

/-! The kernel's table of listening sockets, `/proc/net/tcp` and `/proc/net/tcp6`. -/

namespace RaemoteServer.Discovery

open Text Net

def parseWord (hex : Str) : Option UInt32 := (parseHex UInt32.size hex).map UInt32.ofNat

def parseIp (hex : Str) (ipv6 : Bool) : Option IpAddr :=
  if ipv6 then
    if (utf8 hex).length ≠ 32 then none
    else
      match (hex.toChunks 8).mapM parseWord with
      | some [first, second, third, fourth] => some (.v6 (.ofWords first second third fourth))
      | _ => none
  else if (utf8 hex).length ≠ 8 then none
  else (parseWord hex).map (fun word => .v4 (.ofWord word))

/-- The fields are `sl`, `local_address`, `rem_address`, `st` and more. -/
def parseRow (ipv6 : Bool) (line : Str) : Option SocketAddr := do
  let fields := splitWhitespace line
  if fields[3]? ≠ some "0A".toList then none
  else
    let local' ← fields[1]?
    let (addrHex, portHex) := splitOnce ':' local'
    let port ← parseHex UInt16.size (← portHex)
    if port = 0 then none
    else
      let ip ← parseIp addrHex ipv6
      some (.new ip (UInt16.ofNat port))

/-- The first line is a header. -/
def parseTable (table : Str) (ipv6 : Bool) : List SocketAddr :=
  ((lines table).drop 1).filterMap (parseRow ipv6)

/-- A table that could not be read counts for nothing. -/
def listeningTcp (tcp tcp6 : Option Str) : List SocketAddr :=
  (tcp.map (parseTable · false)).getD [] ++ (tcp6.map (parseTable · true)).getD []

end RaemoteServer.Discovery
