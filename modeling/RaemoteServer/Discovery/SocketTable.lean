import RaemoteServer.Discovery.ProcSockets
import RaemoteServer.Library.Columns
import RaemoteServer.Library.Utf8

/-! The kernel's table: what is cut out of it, and what is read back of the sockets it was written
from. -/

namespace RaemoteServer.Discovery

open Text Net

/-! Reading with slices that may fail. -/

/-- `bytes[start..start + 4].copy_from_slice(..)` -/
def copyWord (bytes : Ipv6Addr) (start : Nat) (word : UInt32) : Option Ipv6Addr :=
  if inside : start + 4 ≤ bytes.octets.length then
    some ⟨bytes.octets.take start ++ leBytes word ++ bytes.octets.drop (start + 4), by
      have sixteen := bytes.sixteen
      rw [List.length_append, List.length_append, List.length_take, List.length_drop, leBytes]
      simp only [List.length_cons, List.length_nil]
      omega⟩
  else none

def parseChunk (chunk : List UInt8) : Option UInt32 := (fromUtf8 chunk).bind parseWord

/-- The loop of `parse_ip`. Outside of the result is a slice out of range. -/
def copyWords : Ipv6Addr → Nat → List (List UInt8) → Option (Option Ipv6Addr)
  | bytes, _, [] => some (some bytes)
  | bytes, index, chunk :: rest =>
      match parseChunk chunk with
      | none => some none
      | some word => (copyWord bytes (index * 4) word).bind (copyWords · (index + 1) rest)

def cutIp (hex : Str) (ipv6 : Bool) : Option (Option IpAddr) :=
  if ipv6 then
    if (utf8 hex).length ≠ 32 then some none
    else (copyWords .unspecified 0 ((utf8 hex).toChunks 8)).map (·.map .v6)
  else if (utf8 hex).length ≠ 8 then some none
  else some ((parseWord hex).map (fun word => .v4 (.ofWord word)))

def cutRow (ipv6 : Bool) (line : Str) : Option (Option SocketAddr) :=
  let fields := splitWhitespace line
  if fields[3]? ≠ some "0A".toList then some none
  else
    let local' := fields[1]?.bind (fun field =>
      let (addrHex, portHex) := splitOnce ':' field
      portHex.map (addrHex, ·))
    match local' with
    | none => some none
    | some (addrHex, portHex) =>
        match parseHex UInt16.size portHex with
        | none => some none
        | some port =>
            if port = 0 then some none
            else (cutIp addrHex ipv6).map (·.map (SocketAddr.new · (UInt16.ofNat port)))

def cutRows (ipv6 : Bool) : List Str → Option (List SocketAddr)
  | [] => some []
  | line :: rest => do
      let found ← cutRow ipv6 line
      let later ← cutRows ipv6 rest
      return found.toList ++ later

/-- `parse_table` -/
def cutTable (table : Str) (ipv6 : Bool) : Option (List SocketAddr) :=
  cutRows ipv6 ((lines table).drop 1)

/-! No slice fails. -/

theorem copyWords_four (first second third fourth : List UInt8) :
    copyWords .unspecified 0 [first, second, third, fourth] =
      some (match [first, second, third, fourth].mapM parseChunk with
        | some [first, second, third, fourth] => some (.ofWords first second third fourth)
        | _ => none) := by
  simp only [copyWords, List.mapM_cons, List.mapM_nil]
  cases parseChunk first with
  | none => rfl
  | some word =>
  cases parseChunk second with
  | none => rfl
  | some word' =>
  cases parseChunk third with
  | none => rfl
  | some word'' =>
  cases parseChunk fourth with
  | none => rfl
  | some word''' => rfl

theorem parseWord_ascii {hex : Str} {word : UInt32} (read : parseWord hex = some word) :
    ∀ c ∈ hex, c.toNat < 0x80 := by
  obtain ⟨value, digits, -⟩ := Option.map_eq_some_iff.mp read
  exact ascii_of_parseHex digits

/-- Pieces that are read were cut at characters. -/
theorem ascii_of_chunks {chunks : List (List UInt8)}
    (read : ∀ chunk ∈ chunks, ∃ word, parseChunk chunk = some word) :
    ∃ hex, chunks.flatten = utf8 hex ∧ ∀ c ∈ hex, c.toNat < 0x80 := by
  induction chunks with
  | nil => exact ⟨[], rfl, List.forall_mem_nil _⟩
  | cons chunk rest ih =>
      obtain ⟨⟨word, here⟩, later⟩ := List.forall_mem_cons.mp read
      obtain ⟨front, encoded, number⟩ := Option.bind_eq_some_iff.mp here
      obtain ⟨back, others, ascii⟩ := ih later
      refine ⟨front ++ back, ?_, ?_⟩
      · rw [List.flatten_cons, fromUtf8_eq_some.mp encoded, others, utf8_append]
      · exact List.forall_mem_append.mpr ⟨parseWord_ascii number, ascii⟩

/-- Cutting the bytes reads what cutting the characters does. -/
theorem parseChunks (hex : Str) :
    ((utf8 hex).toChunks 8).mapM parseChunk = (hex.toChunks 8).mapM parseWord := by
  by_cases ascii : ∀ c ∈ hex, c.toNat < 0x80
  · rw [utf8_map ascii, List.toChunks_map, List.mapM_map]
    apply List.mapM_congr
    intro chunk member
    have inside : ∀ c ∈ chunk, c.toNat < 0x80 := by
      intro c here
      apply ascii
      rw [← List.flatten_toChunks 7 hex]
      exact List.mem_flatten.mpr ⟨chunk, member, here⟩
    rw [Function.comp_apply, ← utf8_map inside, parseChunk, fromUtf8_eq_some.mpr rfl,
      Option.bind_some]
  · have bytes : ((utf8 hex).toChunks 8).mapM parseChunk = none := by
      apply Option.eq_none_iff_forall_ne_some.mpr
      intro words read
      obtain ⟨hex', encoded, ascii'⟩ := ascii_of_chunks (List.mapM_some read)
      rw [List.flatten_toChunks] at encoded
      rw [utf8_injective encoded] at ascii
      exact ascii ascii'
    have characters : (hex.toChunks 8).mapM parseWord = none := by
      apply Option.eq_none_iff_forall_ne_some.mpr
      intro words read
      apply ascii
      intro c member
      rw [← List.flatten_toChunks 7 hex] at member
      obtain ⟨chunk, inside, here⟩ := List.mem_flatten.mp member
      obtain ⟨word, number⟩ := List.mapM_some read chunk inside
      exact parseWord_ascii number c here
    rw [bytes, characters]

theorem cutIp_eq (hex : Str) (ipv6 : Bool) : cutIp hex ipv6 = some (parseIp hex ipv6) := by
  cases ipv6 with
  | false =>
      simp only [cutIp, parseIp, Bool.false_eq_true, if_false]
      split <;> rfl
  | true =>
      simp only [cutIp, parseIp, if_true]
      split
      · rfl
      case isFalse size =>
        have four := (List.length_toChunks (n := 7) (k := 4) (not_not.mp size)).1
        rw [← parseChunks]
        match (utf8 hex).toChunks 8, four with
        | [first, second, third, fourth], _ =>
            rw [copyWords_four, Option.map_some]
            generalize [first, second, third, fourth].mapM parseChunk = words
            rcases words with _ | (_ | ⟨_, _ | ⟨_, _ | ⟨_, _ | ⟨_, _ | ⟨_, _⟩⟩⟩⟩⟩) <;> rfl

theorem cutRow_eq (ipv6 : Bool) (line : Str) : cutRow ipv6 line = some (parseRow ipv6 line) := by
  simp only [cutRow, parseRow, cutIp_eq]
  split
  · rfl
  cases (splitWhitespace line)[1]? with
  | none => rfl
  | some field =>
      simp only [Option.bind_some, Option.map_some, Option.bind_eq_bind]
      rcases splitOnce ':' field with ⟨addrHex, _ | portHex⟩
      · rfl
      · simp only [Option.map_some, Option.bind_some]
        cases parseHex UInt16.size portHex with
        | none => rfl
        | some port =>
            simp only [Option.bind_some]
            split
            · rfl
            · cases parseIp addrHex ipv6 <;> rfl

theorem cutTable_eq (table : Str) (ipv6 : Bool) :
    cutTable table ipv6 = some (parseTable table ipv6) := by
  have rows (all : List Str) : cutRows ipv6 all = some (all.filterMap (parseRow ipv6)) := by
    induction all with
    | nil => rfl
    | cons line rest ih =>
        rw [cutRows, cutRow_eq, ih, List.filterMap_cons]
        cases parseRow ipv6 line <;> rfl
  exact rows _

/-! The table as the kernel writes it. -/

/-- What stands between columns. -/
structure Blank where
  text : Str
  white : ∀ c ∈ text, isWhitespace c = true
  unbroken : '\n' ∉ text

structure Gap extends Blank where
  present : text ≠ []

structure Column where
  text : Str
  present : text ≠ []
  plain : ∀ c ∈ text, isWhitespace c = false

/-- The row of a socket, with any further columns behind its state. -/
structure Row (Ip : Type) where
  margin : Blank
  number : Column
  beforeLocal : Gap
  ip : Ip
  port : UInt16
  beforeRemote : Gap
  remote : Column
  beforeState : Gap
  state : UInt8
  further : Str
  apart : ∀ c ∈ further.head?, isWhitespace c = true
  unbroken : '\n' ∉ further

/-- `0A`, with a port. -/
def Row.listening {Ip : Type} (row : Row Ip) : Bool := row.state = 0x0A && row.port ≠ 0

def littleEndian : List UInt8 → Nat
  | [] => 0
  | byte :: rest => byte.toNat + 256 * littleEndian rest

def addr4 (ip : Ipv4Addr) : Str := hexDigits 8 (littleEndian [ip.a, ip.b, ip.c, ip.d])

def addr6 (ip : Ipv6Addr) : Str :=
  (ip.octets.toChunks 4).flatMap (fun word => hexDigits 8 (littleEndian word))

example : addr4 ⟨127, 0, 0, 1⟩ = "0100007F".toList := by decide
example : addr6 .localhost = "00000000000000000000000001000000".toList := by decide

section

variable {Ip : Type} (addr : Ip → Str)

/-- Addresses are written in hexadecimal digits. -/
def Digits : Prop := ∀ ip, ∀ c ∈ addr ip, (hexDigit c).isSome = true

def Row.localAddress (row : Row Ip) : Str := addr row.ip ++ ':' :: hexDigits 4 row.port.toNat

/-- The columns up to the state. -/
def Row.front (row : Row Ip) : Str :=
  row.margin.text ++ (row.number.text ++ (row.beforeLocal.text ++ (row.localAddress addr ++
    (row.beforeRemote.text ++ (row.remote.text ++ (row.beforeState.text ++
      hexDigits 2 row.state.toNat))))))

def Row.text (row : Row Ip) : Str := row.front addr ++ row.further

/-- A header, and a row for each socket. -/
structure Table (Ip : Type) where
  header : Str
  unbroken : '\n' ∉ header
  rows : List (Row Ip)

def Table.text (table : Table Ip) : Str :=
  table.header ++ '\n' :: table.rows.flatMap (fun row => row.text addr ++ ['\n'])

end

/-! A word and its bytes. -/

theorem littleEndian_lt (bytes : List UInt8) : littleEndian bytes < 256 ^ bytes.length := by
  induction bytes with
  | nil => decide
  | cons byte rest ih =>
      have small := byte.toNat_lt
      rw [littleEndian, List.length_cons, Nat.pow_succ]
      omega

theorem leBytes_ofNat {bytes : List UInt8} (four : bytes.length = 4) :
    leBytes (UInt32.ofNat (littleEndian bytes)) = bytes := by
  match bytes, four with
  | [a, b, c, d], _ =>
      have small := littleEndian_lt [a, b, c, d]
      have first := a.toNat_lt
      have second := b.toNat_lt
      have third := c.toNat_lt
      have fourth := d.toNat_lt
      simp only [littleEndian] at small ⊢
      simp only [leBytes, List.cons.injEq, ← UInt8.toNat_inj, UInt32.toNat_toUInt8,
        UInt32.toNat_shiftRight, UInt32.toNat_ofNat']
      simp [Nat.shiftRight_eq_div_pow]
      omega

theorem parseWord_hexDigits {bytes : List UInt8} (four : bytes.length = 4) :
    parseWord (hexDigits 8 (littleEndian bytes)) = some (UInt32.ofNat (littleEndian bytes)) := by
  have small : littleEndian bytes < UInt32.size := by
    have bound := littleEndian_lt bytes
    rw [four] at bound
    exact bound
  rw [parseWord, parseHex_hexDigits (by decide) small small]
  rfl

/-! A row and its columns. -/

theorem Gap.ends (gap : Gap) (s : Str) : ∀ c ∈ (gap.text ++ s).head?, isWhitespace c = true := by
  intro c head
  rw [List.head?_append_of_ne_nil _ gap.present] at head
  exact gap.white c (List.mem_of_mem_head? head)

theorem Column.split (column : Column) (gap : Gap) (s : Str) :
    splitWhitespace (column.text ++ (gap.text ++ s)) = column.text :: splitWhitespace s := by
  rw [splitWhitespace_word column.present column.plain (gap.ends s),
    splitWhitespace_white gap.white]

theorem hexDigits_plain {width n : Nat} : ∀ c ∈ hexDigits width n, isWhitespace c = false :=
  fun _ member => (plain_of_hexDigit (hexDigit_of_mem member)).1

section

variable {Ip : Type} {addr : Ip → Str} (digits : Digits addr) (row : Row Ip)

def localColumn : Column where
  text := row.localAddress addr
  present := by simp [Row.localAddress]
  plain := by
    intro c member
    rcases List.mem_append.mp member with inAddr | later
    · exact (plain_of_hexDigit (digits row.ip c inAddr)).1
    · rcases List.mem_cons.mp later with rfl | inPort
      · decide
      · exact hexDigits_plain c inPort

theorem localColumn_text : (localColumn digits row).text = row.localAddress addr := rfl

include digits in
theorem row_words {further : Str} (apart : ∀ c ∈ further.head?, isWhitespace c = true) :
    splitWhitespace (row.front addr ++ further) =
      row.number.text :: row.localAddress addr :: row.remote.text ::
        hexDigits 2 row.state.toNat :: splitWhitespace further := by
  have state : hexDigits 2 row.state.toNat ≠ [] := hexDigits_ne_nil (by decide) _
  simp only [Row.front, List.append_assoc]
  rw [splitWhitespace_white row.margin.white, Column.split,
    ← localColumn_text digits row, Column.split, Column.split,
    splitWhitespace_word state hexDigits_plain apart]

theorem state_listening (state : UInt8) :
    hexDigits 2 state.toNat = "0A".toList ↔ state = 0x0A := by
  constructor
  · intro same
    have fits : state.toNat < 16 ^ 2 := state.toNat_lt
    exact UInt8.toNat_inj.mp (hexDigits_injective fits (by decide) same)
  · rintro rfl
    decide

include digits in
theorem local_split : splitOnce ':' (row.localAddress addr) =
    (addr row.ip, some (hexDigits 4 row.port.toNat)) := by
  apply splitOnce_append
  intro colon
  exact (plain_of_hexDigit (digits row.ip ':' colon)).2 rfl

variable {ipv6 : Bool} {toIp : Ip → IpAddr} (read : ∀ ip, parseIp (addr ip) ipv6 = some (toIp ip))

include digits read in
theorem parseRow_front {further : Str} (apart : ∀ c ∈ further.head?, isWhitespace c = true) :
    parseRow ipv6 (row.front addr ++ further) =
      if row.listening then some (.new (toIp row.ip) row.port) else none := by
  have port : parseHex UInt16.size (hexDigits 4 row.port.toNat) = some row.port.toNat :=
    parseHex_hexDigits (by decide) row.port.toNat_lt row.port.toNat_lt
  have zero : row.port.toNat = 0 ↔ row.port = 0 := by rw [← UInt16.toNat_inj]; rfl
  simp only [parseRow, row_words digits row apart, List.getElem?_cons_succ, List.getElem?_cons_zero,
    ne_eq, Option.some.injEq, state_listening, Row.listening, Option.bind_eq_bind, Option.bind_some,
    local_split digits, port, zero, read, UInt16.ofNat_toNat]
  by_cases state : row.state = 0x0A <;> by_cases number : row.port = 0 <;> simp [state, number]

theorem front_last : (row.front addr).getLast? ≠ some '\r' := by
  have state : hexDigits 2 row.state.toNat ≠ [] := hexDigits_ne_nil (by decide) _
  intro last
  simp only [Row.front, ← List.append_assoc] at last
  rw [List.getLast?_append_of_ne_nil _ state] at last
  exact absurd (hexDigits_plain '\r' (List.mem_of_getLast? last)) (by decide)

include digits in
theorem row_unbroken : '\n' ∉ row.text addr := by
  have plain {s : Str} (plain : ∀ c ∈ s, isWhitespace c = false) : '\n' ∉ s :=
    fun inside => absurd (plain '\n' inside) (by decide)
  simp only [Row.text, Row.front, List.mem_append, not_or]
  exact ⟨⟨row.margin.unbroken, plain row.number.plain, row.beforeLocal.unbroken,
    plain (localColumn digits row).plain, row.beforeRemote.unbroken, plain row.remote.plain,
    row.beforeState.unbroken, plain hexDigits_plain⟩, row.unbroken⟩

include digits read in
/-- A row is read the same with the carriage return that may end it. -/
theorem parseRow_text :
    parseRow ipv6 (stripCarriageReturn (row.text addr)) =
      if row.listening then some (.new (toIp row.ip) row.port) else none := by
  rw [Row.text, stripCarriageReturn_append (front_last row)]
  exact parseRow_front digits row read (fun c head => row.apart c (head_stripCarriageReturn head))

include digits read in
theorem parseTable_text (table : Table Ip) :
    parseTable (table.text addr) ipv6 =
      (table.rows.filter Row.listening).map (fun row => .new (toIp row.ip) row.port) := by
  rw [parseTable, Table.text, lines_line table.unbroken, List.drop_one, List.tail_cons]
  induction table.rows with
  | nil => rfl
  | cons row rest ih =>
      rw [List.flatMap_cons, List.append_assoc, List.singleton_append,
        lines_line (row_unbroken digits row), List.filterMap_cons,
        parseRow_text digits row read, ih]
      cases listening : row.listening <;> simp [listening]

end

/-! The addresses of both tables. -/

theorem digits_addr4 : Digits addr4 := fun _ _ member => hexDigit_of_mem member

theorem digits_addr6 : Digits addr6 := by
  intro ip c member
  obtain ⟨word, -, inside⟩ := List.mem_flatMap.mp member
  exact hexDigit_of_mem inside

theorem parseIp_addr4 (ip : Ipv4Addr) : parseIp (addr4 ip) false = some (.v4 ip) := by
  have ascii : ∀ c ∈ addr4 ip, c.toNat < 0x80 :=
    fun c member => ascii_of_hexDigit (digits_addr4 ip c member)
  have size : (utf8 (addr4 ip)).length = 8 := by
    rw [length_utf8_ascii ascii, addr4, length_hexDigits]
  have word : leBytes (UInt32.ofNat (littleEndian [ip.a, ip.b, ip.c, ip.d])) =
      [ip.a, ip.b, ip.c, ip.d] := leBytes_ofNat rfl
  simp only [leBytes, List.cons.injEq, and_true] at word
  obtain ⟨a, b, c, d⟩ := word
  rw [parseIp, if_neg (by decide), if_neg (not_not.mpr size), addr4,
    parseWord_hexDigits rfl]
  simp only [Option.map_some, Ipv4Addr.ofWord, a, b, c, d]

theorem parseIp_addr6 (ip : Ipv6Addr) : parseIp (addr6 ip) true = some (.v6 ip) := by
  have ascii : ∀ c ∈ addr6 ip, c.toNat < 0x80 :=
    fun c member => ascii_of_hexDigit (digits_addr6 ip c member)
  obtain ⟨four, each⟩ := List.length_toChunks (n := 3) (k := 4) ip.sixteen
  have whole := List.flatten_toChunks 3 ip.octets
  obtain ⟨first, second, third, fourth, words⟩ :
      ∃ first second third fourth, ip.octets.toChunks 4 = [first, second, third, fourth] := by
    match ip.octets.toChunks 4, four with
    | [first, second, third, fourth], _ => exact ⟨first, second, third, fourth, rfl⟩
  rw [words] at each whole
  simp only [List.forall_mem_cons] at each
  obtain ⟨first4, second4, third4, fourth4, -⟩ := each
  let hex (word : List UInt8) : Str := hexDigits 8 (littleEndian word)
  have written : addr6 ip = hex first ++ (hex second ++ (hex third ++ (hex fourth ++ []))) := by
    rw [addr6, words]
    simp [hex]
  have size : (utf8 (addr6 ip)).length = 32 := by
    rw [length_utf8_ascii ascii, written]
    simp [hex]
  have pieces : (addr6 ip).toChunks 8 = [hex first, hex second, hex third, hex fourth] := by
    rw [written, List.toChunks_append (length_hexDigits _ _),
      List.toChunks_append (length_hexDigits _ _), List.toChunks_append (length_hexDigits _ _),
      List.toChunks_append (length_hexDigits _ _)]
    rfl
  have read : [hex first, hex second, hex third, hex fourth].mapM parseWord =
      some [UInt32.ofNat (littleEndian first), UInt32.ofNat (littleEndian second),
        UInt32.ofNat (littleEndian third), UInt32.ofNat (littleEndian fourth)] := by
    simp only [List.mapM_cons, List.mapM_nil, hex, parseWord_hexDigits first4,
      parseWord_hexDigits second4, parseWord_hexDigits third4, parseWord_hexDigits fourth4]
    rfl
  have same : Ipv6Addr.ofWords (.ofNat (littleEndian first)) (.ofNat (littleEndian second))
      (.ofNat (littleEndian third)) (.ofNat (littleEndian fourth)) = ip := by
    cases ip
    simpa [Ipv6Addr.ofWords, leBytes_ofNat first4, leBytes_ofNat second4, leBytes_ofNat third4,
      leBytes_ofNat fourth4] using whole
  rw [parseIp, if_pos rfl, if_neg (not_not.mpr size), pieces, read]
  exact congrArg (fun ip => some (IpAddr.v6 ip)) same

/-- The listening sockets of a table are read back in order, and no text makes a slice fail. -/
theorem table_decoded :
    (∀ table : Table Ipv4Addr, parseTable (table.text addr4) false =
      (table.rows.filter Row.listening).map (fun row => .v4 row.ip row.port)) ∧
    (∀ table : Table Ipv6Addr, parseTable (table.text addr6) true =
      (table.rows.filter Row.listening).map (fun row => .v6 row.ip row.port 0 0)) ∧
    ∀ text ipv6, cutTable text ipv6 = some (parseTable text ipv6) :=
  ⟨parseTable_text digits_addr4 parseIp_addr4, parseTable_text digits_addr6 parseIp_addr6,
    cutTable_eq⟩

end RaemoteServer.Discovery
