import RaemoteServer.Auth.NamesFile
import RaemoteServer.Auth.Runs
import RaemoteServer.Library.Sorting
import RaemoteServer.Library.Spacing

/-! The names that devices are shown under: what becomes of a name that a user gives, which name a
device has without one, and the list of all devices. -/

namespace RaemoteServer.Auth

open Text Collections Runs Sorting Spacing

/-! Sanitizing. -/

/-- What a name on display may look like. -/
structure ProperName (name : Str) : Prop where
  present : name ≠ []
  short : name.length ≤ maxDeviceName
  printable : ∀ c ∈ name, isControl c = false
  tidy : Tidy isWhitespace name

theorem sanitizeLoop_eq (out : Str) (prevSpace : Bool) (name : Str) :
    sanitizeLoop out prevSpace name =
      squeeze isWhitespace isControl ' ' maxDeviceName out prevSpace name := by
  induction name generalizing out prevSpace with
  | nil => rfl
  | cons ch rest ih => simp only [sanitizeLoop, squeeze, ih]

theorem sanitizeLoop_spec (name : Str) :
    Squeezed isWhitespace isControl ' ' (sanitizeLoop [] false name) ∧
      (sanitizeLoop [] false name).length ≤ maxDeviceName := by
  rw [sanitizeLoop_eq]
  exact squeeze_spec (squeezed_nil _ _ _) (by decide) (by simp) name

theorem sanitize_eq_none {name : Str} :
    sanitizeDeviceName name = none ↔ ∀ c ∈ name, isWhitespace c = true ∨ isControl c = true := by
  obtain ⟨squeezed, -⟩ := sanitizeLoop_spec name
  have bare : sanitizeDeviceName name = none ↔ trim (sanitizeLoop [] false name) = [] := by
    simp [sanitizeDeviceName]
  rw [bare, trim_loose squeezed.loose, squeezed.loose.strip_eq_nil, sanitizeLoop_eq]
  exact squeeze_eq_nil (by decide) false name

theorem sanitize_proper {name shown : Str} (given : sanitizeDeviceName name = some shown) :
    ProperName shown ∧ ∀ c ∈ shown, isWhitespace c = true → c = ' ' := by
  obtain ⟨squeezed, short⟩ := sanitizeLoop_spec name
  simp only [sanitizeDeviceName, trim_loose squeezed.loose] at given
  split at given
  · cases given
  · rename_i present
    obtain rfl := Option.some.inj given
    have start := List.rdropWhile_prefix isWhitespace (l := sanitizeLoop [] false name)
    have kept : ∀ c ∈ (sanitizeLoop [] false name).rdropWhile isWhitespace,
        c = ' ' ∨ isWhitespace c = false ∧ isControl c = false :=
      fun c member => squeezed.kept c (start.subset member)
    refine ⟨⟨present, start.length_le.trans short, ?_, squeezed.loose.strip⟩, ?_⟩
    · intro c member
      rcases kept c member with rfl | ⟨-, plain⟩
      · decide
      · exact plain
    · intro c member white
      apply (kept c member).resolve_right
      rintro ⟨plain, -⟩
      rw [white] at plain
      cases plain

/-- A proper name without other spaces is sanitized already. -/
theorem sanitize_fixed {name : Str} (proper : ProperName name)
    (spaces : ∀ c ∈ name, isWhitespace c = true → c = ' ') :
    sanitizeDeviceName name = some name := by
  have squeezed : Squeezed isWhitespace isControl ' ' name := by
    refine ⟨proper.tidy.loose, fun c member => ?_⟩
    cases white : isWhitespace c with
    | true => exact Or.inl (spaces c member white)
    | false => exact Or.inr ⟨rfl, proper.printable c member⟩
  have same : sanitizeLoop [] false name = name := by
    rw [sanitizeLoop_eq]
    exact squeeze_eq squeezed proper.short nofun (by decide)
  simp [sanitizeDeviceName, same, trim_loose proper.tidy.loose, proper.tidy.strip, proper.present]

/-! The list of devices. -/

structure DeviceInfo (Node : Type) where
  nodeId : Node
  name : Str
  deriving DecidableEq

/-- Node ids are printed in hexadecimal. -/
class HexIds (Node : Type) [EndpointId Node] : Prop where
  toText_hex : ∀ node : Node, ∀ c ∈ toText node, (hexValue c).isSome = true

instance : HexIds Bytes32 := ⟨fun key => toHex_digits key.bytes⟩

variable {Node : Type} [DecidableEq Node] [EndpointId Node]

/-- The text is ASCII, so four bytes are four characters. -/
def defaultDeviceName (node : Node) : Str := "device-".toList ++ (toText node).take 4

/-- By name and then by node id. -/
def deviceLe (a b : DeviceInfo Node) : Prop :=
  a.name < b.name ∨ a.name = b.name ∧ toText a.nodeId ≤ toText b.nodeId

instance : DecidableRel (deviceLe : DeviceInfo Node → DeviceInfo Node → Prop) :=
  fun _ _ => inferInstanceAs (Decidable (_ ∨ _ ∧ _))

def AuthState.deviceInfo (auth : AuthState Node) (id : Node) : DeviceInfo Node where
  nodeId := id
  name := (auth.inner.names.lookup id).getD (defaultDeviceName id)

def AuthState.deviceInfos (auth : AuthState Node) : List (DeviceInfo Node) :=
  (auth.inner.authenticated.elems.map auth.deviceInfo).insertionSort deviceLe

/-- The order of the list, which has no ties. -/
def DeviceInfo.Before (a b : DeviceInfo Node) : Prop :=
  a.name < b.name ∨ a.name = b.name ∧ toText a.nodeId < toText b.nodeId

omit [DecidableEq Node] in
theorem deviceLe_iff {a b : DeviceInfo Node} :
    deviceLe a b ↔ toLex (a.name, toText a.nodeId) ≤ toLex (b.name, toText b.nodeId) := by
  rw [Prod.Lex.toLex_le_toLex]
  rfl

instance : Std.Total (deviceLe : DeviceInfo Node → DeviceInfo Node → Prop) where
  total a b := by
    rw [deviceLe_iff, deviceLe_iff]
    exact le_total _ _

instance : IsTrans (DeviceInfo Node) deviceLe where
  trans a b c first second := by
    rw [deviceLe_iff] at first second ⊢
    exact first.trans second

theorem mem_deviceInfos {auth : AuthState Node} {device : DeviceInfo Node} :
    device ∈ auth.deviceInfos ↔
      device.nodeId ∈ auth.inner.authenticated ∧ device = auth.deviceInfo device.nodeId := by
  rw [AuthState.deviceInfos, List.mem_insertionSort, List.mem_map]
  constructor
  · rintro ⟨node, member, rfl⟩
    exact ⟨member, rfl⟩
  · rintro ⟨member, shape⟩
    exact ⟨device.nodeId, member, shape.symm⟩

theorem nodes_deviceInfos (auth : AuthState Node) :
    (auth.deviceInfos.map DeviceInfo.nodeId).Perm auth.inner.authenticated.elems := by
  have sorted := (List.perm_insertionSort deviceLe
    (auth.inner.authenticated.elems.map auth.deviceInfo)).map DeviceInfo.nodeId
  rwa [List.map_map, show DeviceInfo.nodeId ∘ auth.deviceInfo = id from rfl, List.map_id] at sorted

/-- Every authorized device is listed once, and no other. -/
theorem count_deviceInfos (auth : AuthState Node) (node : Node) :
    (auth.deviceInfos.map DeviceInfo.nodeId).count node =
      if auth.isAuthorized node then 1 else 0 := by
  rw [(nodes_deviceInfos auth).count_eq, auth.inner.authenticated.nodup.count]
  exact if_congr decide_eq_true_iff.symm rfl rfl

theorem deviceInfos_ascending (auth : AuthState Node) :
    auth.deviceInfos.Pairwise DeviceInfo.Before := by
  have distinct : auth.deviceInfos.Pairwise (fun a b => a.nodeId ≠ b.nodeId) :=
    List.pairwise_map.mp ((nodes_deviceInfos auth).nodup_iff.mpr auth.inner.authenticated.nodup)
  apply ((List.pairwise_insertionSort deviceLe _).and distinct).imp
  intro a b ⟨order, different⟩
  refine order.imp_right fun ⟨same, low⟩ => ⟨same, lt_of_le_of_ne low ?_⟩
  exact fun equal => different (toText_injective equal)

/-- Maps that give every device the same name show the same list. -/
theorem deviceInfos_congr {auth other : AuthState Node}
    (nodes : other.inner.authenticated = auth.inner.authenticated)
    (names : ∀ id, other.inner.names.lookup id = auth.inner.names.lookup id) :
    other.deviceInfos = auth.deviceInfos := by
  have same : other.deviceInfo = auth.deviceInfo := by
    funext id
    simp only [AuthState.deviceInfo, names]
  rw [AuthState.deviceInfos, AuthState.deviceInfos, nodes, same]

theorem isControl_hex {c : Char} (digit : (hexValue c).isSome = true) : isControl c = false := by
  have range : '0' ≤ c ∧ c ≤ '9' ∨ 'a' ≤ c ∧ c ≤ 'f' := by
    by_contra other
    obtain ⟨decimal, letter⟩ := not_or.mp other
    simp [hexValue, decimal, letter] at digit
  simp only [Char.le_def, UInt32.le_iff_toNat_le] at range
  have code : 48 ≤ c.toNat ∧ c.toNat ≤ 57 ∨ 97 ≤ c.toNat ∧ c.toNat ≤ 102 := range
  simp only [isControl, Bool.or_eq_false_iff, Bool.and_eq_false_iff, decide_eq_false_iff_not]
  omega

omit [DecidableEq Node] in
theorem proper_default [HexIds Node] (node : Node) : ProperName (defaultDeviceName node) := by
  unfold defaultDeviceName
  have plain : ∀ c ∈ "device-".toList ++ (toText node).take 4,
      isWhitespace c = false ∧ isControl c = false := by
    intro c member
    rcases List.mem_append.mp member with word | digit
    · simp at word
      rcases word with rfl | rfl | rfl | rfl | rfl | rfl | rfl <;> decide
    · have inside := List.mem_of_mem_take digit
      exact ⟨EndpointId.toText_plain node c inside, isControl_hex (HexIds.toText_hex node c inside)⟩
  refine ⟨by simp, ?_, fun c member => (plain c member).2,
    tidy_of_plain fun c member => (plain c member).1⟩
  have seven : "device-".toList.length = 7 := by simp
  have four := List.length_take_le 4 (toText node)
  have cap : maxDeviceName = 64 := rfl
  rw [List.length_append, seven, cap]
  omega

/-! What the operations do to names. -/

/-- The device that an operation is about. -/
def Operation.device : Operation Node → Option Node
  | .authenticate node _ | .revoke node | .setDeviceName node _ => some node
  | .mintTokenWith .. | .mintInvitation .. | .setMaxAttempts _ | .advance _ => none

theorem AuthenticateCase.names {auth after : AuthState Node} {now : Instant} {node : Node}
    {presented : Str} {outcome : BindOutcome} {saves : List Save}
    (taken : AuthenticateCase auth now node presented outcome saves after) :
    after.inner.names = auth.inner.names ∧
      ∀ other, other ≠ node →
          (other ∈ after.inner.authenticated ↔ other ∈ auth.inner.authenticated) := by
  cases taken <;> simp +contextual [Inner.dropExpired]

/-- The names after `set_device_name`. -/
def renamed (names : HashMap Node Str) (node : Node) (name : Str) : HashMap Node Str :=
  match sanitizeDeviceName name with
  | some name => names.insert node name
  | none => names.erase node

theorem setDeviceName_eq (auth : AuthState Node) (node : Node) (name : Str) :
    auth.setDeviceName node name =
      if node ∈ auth.inner.authenticated then
        .ok ([.names (nameEntries (renamed auth.inner.names node name))],
          { auth with inner := { auth.inner with names := renamed auth.inner.names node name } })
      else .error ("device ".toList ++ fmtShort node ++ " is not authorized".toList) := rfl

omit [EndpointId Node] in
theorem lookup_renamed (names : HashMap Node Str) (node other : Node) (name : Str) :
    (renamed names node name).lookup other =
      if other = node then sanitizeDeviceName name else names.lookup other := by
  unfold renamed
  cases sanitizeDeviceName name with
  | some shown =>
      by_cases same : other = node
      · rw [same, if_pos rfl, AList.lookup_insert]
      · rw [if_neg same, AList.lookup_insert_ne same]
  | none =>
      by_cases same : other = node
      · rw [same, if_pos rfl, AList.lookup_erase]
      · rw [if_neg same, AList.lookup_erase_ne same]

/-- Other devices keep their authorization and their names. -/
theorem perform_frame (state : Clocked Node) (operation : Operation Node) {other : Node}
    (different : operation.device ≠ some other) :
    (other ∈ (perform state operation).2.2.auth.inner.authenticated ↔
        other ∈ state.auth.inner.authenticated) ∧
      (perform state operation).2.2.auth.inner.names.lookup other =
        state.auth.inner.names.lookup other := by
  cases operation with
  | mintTokenWith => exact ⟨Iff.rfl, rfl⟩
  | setMaxAttempts => exact ⟨Iff.rfl, rfl⟩
  | advance => exact ⟨Iff.rfl, rfl⟩
  | mintInvitation =>
      simp only [perform, AuthState.mintInvitation]
      split <;> exact ⟨Iff.rfl, rfl⟩
  | authenticate node presented =>
      have distinct : other ≠ node := by
        rintro rfl
        exact different rfl
      have taken := authenticate_cases state.auth state.now node presented
      exact ⟨taken.names.2 other distinct, congrArg (AList.lookup other) taken.names.1⟩
  | revoke node =>
      have distinct : other ≠ node := by
        rintro rfl
        exact different rfl
      simp only [perform, AuthState.revoke]
      split
      · exact ⟨by simp [distinct], AList.lookup_erase_ne distinct⟩
      · exact ⟨Iff.rfl, rfl⟩
  | setDeviceName node name =>
      have distinct : other ≠ node := by
        rintro rfl
        exact different rfl
      simp only [perform, setDeviceName_eq]
      by_cases known : node ∈ state.auth.inner.authenticated
      · simp only [if_pos known, lookup_renamed, if_neg distinct, and_self]
      · simp only [if_neg known, and_self]

/-- A name in the map was there before, or a rename has put its sanitized form there. -/
theorem perform_names (state : Clocked Node) (operation : Operation Node) {node : Node}
    {shown : Str}
    (found : (perform state operation).2.2.auth.inner.names.lookup node = some shown) :
    state.auth.inner.names.lookup node = some shown ∨
      ∃ name, operation = .setDeviceName node name ∧ sanitizeDeviceName name = some shown := by
  by_cases about : operation.device = some node
  · cases operation with
    | mintTokenWith => cases about
    | setMaxAttempts => cases about
    | advance => cases about
    | mintInvitation => cases about
    | authenticate other presented =>
        have taken := authenticate_cases state.auth state.now other presented
        exact Or.inl ((congrArg (AList.lookup node) taken.names.1).symm.trans found)
    | revoke other =>
        simp only [perform, AuthState.revoke] at found
        split at found
        · exact Or.inl (HashMap.lookup_erase_iff.mp found).2
        · exact Or.inl found
    | setDeviceName other name =>
        obtain rfl := Option.some.inj about
        simp only [perform, setDeviceName_eq] at found
        by_cases known : other ∈ state.auth.inner.authenticated
        · simp only [if_pos known, lookup_renamed, if_true] at found
          exact Or.inr ⟨name, rfl, found⟩
        · simp only [if_neg known] at found
          exact Or.inl found
  · rw [(perform_frame state operation about).2] at found
    exact Or.inl found

/-! What is shown. -/

/-- Every authorized device is listed once, in order and under a proper name. -/
structure ShownProperly (auth : AuthState Node) : Prop where
  once : ∀ node, (auth.deviceInfos.map DeviceInfo.nodeId).count node =
    if auth.isAuthorized node then 1 else 0
  ascending : auth.deviceInfos.Pairwise DeviceInfo.Before
  proper : ∀ device ∈ auth.deviceInfos, ProperName device.name

theorem shownProperly_iff [HexIds Node] {auth : AuthState Node} : ShownProperly auth ↔
    ∀ node ∈ auth.inner.authenticated, ∀ name, auth.inner.names.lookup node = some name →
      ProperName name := by
  constructor
  · intro shown node known name found
    have proper := shown.proper (auth.deviceInfo node) (mem_deviceInfos.mpr ⟨known, rfl⟩)
    rwa [AuthState.deviceInfo, found] at proper
  · intro proper
    refine ⟨count_deviceInfos auth, deviceInfos_ascending auth, ?_⟩
    intro device member
    obtain ⟨known, shape⟩ := mem_deviceInfos.mp member
    rw [shape, AuthState.deviceInfo]
    cases found : auth.inner.names.lookup device.nodeId with
    | none => exact proper_default device.nodeId
    | some name => exact proper device.nodeId known name found

theorem loadAt_lookup {toml : TomlStrings} {store names : Option Str} {maxAttempts : UInt32}
    {node : Node} {name : Str} :
    (loadAt toml store names maxAttempts : AuthState Node).inner.names.lookup node = some name ↔
      (loadNames toml names).lookup node = some name ∧ node ∈
      (loadAuthorized store : HashSet Node) := by
  rw [loadAt, HashMap.lookup_retain, decide_eq_true_iff]

/-- In every run the devices are shown properly exactly when the file has proper names for the
devices that are authorized at the start; renames sanitize and need no condition. -/
theorem shown_properly_iff [HexIds Node] (toml : TomlStrings) (store names : Option Str)
    (maxAttempts : UInt32) (now : Instant) :
    (∀ (log : Log Node) (state : Clocked Node),
        Run machine ⟨loadAt toml store names maxAttempts, now⟩ log state →
          ShownProperly state.auth) ↔
      ∀ node ∈ (loadAuthorized store : HashSet Node), ∀ name,
        (loadNames toml names).lookup node = some name → ProperName name := by
  constructor
  · intro always node known name found
    have first := shownProperly_iff.mp (always [] _ .start)
    exact first node known name (loadAt_lookup.mpr ⟨found, known⟩)
  · intro proper log state run
    have kept : ∀ node name, state.auth.inner.names.lookup node = some name → ProperName name := by
      refine run.invariant (fun state => ∀ node name,
        state.auth.inner.names.lookup node = some name → ProperName name) ?_ ?_
      · intro node name found
        obtain ⟨loaded, known⟩ := loadAt_lookup.mp found
        exact proper node known name loaded
      · intro before operation reply after taken inv node name found
        simp only [machine, Option.some.injEq, Prod.mk.injEq] at taken
        obtain ⟨-, rfl⟩ := taken
        rcases perform_names before operation found with old | ⟨given, -, sanitized⟩
        · exact inv node name old
        · exact (sanitize_proper sanitized).1
    exact shownProperly_iff.mpr (fun node _ name found => kept node name found)

/-- One device, and the text of a file that names it. -/
def oneDevice : Option Str := some (authorizedContent [toText (Bytes32.filled 0xab)])

def namesText (name : Str) : Option Str :=
  TomlStrings.basic.toString [(toText (Bytes32.filled 0xab), name)]

/-- The desk is renamed, with blanks around and inside the new name. -/
def renameDesk : List (Operation Bytes32) :=
  [.setDeviceName (Bytes32.filled 0xab) " Standing  desk ".toList]

theorem desk_shown_properly : ∃ log state,
    machine.exec [] ⟨loadAt TomlStrings.basic oneDevice (namesText "Desk".toList) 5, 0⟩ renameDesk =
      some (log, state) ∧
    state.auth.deviceInfos = [⟨Bytes32.filled 0xab, "Standing desk".toList⟩] ∧
    ShownProperly state.auth := by
  have loaded :
      (loadNames TomlStrings.basic (namesText "Desk".toList) : HashMap Bytes32 Str).entries =
      [⟨Bytes32.filled 0xab, "Desk".toList⟩] := by decide
  have desk : sanitizeDeviceName "Desk".toList = some "Desk".toList := by decide
  have proper : ∀ node ∈ (loadAuthorized oneDevice : HashSet Bytes32), ∀ name,
      (loadNames TomlStrings.basic (namesText "Desk".toList)).lookup node = some name →
        ProperName name := by
    intro node _ name found
    have member := AList.mem_lookup_iff.mp (Option.mem_def.mpr found)
    rw [loaded, List.mem_singleton] at member
    cases member
    exact (sanitize_proper desk).1
  obtain ⟨log, state, executed, run, listed⟩ := exec_checked machine
    ⟨loadAt TomlStrings.basic oneDevice (namesText "Desk".toList) 5, 0⟩ renameDesk
    (fun _ state => state.auth.deviceInfos = [⟨Bytes32.filled 0xab, "Standing desk".toList⟩])
    (by decide)
  have shown :=
    (shown_properly_iff TomlStrings.basic oneDevice (namesText "Desk".toList) 5 0).mpr proper
  exact ⟨log, state, executed, listed, shown log state run⟩

/-- The file gives the device an empty name, and that is shown. -/
theorem empty_name_shown : ¬ ∀ (log : Log Bytes32) (state : Clocked Bytes32),
    Run machine ⟨loadAt TomlStrings.basic oneDevice (namesText []) 5, 0⟩ log state →
      ShownProperly state.auth := by
  intro always
  have shown := (always [] _ .start).proper ⟨Bytes32.filled 0xab, []⟩ (by decide)
  exact shown.present rfl

end RaemoteServer.Auth
