import RaemoteServer.Auth.Renaming
import RaemoteServer.Http.Routing

/-! A device that gives itself a name is told the name it is shown under. -/

namespace RaemoteServer.Http

open Text Collections Spacing Auth

inductive RenameResponse where
  | ok (name : Str)
  | refuse (error : ErrorResponse)
  deriving DecidableEq

def badRequest (message : Str) : ErrorResponse := ⟨400, "bad_request".toList, message, none⟩

variable {Node : Type} [DecidableEq Node] [EndpointId Node]

/-- `collected` is the body, unless it could not be read; `parse` reads the name from its JSON. -/
def renameSelf (toml : TomlStrings) (parse : List UInt8 → Option Str) (process : Process Node)
    (node : Node) (collected : Option (List UInt8)) (outcomes : Outcomes) :
    RenameResponse × Process Node :=
  match collected with
  | none => (.refuse (badRequest "could not read the request body".toList), process)
  | some body =>
      match parse body with
      | none => (.refuse (badRequest
          "expected a JSON body like \x7b\"name\": \"My iPhone\"\x7d".toList), process)
      | some name =>
          let (result, after) := process.setDeviceName toml node name outcomes
          match result with
          | .ok () => (.ok ((sanitizeDeviceName name).getD (defaultDeviceName node)), after)
          | .error error => (.refuse (badRequest error), after)

/-- After a rename that succeeds the device is listed under the reported name and no other. -/
theorem renameSelf_listed {toml : TomlStrings} {parse : List UInt8 → Option Str}
    {process after : Process Node} {node : Node} {collected : Option (List UInt8)}
    {outcomes : Outcomes}
    {reported : Str}
    (renamed : renameSelf toml parse process node collected outcomes = (.ok reported, after))
    (name : Str) :
    (⟨node, name⟩ : DeviceInfo Node) ∈ after.memory.auth.deviceInfos ↔ name = reported := by
  unfold renameSelf at renamed
  cases collected with
  | none => cases renamed
  | some body =>
      cases parsed : parse body with
      | none => simp [parsed] at renamed
      | some given =>
          simp only [parsed] at renamed
          obtain ⟨errors, taken⟩ := calls_setDeviceName toml process node given outcomes
          have taken := rename_cases taken rfl
          generalize process.setDeviceName toml node given outcomes = result at renamed taken
          obtain ⟨result, changed⟩ := result
          cases result with
          | error error => cases renamed
          | ok =>
              obtain ⟨told, rfl⟩ := Prod.mk.inj renamed
              obtain rfl := RenameResponse.ok.inj told
              cases taken with
              | saved known saved text =>
                  have shown : (process.withName node given).memory.auth.deviceInfo node =
                      ⟨node, (sanitizeDeviceName given).getD (defaultDeviceName node)⟩ := by
                    simp [AuthState.deviceInfo, Process.withName, lookup_renamed]
                  apply mem_deviceInfos.trans
                  change node ∈ process.memory.auth.inner.authenticated ∧
                    (⟨node, name⟩ : DeviceInfo Node) =
                    (process.withName node given).memory.auth.deviceInfo node ↔ _
                  rw [shown, DeviceInfo.mk.injEq]
                  exact ⟨fun both => both.2.2, fun same => ⟨known, rfl, same⟩⟩

/-- Sanitizing a name brings it into a form that it keeps: no control characters, no white space but
single spaces inside, at most 64 characters; only of white space and control characters is nothing
left. And what a device is told after a rename is the name it is listed under. -/
theorem device_names_canonical :
    (∀ name, (sanitizeDeviceName name = none ↔
          ∀ c ∈ name, isWhitespace c = true ∨ isControl c = true) ∧
        ∀ shown, sanitizeDeviceName name = some shown →
          shown ≠ [] ∧ shown.length ≤ 64 ∧ (∀ c ∈ shown, isControl c = false) ∧
            (∀ c ∈ shown, isWhitespace c = true → c = ' ') ∧ Tidy isWhitespace shown ∧
            sanitizeDeviceName shown = some shown) ∧
      ∀ (toml : TomlStrings) (parse : List UInt8 → Option Str) (process : Process Node)
        (node : Node)
        (collected : Option (List UInt8)) (outcomes : Outcomes) (reported : Str)
        (after : Process Node),
        renameSelf toml parse process node collected outcomes = (.ok reported, after) →
          ∀ name, (⟨node, name⟩ : DeviceInfo Node) ∈ after.memory.auth.deviceInfos ↔
            name = reported := by
  refine ⟨fun name => ⟨sanitize_eq_none, fun shown given => ?_⟩,
    fun _ _ _ _ _ _ _ _ renamed => renameSelf_listed renamed⟩
  obtain ⟨proper, spaces⟩ := sanitize_proper given
  exact ⟨proper.present, proper.short, proper.printable, spaces, proper.tidy,
    sanitize_fixed proper spaces⟩

def phoneBody : List UInt8 := utf8 "\x7b\"name\": \"  My\\niPhone \"\x7d".toList

/-- The JSON of one body. -/
def parsePhone (body : List UInt8) : Option Str :=
  if body = phoneBody then some "  My\niPhone ".toList else none

theorem phone_told_its_name : ∃ after,
    renameSelf TomlStrings.basic parsePhone unnamed (Bytes32.filled 0xab) (some phoneBody)
        ⟨.done, .done, []⟩ = (.ok "My iPhone".toList, after) ∧
      ∀ name, (⟨Bytes32.filled 0xab, name⟩ : DeviceInfo Bytes32) ∈ after.memory.auth.deviceInfos ↔
        name = "My iPhone".toList := by
  have parsed : parsePhone phoneBody = some "  My\niPhone ".toList := if_pos rfl
  obtain ⟨after, told⟩ : ∃ after, renameSelf TomlStrings.basic parsePhone unnamed
      (Bytes32.filled 0xab) (some phoneBody) ⟨.done, .done, []⟩ =
      (.ok "My iPhone".toList, after) := by
    simp only [renameSelf, parsed]
    exact ⟨_, rfl⟩
  exact ⟨after, told, device_names_canonical.2 _ _ _ _ _ _ _ _ told⟩

end RaemoteServer.Http
