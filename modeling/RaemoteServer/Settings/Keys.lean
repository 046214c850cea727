import RaemoteServer.Commands

/-! Settings read and set one key at a time. -/

namespace RaemoteServer

open Text

def cmdConfigGet (config : Config) (key : Str) : Except Str Str :=
  let value := match String.ofList key with
    | "name" => some (config.name.getD [])
    | "bind.token_ttl_secs" => some (decimal config.bind.tokenTtlSecs.toNat)
    | "bind.max_failed_attempts" => some (decimal config.bind.maxFailedAttempts.toNat)
    | "bind.max_concurrent_connections" =>
        some (decimal config.bind.maxConcurrentConnections.toNat)
    | "bind.allow_invites" => some (boolText config.bind.allowInvites)
    | "bind.invite_ttl_secs" => some (decimal config.bind.inviteTtlSecs.toNat)
    | "bind.max_pending_invites" => some (decimal config.bind.maxPendingInvites.toNat)
    | "serve.max_concurrent_streams" => some (decimal config.serve.maxConcurrentStreams.toNat)
    | "serve.rate_limit.refill" => some (decimal config.serve.rateLimit.refill.toNat)
    | "serve.rate_limit.interval_ms" => some (decimal config.serve.rateLimit.intervalMs.toNat)
    | "serve.rate_limit.max" => some (decimal config.serve.rateLimit.max.toNat)
    | "network.proxy" => some (config.network.proxy.getD [])
    | "network.relay_url" => some (config.network.relayUrl.getD [])
    | "discovery.loopback_only" => some (boolText config.discovery.loopbackOnly)
    | "discovery.include_unattributed" => some (boolText config.discovery.includeUnattributed)
    | _ => none
  match value with
  | some value => .ok value
  | none => .error ("unknown key: ".toList ++ key)

/-- A value as it is printed. -/
def Value.shown : Value → Str
  | .text value => value.getD []
  | .number value => decimal value
  | .flag value => boolText value
  | _ => []

theorem get_field (config : Config) (key : Str) :
    cmdConfigGet config key =
      match keyField key with
      | some field => .ok (config.get field).shown
      | none => .error ("unknown key: ".toList ++ key) := by
  unfold cmdConfigGet keyField
  generalize String.ofList key = text
  split
  case h_16 => simp_all
  all_goals rfl

/-- The value of the field once it is set to what is printed of it: no text is left blank. -/
def settled : Field → Value → Value
  | .name, .text value => .text (if value.any (trim · ≠ []) then value else none)
  | .proxy, .text value | .relayUrl, .text value =>
      .text (if value.any (· ≠ []) then value else none)
  | _, value => value

theorem parse_shown {key : Str} {field : Field} (known : keyField key = some field)
    (config : Config) :
    fieldValue (config.get field).shown field = some (settled field (config.get field)) := by
  have kept (value : Option Str) (blank : Str → Prop) [DecidablePred blank]
      (none_blank : blank []) :
      (if blank (value.getD []) then none else some (value.getD [])) =
        if value.any (¬ blank ·) then value else none := by
    cases value with
    | none => simp [none_blank]
    | some text => by_cases is_blank : blank text <;> simp [is_blank]
  unfold keyField at known
  split at known
  case h_16 => cases known
  case h_1 =>
    cases known
    exact congrArg (some ∘ Value.text) (kept config.name (trim · = []) rfl)
  case h_14 =>
    cases known
    exact congrArg (some ∘ Value.text) (kept config.network.proxy (· = []) rfl)
  case h_15 =>
    cases known
    exact congrArg (some ∘ Value.text) (kept config.network.relayUrl (· = []) rfl)
  all_goals
    cases known
    simp [fieldValue, settled, Config.get, Value.shown, parseU64_decimal, parseU32_decimal,
      parseBool_text]

theorem set_known (config : Config) {key value : Str} {field : Field} {new : Value}
    (known : keyField key = some field) (stored : fieldValue value field = some new) :
    ∃ after, cmdConfigSet config key value = .ok after := by
  unfold keyField at known
  unfold cmdConfigSet
  generalize String.ofList key = text at known
  split at known
  case h_16 => cases known
  all_goals
    cases known
    simp only [fieldValue, Option.map_eq_some_iff] at stored
  all_goals
    first
    | exact ⟨_, rfl⟩
    | (rcases stored with ⟨number, parsed, -⟩
       rw [parsed]
       exact ⟨_, rfl⟩)

theorem settled_of_parsed {value : Str} {field : Field} {new : Value}
    (stored : fieldValue value field = some new) : settled field new = new := by
  have kept (blank : Str → Prop) [DecidablePred blank] :
      (if (if blank value then none else some value).any (¬ blank ·) then
        if blank value then none else some value else none) =
        if blank value then none else some value := by
    by_cases is_blank : blank value <;> simp [is_blank]
  cases field
  case name =>
    cases stored
    exact congrArg Value.text (kept (trim · = []))
  case proxy =>
    cases stored
    exact congrArg Value.text (kept (· = []))
  case relayUrl =>
    cases stored
    exact congrArg Value.text (kept (· = []))
  all_goals
    simp only [fieldValue, Option.map_eq_some_iff, reduceCtorEq] at stored
  all_goals
    rcases stored with ⟨_, -, rfl⟩
    rfl

theorem Changes.unique {before a b : Config} {field : Field} {value : Value}
    (first : Changes before a field value) (second : Changes before b field value) : a = b := by
  apply config_ext
  intro other
  by_cases same : other = field
  · rw [same, first.named, second.named]
  · rw [first.others other same, second.others other same]

theorem Changes.same {config : Config} {field : Field} {value : Value}
    (holds : config.get field = value) : Changes config config field value :=
  ⟨holds, fun _ _ => rfl⟩

/-- A key that is known can be set to any text that the field can be parsed from. -/
theorem set_changes (config : Config) {key value : Str} {field : Field} {new : Value}
    (known : keyField key = some field) (stored : fieldValue value field = some new) :
    ∃ after, cmdConfigSet config key value = .ok after ∧ Changes config after field new := by
  rcases set_known config known stored with ⟨after, set⟩
  rcases configSet_changes set with ⟨found, parsed, known', stored', changes⟩
  rw [known] at known'
  cases known'
  rw [stored] at stored'
  cases stored'
  exact ⟨after, set, changes⟩

/-- The same keys can be read and set. What is printed after a key is set stands for the value that
was given; to set a key to what is printed changes nothing, unless that is a blank text. -/
theorem get_set_inverse (config : Config) (key : Str) :
    ((∃ text, cmdConfigGet config key = .ok text) ↔
      ∃ value after, cmdConfigSet config key value = .ok after) ∧
    (∀ value after, cmdConfigSet config key value = .ok after →
      ∃ text, cmdConfigGet after key = .ok text ∧ cmdConfigSet config key text = .ok after ∧
        cmdConfigSet after key text = .ok after) ∧
    ∀ text, cmdConfigGet config key = .ok text →
      ∃ field after, keyField key = some field ∧ cmdConfigSet config key text = .ok after ∧
        Changes config after field (settled field (config.get field)) ∧
        (after = config ↔ settled field (config.get field) = config.get field) := by
  have read (text : Str) (printed : cmdConfigGet config key = .ok text) :
      ∃ field, keyField key = some field ∧ text = (config.get field).shown := by
    rw [get_field] at printed
    cases known : keyField key with
    | none =>
        rw [known] at printed
        cases printed
    | some field =>
        rw [known] at printed
        exact ⟨field, rfl, (Except.ok.inj printed).symm⟩
  refine ⟨⟨?_, ?_⟩, ?_, ?_⟩
  · rintro ⟨text, printed⟩
    rcases read text printed with ⟨field, known, rfl⟩
    rcases set_changes config known (parse_shown known config) with ⟨after, set, -⟩
    exact ⟨_, after, set⟩
  · rintro ⟨value, after, set⟩
    rcases configSet_changes set with ⟨field, new, known, -, -⟩
    exact ⟨(config.get field).shown, by rw [get_field, known]⟩
  · intro value after set
    rcases configSet_changes set with ⟨field, new, known, stored, changes⟩
    have parsed : fieldValue (after.get field).shown field = some new := by
      rw [parse_shown known after, changes.named, settled_of_parsed stored]
    rcases set_changes config known parsed with ⟨again, set_again, changes_again⟩
    rcases set_changes after known parsed with ⟨twice, set_twice, changes_twice⟩
    refine ⟨(after.get field).shown, by rw [get_field, known], ?_, ?_⟩
    · rw [set_again, changes_again.unique changes]
    · rw [set_twice, changes_twice.unique (.same changes.named)]
  · intro text printed
    rcases read text printed with ⟨field, known, rfl⟩
    rcases set_changes config known (parse_shown known config) with
      ⟨after, set, changes⟩
    refine ⟨field, after, known, set, changes, ?_, ?_⟩
    · rintro rfl
      exact changes.named.symm
    · intro same
      rw [same] at changes
      exact changes.unique (.same rfl)

end RaemoteServer
