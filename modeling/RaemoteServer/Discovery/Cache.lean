import RaemoteServer.Discovery.Engine

/-! The cache of confirmed apps, told from the history of the scans alone. -/

namespace RaemoteServer.Discovery

open Text Collections Runs Http

variable (join : Str → Str → Option Url)

abbrev ScanEntry := Entry Engine ScanEvent (List Dial)

/-- What a cycle read of the config when it began. -/
def settingsOf (begin : ScanEntry) : Settings := .of begin.before.config

/-- The candidate whose probe ended, and the result. -/
def probeOf (entry : ScanEntry) : Option (Candidate × Option ProbeResult) :=
  match entry.event with
  | .joined candidate exchanges =>
      some (candidate, (probeHttp join candidate.origin exchanges).2)
  | _ => none

/-- What a successful enumeration found. -/
def outcomeOf (entry : ScanEntry) : Option FilterOutcome :=
  match entry.event, entry.before.phase with
  | .enumerated attributed tcp tcp6, .enumerating settings =>
      some (enumerate settings attributed tcp tcp6)
  | _, _ => none

theorem outcomeOf_enumerated {before after : Engine} {settings : Settings} {dials : List Dial}
    {attributed : List Listener} {tcp tcp6 : Option Str}
    (phase : before.phase = .enumerating settings) :
    outcomeOf ⟨before, .enumerated attributed tcp tcp6, dials, after⟩ =
      some (enumerate settings attributed tcp tcp6) := by
  simp only [outcomeOf, phase]

/-- The probe that ended was of this origin and credible, and makes this entry. -/
def Confirms (o : Origin) (cached : CachedApp) (entry : ScanEntry) : Prop :=
  ∃ candidate result, probeOf join entry = some (candidate, result) ∧ candidate.origin = o ∧
    candidate.confirmed entry.before.now result = some cached

/-- Not a probe of the origin, not the beginning of a cycle that finds discovery disabled, and
not an enumeration that does not have the origin among its candidates. -/
structure Spares (o : Origin) (entry : ScanEntry) : Prop where
  probe : ∀ candidate result, probeOf join entry = some (candidate, result) → candidate.origin ≠ o
  enabled : entry.event = .begin → (Settings.of entry.before.config).enabled = true
  listed : ∀ outcome, outcomeOf entry = some outcome → o ∈ outcome.candidates.map Candidate.origin

/-- The last probe of the origin confirmed it, and it has been a candidate ever since. -/
def Verified (o : Origin) (cached : CachedApp) (log : List ScanEntry) : Prop :=
  Since (Spares join o) (fun entry _ => Confirms join o cached entry) log

variable {join : Str → Str → Option Url}

theorem verified_cons {o : Origin} {cached : CachedApp} {entry : ScanEntry} {log : List ScanEntry} :
    Verified join o cached (entry :: log) ↔
      Confirms join o cached entry ∨ Spares join o entry ∧ Verified join o cached log :=
  since_cons

theorem not_confirms {o : Origin} {cached : CachedApp} {entry : ScanEntry}
    (none : probeOf join entry = none) : ¬ Confirms join o cached entry := by
  rintro ⟨candidate, result, probed, -⟩
  rw [none] at probed
  cases probed

/-- A step that is none of the three leaves everything verified as it was. -/
theorem verified_quiet {o : Origin} {cached : CachedApp} {entry : ScanEntry} {log : List ScanEntry}
    (noProbe : probeOf join entry = none) (noOutcome : outcomeOf entry = none)
    (noBegin : entry.event ≠ .begin) :
    Verified join o cached (entry :: log) ↔ Verified join o cached log := by
  have spares : Spares join o entry := by
    constructor
    · intro candidate result probed
      rw [noProbe] at probed
      cases probed
    · exact fun begins => absurd begins noBegin
    · intro outcome found
      rw [noOutcome] at found
      cases found
  rw [verified_cons]
  constructor
  · intro either
    exact (either.resolve_left (not_confirms noProbe)).2
  · exact fun old => Or.inr ⟨spares, old⟩

theorem verified_joined {o : Origin} {cached : CachedApp} {log : List ScanEntry}
    {before after : Engine}
    {candidate : Candidate} {exchanges : List (Option RawResponse)} {dials : List Dial} :
    Verified join o cached (⟨before, .joined candidate exchanges, dials, after⟩ :: log) ↔
      o = candidate.origin ∧ candidate.confirmed before.now
          (probeHttp join candidate.origin exchanges).2 = some cached ∨
        o ≠ candidate.origin ∧ Verified join o cached log := by
  rw [verified_cons]
  constructor
  · rintro (⟨_, _, probed, rfl, confirmed⟩ | ⟨spared, old⟩)
    · obtain ⟨rfl, rfl⟩ := Prod.mk.inj (Option.some.inj probed)
      exact Or.inl ⟨rfl, confirmed⟩
    · exact Or.inr ⟨(spared.probe _ _ rfl).symm, old⟩
  · rintro (⟨rfl, confirmed⟩ | ⟨other, old⟩)
    · exact Or.inl ⟨candidate, _, rfl, rfl, confirmed⟩
    · refine Or.inr ⟨⟨?_, nofun, nofun⟩, old⟩
      rintro _ _ probed rfl
      obtain ⟨rfl, rfl⟩ := Prod.mk.inj (Option.some.inj probed)
      exact other rfl

theorem verified_enumerated {o : Origin} {cached : CachedApp} {entry : ScanEntry}
    {log : List ScanEntry} {outcome : FilterOutcome} (found : outcomeOf entry = some outcome) :
    Verified join o cached (entry :: log) ↔
      o ∈ outcome.candidates.map Candidate.origin ∧ Verified join o cached log := by
  have shape : probeOf join entry = none ∧ entry.event ≠ .begin := by
    unfold outcomeOf at found
    split at found
    · rename_i event phase
      exact ⟨by simp [probeOf, event], by simp [event]⟩
    · cases found
  rw [verified_cons]
  constructor
  · intro either
    obtain ⟨spared, old⟩ := either.resolve_left (not_confirms shape.1)
    exact ⟨spared.listed outcome found, old⟩
  · rintro ⟨listed, old⟩
    refine Or.inr ⟨⟨?_, fun begins => absurd begins shape.2, ?_⟩, old⟩
    · intro candidate result probed
      rw [shape.1] at probed
      cases probed
    · intro other same
      rw [found] at same
      exact Option.some.inj same ▸ listed

/-- The cache holds what the history says is verified. -/
theorem cache_verified {config : Config} {now : Nat} {log : List ScanEntry} {final : Engine}
    (run : Run (scanner join) (.start config now) log final) (o : Origin) (cached : CachedApp) :
    final.cache.lookup o = some cached ↔ Verified join o cached log := by
  induction run with
  | start =>
      constructor
      · intro found
        simp [Engine.start] at found
      · exact fun verified => (since_nil _ _ verified).elim
  | step earlier taken ih =>
      cases stepped taken with
      | reload config => exact ih.trans (verified_quiet rfl rfl (by simp)).symm
      | advance elapsed => exact ih.trans (verified_quiet rfl rfl (by simp)).symm
      | disabled phase off =>
          rw [verified_cons]
          constructor
          · intro found
            simp at found
          · rintro (confirms | ⟨spared, -⟩)
            · exact absurd confirms (not_confirms rfl)
            · have on := spared.enabled rfl
              rw [off] at on
              cases on
      | begin phase on =>
          rw [verified_cons]
          constructor
          · exact fun found => Or.inr ⟨⟨nofun, fun _ => on, nofun⟩, ih.mp found⟩
          · intro either
            exact ih.mpr (either.resolve_left (not_confirms rfl)).2
      | spawn phase => exact ih.trans (verified_quiet rfl rfl (by simp)).symm
      | enumerated attributed tcp tcp6 phase =>
          rw [verified_enumerated (outcomeOf_enumerated phase), lookup_startProbes, ih, and_comm]
      | enumerationFailed phase => exact ih.trans (verified_quiet rfl rfl (by simp)).symm
      | joined candidate exchanges phase member =>
          rw [verified_joined, lookup_conclude, ih]
      | joinFailed candidate exchanges phase member =>
          exact ih.trans (verified_quiet rfl rfl (by simp)).symm
      | report phase => exact ih.trans (verified_quiet rfl rfl (by simp)).symm
      | merge phase => exact ih.trans (verified_quiet rfl rfl (by simp)).symm
      | publish phase => exact ih.trans (verified_quiet rfl rfl (by simp)).symm
      | bump phase => exact ih.trans (verified_quiet rfl rfl (by simp)).symm

end RaemoteServer.Discovery
