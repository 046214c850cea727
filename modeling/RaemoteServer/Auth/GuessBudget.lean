import RaemoteServer.Auth.Access

/-! How many wrong guesses one pairing token allows. -/

namespace RaemoteServer.Auth

open Text Collections Runs

variable {Node : Type} [DecidableEq Node] [EndpointId Node]

def guessedWrong (entry : LogEntry Node) : Bool :=
  match entry.output with
  | .outcome .tokenMismatch => true
  | .outcome .revoked => true
  | _ => false

def admitted (entry : LogEntry Node) : Bool :=
  match entry.output with
  | .outcome .bound => true
  | .outcome .boundViaInvitation => true
  | _ => false

/-- No pairing token was minted in this part of the log. -/
def Unminted (log : Log Node) : Prop := ∀ entry ∈ log, tokenMinted entry = none

instance (log : Log Node) : Decidable (Unminted log) :=
  inferInstanceAs (Decidable (∀ entry ∈ log, tokenMinted entry = none))

/-- While a token is pending the counter has seen every wrong guess since the last success;
without one there are no more wrong guesses to count. -/
structure WithinBudget (limit : UInt32) (inner : Inner Node) (wrong admissions : Nat) : Prop where
  total : wrong ≤ (limit.toNat - 1) * admissions + limit.toNat
  counted : inner.pending ≠ none → inner.failedAttempts < limit ∧
    wrong ≤ (limit.toNat - 1) * admissions + inner.failedAttempts.toNat

omit [DecidableEq Node] [EndpointId Node] in
theorem activeToken_pending {inner : Inner Node} {now : Instant} {token : Str}
    (active : inner.activeToken now = some token) : inner.pending ≠ none := by
  obtain ⟨pending, present, -⟩ := activeToken_some.mp active
  simp [present]

theorem toNat_succ {attempts limit : UInt32} (below : attempts < limit) :
    (attempts + 1).toNat = attempts.toNat + 1 := by
  have bound := limit.toNat_lt
  have order := UInt32.lt_iff_toNat_lt.mp below
  rw [UInt32.toNat_add, UInt32.toNat_one]
  omega

omit [DecidableEq Node] [EndpointId Node] in
theorem WithinBudget.admit {limit : UInt32} {before after : Inner Node} {wrong admissions : Nat}
    (budget : WithinBudget limit before wrong admissions) (positive : 1 ≤ limit)
    (same : after.pending = before.pending) (reset : after.failedAttempts = 0) :
    WithinBudget limit after wrong (admissions + 1) := by
  have least : 1 ≤ limit.toNat := UInt32.le_iff_toNat_le.mp positive
  have grown : (limit.toNat - 1) * (admissions + 1) =
      (limit.toNat - 1) * admissions + (limit.toNat - 1) := Nat.mul_succ _ _
  refine ⟨?_, ?_⟩
  · have total := budget.total
    omega
  · intro pending
    obtain ⟨below, counted⟩ := budget.counted (same ▸ pending)
    have order := UInt32.lt_iff_toNat_lt.mp below
    rw [reset, UInt32.lt_iff_toNat_lt]
    simp only [UInt32.toNat_zero]
    omega

theorem budget_step {limit : UInt32} {before after : Clocked Node} {event : Operation Node}
    {output : Reply} (stepped : Stepped before event output after) {wrong admissions : Nat}
    (unminted : tokenMinted ⟨before, event, output, after⟩ = none)
    (constant : before.auth.maxAttempts = limit) (positive : 1 ≤ limit)
    (budget : WithinBudget limit before.auth.inner wrong admissions) :
    WithinBudget limit after.auth.inner
      (wrong + (guessedWrong ⟨before, event, output, after⟩).toNat)
      (admissions + (admitted ⟨before, event, output, after⟩).toNat) := by
  cases stepped with
  | mintTokenWith => cases unminted
  | mintInvitation => exact ⟨budget.total, budget.counted⟩
  | tooManyInvitations => exact ⟨budget.total, budget.counted⟩
  | revoke => exact ⟨budget.total, budget.counted⟩
  | revokeUnknown => exact budget
  | setDeviceName => exact ⟨budget.total, budget.counted⟩
  | setMaxAttempts => exact budget
  | advance => exact budget
  | authenticate node presented outcome saves auth attempt =>
      cases attempt with
      | alreadyAuthorized => exact budget
      | bound => exact budget.admit positive rfl rfl
      | boundViaInvitation => exact budget.admit positive rfl rfl
      | noActiveToken => exact ⟨budget.total, fun pending => absurd rfl pending⟩
      | revoked unknown token active =>
          obtain ⟨below, counted⟩ := budget.counted (activeToken_pending active)
          have order := UInt32.lt_iff_toNat_lt.mp below
          refine ⟨?_, fun pending => absurd rfl pending⟩
          change wrong + 1 ≤ (limit.toNat - 1) * admissions + limit.toNat
          omega
      | tokenMismatch unknown token active other absent spared =>
          obtain ⟨below, counted⟩ := budget.counted (activeToken_pending active)
          have order := UInt32.lt_iff_toNat_lt.mp below
          have next := toNat_succ below
          have remaining : before.auth.inner.failedAttempts + 1 < limit := by
            rw [← constant]
            exact UInt32.not_le.mp spared
          refine ⟨?_, fun _ => ⟨remaining, ?_⟩⟩
          · change wrong + 1 ≤ (limit.toNat - 1) * admissions + limit.toNat
            omega
          · change wrong + 1 ≤ (limit.toNat - 1) * admissions +
              (before.auth.inner.failedAttempts + 1).toNat
            omega

theorem budget_run {first state : Clocked Node} {window earlier : Log Node} {mint : LogEntry Node}
    {limit : UInt32} (run : Run machine first (window ++ mint :: earlier) state)
    (minted : tokenMinted mint ≠ none) (unminted : Unminted window)
    (constant : ∀ entry ∈ window, entry.before.auth.maxAttempts = limit) (positive : 1 ≤ limit) :
    WithinBudget limit state.auth.inner (window.countP guessedWrong) (window.countP admitted) := by
  induction window generalizing state with
  | nil =>
      cases run with
      | step before taken =>
          cases step_cases taken with
          | mintTokenWith =>
              refine ⟨by simp, fun _ => ⟨?_, by simp⟩⟩
              exact UInt32.lt_of_lt_of_le (show (0 : UInt32) < 1 by decide) positive
          | mintInvitation => exact absurd rfl minted
          | tooManyInvitations => exact absurd rfl minted
          | authenticate => exact absurd rfl minted
          | revoke => exact absurd rfl minted
          | revokeUnknown => exact absurd rfl minted
          | setDeviceName => exact absurd rfl minted
          | setMaxAttempts => exact absurd rfl minted
          | advance => exact absurd rfl minted
  | cons newest rest ih =>
      cases run with
      | step earlier taken =>
          obtain ⟨newestUnminted, restUnminted⟩ := List.forall_mem_cons.mp unminted
          obtain ⟨newestConstant, restConstant⟩ := List.forall_mem_cons.mp constant
          have before := ih earlier restUnminted restConstant
          have after := budget_step (step_cases taken) newestUnminted newestConstant positive before
          rw [List.countP_cons, List.countP_cons]
          simpa only [Bool.toNat, Bool.cond_eq_ite] using after

/-! A lockout lasts until the next mint. -/

theorem locked_step {before after : Clocked Node} {event : Operation Node} {output : Reply}
    (stepped : Stepped before event output after)
    (unminted : tokenMinted ⟨before, event, output, after⟩ = none)
    (inactive : before.auth.inner.pending = none) :
    after.auth.inner.pending = none ∧ output ≠ .outcome .bound := by
  cases stepped with
  | mintTokenWith => cases unminted
  | mintInvitation => exact ⟨inactive, nofun⟩
  | tooManyInvitations => exact ⟨inactive, nofun⟩
  | revoke => exact ⟨inactive, nofun⟩
  | revokeUnknown => exact ⟨inactive, nofun⟩
  | setDeviceName => exact ⟨inactive, nofun⟩
  | setMaxAttempts => exact ⟨inactive, nofun⟩
  | advance => exact ⟨inactive, nofun⟩
  | authenticate node presented outcome saves auth attempt =>
      cases attempt with
      | alreadyAuthorized => exact ⟨inactive, nofun⟩
      | bound unknown active => exact absurd inactive (activeToken_pending active)
      | boundViaInvitation => exact ⟨inactive, nofun⟩
      | noActiveToken => exact ⟨rfl, nofun⟩
      | revoked => exact ⟨rfl, nofun⟩
      | tokenMismatch => exact ⟨inactive, nofun⟩

theorem lockedOut_pending {before after : Clocked Node} {event : Operation Node} {output : Reply}
    (stepped : Stepped before event output after)
    (locked : lockedOut ⟨before, event, output, after⟩ = true) :
    after.auth.inner.pending = none := by
  cases stepped with
  | authenticate node presented outcome saves auth attempt =>
      cases attempt with
      | revoked => rfl
      | alreadyAuthorized => cases locked
      | bound => cases locked
      | boundViaInvitation => cases locked
      | noActiveToken => cases locked
      | tokenMismatch => cases locked
  | mintTokenWith => cases locked
  | mintInvitation => cases locked
  | tooManyInvitations => cases locked
  | revoke => cases locked
  | revokeUnknown => cases locked
  | setDeviceName => cases locked
  | setMaxAttempts => cases locked
  | advance => cases locked

theorem locked_run {first state : Clocked Node} {later earlier : Log Node} {lock : LogEntry Node}
    (run : Run machine first (later ++ lock :: earlier) state) (locked : lockedOut lock = true)
    (unminted : Unminted later) :
    state.auth.inner.pending = none ∧ ∀ entry ∈ later, entry.output ≠ .outcome .bound := by
  induction later generalizing state with
  | nil =>
      cases run with
      | step before taken => exact ⟨lockedOut_pending (step_cases taken) locked, by simp⟩
  | cons newest rest ih =>
      cases run with
      | step before taken =>
          obtain ⟨newestUnminted, restUnminted⟩ := List.forall_mem_cons.mp unminted
          obtain ⟨inactive, unbound⟩ := ih before restUnminted
          obtain ⟨still, other⟩ := locked_step (step_cases taken) newestUnminted inactive
          exact ⟨still, List.forall_mem_cons.mpr ⟨other, unbound⟩⟩

/-! The counter in its thirty-two bits. -/

def CounterFits (state : Clocked Node) : Prop :=
  state.auth.inner.pending ≠ none → state.auth.inner.failedAttempts.toNat + 1 < 2 ^ 32

theorem counterFits_step {before after : Clocked Node} {event : Operation Node} {output : Reply}
    (stepped : Stepped before event output after) (fits : CounterFits before) :
    CounterFits after := by
  cases stepped with
  | mintTokenWith => exact fun _ => show 0 + 1 < 2 ^ 32 by omega
  | mintInvitation => exact fits
  | tooManyInvitations => exact fits
  | revoke => exact fits
  | revokeUnknown => exact fits
  | setDeviceName => exact fits
  | setMaxAttempts => exact fits
  | advance => exact fits
  | authenticate node presented outcome saves auth attempt =>
      cases attempt with
      | alreadyAuthorized => exact fits
      | bound => exact fun _ => show 0 + 1 < 2 ^ 32 by omega
      | boundViaInvitation => exact fun _ => show 0 + 1 < 2 ^ 32 by omega
      | noActiveToken => exact fun pending => absurd rfl pending
      | revoked => exact fun pending => absurd rfl pending
      | tokenMismatch unknown token active other absent spared =>
          -- the limit is itself a `u32`, so what lies below it can be incremented
          intro _
          have below := UInt32.lt_iff_toNat_lt.mp (UInt32.not_le.mp spared)
          have bound := before.auth.maxAttempts.toNat_lt
          change (before.auth.inner.failedAttempts + 1).toNat + 1 < 2 ^ 32
          omega

theorem guessedWrong_pending {before after : Clocked Node} {event : Operation Node} {output : Reply}
    (stepped : Stepped before event output after)
    (wrong : guessedWrong ⟨before, event, output, after⟩ = true) :
    before.auth.inner.pending ≠ none := by
  cases stepped with
  | authenticate node presented outcome saves auth attempt =>
      cases attempt with
      | revoked unknown token active => exact activeToken_pending active
      | tokenMismatch unknown token active => exact activeToken_pending active
      | alreadyAuthorized => cases wrong
      | bound => cases wrong
      | boundViaInvitation => cases wrong
      | noActiveToken => cases wrong
  | mintTokenWith => cases wrong
  | mintInvitation => cases wrong
  | tooManyInvitations => cases wrong
  | revoke => cases wrong
  | revokeUnknown => cases wrong
  | setDeviceName => cases wrong
  | setMaxAttempts => cases wrong
  | advance => cases wrong

theorem counter_fits {toml : TomlStrings} {store names : Option Str} {maxAttempts : UInt32}
    {now : Instant} {log : Log Node} {state : Clocked Node}
    (run : Run machine ⟨loadAt toml store names maxAttempts, now⟩ log state)
    {entry : LogEntry Node} (member : entry ∈ log) (wrong : guessedWrong entry = true) :
    entry.before.auth.inner.failedAttempts.toNat + 1 < 2 ^ 32 := by
  obtain ⟨later, earlier, rfl⟩ := List.append_of_mem member
  obtain ⟨before, taken⟩ := run.split
  have fits : CounterFits entry.before :=
    before.invariant CounterFits (fun pending => absurd rfl pending)
      (fun _ _ _ _ taken => counterFits_step (step_cases taken))
  exact fits (guessedWrong_pending (step_cases taken) wrong)

/-- Outcomes that say nothing about a guess. -/
def Uncounted (entry : LogEntry Node) : Prop :=
  entry.output = .outcome .alreadyAuthorized ∨ entry.output = .outcome .noActiveToken

theorem uncounted_step {before after : Clocked Node} {event : Operation Node} {output : Reply}
    (stepped : Stepped before event output after)
    (uncounted : Uncounted ⟨before, event, output, after⟩) :
    after.auth.inner.failedAttempts = before.auth.inner.failedAttempts := by
  cases stepped with
  | authenticate node presented outcome saves auth attempt =>
      cases attempt with
      | alreadyAuthorized => rfl
      | noActiveToken => rfl
      | bound => rcases uncounted with same | same <;> cases same
      | boundViaInvitation => rcases uncounted with same | same <;> cases same
      | revoked => rcases uncounted with same | same <;> cases same
      | tokenMismatch => rcases uncounted with same | same <;> cases same
  | mintTokenWith => rcases uncounted with same | same <;> cases same
  | mintInvitation => rfl
  | tooManyInvitations => rfl
  | revoke => rfl
  | revokeUnknown => rfl
  | setDeviceName => rfl
  | setMaxAttempts => rfl
  | advance => rfl

/-- The guesses one token allows, and the counter that enforces it. -/
theorem guess_budget {toml : TomlStrings} {store names : Option Str} {maxAttempts : UInt32}
    {now : Instant} {log : Log Node} {state : Clocked Node}
    (run : Run machine ⟨loadAt toml store names maxAttempts, now⟩ log state) :
    (∀ later window mint earlier, log = later ++ (window ++ mint :: earlier) →
      tokenMinted mint ≠ none → Unminted window → ∀ limit,
        (∀ entry ∈ window, entry.before.auth.maxAttempts = limit) → 1 ≤ limit →
          window.countP guessedWrong ≤
            (limit.toNat - 1) * window.countP admitted + limit.toNat) ∧
      (∀ later window lock earlier, log = later ++ (window ++ lock :: earlier) →
        lockedOut lock = true → Unminted window →
          ∀ entry ∈ window, entry.output ≠ .outcome .bound) ∧
      (∀ entry ∈ log, Uncounted entry →
        entry.after.auth.inner.failedAttempts = entry.before.auth.inner.failedAttempts) ∧
      (∀ entry ∈ log, guessedWrong entry = true →
        entry.before.auth.inner.failedAttempts.toNat + 1 < 2 ^ 32) := by
  refine ⟨?_, ?_, ?_, fun entry member => counter_fits run member⟩
  · rintro later window mint earlier rfl minted unminted limit constant positive
    obtain ⟨middle, shorter⟩ := run.earlier
    exact (budget_run shorter minted unminted constant positive).total
  · rintro later window lock earlier rfl locked unminted
    obtain ⟨middle, shorter⟩ := run.earlier
    exact (locked_run shorter locked unminted).2
  · intro entry member uncounted
    exact uncounted_step (step_cases (run.taken member)) uncounted

/-- Two wrong guesses, a device that knows the code, and three more guesses. -/
def guessing : List (Operation Bytes32) :=
  [.mintTokenWith (fromSecs 300) (some "2468".toList) 1700000000 (Bytes32.filled 3),
    .authenticate (Bytes32.filled 9) "0000".toList,
    .authenticate (Bytes32.filled 9) "1111".toList,
    .authenticate (Bytes32.filled 1) "2468".toList,
    .authenticate (Bytes32.filled 9) "2222".toList,
    .authenticate (Bytes32.filled 9) "3333".toList,
    .authenticate (Bytes32.filled 9) "4444".toList,
    .authenticate (Bytes32.filled 9) "2468".toList]

theorem guessing_within_budget : ∃ window mint state,
    machine.exec [] ⟨loadAt .emptyOnly none none 3, 0⟩ guessing =
      some (window ++ [mint], state) ∧
    window.countP guessedWrong = 5 ∧ window.countP admitted = 1 ∧
    window.countP guessedWrong ≤ (3 - 1) * window.countP admitted + 3 := by
  obtain ⟨log, state, executed, run, shape, minted, unminted, constant, wrong, admissions⟩ :=
    exec_checked machine _ guessing
      (fun log _ => log.length = 8 ∧ (∀ entry ∈ log.drop 7, tokenMinted entry ≠ none) ∧
        Unminted (log.take 7) ∧ (∀ entry ∈ log.take 7, entry.before.auth.maxAttempts = 3) ∧
        (log.take 7).countP guessedWrong = 5 ∧ (log.take 7).countP admitted = 1)
      (by decide :
        (machine.exec [] ⟨loadAt .emptyOnly none none 3, 0⟩ guessing).any _)
  obtain ⟨mint, last⟩ := List.length_eq_one_iff.mp (by simp [shape] : (log.drop 7).length = 1)
  have parts : log = log.take 7 ++ [mint] := by rw [← last, List.take_append_drop]
  refine ⟨log.take 7, mint, state, parts ▸ executed, wrong, admissions, ?_⟩
  exact (guess_budget run).1 [] _ mint [] parts (minted mint (by simp [last])) unminted 3 constant
    (by decide)

end RaemoteServer.Auth
