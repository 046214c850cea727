import RaemoteServer.Library.Runs

/-! A mutex that panics poison. Whoever takes the lock of a poisoned mutex panics as well. -/

namespace Runs

structure Mutex (Value : Type) where
  value : Value
  poisoned : Bool
  deriving DecidableEq

namespace Mutex

variable {Value Event Answer : Type}

def new (value : Value) : Mutex Value := ⟨value, false⟩

/-- A section under the lock; `none` when it panics. What it did to the value stays. -/
def locked (mutex : Mutex Value) (body : Value → Option Answer × Value) :
    Option Answer × Mutex Value :=
  if mutex.poisoned then (none, mutex)
  else
    let (answer, value) := body mutex.value
    (answer, ⟨value, answer.isNone⟩)

/-- The sections of any number of threads, one after the other. -/
def sections (body : Event → Value → Option Answer × Value) :
    Machine (Mutex Value) Event (Option Answer) where
  step mutex event := some (mutex.locked (body event))

theorem poisoned_locked (mutex : Mutex Value) (body : Value → Option Answer × Value) :
    (mutex.locked body).2.poisoned = (mutex.locked body).1.isNone := by
  unfold locked
  split
  · assumption
  · rfl

theorem locked_of_sound {mutex : Mutex Value} {body : Value → Option Answer × Value}
    (sound : mutex.poisoned = false) :
    mutex.locked body =
        ((body mutex.value).1, ⟨(body mutex.value).2, (body mutex.value).1.isNone⟩) := by
  simp only [locked, sound, Bool.false_eq_true, if_false]

theorem locked_of_poisoned {mutex : Mutex Value} {body : Value → Option Answer × Value}
    (poisoned : mutex.poisoned = true) : mutex.locked body = (none, mutex) := by
  simp only [locked, poisoned, if_true]

variable {body : Event → Value → Option Answer × Value} {start final : Mutex Value}
  {log : History (Mutex Value) Event (Option Answer)}

theorem sections_taken {before after : Mutex Value} {event : Event} {answer : Option Answer}
    (taken : (sections body).step before event = some (answer, after)) :
    answer = (before.locked (body event)).1 ∧ after = (before.locked (body event)).2 := by
  obtain ⟨same, next⟩ := Prod.mk.inj (Option.some.inj taken)
  exact ⟨same.symm, next.symm⟩

/-- A mutex is poisoned from the first panic on. -/
theorem poisoned_iff (run : Run (sections body) start log final) (sound : start.poisoned = false) :
    final.poisoned = true ↔ ∃ entry ∈ log, entry.output = none := by
  induction run with
  | start => simp [sound]
  | @step log before after event answer earlier taken ih =>
      obtain ⟨same, next⟩ := sections_taken taken
      have stays : before.poisoned = true → answer = none := by
        intro poisoned
        rw [same, locked_of_poisoned poisoned]
      rw [List.exists_mem_cons_iff, ← ih, next, poisoned_locked, ← same, Option.isNone_iff_eq_none]
      exact ⟨Or.inl, Or.rec id stays⟩

/-- Sections that keep an invariant of the value and do not panic under it. -/
theorem sound_run (inv : Value → Prop)
    (allowed : Entry (Mutex Value) Event (Option Answer) → Prop)
    (run : Run (sections body) start log final) (every : ∀ entry ∈ log, allowed entry)
    (sound : start.poisoned = false) (base : inv start.value)
    (kept : ∀ entry, allowed entry → inv entry.before.value →
      (body entry.event entry.before.value).1.isSome = true ∧
        inv (body entry.event entry.before.value).2) :
    final.poisoned = false ∧ inv final.value := by
  apply run.invariant_of_allowed (fun mutex => mutex.poisoned = false ∧ inv mutex.value)
    allowed every
  · exact ⟨sound, base⟩
  · intro before event answer after taken permitted ⟨unpoisoned, holds⟩
    obtain ⟨answers, next⟩ := kept _ permitted holds
    rw [(sections_taken taken).2, locked_of_sound unpoisoned]
    exact ⟨Option.isNone_eq_false_iff.mpr answers, next⟩

end Mutex

end Runs
