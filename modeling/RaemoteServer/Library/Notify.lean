import Mathlib.Data.List.Basic
import Mathlib.Tactic.Common

/-! `tokio::sync::Notify`. -/

structure Notify (Waiter : Type) where
  /-- A stored wake-up. -/
  permit : Bool
  /-- Registered, the earliest first. -/
  waiters : List Waiter
  /-- Notified, and not polled since. -/
  woken : List Waiter
  idle : permit = true → waiters = []
  nodup : (waiters ++ woken).Nodup
  deriving DecidableEq

namespace Notify

variable {Waiter : Type}

def new : Notify Waiter := ⟨false, [], [], fun _ => rfl, List.nodup_nil⟩

/-- Wakes the earliest waiter, or stores one permit. -/
def notifyOne (notify : Notify Waiter) : Notify Waiter :=
  match shape : notify.waiters with
  | [] => { notify with permit := true, idle := fun _ => shape }
  | first :: rest =>
      { permit := notify.permit
        waiters := rest
        woken := first :: notify.woken
        idle := fun stored => by rw [notify.idle stored] at shape; cases shape
        nodup := List.perm_middle.nodup_iff.mpr (by simpa [shape] using notify.nodup) }

@[simp] theorem mem_woken_notifyOne {notify : Notify Waiter} {waiter : Waiter} :
    waiter ∈ notify.notifyOne.woken ↔
      waiter ∈ notify.woken ∨ notify.waiters.head? = some waiter := by
  unfold notifyOne
  split
  · rename_i shape
    simp [shape]
  · rename_i first rest shape
    simp [shape, or_comm, eq_comm]

@[simp] theorem waiters_notifyOne (notify : Notify Waiter) :
    notify.notifyOne.waiters = notify.waiters.tail := by
  unfold notifyOne
  split <;> rename_i shape <;> simp [shape]

@[simp] theorem permit_notifyOne (notify : Notify Waiter) :
    notify.notifyOne.permit = (notify.permit || notify.waiters.isEmpty) := by
  unfold notifyOne
  split <;> rename_i shape <;> simp [shape]

theorem disjoint (notify : Notify Waiter) {waiter : Waiter} (known : waiter ∈ notify.woken) :
    waiter ∉ notify.waiters :=
  fun waits => (List.nodup_append.mp notify.nodup).2.2 waiter waits waiter known rfl

variable [DecidableEq Waiter]

/-- One poll of the future `notified()`; true when it is ready. The first poll takes a stored
permit or registers. -/
def poll (notify : Notify Waiter) (waiter : Waiter) : Bool × Notify Waiter :=
  if known : waiter ∈ notify.woken then
    (true, { notify with
      woken := notify.woken.erase waiter
      nodup := notify.nodup.sublist ((List.Sublist.refl _).append List.erase_sublist) })
  else if fresh : waiter ∈ notify.waiters then (false, notify)
  else if stored : notify.permit = true then
    (true, { notify with permit := false, idle := fun impossible => nomatch impossible })
  else
    (false, { notify with
      waiters := notify.waiters ++ [waiter]
      idle := fun impossible => absurd impossible stored
      nodup := by
        rw [List.append_assoc]
        exact List.perm_middle.nodup_iff.mpr
          (List.nodup_cons.mpr ⟨by simp [fresh, known], notify.nodup⟩) })

/-- Takes a future out before it is ready; a wake-up it had received goes on to the next
waiter. -/
def cancel (notify : Notify Waiter) (waiter : Waiter) : Notify Waiter :=
  if waiter ∈ notify.woken then
    notifyOne { notify with
      woken := notify.woken.erase waiter
      nodup := notify.nodup.sublist ((List.Sublist.refl _).append List.erase_sublist) }
  else
    { notify with
      waiters := notify.waiters.erase waiter
      idle := fun stored => by rw [notify.idle stored]; rfl
      nodup := notify.nodup.sublist (List.erase_sublist.append (List.Sublist.refl _)) }

/-! What a poll and a cancellation do to the three parts. -/

@[simp] theorem poll_ready {notify : Notify Waiter} {waiter : Waiter} :
    (notify.poll waiter).1 = true ↔ waiter ∈ notify.woken ∨ notify.permit = true := by
  unfold poll
  split
  · simp [*]
  · split
    · rename_i known fresh
      have taken : notify.permit ≠ true := fun stored => by
        rw [notify.idle stored] at fresh
        cases fresh
      simp [known, taken]
    · split <;> simp [*]

@[simp] theorem woken_poll (notify : Notify Waiter) (waiter : Waiter) :
    (notify.poll waiter).2.woken = notify.woken.erase waiter := by
  unfold poll
  split
  · rfl
  · rename_i known
    rw [List.erase_of_not_mem known]
    split
    · rfl
    · split <;> rfl

/-- Only the polled waiter can register. -/
theorem mem_waiters_poll {notify : Notify Waiter} {waiter other : Waiter}
    (member : other ∈ (notify.poll waiter).2.waiters) :
    other ∈ notify.waiters ∨ other = waiter ∧ (notify.poll waiter).1 = false := by
  unfold poll at member ⊢
  split at member
  · exact Or.inl member
  · split at member
    · exact Or.inl member
    · split at member
      · exact Or.inl member
      · rcases List.mem_append.mp member with old | new
        · exact Or.inl old
        · exact Or.inr ⟨List.mem_singleton.mp new, by simp [*]⟩

theorem poll_pending {notify : Notify Waiter} {waiter : Waiter}
    (pending : (notify.poll waiter).1 = false) :
    waiter ∉ notify.woken ∧ notify.permit ≠ true := by
  have unready : ¬ (waiter ∈ notify.woken ∨ notify.permit = true) := by
    rw [← poll_ready, pending]
    exact Bool.false_ne_true
  exact not_or.mp unready

theorem woken_cancel {notify : Notify Waiter} {waiter other : Waiter} (different : other ≠ waiter)
    (member : other ∈ notify.woken) : other ∈ (notify.cancel waiter).woken := by
  unfold cancel
  split
  · simp [List.mem_erase_of_ne different, member]
  · exact member

theorem mem_woken_cancel {notify : Notify Waiter} {waiter other : Waiter}
    (member : other ∈ (notify.cancel waiter).woken) :
    other ∈ notify.woken ∨ other ∈ notify.waiters := by
  unfold cancel at member
  split at member
  · rcases mem_woken_notifyOne.mp member with old | first
    · exact Or.inl (List.mem_of_mem_erase old)
    · exact Or.inr (List.mem_of_mem_head? first)
  · exact Or.inl member

theorem not_mem_erase_woken (notify : Notify Waiter) (waiter : Waiter) :
    waiter ∉ notify.woken.erase waiter :=
  (List.nodup_append.mp notify.nodup).2.1.not_mem_erase

/-- A future that was ready is known no more. -/
theorem poll_forgets {notify : Notify Waiter} {waiter : Waiter}
    (ready : (notify.poll waiter).1 = true) :
    waiter ∉ (notify.poll waiter).2.waiters ∧ waiter ∉ (notify.poll waiter).2.woken := by
  have woken : waiter ∉ (notify.poll waiter).2.woken := by
    rw [woken_poll]
    exact notify.not_mem_erase_woken waiter
  refine ⟨fun waits => ?_, woken⟩
  rcases mem_waiters_poll waits with old | ⟨-, pending⟩
  · rcases poll_ready.mp ready with known | stored
    · exact notify.disjoint known old
    · rw [notify.idle stored] at old
      cases old
  · rw [ready] at pending
    cases pending

theorem cancel_forgets (notify : Notify Waiter) (waiter : Waiter) :
    waiter ∉ (notify.cancel waiter).waiters ∧ waiter ∉ (notify.cancel waiter).woken := by
  unfold cancel
  split
  · rename_i known
    have elsewhere := notify.disjoint known
    refine ⟨fun waits => elsewhere ?_, fun woken => ?_⟩
    · rw [waiters_notifyOne] at waits
      exact List.mem_of_mem_tail waits
    · rcases mem_woken_notifyOne.mp woken with old | first
      · exact notify.not_mem_erase_woken waiter old
      · exact elsewhere (List.mem_of_mem_head? first)
  · rename_i unknown
    exact ⟨(List.nodup_append.mp notify.nodup).1.not_mem_erase, unknown⟩

theorem mem_waiters_cancel {notify : Notify Waiter} {waiter other : Waiter}
    (member : other ∈ (notify.cancel waiter).waiters) : other ∈ notify.waiters := by
  unfold cancel at member
  split at member
  · rw [waiters_notifyOne] at member
    exact List.mem_of_mem_tail member
  · exact List.mem_of_mem_erase member

theorem permit_cancel {notify : Notify Waiter} {waiter : Waiter} (stored : notify.permit = true) :
    (notify.cancel waiter).permit = true := by
  unfold cancel
  split <;> simp [stored]

end Notify
