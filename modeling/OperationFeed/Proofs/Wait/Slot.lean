import OperationFeed.Wait.Slot

/-!
# Slots and their waiters

What joining, resolving, leaving and releasing do to the past of a slot and to those who wait on it.
A waiter is *attached* to the pending notification (`WaitSlot.IsAttached`), or has its answer, which
then stays the same (`WaitSlot.answer?_resolve_of_some`).
-/

namespace OperationFeed

namespace WaitSlot

variable (slot : WaitSlot)

/-- A waiter is attached if the notification it waits for is the pending one. -/
def IsAttached (w : Waiter) : Prop := slot.isPending = true ∧ w.generation = slot.past.length

@[simp] theorem past_join : slot.join.2.past = slot.past := rfl

@[simp] theorem waiters_join : slot.join.2.waiters = some (slot.waiterCount + 1) := rfl

@[simp] theorem generation_join : slot.join.1.generation = slot.past.length := rfl

/-- There is nothing to resolve where no notification is pending. -/
theorem resolve_of_waiters_none {slot : WaitSlot} (h : slot.waiters = none)
    (outcome : WaitOutcome) : slot.resolve outcome = (false, slot) := by
  simp [resolve, isPending, h]

/-- A pending notification goes to the past with its outcome, and the slot is empty. -/
theorem resolve_of_waiters_some {slot : WaitSlot} {n : Nat} (h : slot.waiters = some n)
    (outcome : WaitOutcome) : slot.resolve outcome = (true, ⟨slot.past ++ [outcome], none⟩) := by
  simp [resolve, isPending, h]

/-- Either way, no notification is pending afterwards. -/
@[simp] theorem waiters_resolve (outcome : WaitOutcome) :
    (slot.resolve outcome).2.waiters = none := by
  cases h : slot.waiters with
  | none => rw [resolve_of_waiters_none h, h]
  | some n => rw [resolve_of_waiters_some h]

/-- There is no answer as long as the past does not reach the waiter's notification. -/
theorem answer?_eq_none {slot : WaitSlot} {w : Waiter} :
    slot.answer? w = none ↔ slot.past.length ≤ w.generation := by
  rw [answer?, List.getElem?_eq_none_iff]

/-- Nobody learns anything from another one's joining. -/
@[simp] theorem answer?_join (w : Waiter) : slot.join.2.answer? w = slot.answer? w := rfl

/-- Who joins is attached, and so are those who were before. -/
theorem isAttached_join : slot.join.2.IsAttached slot.join.1 := ⟨rfl, rfl⟩

/-- Who is attached stays so when another one joins. -/
theorem IsAttached.join {slot : WaitSlot} {w : Waiter} (h : slot.IsAttached w) :
    slot.join.2.IsAttached w := ⟨rfl, h.2⟩

/-- Who is attached has no answer: its notification is not in the past. -/
theorem IsAttached.answer?_eq_none {slot : WaitSlot} {w : Waiter} (h : slot.IsAttached w) :
    slot.answer? w = none := WaitSlot.answer?_eq_none.mpr (Nat.le_of_eq h.2.symm)

/-- Resolving the notification answers those who are attached. -/
theorem IsAttached.answer?_resolve {slot : WaitSlot} {w : Waiter} (h : slot.IsAttached w)
    (outcome : WaitOutcome) : (slot.resolve outcome).2.answer? w = some outcome := by
  obtain ⟨n, h_some⟩ := Option.isSome_iff_exists.mp h.1
  rw [resolve_of_waiters_some h_some, answer?, h.2, List.getElem?_concat_length]

/-- An answer stays the same. -/
theorem answer?_resolve_of_some {slot : WaitSlot} {w : Waiter} {answer : WaitOutcome}
    (h : slot.answer? w = some answer) (outcome : WaitOutcome) :
    (slot.resolve outcome).2.answer? w = some answer := by
  cases h_waiters : slot.waiters with
  | none => rwa [resolve_of_waiters_none h_waiters]
  | some n =>
    have h_lt : w.generation < slot.past.length := (List.getElem?_eq_some_iff.mp h).1
    rw [resolve_of_waiters_some h_waiters, answer?, List.getElem?_append_left h_lt]
    exact h

@[simp] theorem isPending_resolve (outcome : WaitOutcome) :
    (slot.resolve outcome).2.isPending = false := by
  rw [isPending, waiters_resolve, Option.isSome_none]

/-- There is something to resolve while a notification is pending. -/
theorem resolve_fst (outcome : WaitOutcome) : (slot.resolve outcome).1 = slot.isPending := by
  unfold resolve
  split
  · next h => exact h.symm
  · next h => exact (Bool.eq_false_iff.mpr h).symm

/-- A notification is released if it is pending and nobody waits for it. -/
theorem releaseIfAbandoned_fst :
    slot.releaseIfAbandoned.1 = (slot.isPending && slot.waiterCount == 0) := by
  obtain ⟨past, waiters⟩ := slot
  cases waiters with
  | none => rfl
  | some n => cases n <;> rfl

/-- A slot that nobody leaves: it stays as it is, or is joined once more, or its notification is
resolved. -/
inductive Moves (slot : WaitSlot) : WaitSlot → Prop
  | same : Moves slot slot
  | joined : Moves slot slot.join.2
  | resolved (outcome : WaitOutcome) : Moves slot (slot.resolve outcome).2

namespace Moves

variable {slot slot' : WaitSlot} {w : Waiter}

/-- An answer is not changed by whatever happens to the slot. -/
theorem answer?_eq_some (h : slot.Moves slot') {answer : WaitOutcome}
    (h_answer : slot.answer? w = some answer) : slot'.answer? w = some answer := by
  cases h with
  | same => exact h_answer
  | joined => exact h_answer
  | resolved outcome => exact answer?_resolve_of_some h_answer outcome

/-- Who waits for the pending notification unless there is an answer goes on like that. -/
theorem isAttached (h : slot.Moves slot') (h_attached : slot.answer? w = none → slot.IsAttached w)
    (h_none : slot'.answer? w = none) : slot'.IsAttached w := by
  -- had the waiter an answer before, it would have it still
  cases h_answer : slot.answer? w with
  | some answer =>
    rw [h.answer?_eq_some h_answer] at h_none
    cases h_none
  | none =>
    have h_attached := h_attached h_answer
    cases h with
    | same => exact h_attached
    | joined => exact h_attached.join
    | resolved outcome =>
      rw [h_attached.answer?_resolve outcome] at h_none
      cases h_none

end Moves

/-- Leaving and releasing touch the past in no way. -/
@[simp] theorem past_leave (w : Waiter) : (slot.leave w).past = slot.past := by
  unfold leave; split <;> rfl

/-- A notification that nobody waits for any more is still pending. -/
@[simp] theorem isPending_leave (w : Waiter) : (slot.leave w).isPending = slot.isPending := by
  unfold leave
  split
  · exact Option.isSome_map
  · rfl

/-- A waiter of the pending notification that goes away is not counted any more. -/
theorem waiterCount_leave {slot : WaitSlot} {w : Waiter} (h : w.generation = slot.past.length) :
    (slot.leave w).waiterCount = slot.waiterCount - 1 := by
  unfold leave
  rw [if_pos h]
  obtain ⟨past, waiters⟩ := slot
  cases waiters <;> rfl

/-- A waiter of an earlier notification is not counted at all. -/
theorem leave_of_ne {slot : WaitSlot} {w : Waiter} (h : w.generation ≠ slot.past.length) :
    slot.leave w = slot := if_neg h

/-- To release a notification is not to resolve it. -/
@[simp] theorem past_releaseIfAbandoned : slot.releaseIfAbandoned.2.past = slot.past := by
  unfold releaseIfAbandoned; split <;> rfl

/-- A waiter of the pending notification goes away: the count goes down by one, and the slot is
emptied with the last one. -/
theorem waiters_release_leave {slot : WaitSlot} {w : Waiter} {n : Nat}
    (h : slot.waiters = some (n + 1)) (h_gen : w.generation = slot.past.length) :
    (slot.leave w).releaseIfAbandoned.2.waiters = if n = 0 then none else some n := by
  -- the waiter leaves first, so the release sees the count without it
  have h_leave : slot.leave w = { slot with waiters := some n } := by
    simp [leave, h_gen, h]
  rw [h_leave, releaseIfAbandoned]
  by_cases h_zero : n = 0 <;> simp [h_zero]

/-- Joining and going away at once leaves the slot as it was, unless it was abandoned. -/
theorem release_leave_join {slot : WaitSlot} (h : slot.waiters ≠ some 0) :
    (slot.join.2.leave slot.join.1).releaseIfAbandoned.2 = slot := by
  have h_waiters := waiters_release_leave (w := slot.join.1) (waiters_join slot) rfl
  have h_past : (slot.join.2.leave slot.join.1).releaseIfAbandoned.2.past = slot.past := by
    rw [past_releaseIfAbandoned, past_leave, past_join]
  obtain ⟨past, waiters⟩ := slot
  rw [WaitSlot.mk.injEq, h_waiters]
  refine ⟨h_past, ?_⟩
  cases waiters with
  | none => rfl
  | some n =>
    -- those who were there before still wait, so nothing is released
    have h_pos : n ≠ 0 := fun h_zero => h (by rw [h_zero])
    change (if n = 0 then none else some n) = some n
    rw [if_neg h_pos]

end WaitSlot

end OperationFeed
