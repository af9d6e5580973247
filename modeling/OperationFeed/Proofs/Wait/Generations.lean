import Mathlib.Data.Finset.Card
import OperationFeed.Proofs.Wait.Slot
import OperationFeed.Wait.Room

/-!
# Generations of waiters

Everything that is done to a waiting room is an act (`RoomAct`), and acts with their answers are a
history (`WaitRoom.history`). What a history says about those who wait is said here without a look
into the slot:

* the *generation* of the pending notification are those who joined since the notification before it
  was resolved or released (`RoomStep.generation`);
* what the waiter at a place finds is decided by the first act since it joined that ends the wait
  of everybody who waits then (`RoomAct.outcome?`, `RoomStep.foundAt`).

The slot itself counts its notifications and its waiters. `WaitRoom.Fits` ties these numbers to the
generation, and every act keeps it (`WaitRoom.Fits.perform`); `WaitRoom.Waits.perform` says what an
act does to the answer of one waiter. `WaitRoom.delivers_by_generation` puts them together: whatever
was done to a room, in whatever order, its answers are those that the history calls for.
-/

namespace OperationFeed

/-! ### Acts -/

/-- Something that is done to a waiting room. -/
inductive RoomAct where
  -- One more party joins.
  | join
  -- What is waited for has happened.
  | complete
  -- The wait is given up.
  | cancel
  -- The slot is emptied if nobody waits for its notification any more.
  | release
  -- The waiter at a place goes away.
  | leave (place : Nat)
  -- The waiter at a place asks for its answer.
  | poll (place : Nat)
  -- The slot is taken away.
  | dropSlot
  -- The slot is taken away, and a new one is put in its place.
  | replaceSlot
deriving DecidableEq

/-- What an act is answered with. -/
inductive RoomAnswer where
  -- There is nothing to say, or no slot to ask.
  | nothing
  -- The place of the party that has joined.
  | placed (place : Nat)
  -- Whether there was something to do.
  | told (done : Bool)
  -- What a waiter has found.
  | found (poll : WaitRoom.Poll)
deriving DecidableEq

/-- An act and its answer. -/
structure RoomStep where
  act : RoomAct
  answer : RoomAnswer
deriving DecidableEq

namespace WaitRoom

/-- The answer about a slot, if there is one. -/
def told (answer : Option Bool × WaitRoom) : RoomAnswer × WaitRoom :=
  (answer.1.elim .nothing .told, answer.2)

/-- Do something to a room. Nobody joins where there is no slot. -/
def perform (room : WaitRoom) : RoomAct → RoomAnswer × WaitRoom
  | .join => if room.hasSlot then (.placed room.join.1, room.join.2) else (.nothing, room)
  | .complete => told (room.onSlot (·.complete))
  | .cancel => told (room.onSlot (·.cancel))
  | .release => told (room.onSlot (·.releaseIfAbandoned))
  | .leave place => (.nothing, room.leave place)
  | .poll place => (.found (room.poll place).1, (room.poll place).2)
  | .dropSlot => (.nothing, room.dropSlot)
  | .replaceSlot => (.nothing, room.replaceSlot)

/-- The room after acts, one after another. -/
def after (room : WaitRoom) (acts : List RoomAct) : WaitRoom :=
  acts.foldl (fun room act => (room.perform act).2) room

/-- Acts, one after another, with their answers. -/
def history (room : WaitRoom) : List RoomAct → List RoomStep
  | [] => []
  | act :: acts => ⟨act, (room.perform act).1⟩ :: (room.perform act).2.history acts

end WaitRoom

/-! ### What a history says -/

/-- How an act ends the wait of everybody who waits: a slot that is taken away gives the wait up. -/
def RoomAct.outcome? : RoomAct → Option WaitOutcome
  | .complete => some .completed
  | .cancel | .dropSlot | .replaceSlot => some .cancelled
  | .join | .release | .leave _ | .poll _ => none

namespace RoomStep

/-- Whether the waiter at a place goes away with a step, on its own account or with its answer. -/
def removes (place : Nat) (step : RoomStep) : Bool :=
  match step.act, step.answer with
  | .leave other, _ => other == place
  | .poll other, .found (.answered _) => other == place
  | _, _ => false

/-- What the waiter at a place finds, after the steps since it joined. -/
def foundAt (place : Nat) (since : List RoomStep) : WaitRoom.Poll :=
  if since.any (·.removes place) then .gone
  else match since.findSome? (·.act.outcome?) with
    | none => .pending
    | some outcome => .answered outcome

/-- Whether somebody has joined with a step. -/
def joins (step : RoomStep) : Bool :=
  match step.answer with
  | .placed _ => true
  | _ => false

/-- Whether there is a slot after a step, by whether there was one before. -/
def slotAfter (hasSlot : Bool) (step : RoomStep) : Bool :=
  match step.act with
  | .dropSlot => false
  | .replaceSlot => true
  | _ => hasSlot

/-- Whether there is a slot: it was not taken away, or a new one was put in its place since. -/
def hasSlot (steps : List RoomStep) : Bool := steps.foldl slotAfter true

/-- The places of those who joined the pending notification, after a step. -/
def generationAfter (generation : Finset Nat) (step : RoomStep) : Finset Nat :=
  match step.act, step.answer with
  | .join, .placed place => insert place generation
  | .complete, .told true | .cancel, .told true | .release, .told true => ∅
  | .dropSlot, _ | .replaceSlot, _ => ∅
  | _, _ => generation

/-- The places of those who joined since a notification was last resolved or released, or the slot
taken away. -/
def generation (steps : List RoomStep) : Finset Nat := steps.foldl generationAfter ∅

end RoomStep

namespace WaitRoom

variable {room : WaitRoom} {generation : Finset Nat} {place other : Nat} {waiter : Waiter}

/-! ### Who waits -/

/-- Who waits at a place. -/
def waiter? (room : WaitRoom) (place : Nat) : Option Waiter := room.waiters[place]?.join

/-- The places of a set at which somebody waits. -/
def present (room : WaitRoom) (places : Finset Nat) : Finset Nat :=
  places.filter fun place => (room.waiter? place).isSome

/-- Somebody is present at a place if the place is one of the set and somebody waits there. -/
theorem mem_present {places : Finset Nat} : place ∈ room.present places ↔
    place ∈ places ∧ ∃ waiter, room.waiter? place = some waiter := by
  rw [present, Finset.mem_filter, Option.isSome_iff_exists]

/-- Without a slot there is nobody to ask. -/
theorem onSlot_of_slotless (h : room.hasSlot = false) (f : WaitSlot → Bool × WaitSlot) :
    room.onSlot f = (none, room) := by
  rw [onSlot, h]
  rfl

/-- A slot that is there is asked, and put back as it is left. -/
theorem onSlot_of_slot (h : room.hasSlot = true) (f : WaitSlot → Bool × WaitSlot) :
    room.onSlot f = (some (f room.slot).1, { room with slot := (f room.slot).2 }) := by
  rw [onSlot, if_pos h]

/-- Where nobody waits, nobody is found. -/
theorem poll_of_none (h : room.waiter? place = none) : room.poll place = (.gone, room) := by
  rw [waiter?] at h
  rw [poll, h]

/-- A waiter without an answer goes on waiting. -/
theorem poll_of_pending (h : room.waiter? place = some waiter)
    (h_answer : room.slot.answer? waiter = none) : room.poll place = (.pending, room) := by
  rw [waiter?] at h
  simp only [poll, h, h_answer]

/-- A waiter with an answer goes away with it. -/
theorem poll_of_answered (h : room.waiter? place = some waiter) {outcome : WaitOutcome}
    (h_answer : room.slot.answer? waiter = some outcome) :
    room.poll place = (.answered outcome, room.leave place) := by
  rw [waiter?] at h
  simp only [poll, h, h_answer]

/-- Asking changes nothing, unless there is an answer. -/
theorem poll_course (room : WaitRoom) (place : Nat) :
    room.poll place = (.gone, room) ∨ room.poll place = (.pending, room) ∨
      ∃ outcome, room.poll place = (.answered outcome, room.leave place) := by
  cases h : room.waiter? place with
  | none => exact .inl (poll_of_none h)
  | some waiter =>
    cases h_answer : room.slot.answer? waiter with
    | none => exact .inr (.inl (poll_of_pending h h_answer))
    | some outcome => exact .inr (.inr ⟨outcome, poll_of_answered h h_answer⟩)

/-- What is found is decided by who waits at the place, and by the answer there is for it. -/
theorem poll_fst (room : WaitRoom) (place : Nat) : (room.poll place).1 =
    (room.waiter? place).elim .gone fun waiter =>
      (room.slot.answer? waiter).elim .pending .answered := by
  cases h : room.waiter? place with
  | none => rw [poll_of_none h, Option.elim_none]
  | some waiter =>
    rw [Option.elim_some]
    cases h_answer : room.slot.answer? waiter with
    | none => rw [poll_of_pending h h_answer, Option.elim_none]
    | some outcome => rw [poll_of_answered h h_answer, Option.elim_some]

/-- A place is found empty exactly if nobody waits there. -/
theorem poll_eq_gone : (room.poll place).1 = .gone ↔ room.waiter? place = none := by
  rw [poll_fst]
  cases room.waiter? place with
  | none => exact ⟨fun _ => rfl, fun _ => rfl⟩
  | some waiter =>
    rw [Option.elim_some]
    cases room.slot.answer? waiter <;> simp

/-- Who is present has not found itself gone. -/
theorem present_eq (room : WaitRoom) (places : Finset Nat) :
    room.present places = places.filter fun place => (room.poll place).1 ≠ .gone := by
  refine Finset.filter_congr fun place _ => ?_
  rw [ne_eq, poll_eq_gone, Option.isSome_iff_ne_none]

/-- Who joins stands behind all others. -/
theorem waiter?_join (room : WaitRoom) (place : Nat) : room.join.2.waiter? place =
    if place = room.waiters.length then some room.slot.join.1 else room.waiter? place := by
  change (room.waiters ++ [some room.slot.join.1])[place]?.join = _
  rw [List.getElem?_append]
  split
  · next h => rw [if_neg (Nat.ne_of_lt h), waiter?]
  · next h =>
    by_cases h_eq : place = room.waiters.length
    · simp [h_eq]
    · have h_none : room.waiters[place]? = none :=
        List.getElem?_eq_none_iff.mpr (Nat.le_of_not_lt h)
      rw [if_neg h_eq, waiter?, h_none, List.getElem?_eq_none_iff.mpr]
      rw [List.length_singleton]
      omega

theorem length_join (room : WaitRoom) : room.join.2.waiters.length = room.waiters.length + 1 := by
  change (room.waiters ++ [_]).length = _
  rw [List.length_append, List.length_singleton]

/-- Who is not there cannot go away. -/
theorem leave_of_none (h : room.waiter? place = none) : room.leave place = room := by
  rw [waiter?] at h
  rw [leave, h]

/-- Who goes away leaves the place empty, and the slot is told. -/
theorem leave_of_some (h : room.waiter? place = some waiter) : room.leave place =
    { room with slot := room.slot.leave waiter, waiters := room.waiters.set place none } := by
  rw [waiter?] at h
  rw [leave, h]

/-- Only the waiter that goes away is not there any more. -/
theorem waiter?_leave (room : WaitRoom) (place other : Nat) : (room.leave place).waiter? other =
    if other = place then none else room.waiter? other := by
  cases h : room.waiter? place with
  | none =>
    rw [leave_of_none h]
    split
    · next h_eq => rw [h_eq, h]
    · rfl
  | some waiter =>
    rw [leave_of_some h]
    change (room.waiters.set place none)[other]?.join = _
    rw [List.getElem?_set]
    split
    · next h_eq =>
      rw [if_pos h_eq.symm]
      split <;> rfl
    · next h_ne => rw [if_neg (Ne.symm h_ne), waiter?]

/-- Places stay when their waiters go. -/
theorem length_leave (room : WaitRoom) (place : Nat) :
    (room.leave place).waiters.length = room.waiters.length := by
  cases h : room.waiter? place with
  | none => rw [leave_of_none h]
  | some waiter => rw [leave_of_some h, List.length_set]

/-- Nobody who goes away changes what was resolved. -/
@[simp] theorem past_leave (room : WaitRoom) (place : Nat) :
    (room.leave place).slot.past = room.slot.past := by
  cases h : room.waiter? place with
  | none => rw [leave_of_none h]
  | some waiter => rw [leave_of_some h, WaitSlot.past_leave]

/-! ### The slot and the generation -/

/-- The slot counts what a generation says: its notification is pending if somebody joined it, those
who joined it wait for it, all others wait for earlier ones, and it counts who is still there. -/
structure Fits (room : WaitRoom) (generation : Finset Nat) : Prop where
  isPending : room.slot.isPending = true ↔ generation.Nonempty
  placed : ∀ place ∈ generation, place < room.waiters.length
  current : ∀ place ∈ generation, ∀ waiter, room.waiter? place = some waiter →
    waiter.generation = room.slot.past.length
  earlier : ∀ place ∉ generation, ∀ waiter, room.waiter? place = some waiter →
    waiter.generation < room.slot.past.length
  counted : room.slot.waiterCount = (room.present generation).card
  slotless : room.hasSlot = false → generation = ∅

namespace Fits

theorem fresh : WaitRoom.fresh.Fits ∅ where
  isPending := by decide
  placed := by simp
  current := by simp
  earlier := by simp [waiter?, WaitRoom.fresh]
  counted := by decide
  slotless := fun _ => rfl

/-- Where no notification is pending, nobody has joined one. -/
theorem eq_empty (h : room.Fits generation) (h_idle : room.slot.waiters = none) :
    generation = ∅ := by
  rw [← Finset.not_nonempty_iff_eq_empty, ← h.isPending, WaitSlot.isPending, h_idle]
  decide

/-- Who has no answer yet is one of the generation. -/
theorem mem_of_pending (h : room.Fits generation) (h_waiter : room.waiter? place = some waiter)
    (h_answer : room.slot.answer? waiter = none) : place ∈ generation := by
  by_contra h_not
  have h_lt := h.earlier place h_not waiter h_waiter
  exact Nat.not_le.mpr h_lt (WaitSlot.answer?_eq_none.mp h_answer)

/-- And then it is attached to the pending notification. -/
theorem isAttached (h : room.Fits generation) (h_waiter : room.waiter? place = some waiter)
    (h_answer : room.slot.answer? waiter = none) : room.slot.IsAttached waiter := by
  have h_mem := h.mem_of_pending h_waiter h_answer
  exact ⟨h.isPending.mpr ⟨place, h_mem⟩, h.current place h_mem waiter h_waiter⟩

/-- Who joins a slot belongs to its generation. -/
theorem join (h : room.Fits generation) (h_slot : room.hasSlot = true) :
    room.join.2.Fits (insert room.waiters.length generation) := by
  have h_new : room.waiters.length ∉ generation := fun h_mem =>
    Nat.lt_irrefl _ (h.placed _ h_mem)
  have h_old : ∀ place ∈ generation, room.join.2.waiter? place = room.waiter? place := by
    intro place h_mem
    rw [waiter?_join, if_neg (Nat.ne_of_lt (h.placed place h_mem))]
  have h_self : room.join.2.waiter? room.waiters.length = some room.slot.join.1 := by
    rw [waiter?_join, if_pos rfl]
  constructor
  case isPending => exact ⟨fun _ => Finset.insert_nonempty _ _, fun _ => rfl⟩
  case placed =>
    intro place h_mem
    rw [length_join]
    rcases Finset.mem_insert.mp h_mem with rfl | h_mem
    · exact Nat.lt_succ_self _
    · exact Nat.lt_succ_of_lt (h.placed place h_mem)
  case current =>
    intro place h_mem waiter h_waiter
    rcases Finset.mem_insert.mp h_mem with rfl | h_mem
    · obtain rfl := Option.some.inj (h_self.symm.trans h_waiter)
      rfl
    · rw [h_old place h_mem] at h_waiter
      exact h.current place h_mem waiter h_waiter
  case earlier =>
    intro place h_not waiter h_waiter
    rw [Finset.mem_insert, not_or] at h_not
    rw [waiter?_join, if_neg h_not.1] at h_waiter
    exact h.earlier place h_not.2 waiter h_waiter
  case counted =>
    have h_present : room.join.2.present (insert room.waiters.length generation) =
        insert room.waiters.length (room.present generation) := by
      rw [present, Finset.filter_insert, if_pos (by rw [h_self, Option.isSome_some]), present]
      congr 1
      exact Finset.filter_congr fun place h_mem => by rw [h_old place h_mem]
    have h_not : room.waiters.length ∉ room.present generation := fun h_mem =>
      h_new (mem_present.mp h_mem).1
    rw [h_present, Finset.card_insert_of_notMem h_not, ← h.counted]
    rfl
  case slotless => exact fun h_gone => absurd h_slot (Bool.eq_false_iff.mp h_gone)

/-- With its notification, a whole generation is over. -/
theorem resolve (h : room.Fits generation) (outcome : WaitOutcome) (hasSlot : Bool) :
    ({ room with slot := (room.slot.resolve outcome).2, hasSlot } : WaitRoom).Fits ∅ := by
  -- everybody who is there waited for an earlier notification or for this one, and all of these are
  -- in the past now
  have h_behind : ∀ place waiter, room.waiter? place = some waiter →
      waiter.generation < (room.slot.resolve outcome).2.past.length := by
    intro place waiter h_waiter
    cases h_waiters : room.slot.waiters with
    | none =>
      rw [WaitSlot.resolve_of_waiters_none h_waiters]
      refine h.earlier place ?_ waiter h_waiter
      rw [h.eq_empty h_waiters]
      exact Finset.notMem_empty place
    | some n =>
      rw [WaitSlot.resolve_of_waiters_some h_waiters, List.length_append, List.length_singleton]
      by_cases h_mem : place ∈ generation
      · rw [h.current place h_mem waiter h_waiter]
        exact Nat.lt_succ_self _
      · exact Nat.lt_succ_of_lt (h.earlier place h_mem waiter h_waiter)
  constructor
  case isPending => simp
  case placed => simp
  case current => simp
  case earlier => exact fun place _ waiter h_waiter => h_behind place waiter h_waiter
  case counted => simp [WaitSlot.waiterCount, present]
  case slotless => exact fun _ => rfl

/-- A notification that nobody waits for any more may go. -/
theorem release (h : room.Fits generation) (h_abandoned : room.slot.waiters = some 0) :
    ({ room with slot := { room.slot with waiters := none } } : WaitRoom).Fits ∅ := by
  have h_none : room.present generation = ∅ := by
    rw [← Finset.card_eq_zero, ← h.counted, WaitSlot.waiterCount, h_abandoned, Option.getD_some]
  constructor
  case isPending => simp [WaitSlot.isPending]
  case placed => simp
  case current => simp
  case earlier =>
    intro place _ waiter h_waiter
    refine h.earlier place ?_ waiter h_waiter
    -- somebody who is still there would have been counted
    intro h_mem
    have h_present : place ∈ room.present generation := mem_present.mpr ⟨h_mem, waiter, h_waiter⟩
    rw [h_none] at h_present
    exact Finset.notMem_empty place h_present
  case counted => simp [WaitSlot.waiterCount, present]
  case slotless => exact fun _ => rfl

/-- Who goes away is not counted any more. -/
theorem leave (h : room.Fits generation) (place : Nat) : (room.leave place).Fits generation := by
  cases h_waiter : room.waiter? place with
  | none => rwa [leave_of_none h_waiter]
  | some waiter =>
  have h_leave := leave_of_some h_waiter
  have h_slot : (room.leave place).slot = room.slot.leave waiter := by rw [h_leave]
  have h_stays : ∀ other waiter', (room.leave place).waiter? other = some waiter' →
      room.waiter? other = some waiter' := by
    intro other waiter' h_other
    rw [waiter?_leave] at h_other
    split at h_other
    · cases h_other
    · exact h_other
  -- the generation loses nobody, but one place of it is empty now
  have h_present : (room.leave place).present generation =
      (room.present generation).erase place := by
    ext other
    simp only [present, Finset.mem_filter, Finset.mem_erase, waiter?_leave]
    by_cases h_eq : other = place <;> simp [h_eq]
  constructor
  case isPending => rw [h_slot, WaitSlot.isPending_leave, h.isPending]
  case placed =>
    intro other h_mem
    rw [length_leave]
    exact h.placed other h_mem
  case current =>
    intro other h_mem waiter' h_other
    rw [past_leave]
    exact h.current other h_mem waiter' (h_stays other waiter' h_other)
  case earlier =>
    intro other h_not waiter' h_other
    rw [past_leave]
    exact h.earlier other h_not waiter' (h_stays other waiter' h_other)
  case counted =>
    rw [h_present, h_slot]
    by_cases h_mem : place ∈ generation
    -- a waiter of the pending notification was counted, and is counted no more
    · have h_there : place ∈ room.present generation := mem_present.mpr ⟨h_mem, waiter, h_waiter⟩
      rw [WaitSlot.waiterCount_leave (h.current place h_mem waiter h_waiter), h.counted,
        Finset.card_erase_of_mem h_there]
    -- a waiter of an earlier one was not counted, and the slot takes no note of it
    · have h_not : place ∉ room.present generation :=
        fun h_there => h_mem (mem_present.mp h_there).1
      have h_ne := Nat.ne_of_lt (h.earlier place h_mem waiter h_waiter)
      rw [Finset.erase_eq_of_notMem h_not, ← h.counted, WaitSlot.leave_of_ne h_ne]
  case slotless =>
    intro h_gone
    rw [h_leave] at h_gone
    exact h.slotless h_gone

/-- A slot that is asked to end the waits says whether a generation is over. -/
theorem resolveOnSlot (h : room.Fits generation) (outcome : WaitOutcome) {act : RoomAct}
    (h_act : act = .complete ∨ act = .cancel) :
    (told (room.onSlot (·.resolve outcome))).2.Fits
      (RoomStep.generationAfter generation ⟨act, (told (room.onSlot (·.resolve outcome))).1⟩) := by
  cases h_slot : room.hasSlot with
  | false =>
    rw [onSlot_of_slotless h_slot]
    rcases h_act with rfl | rfl <;> exact h
  | true =>
    rw [onSlot_of_slot h_slot]
    cases h_waiters : room.slot.waiters with
    -- nothing was pending, so the generation was empty, and stays so
    | none =>
      simp only [WaitSlot.resolve_of_waiters_none h_waiters]
      rcases h_act with rfl | rfl <;> exact h
    | some n =>
      have h_over := h.resolve outcome room.hasSlot
      simp only [WaitSlot.resolve_of_waiters_some h_waiters] at h_over ⊢
      rcases h_act with rfl | rfl <;> exact h_over

/-- Every act leaves a room that fits the generation after it. -/
theorem perform (h : room.Fits generation) (act : RoomAct) :
    (room.perform act).2.Fits
      (RoomStep.generationAfter generation ⟨act, (room.perform act).1⟩) := by
  cases act with
  | join =>
    rw [WaitRoom.perform]
    split
    · next h_slot => exact h.join h_slot
    · exact h
  | complete => exact h.resolveOnSlot .completed (.inl rfl)
  | cancel => exact h.resolveOnSlot .cancelled (.inr rfl)
  | release =>
    rw [WaitRoom.perform]
    cases h_slot : room.hasSlot with
    | false =>
      rw [onSlot_of_slotless h_slot]
      exact h
    | true =>
      rw [onSlot_of_slot h_slot, WaitSlot.releaseIfAbandoned]
      split
      · next h_abandoned => exact h.release h_abandoned
      · exact h
  | leave place => exact h.leave place
  -- to ask is nothing, unless there is an answer to go away with
  | poll place =>
    change (room.poll place).2.Fits generation
    rcases room.poll_course place with h_poll | h_poll | ⟨outcome, h_poll⟩ <;> rw [h_poll]
    · exact h
    · exact h
    · exact h.leave place
  | dropSlot => exact h.resolve .cancelled false
  | replaceSlot => exact h.resolve .cancelled true

/-- Any number of acts leaves a room that fits the generation of their history. -/
theorem after (h : room.Fits generation) (acts : List RoomAct) :
    (room.after acts).Fits ((room.history acts).foldl RoomStep.generationAfter generation) := by
  induction acts generalizing room generation with
  | nil => exact h
  | cons act acts ih => exact ih (h.perform act)

end Fits

/-! ### One waiter -/

/-- Somebody waits at a place, and has an answer or none. -/
structure Waits (room : WaitRoom) (place : Nat) (waiter : Waiter) (answer? : Option WaitOutcome) :
    Prop where
  there : room.waiter? place = some waiter
  answer : room.slot.answer? waiter = answer?

namespace Waits

variable {answer? : Option WaitOutcome}

/-- Somebody waits only at places that were given out. -/
theorem lt_length (h : room.Waits place waiter answer?) : place < room.waiters.length := by
  by_contra h_not
  have h_there := h.there
  rw [waiter?, List.getElem?_eq_none_iff.mpr (Nat.le_of_not_lt h_not)] at h_there
  cases h_there

/-- What is found is the answer, if there is one. -/
theorem poll (h : room.Waits place waiter answer?) :
    (room.poll place).1 = answer?.elim .pending .answered := by
  rw [poll_fst, h.there, Option.elim_some, h.answer]

/-- Who joins changes nothing for those who wait. -/
theorem join (h : room.Waits place waiter answer?) : room.join.2.Waits place waiter answer? := by
  refine ⟨?_, h.answer⟩
  rw [waiter?_join, if_neg (Nat.ne_of_lt h.lt_length)]
  exact h.there

/-- Who goes away takes no answer along. -/
theorem leave (h : room.Waits place waiter answer?) (h_other : other ≠ place) :
    (room.leave other).Waits place waiter answer? := by
  refine ⟨?_, ?_⟩
  · rw [waiter?_leave, if_neg (Ne.symm h_other)]
    exact h.there
  · rw [WaitSlot.answer?, past_leave]
    exact h.answer

/-- Resolving the notification answers those who have no answer yet. -/
theorem resolve (h : room.Waits place waiter answer?) (fits : room.Fits generation)
    (outcome : WaitOutcome) (hasSlot : Bool) :
    ({ room with slot := (room.slot.resolve outcome).2, hasSlot } : WaitRoom).Waits place waiter
      (answer?.or (some outcome)) := by
  refine ⟨h.there, ?_⟩
  have h_answer := h.answer
  cases answer? with
  | none => exact (fits.isAttached h.there h_answer).answer?_resolve outcome
  | some earlier => exact WaitSlot.answer?_resolve_of_some h_answer outcome

/-- A slot that is asked to end the waits ends them for those who still wait. -/
theorem resolveOnSlot (h : room.Waits place waiter answer?) (fits : room.Fits generation)
    (outcome : WaitOutcome) :
    (told (room.onSlot (·.resolve outcome))).2.Waits place waiter (answer?.or (some outcome)) := by
  cases h_slot : room.hasSlot with
  | false =>
    rw [onSlot_of_slotless h_slot]
    -- without a slot, everybody has an answer
    cases answer? with
    | none =>
      have h_mem := fits.mem_of_pending h.there h.answer
      rw [fits.slotless h_slot] at h_mem
      exact absurd h_mem (Finset.notMem_empty place)
    | some earlier => exact h
  | true =>
    rw [onSlot_of_slot h_slot]
    exact h.resolve fits outcome room.hasSlot

/-- A release ends no wait. -/
theorem releaseOnSlot (h : room.Waits place waiter answer?) :
    (told (room.onSlot (·.releaseIfAbandoned))).2.Waits place waiter answer? := by
  cases h_slot : room.hasSlot with
  | false =>
    rw [onSlot_of_slotless h_slot]
    exact h
  | true =>
    rw [onSlot_of_slot h_slot]
    refine ⟨h.there, ?_⟩
    rw [told, WaitSlot.answer?, WaitSlot.past_releaseIfAbandoned]
    exact h.answer

/-- A waiter that an act does not send away is still there, and has the answer it had before, or
else the one that the act gives to everybody. -/
theorem perform (h : room.Waits place waiter answer?) (fits : room.Fits generation) (act : RoomAct)
    (h_stays : RoomStep.removes place ⟨act, (room.perform act).1⟩ = false) :
    (room.perform act).2.Waits place waiter (answer?.or act.outcome?) := by
  cases act with
  | join =>
    rw [RoomAct.outcome?, Option.or_none, WaitRoom.perform]
    split
    · exact h.join
    · exact h
  | complete => exact h.resolveOnSlot fits .completed
  | cancel => exact h.resolveOnSlot fits .cancelled
  | release =>
    rw [RoomAct.outcome?, Option.or_none]
    exact h.releaseOnSlot
  | leave other =>
    rw [RoomAct.outcome?, Option.or_none]
    exact h.leave (beq_eq_false_iff_ne.mp h_stays)
  -- another one that is asked may go away, and takes no answer along
  | poll other =>
    rw [RoomAct.outcome?, Option.or_none]
    rw [WaitRoom.perform] at h_stays ⊢
    rcases room.poll_course other with h_poll | h_poll | ⟨outcome, h_poll⟩ <;>
      rw [h_poll] at h_stays ⊢
    · exact h
    · exact h
    · exact h.leave (beq_eq_false_iff_ne.mp h_stays)
  | dropSlot => exact h.resolve fits .cancelled false
  | replaceSlot => exact h.resolve fits .cancelled true

end Waits

/-- A waiter that an act sends away is not there any more. -/
theorem waiter?_perform_of_removes {act : RoomAct}
    (h : RoomStep.removes place ⟨act, (room.perform act).1⟩ = true) :
    (room.perform act).2.waiter? place = none := by
  cases act with
  | leave other =>
    obtain rfl : other = place := beq_iff_eq.mp h
    exact (waiter?_leave room other other).trans (if_pos rfl)
  | poll other =>
    rw [perform] at h ⊢
    rcases room.poll_course other with h_poll | h_poll | ⟨outcome, h_poll⟩ <;> rw [h_poll] at h ⊢
    · cases h
    · cases h
    · obtain rfl : other = place := beq_iff_eq.mp h
      exact (waiter?_leave room other other).trans (if_pos rfl)
  | join => cases h
  | complete => cases h
  | cancel => cases h
  | release => cases h
  | dropSlot => cases h
  | replaceSlot => cases h

/-- What is asked of the slot sends nobody away. -/
theorem waiters_onSlot (room : WaitRoom) (f : WaitSlot → Bool × WaitSlot) :
    (told (room.onSlot f)).2.waiters = room.waiters := by
  rw [onSlot, told]
  split <;> rfl

/-- A slot that is asked stays there. -/
theorem hasSlot_onSlot (room : WaitRoom) (f : WaitSlot → Bool × WaitSlot) :
    (told (room.onSlot f)).2.hasSlot = room.hasSlot := by
  rw [onSlot, told]
  split <;> rfl

/-- Nobody takes the slot along. -/
theorem hasSlot_leave (room : WaitRoom) (place : Nat) :
    (room.leave place).hasSlot = room.hasSlot := by
  cases h : room.waiter? place with
  | none => rw [leave_of_none h]
  | some waiter => rw [leave_of_some h]

/-- The slot comes and goes with the acts that say so, and with no other. -/
theorem hasSlot_perform (room : WaitRoom) (act : RoomAct) : (room.perform act).2.hasSlot =
    RoomStep.slotAfter room.hasSlot ⟨act, (room.perform act).1⟩ := by
  cases act with
  | join =>
    rw [perform]
    split <;> rfl
  | complete | cancel | release => exact room.hasSlot_onSlot _
  | leave other => exact room.hasSlot_leave other
  | poll other =>
    rw [perform]
    rcases room.poll_course other with h_poll | h_poll | ⟨outcome, h_poll⟩ <;> rw [h_poll]
    · rfl
    · rfl
    · exact room.hasSlot_leave other
  | dropSlot => rfl
  | replaceSlot => rfl

/-- An answer about the slot places nobody. -/
theorem joins_told (act : RoomAct) (answer : Option Bool × WaitRoom) :
    RoomStep.joins ⟨act, (told answer).1⟩ = false := by
  rw [RoomStep.joins, told]
  cases answer.1 <;> rfl

/-- There is one place more after somebody has joined, and a place is never taken away. -/
theorem length_perform (room : WaitRoom) (act : RoomAct) : (room.perform act).2.waiters.length =
    room.waiters.length + if RoomStep.joins ⟨act, (room.perform act).1⟩ then 1 else 0 := by
  cases act with
  | join =>
    rw [perform]
    split
    · exact length_join room
    · rfl
  | complete | cancel | release => rw [perform, waiters_onSlot, joins_told]; rfl
  | leave other => exact length_leave room other
  | poll other =>
    rw [perform]
    rcases room.poll_course other with h_poll | h_poll | ⟨outcome, h_poll⟩ <;> rw [h_poll]
    · rfl
    · rfl
    · exact length_leave room other
  | dropSlot => rfl
  | replaceSlot => rfl

/-- After any acts, the slot is there or not as their history says. -/
theorem hasSlot_after (room : WaitRoom) (acts : List RoomAct) :
    (room.after acts).hasSlot = (room.history acts).foldl RoomStep.slotAfter room.hasSlot := by
  induction acts generalizing room with
  | nil => rfl
  | cons act acts ih => exact (ih _).trans (by rw [hasSlot_perform]; rfl)

/-- There are as many places as have joined. -/
theorem length_after (room : WaitRoom) (acts : List RoomAct) : (room.after acts).waiters.length =
    room.waiters.length + (room.history acts).countP (·.joins) := by
  induction acts generalizing room with
  | nil => rfl
  | cons act acts ih =>
    -- the places of those who join later come on top of the one that was given out now
    have h_next := ih (room.perform act).2
    rw [length_perform, Nat.add_assoc, Nat.add_comm (ite _ _ _)] at h_next
    rw [history, List.countP_cons]
    exact h_next

/-- Nobody comes back to a place that was left. -/
theorem waiter?_perform_of_none (act : RoomAct) (h_joined : place < room.waiters.length)
    (h_none : room.waiter? place = none) : (room.perform act).2.waiter? place = none := by
  cases act with
  -- who joins has a place of its own, behind all that were given out
  | join =>
    rw [perform]
    split
    · rwa [waiter?_join, if_neg (Nat.ne_of_lt h_joined)]
    · exact h_none
  | complete => rwa [perform, waiter?, waiters_onSlot]
  | cancel => rwa [perform, waiter?, waiters_onSlot]
  | release => rwa [perform, waiter?, waiters_onSlot]
  | leave other => rw [perform, waiter?_leave, h_none, ite_self]
  | poll other =>
    rw [perform]
    rcases room.poll_course other with h_poll | h_poll | ⟨outcome, h_poll⟩ <;> rw [h_poll]
    · exact h_none
    · exact h_none
    · rw [waiter?_leave, h_none, ite_self]
  | dropSlot => exact h_none
  | replaceSlot => exact h_none

/-- What has become of somebody who joined, after the steps since: it has gone away, or waits and
has the first answer that was given to everybody. -/
structure Stands (room : WaitRoom) (place : Nat) (since : List RoomStep) : Prop where
  joined : place < room.waiters.length
  gone : since.any (·.removes place) = true → room.waiter? place = none
  waits : since.any (·.removes place) = false →
    ∃ waiter, room.Waits place waiter (since.findSome? (·.act.outcome?))

namespace Stands

variable {since : List RoomStep}

/-- What is found at a place is what the steps since the joining call for. -/
theorem poll (h : room.Stands place since) :
    (room.poll place).1 = RoomStep.foundAt place since := by
  rw [RoomStep.foundAt]
  cases h_removed : since.any (·.removes place) with
  | true => rw [if_pos rfl, poll_eq_gone.mpr (h.gone h_removed)]
  | false =>
    obtain ⟨waiter, h_waits⟩ := h.waits h_removed
    rw [if_neg Bool.false_ne_true, h_waits.poll]
    cases since.findSome? (·.act.outcome?) <;> rfl

/-- Who has just joined has no answer. -/
theorem start (room : WaitRoom) : room.join.2.Stands room.waiters.length [] where
  joined := by
    rw [length_join]
    exact Nat.lt_succ_self _
  gone h_removed := absurd h_removed Bool.false_ne_true
  waits _ := by
    refine ⟨room.slot.join.1, ?_, ?_⟩
    · rw [waiter?_join, if_pos rfl]
    · exact (WaitSlot.isAttached_join room.slot).answer?_eq_none

/-- One act more is one step more in the history. -/
theorem perform (h : room.Stands place since) (fits : room.Fits generation) (act : RoomAct) :
    (room.perform act).2.Stands place (since ++ [⟨act, (room.perform act).1⟩]) := by
  have h_any : ∀ step : RoomStep, (since ++ [step]).any (·.removes place) =
      (since.any (·.removes place) || step.removes place) := by
    intro step
    rw [List.any_append, List.any_cons, List.any_nil, Bool.or_false]
  constructor
  case joined =>
    rw [length_perform]
    exact Nat.lt_add_right _ h.joined
  -- it was gone before, or goes away with this act
  case gone =>
    intro h_removed
    rw [h_any, Bool.or_eq_true] at h_removed
    rcases h_removed with h_before | h_now
    · exact waiter?_perform_of_none act h.joined (h.gone h_before)
    · exact waiter?_perform_of_removes h_now
  -- it is still there, and the act's outcome counts if it had none before
  case waits =>
    intro h_kept
    rw [h_any, Bool.or_eq_false_iff] at h_kept
    obtain ⟨waiter, h_waits⟩ := h.waits h_kept.1
    refine ⟨waiter, ?_⟩
    rw [List.findSome?_append, List.findSome?_singleton]
    exact h_waits.perform fits act h_kept.2

/-- Any number of acts, with the room and the generation that fits it carried along. -/
theorem after (h : room.Stands place since) (fits : room.Fits generation) (acts : List RoomAct) :
    (room.after acts).Stands place (since ++ room.history acts) := by
  induction acts generalizing room generation since with
  | nil =>
    rw [history, List.append_nil]
    exact h
  | cons act acts ih =>
    have h_next := ih (h.perform fits act) (fits.perform act)
    rwa [List.append_assoc] at h_next

/-- Whoever joined in a history stands as the steps since then say. -/
theorem of_history (fits : room.Fits generation) {acts : List RoomAct}
    {earlier since : List RoomStep}
    (h : room.history acts = earlier ++ ⟨.join, .placed place⟩ :: since) :
    (room.after acts).Stands place since := by
  -- the induction is on the acts: the joining is the first of them, or a later one
  induction acts generalizing room generation earlier with
  | nil => simp [history] at h
  | cons act acts ih =>
    rw [history] at h
    cases earlier with
    | nil =>
      obtain ⟨h_step, h_since⟩ := List.cons.inj h
      obtain ⟨rfl, h_answer⟩ := RoomStep.mk.inj h_step
      -- it was placed, so there was a slot to join
      cases h_slot : room.hasSlot with
      | false =>
        rw [WaitRoom.perform, h_slot, if_neg Bool.false_ne_true] at h_answer
        cases h_answer
      | true =>
        have h_perform : room.perform .join = (.placed room.waiters.length, room.join.2) := by
          rw [WaitRoom.perform, if_pos h_slot]
          rfl
        rw [h_perform] at h_answer h_since
        obtain rfl := RoomAnswer.placed.inj h_answer
        have h_stands := (start room).after (fits.join h_slot) acts
        rw [List.nil_append, h_since] at h_stands
        change ((room.perform .join).2.after acts).Stands _ _
        rwa [h_perform]
    | cons step earlier => exact ih (fits.perform act) (List.cons.inj h).2

end Stands

/-! ### Whatever is done to a room -/

/-- A room answers as its history calls for. -/
structure AnswersTo (room : WaitRoom) (history : List RoomStep) : Prop where
  /-- The slot is there unless it was taken away, and no new one was put in its place since. -/
  hasSlot : room.hasSlot = RoomStep.hasSlot history
  /-- Whoever joins a slot that is there has the next place; without a slot, nobody joins. -/
  joined : (room.perform .join).1 =
    if RoomStep.hasSlot history then .placed (history.countP (·.joins)) else .nothing
  /-- Who has joined, and neither gone away nor had its answer, finds the first answer that was
  given to everybody since, and nothing if there was none. -/
  polled : ∀ earlier place since, history = earlier ++ ⟨.join, .placed place⟩ :: since →
    (room.poll place).1 = RoomStep.foundAt place since
  /-- There is something to complete or to cancel exactly if somebody joined since a notification
  was last resolved or released. -/
  resolved : ∀ act, act = .complete ∨ act = .cancel → room.hasSlot = true →
    (room.perform act).1 = .told (decide (RoomStep.generation history).Nonempty)
  /-- A notification is released exactly if somebody joined it, and all who did are gone. -/
  released : room.hasSlot = true → (room.perform .release).1 =
    .told (decide ((RoomStep.generation history).Nonempty ∧
      ∀ place ∈ RoomStep.generation history, (room.poll place).1 = .gone))
  /-- Whether or not it is released, nobody is told anything. -/
  untold : ∀ place, ((room.perform .release).2.poll place).1 = (room.poll place).1
  /-- The waiters that are counted are those who joined the pending notification and
  are not gone. -/
  counted : room.slot.waiterCount =
    ((RoomStep.generation history).filter fun place => (room.poll place).1 ≠ .gone).card

/-- Releasing a notification tells nobody anything. -/
theorem poll_release (room : WaitRoom) (place : Nat) :
    ((room.perform .release).2.poll place).1 = (room.poll place).1 := by
  have h_past : (room.perform .release).2.slot.past = room.slot.past := by
    rw [perform, onSlot, told]
    split
    · exact room.slot.past_releaseIfAbandoned
    · rfl
  have h_waiters : (room.perform .release).2.waiters = room.waiters := waiters_onSlot ..
  simp only [poll_fst, waiter?, WaitSlot.answer?, h_past, h_waiters]

/-- Whatever has been done to a room, it answers as its history calls for. -/
theorem delivers_by_generation (acts : List RoomAct) :
    (fresh.after acts).AnswersTo (fresh.history acts) := by
  have fits : (fresh.after acts).Fits (RoomStep.generation (fresh.history acts)) :=
    Fits.fresh.after acts
  -- the slot counts a pending notification exactly if its generation is not empty
  have h_pending : (fresh.after acts).slot.isPending =
      decide (RoomStep.generation (fresh.history acts)).Nonempty := by
    rw [Bool.eq_iff_iff, decide_eq_true_iff]
    exact fits.isPending
  have h_hasSlot : (fresh.after acts).hasSlot = RoomStep.hasSlot (fresh.history acts) :=
    fresh.hasSlot_after acts
  constructor
  case hasSlot => exact h_hasSlot
  case joined =>
    have h_place : (fresh.after acts).join.1 = (fresh.history acts).countP (·.joins) :=
      (fresh.length_after acts).trans (Nat.zero_add _)
    rw [perform, h_hasSlot, h_place]
    split <;> rfl
  case polled =>
    intro earlier place since h
    exact (Stands.of_history Fits.fresh h).poll
  case resolved =>
    intro act h_act h_slot
    rcases h_act with rfl | rfl
    · rw [perform, onSlot_of_slot h_slot, told, WaitSlot.complete, WaitSlot.resolve_fst, h_pending]
      rfl
    · rw [perform, onSlot_of_slot h_slot, told, WaitSlot.cancel, WaitSlot.resolve_fst, h_pending]
      rfl
  case released =>
    intro h_slot
    -- and counts nobody exactly if all of its generation are gone
    have h_abandoned : ((fresh.after acts).slot.waiterCount == 0) =
        decide (∀ place ∈ RoomStep.generation (fresh.history acts),
          ((fresh.after acts).poll place).1 = .gone) := by
      rw [Bool.eq_iff_iff, beq_iff_eq, decide_eq_true_iff, fits.counted, present_eq,
        Finset.card_eq_zero, Finset.filter_eq_empty_iff]
      simp only [ne_eq, not_not]
    rw [perform, onSlot_of_slot h_slot, told, WaitSlot.releaseIfAbandoned_fst, h_pending,
      h_abandoned, ← Bool.decide_and]
    rfl
  case untold => exact poll_release _
  case counted => rw [fits.counted, present_eq]

/-- The first one is gone, the second one was completed, and the third one, who joined after that,
was cancelled. -/
example :
    let room := fresh.after [.join, .join, .leave 0, .complete, .join, .cancel, .complete]
    (room.poll 0).1 = .gone ∧ (room.poll 1).1 = .answered .completed ∧
      (room.poll 2).1 = .answered .cancelled := by
  decide

end WaitRoom

end OperationFeed
