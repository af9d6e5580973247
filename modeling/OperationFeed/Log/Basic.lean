import OperationFeed.Operation

/-!
# Sequenced logs

A log is a list of items under strictly increasing sequence numbers. Items enter at the end and
leave from the front; reading never changes it. The log remembers the greatest number it ever
accepted, its *high-water mark*, so a number that was once used cannot come back after the entry
under it has gone.

* `Log.append` refuses exactly the numbers that do not exceed the high-water mark;
* `Log.truncate` removes the entries up to a number and says how many they were;
* `Log.read` takes the first entries after a number.
-/

namespace OperationFeed

/-- An item and the sequence number it entered the log under. -/
structure LogEntry (α : Type) where
  number : SequenceNumber
  item : α

/-- The refusal of a number that does not exceed every number accepted before. -/
structure OutOfOrder where
  /-- The greatest number accepted so far. -/
  last : SequenceNumber
  attempted : SequenceNumber
deriving DecidableEq

/-- The text of the refusal. -/
def OutOfOrder.message (e : OutOfOrder) : String :=
  s!"sequence numbers out of order: {e.attempted.toNat} does not exceed {e.last.toNat}"

/-- A list of items in the order of their sequence numbers. -/
structure Log (α : Type) where
  /-- What is in the log, oldest first. -/
  entries : List (LogEntry α)
  /-- The greatest number ever accepted. -/
  highWater : Option SequenceNumber
  sorted : entries.Pairwise (fun a b => a.number < b.number)
  /-- No number exceeds the high-water mark. -/
  bounded : ∀ e ∈ entries, ∃ mark, highWater = some mark ∧ e.number ≤ mark

namespace Log

variable {α : Type}

/-- The log that never held anything. -/
def empty : Log α := ⟨[], none, .nil, by simp⟩

instance : EmptyCollection (Log α) := ⟨empty⟩
instance : Inhabited (Log α) := ⟨empty⟩

/-- Put an item at the end, under a number above the high-water mark. -/
def push (log : Log α) (number : SequenceNumber) (item : α)
    (above : ∀ mark, log.highWater = some mark → mark < number) : Log α where
  entries := log.entries ++ [⟨number, item⟩]
  highWater := some number
  sorted := by
    refine List.pairwise_append.2 ⟨log.sorted, List.pairwise_singleton _ _, fun e he b hb => ?_⟩
    obtain ⟨mark, hmark, hle⟩ := log.bounded e he
    rw [List.mem_singleton.1 hb]
    exact UInt64.lt_of_le_of_lt hle (above mark hmark)
  bounded := fun e he => by
    refine ⟨number, rfl, ?_⟩
    rcases List.mem_append.1 he with he | he
    · obtain ⟨mark, hmark, hle⟩ := log.bounded e he
      exact UInt64.le_of_lt (UInt64.lt_of_le_of_lt hle (above mark hmark))
    · rw [List.mem_singleton.1 he]
      exact UInt64.le_refl _

/-- Put an item at the end, unless its number fails to exceed the high-water mark. -/
def append (log : Log α) (number : SequenceNumber) (item : α) : Except OutOfOrder (Log α) :=
  match h : log.highWater with
  | none => .ok (log.push number item (by simp [h]))
  | some last =>
    if hlt : last < number then
      .ok (log.push number item (by simp [h, hlt]))
    else
      .error ⟨last, number⟩

/-- Remove every entry with a number up to `upTo`, and count them. -/
def truncate (log : Log α) (upTo : SequenceNumber) : Nat × Log α :=
  ((log.entries.takeWhile (fun e => e.number ≤ upTo)).length,
    { entries := log.entries.dropWhile (fun e => e.number ≤ upTo)
      highWater := log.highWater
      sorted := log.sorted.sublist (List.dropWhile_sublist _)
      bounded := fun e he => log.bounded e ((List.dropWhile_sublist _).mem he) })

/-- The first `max` items with numbers after `after`, in order. -/
def read (log : Log α) (after : SequenceNumber) (max : Nat) : List α :=
  ((log.entries.dropWhile (fun e => e.number ≤ after)).take max).map (·.item)

/-- The newest item. -/
def last? (log : Log α) : Option α := log.entries.getLast?.map (·.item)

/-- The number of the newest item. -/
def lastNumber? (log : Log α) : Option SequenceNumber := log.entries.getLast?.map (·.number)

/-- The number of the oldest item. -/
def firstNumber? (log : Log α) : Option SequenceNumber := log.entries.head?.map (·.number)

/-- How many items there are. -/
def size (log : Log α) : Nat := log.entries.length

/-- Whether there are no items. -/
def isEmpty (log : Log α) : Bool := log.entries.isEmpty

end Log

end OperationFeed
