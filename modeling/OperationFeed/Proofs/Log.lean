import OperationFeed.Log.Basic

/-!
# The log as a sorted list

Truncating and reading cut the log at the first entry above a number. As the numbers strictly
increase, the cut separates the entries by their numbers alone (`dropWhile_le_eq_filter`): what
stays, and what is read, is a filter (`Log.entries_truncate`, `Log.read_eq`).

Appending is described by what it adds, `Log.append_ok` and `Log.append_error`. What a log has
reached it accepts no more (`Log.Reaches`), however much of it is cut off.

A list of entries can be gone through in pages: what lies between two numbers is what lies between
the first and one in the middle, and then the rest (`entriesBetween_append`), and a page is
everything up to the number of its last entry (`entriesBetween_page`).
-/

namespace OperationFeed

variable {α : Type}

/-- In strictly increasing order, the entries left by dropping those up to a number are those above
it. -/
theorem dropWhile_le_eq_filter {l : List (LogEntry α)}
    (h : l.Pairwise (fun a b => a.number < b.number)) (upTo : SequenceNumber) :
    l.dropWhile (fun e => e.number ≤ upTo) = l.filter (fun e => upTo < e.number) := by
  induction l with
  | nil => rfl
  | cons a l ih =>
    have h_tail : ∀ b ∈ l, a.number < b.number := fun b hb => List.rel_of_pairwise_cons h hb
    by_cases h_le : a.number ≤ upTo
    · have h_not : ¬ upTo < a.number := UInt64.not_lt.mpr h_le
      rw [List.dropWhile_cons_of_pos (by simpa using h_le), ih h.of_cons,
        List.filter_cons_of_neg (by simpa using h_not)]
    · -- the head is above the number, and so is everything after it
      have h_lt : upTo < a.number := UInt64.not_le.mp h_le
      rw [List.dropWhile_cons_of_neg (by simpa using h_le)]
      refine (List.filter_eq_self.mpr ?_).symm
      intro b hb
      rcases List.mem_cons.mp hb with rfl | hb
      · simpa using h_lt
      · simpa using UInt64.lt_trans h_lt (h_tail b hb)

namespace Log

variable (log : Log α)

@[ext] theorem ext {log log' : Log α} (h_entries : log.entries = log'.entries)
    (h_highWater : log.highWater = log'.highWater) : log = log' := by
  cases log
  cases log'
  cases h_entries
  cases h_highWater
  rfl

@[simp] theorem entries_empty : (∅ : Log α).entries = [] := rfl

@[simp] theorem highWater_empty : (∅ : Log α).highWater = none := rfl

/-- Truncation keeps exactly the entries above the number. -/
@[simp] theorem entries_truncate (upTo : SequenceNumber) :
    (log.truncate upTo).2.entries = log.entries.filter (fun e => upTo < e.number) :=
  dropWhile_le_eq_filter log.sorted upTo

/-- A cut leaves the high-water mark where it is. -/
@[simp] theorem highWater_truncate (upTo : SequenceNumber) :
    (log.truncate upTo).2.highWater = log.highWater := rfl

/-- Two cuts come to the same in either order: what is above both numbers stays. -/
theorem truncate_comm (upTo upTo' : SequenceNumber) :
    ((log.truncate upTo).2.truncate upTo').2 = ((log.truncate upTo').2.truncate upTo).2 := by
  apply ext
  · simp only [entries_truncate, List.filter_filter, Bool.and_comm]
  · rfl

/-- A read gives the first items among those above the number. -/
theorem read_eq (after : SequenceNumber) (max : Nat) :
    log.read after max =
      ((log.entries.filter (fun e => after < e.number)).take max).map (·.item) := by
  rw [read, dropWhile_le_eq_filter log.sorted]

/-- A read finds nothing exactly if nothing is asked for or nothing is above the number. -/
theorem read_eq_nil {after : SequenceNumber} {max : Nat} :
    log.read after max = [] ↔ max = 0 ∨ ∀ e ∈ log.entries, e.number ≤ after := by
  rw [read_eq, List.map_eq_nil_iff, List.take_eq_nil_iff, List.filter_eq_nil_iff]
  simp

variable {log} {number : SequenceNumber} {item : α}

/-- Only an empty log has no last number. -/
theorem lastNumber?_eq_none : log.lastNumber? = none ↔ log.isEmpty = true := by
  rw [lastNumber?, Option.map_eq_none_iff, List.getLast?_eq_none_iff, isEmpty, List.isEmpty_iff]

/-- No number in the log exceeds the last one. -/
theorem all_lastNumber?_le {upTo : SequenceNumber} :
    log.lastNumber?.all (· ≤ upTo) = true ↔ ∀ e ∈ log.entries, e.number ≤ upTo := by
  rw [lastNumber?, Option.all_map]
  rcases List.eq_nil_or_concat log.entries with h_nil | ⟨front, last, h_concat⟩
  · simp [h_nil]
  · have sorted := log.sorted
    rw [h_concat, List.concat_eq_append] at sorted ⊢
    rw [List.getLast?_concat]
    -- the entries are in order, so the last one bounds those before it
    have h_front : last.number ≤ upTo → ∀ e ∈ front, e.number ≤ upTo := by
      intro h_le e h_mem
      have h_lt := (List.pairwise_append.mp sorted).2.2 e h_mem last (List.mem_singleton.mpr rfl)
      exact UInt64.le_trans (UInt64.le_of_lt h_lt) h_le
    simpa [or_imp, forall_and] using h_front

/-- A log that was cut ends above the cut. -/
theorem lt_of_lastNumber?_truncate {upTo last : SequenceNumber}
    (h : (log.truncate upTo).2.lastNumber? = some last) : upTo < last := by
  obtain ⟨e, h_last, rfl⟩ := Option.map_eq_some_iff.mp h
  have h_mem := List.mem_of_getLast? h_last
  rw [entries_truncate, List.mem_filter, decide_eq_true_iff] at h_mem
  exact h_mem.2

/-- An accepted item is put at the end, its number is above the high-water mark, and becomes it. -/
theorem append_ok {log' : Log α} (h : log.append number item = .ok log') :
    log'.entries = log.entries ++ [⟨number, item⟩] ∧ log'.highWater = some number ∧
      ∀ mark, log.highWater = some mark → mark < number := by
  unfold append at h
  -- the first append of all is accepted, any other one if its number is above the mark
  split at h
  · next h_mark =>
    obtain rfl := Except.ok.inj h
    exact ⟨rfl, rfl, by simp [h_mark]⟩
  · next last h_mark =>
    split at h
    · next h_lt =>
      obtain rfl := Except.ok.inj h
      refine ⟨rfl, rfl, ?_⟩
      intro mark h_some
      obtain rfl : last = mark := Option.some.inj (h_mark.symm.trans h_some)
      exact h_lt
    · cases h

/-- A refusal names the high-water mark, which the number does not exceed. -/
theorem append_error {e : OutOfOrder} (h : log.append number item = .error e) :
    log.highWater = some e.last ∧ e.attempted = number ∧ number ≤ e.last := by
  unfold append at h
  split at h
  · cases h
  · next last h_mark =>
    split at h
    · cases h
    · next h_lt =>
      obtain rfl := Except.error.inj h
      exact ⟨h_mark, rfl, UInt64.not_lt.mp h_lt⟩

/-- The log has reached a number: it accepts nothing up to it any more. -/
def Reaches (log : Log α) (number : SequenceNumber) : Prop :=
  ∃ mark, log.highWater = some mark ∧ number ≤ mark

/-- What the log accepts is above all that it has reached. -/
theorem Reaches.lt_of_append {log' : Log α} {reached : SequenceNumber} (h : log.Reaches reached)
    (accepted : log.append number item = .ok log') : reached < number := by
  obtain ⟨mark, h_mark, h_le⟩ := h
  exact UInt64.lt_of_le_of_lt h_le ((append_ok accepted).2.2 mark h_mark)

/-- What the log has reached stays reached as it accepts more. -/
theorem Reaches.append {log' : Log α} {reached : SequenceNumber} (h : log.Reaches reached)
    (accepted : log.append number item = .ok log') : log'.Reaches reached :=
  ⟨number, (append_ok accepted).2.1, UInt64.le_of_lt (h.lt_of_append accepted)⟩

end Log

/-! ### Pages -/

/-- The entries with numbers above a number. -/
def entriesAbove (low : SequenceNumber) (entries : List (LogEntry α)) : List (LogEntry α) :=
  entries.filter (fun e => low < e.number)

/-- The entries with numbers above one number, up to another. -/
def entriesBetween (low high : SequenceNumber) (entries : List (LogEntry α)) :
    List (LogEntry α) :=
  entries.filter (fun e => low < e.number ∧ e.number ≤ high)

section Pages

variable {low mid high : SequenceNumber} {l : List (LogEntry α)}

theorem mem_entriesAbove {e : LogEntry α} : e ∈ entriesAbove low l ↔ e ∈ l ∧ low < e.number := by
  rw [entriesAbove, List.mem_filter, decide_eq_true_iff]

theorem entriesAbove_append (l l' : List (LogEntry α)) :
    entriesAbove low (l ++ l') = entriesAbove low l ++ entriesAbove low l' := List.filter_append ..

/-- Of the entries above a number, those above a greater one are all there are. -/
theorem entriesAbove_entriesAbove (h : mid ≤ low) :
    entriesAbove low (entriesAbove mid l) = entriesAbove low l := by
  unfold entriesAbove
  rw [List.filter_filter]
  apply List.filter_congr
  intro e _
  rw [Bool.and_eq_left_iff_imp]
  intro h_lt
  exact decide_eq_true (UInt64.lt_of_le_of_lt h (of_decide_eq_true h_lt))

/-- Between a number and itself there is nothing. -/
theorem entriesBetween_self : entriesBetween low low l = [] := by
  apply List.filter_eq_nil_iff.mpr
  intro e _ h
  obtain ⟨h_lt, h_le⟩ := of_decide_eq_true h
  exact UInt64.lt_irrefl _ (UInt64.lt_of_lt_of_le h_lt h_le)

/-- Entries above both numbers do not count. -/
theorem entriesBetween_append_of_lt {new : List (LogEntry α)} (h : ∀ e ∈ new, high < e.number) :
    entriesBetween low high (l ++ new) = entriesBetween low high l := by
  have h_new : entriesBetween low high new = [] := by
    apply List.filter_eq_nil_iff.mpr
    intro e h_mem h_between
    exact UInt64.not_le.mpr (h e h_mem) (of_decide_eq_true h_between).2
  rw [entriesBetween, List.filter_append]
  change entriesBetween low high l ++ entriesBetween low high new = _
  rw [h_new, List.append_nil]

/-- The first entry counts if its own number is in between. -/
theorem entriesBetween_cons (a : LogEntry α) (l : List (LogEntry α)) :
    entriesBetween low high (a :: l) =
      if low < a.number ∧ a.number ≤ high then a :: entriesBetween low high l
      else entriesBetween low high l := by
  simp only [entriesBetween, List.filter_cons, decide_eq_true_iff]

/-- In strictly increasing order, what lies between two numbers comes in two parts. -/
theorem entriesBetween_append (sorted : l.Pairwise (fun a b => a.number < b.number))
    (h_low : low ≤ mid) (h_high : mid ≤ high) :
    entriesBetween low mid l ++ entriesBetween mid high l = entriesBetween low high l := by
  induction l with
  | nil => rfl
  | cons a l ih =>
    -- the head has the least number of all
    have h_tail : ∀ b ∈ a :: l, a.number ≤ b.number := by
      intro b hb
      rcases List.mem_cons.mp hb with rfl | hb
      · exact UInt64.le_refl _
      · exact UInt64.le_of_lt (List.rel_of_pairwise_cons sorted hb)
    by_cases h_mid : mid < a.number
    · -- the head is above the first part, and so is everything after it
      have h_above : ∀ b ∈ a :: l, mid < b.number :=
        fun b hb => UInt64.lt_of_lt_of_le h_mid (h_tail b hb)
      have h_first : entriesBetween low mid (a :: l) = [] := by
        apply List.filter_eq_nil_iff.mpr
        intro b hb h_between
        exact UInt64.not_le.mpr (h_above b hb) (of_decide_eq_true h_between).2
      rw [h_first, List.nil_append]
      apply List.filter_congr
      intro b hb
      have h_b := h_above b hb
      simp only [h_b, UInt64.lt_of_le_of_lt h_low h_b, true_and]
    · -- the head is in the first part, if in any
      have h_le : a.number ≤ mid := UInt64.not_lt.mp h_mid
      have h_le' : a.number ≤ high := UInt64.le_trans h_le h_high
      have h_second : entriesBetween mid high (a :: l) = entriesBetween mid high l := by
        rw [entriesBetween_cons, if_neg fun h => h_mid h.1]
      rw [h_second]
      simp only [entriesBetween_cons, h_le, h_le', and_true]
      split
      · rw [List.cons_append, ih sorted.of_cons]
      · exact ih sorted.of_cons

/-- A page goes up to its last entry. -/
theorem entriesBetween_page (sorted : l.Pairwise (fun a b => a.number < b.number))
    {page : List (LogEntry α)} {last : LogEntry α} (h : page ++ [last] <+: entriesAbove low l) :
    entriesBetween low last.number l = page ++ [last] := by
  have h_sorted : (entriesAbove low l).Pairwise (fun a b => a.number < b.number) := sorted.filter _
  -- what lies between is what is above and not over the last entry
  have h_filter : entriesBetween low last.number l =
      (entriesAbove low l).filter (fun e => e.number ≤ last.number) := by
    unfold entriesBetween entriesAbove
    rw [List.filter_filter]
    apply List.filter_congr
    intro e _
    rw [Bool.decide_and, Bool.and_comm]
  obtain ⟨rest, h_rest⟩ := h
  rw [← h_rest] at h_sorted
  obtain ⟨h_page, -, h_after⟩ := List.pairwise_append.mp h_sorted
  have h_last : last ∈ page ++ [last] := List.mem_concat_self
  -- all of the page is up to its last entry, and nothing behind the page is
  have h_up : (page ++ [last]).filter (fun e => e.number ≤ last.number) = page ++ [last] := by
    apply List.filter_eq_self.mpr
    intro e h_mem
    apply decide_eq_true
    rcases List.mem_append.mp h_mem with h_mem | h_mem
    · have h_lt := (List.pairwise_append.mp h_page).2.2 e h_mem last (List.mem_singleton.mpr rfl)
      exact UInt64.le_of_lt h_lt
    · rw [List.mem_singleton.mp h_mem]
      exact UInt64.le_refl _
  have h_over : rest.filter (fun e => e.number ≤ last.number) = [] := by
    apply List.filter_eq_nil_iff.mpr
    intro e h_mem h_le
    exact UInt64.not_le.mpr (h_after last h_last e h_mem) (of_decide_eq_true h_le)
  rw [h_filter, ← h_rest, List.filter_append, h_up, h_over, List.append_nil]

end Pages

end OperationFeed
