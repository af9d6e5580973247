import OperationFeed.Proofs.Log.Bisection

/-!
# A log and its history

What a log answers can be told without it, from the calls that were made on it. Its *history*
(`LogHistory`) is made of the calls that had an effect, oldest first: all the cuts, and those
appends whose numbers were above the numbers of all such appends before them.

* The entries accepted so far are the appends in the history, those that were cut off since included
  (`LogHistory.accepted`).
* The entries in the log are those that no later call in the history cuts off
  (`LogHistory.remaining`).

`Log.Records` relates a log to a history. Each call keeps the relation (`Log.Records.perform`), so a
log records the history of all calls since it was empty (`Log.records_after`). `Log.account` reads
off it what the log does next.
-/

namespace OperationFeed

/-- A call that may change a log. -/
inductive LogCall (α : Type) where
  -- Put an item at the end.
  | append (number : SequenceNumber) (item : α)
  -- Remove the entries up to a number.
  | truncate (upTo : SequenceNumber)

/-- The calls on a log that had an effect, oldest first. -/
abbrev LogHistory (α : Type) : Type := List (LogCall α)

variable {α : Type}

namespace LogCall

/-- The entry that a call puts at the end, if it is an append. -/
def entry? : LogCall α → Option (LogEntry α)
  | .append number item => some ⟨number, item⟩
  | .truncate _ => none

/-- A call cuts off an entry with this number. -/
def cuts (number : SequenceNumber) : LogCall α → Bool
  | .append _ _ => false
  | .truncate upTo => number ≤ upTo

end LogCall

/-! ### Histories -/

namespace LogHistory

/-- The entries that were accepted, whether or not they have been cut off since. -/
def accepted (history : LogHistory α) : List (LogEntry α) :=
  history.filterMap LogCall.entry?

/-- The entries that were accepted and that no later call cuts off. -/
def remaining : LogHistory α → List (LogEntry α)
  | [] => []
  | .append number item :: later =>
    if later.any (·.cuts number) then remaining later else ⟨number, item⟩ :: remaining later
  | .truncate _ :: later => remaining later

/-- The history after one more call. An append is part of it if its number is above all those
accepted before. -/
def extend (history : LogHistory α) : LogCall α → LogHistory α
  | .append number item =>
    if ∀ e ∈ history.accepted, e.number < number then history ++ [.append number item] else history
  | .truncate upTo => history ++ [.truncate upTo]

/-- The history of calls that are made on an empty log. -/
def ofCalls (calls : List (LogCall α)) : LogHistory α :=
  calls.foldl extend []

/-- A number is the greatest one accepted so far. -/
def IsHighest (history : LogHistory α) (number : SequenceNumber) : Prop :=
  (∃ e ∈ history.accepted, e.number = number) ∧ ∀ e ∈ history.accepted, e.number ≤ number

variable {history : LogHistory α} {number upTo : SequenceNumber} {item : α}

theorem ofCalls_concat (calls : List (LogCall α)) (call : LogCall α) :
    ofCalls (calls ++ [call]) = (ofCalls calls).extend call := by
  rw [ofCalls, List.foldl_append]
  rfl

/-- An append in the history adds its entry to the accepted ones. -/
theorem accepted_concat_append :
    accepted (history ++ [.append number item]) = history.accepted ++ [⟨number, item⟩] := by
  rw [accepted, List.filterMap_append]
  rfl

/-- A cut leaves the accepted entries what they are. -/
theorem accepted_concat_truncate : accepted (history ++ [.truncate upTo]) = history.accepted := by
  rw [accepted, List.filterMap_append]
  exact List.append_nil _

/-- What is appended remains, for now, and cuts off nothing. -/
theorem remaining_concat_append :
    remaining (history ++ [.append number item]) = history.remaining ++ [⟨number, item⟩] := by
  -- along the history; what a later cut removes is not changed by an append at the end
  induction history with
  | nil => rfl
  | cons call later ih =>
    cases call with
    | append number' item' =>
      have h_any : (later ++ [LogCall.append number item]).any (·.cuts number') =
          later.any (·.cuts number') := by
        rw [List.any_append]
        exact Bool.or_false _
      rw [List.cons_append, remaining, h_any, ih, remaining]
      split
      · rfl
      · rfl
    | truncate upTo => exact ih

/-- A cut leaves what remained above its number. -/
theorem remaining_concat_truncate : remaining (history ++ [.truncate upTo]) =
    history.remaining.filter (fun e => upTo < e.number) := by
  induction history with
  | nil => rfl
  | cons call later ih =>
    cases call with
    | append number item =>
      -- one more cut may remove what is left of an append
      have h_any : (later ++ [LogCall.truncate upTo]).any (·.cuts number) =
          (later.any (·.cuts number) || decide (number ≤ upTo)) := by
        rw [List.any_append]
        exact congrArg (later.any _ || ·) (Bool.or_false _)
      rw [List.cons_append, remaining, h_any, ih, remaining]
      -- cut off before, cut off now, or left
      by_cases h_cut : later.any (·.cuts number) = true
      · rw [h_cut, Bool.true_or, if_pos rfl, if_pos rfl]
      · rw [Bool.eq_false_iff.mpr h_cut, Bool.false_or, if_neg Bool.false_ne_true, List.filter_cons]
        by_cases h_le : number ≤ upTo
        · have h_not : ¬ upTo < number := UInt64.not_lt.mpr h_le
          rw [if_pos (decide_eq_true h_le), if_neg (by simpa using h_not)]
        · have h_lt : upTo < number := UInt64.not_le.mp h_le
          rw [if_neg (by simpa using h_le), if_pos (decide_eq_true h_lt)]
    | truncate upTo' => exact ih

end LogHistory

/-! ### Logs -/

namespace Log

variable {log log' : Log α} {history : LogHistory α} {number upTo : SequenceNumber} {item : α}

/-- The log that a call leaves, which is the same one if an item is refused. -/
def perform (log : Log α) : LogCall α → Log α
  | .append number item =>
    match log.append number item with
    | .ok log' => log'
    | .error _ => log
  | .truncate upTo => (log.truncate upTo).2

/-- The log after calls that are made one after another. -/
def after (log : Log α) (calls : List (LogCall α)) : Log α :=
  calls.foldl perform log

theorem after_append (log : Log α) (calls later : List (LogCall α)) :
    log.after (calls ++ later) = (log.after calls).after later :=
  List.foldl_append

/-- An append that is accepted leaves the log it gives. -/
theorem perform_of_ok (h : log.append number item = .ok log') :
    log.perform (.append number item) = log' := by
  rw [perform, h]

/-- An append that is refused leaves the log alone. -/
theorem perform_of_error {e : OutOfOrder} (h : log.append number item = .error e) :
    log.perform (.append number item) = log := by
  rw [perform, h]

/-- In strictly increasing order, the entries up to a number are those at the front. -/
theorem takeWhile_le_eq_filter (log : Log α) (upTo : SequenceNumber) :
    log.entries.takeWhile (fun e => e.number ≤ upTo) =
      log.entries.filter (fun e => e.number ≤ upTo) := by
  have h_front : (log.entries.takeWhile (fun e => e.number ≤ upTo)).filter
      (fun e => e.number ≤ upTo) = log.entries.takeWhile (fun e => e.number ≤ upTo) :=
    List.filter_eq_self.mpr (List.all_eq_true.mp List.all_takeWhile)
  -- what is left after the front is above the number
  have h_rest : (log.entries.dropWhile (fun e => e.number ≤ upTo)).filter
      (fun e => e.number ≤ upTo) = [] := by
    apply List.filter_eq_nil_iff.mpr
    intro e h_mem h_le
    rw [dropWhile_le_eq_filter log.sorted, List.mem_filter, decide_eq_true_iff] at h_mem
    exact UInt64.not_le.mpr h_mem.2 (of_decide_eq_true h_le)
  calc log.entries.takeWhile (fun e => e.number ≤ upTo)
      = (log.entries.takeWhile (fun e => e.number ≤ upTo) ++
          log.entries.dropWhile (fun e => e.number ≤ upTo)).filter (fun e => e.number ≤ upTo) := by
        rw [List.filter_append, h_front, h_rest, List.append_nil]
    _ = log.entries.filter (fun e => e.number ≤ upTo) := by rw [List.takeWhile_append_dropWhile]

/-- Truncation counts what it removes. -/
theorem truncate_fst (log : Log α) (upTo : SequenceNumber) :
    (log.truncate upTo).1 = (log.entries.filter (fun e => e.number ≤ upTo)).length :=
  congrArg List.length (log.takeWhile_le_eq_filter upTo)

/-- Cuts bring nothing back. -/
theorem forall_lt_after (h : ∀ e ∈ log.entries, upTo < e.number) {calls : List (LogCall α)}
    (h_calls : ∀ call ∈ calls, ∃ cut, call = .truncate cut) :
    ∀ e ∈ (log.after calls).entries, upTo < e.number := by
  induction calls generalizing log with
  | nil => exact h
  | cons call calls ih =>
    obtain ⟨cut, rfl⟩ := h_calls call (List.mem_cons_self ..)
    have h_rest : ∀ e ∈ (log.truncate cut).2.entries, upTo < e.number := by
      intro e h_mem
      rw [entries_truncate] at h_mem
      exact h e (List.mem_filter.mp h_mem).1
    exact ih h_rest fun call h_mem => h_calls call (List.mem_cons_of_mem _ h_mem)

/-- A log is what its history has left of it, and has reached the numbers up to
the accepted ones. -/
structure Records (log : Log α) (history : LogHistory α) : Prop where
  entries : log.entries = history.remaining
  reaches : ∀ number, log.Reaches number ↔ ∃ e ∈ history.accepted, number ≤ e.number

namespace Records

/-- The log accepts only what is above all accepted so far. -/
theorem lt_of_append (records : log.Records history) (h : log.append number item = .ok log') :
    ∀ e ∈ history.accepted, e.number < number := by
  intro e h_mem
  have h_reaches := (records.reaches e.number).mpr ⟨e, h_mem, UInt64.le_refl _⟩
  exact h_reaches.lt_of_append h

/-- A number is refused because of an accepted one, and the greatest of these is named. -/
theorem append_error (records : log.Records history) {e : OutOfOrder}
    (h : log.append number item = .error e) : (∃ a ∈ history.accepted, number ≤ a.number) ∧
      e.attempted = number ∧ history.IsHighest e.last := by
  obtain ⟨h_mark, h_attempted, h_le⟩ := Log.append_error h
  -- the log has reached every accepted number, so its mark is at least as great
  have h_bound : ∀ a ∈ history.accepted, a.number ≤ e.last := by
    intro a h_mem
    obtain ⟨mark, h_mark', h_le'⟩ := (records.reaches a.number).mpr ⟨a, h_mem, UInt64.le_refl _⟩
    rwa [Option.some.inj (h_mark.symm.trans h_mark')]
  -- and the mark itself is one of them
  obtain ⟨top, h_top, h_last⟩ := (records.reaches e.last).mp ⟨e.last, h_mark, UInt64.le_refl _⟩
  have h_number := UInt64.le_antisymm (h_bound top h_top) h_last
  exact ⟨⟨top, h_top, h_number ▸ h_le⟩, h_attempted, ⟨top, h_top, h_number⟩, h_bound⟩

/-- An append fails exactly if some accepted number is not below its own. -/
theorem append_fails_iff (records : log.Records history) :
    (∃ e, log.append number item = .error e) ↔ ∃ a ∈ history.accepted, number ≤ a.number := by
  constructor
  · rintro ⟨e, h_append⟩
    exact (records.append_error h_append).1
  · rintro ⟨a, h_mem, h_le⟩
    cases h_append : log.append number item with
    | error e => exact ⟨e, rfl⟩
    | ok log' => exact absurd h_le (UInt64.not_le.mpr (records.lt_of_append h_append a h_mem))

/-- Each call is recorded as far as it has an effect. -/
theorem perform (records : log.Records history) (call : LogCall α) :
    (log.perform call).Records (history.extend call) := by
  cases call with
  | append number item =>
    rw [LogHistory.extend]
    cases h_append : log.append number item with
    | error e =>
      obtain ⟨⟨a, h_mem, h_le⟩, -⟩ := records.append_error h_append
      rw [perform_of_error h_append, if_neg fun h => UInt64.not_le.mpr (h a h_mem) h_le]
      exact records
    | ok log' =>
      -- accepted by the log, so accepted by the history
      have h_above := records.lt_of_append h_append
      obtain ⟨h_entries, h_mark, -⟩ := append_ok h_append
      rw [perform_of_ok h_append, if_pos h_above]
      constructor
      · rw [h_entries, records.entries, LogHistory.remaining_concat_append]
      · intro reached
        rw [LogHistory.accepted_concat_append, Reaches, h_mark]
        constructor
        · rintro ⟨mark, h_some, h_le⟩
          obtain rfl := Option.some.inj h_some
          exact ⟨_, List.mem_concat_self, h_le⟩
        · rintro ⟨e, h_mem, h_le⟩
          -- the new number is the mark, and above all others
          refine ⟨number, rfl, ?_⟩
          rcases List.mem_append.mp h_mem with h_mem | h_mem
          · exact UInt64.le_of_lt (UInt64.lt_of_le_of_lt h_le (h_above e h_mem))
          · rwa [List.mem_singleton.mp h_mem] at h_le
  | truncate upTo =>
    rw [LogHistory.extend]
    constructor
    · rw [LogHistory.remaining_concat_truncate, ← records.entries]
      exact log.entries_truncate upTo
    · rw [LogHistory.accepted_concat_truncate]
      exact records.reaches

end Records

/-- After any calls, a log that was empty records their history. -/
theorem records_after (calls : List (LogCall α)) :
    ((∅ : Log α).after calls).Records (.ofCalls calls) := by
  -- from any log and history that go together, call by call
  have h_fold : ∀ (log : Log α) (history : LogHistory α), log.Records history →
      (log.after calls).Records (calls.foldl LogHistory.extend history) := by
    induction calls with
    | nil => exact fun log history records => records
    | cons call calls ih => exact fun log history records => ih _ _ (records.perform call)
  refine h_fold ∅ [] ⟨rfl, fun number => iff_of_false ?_ ?_⟩
  · rintro ⟨mark, ⟨⟩, -⟩
  · rintro ⟨e, h_mem, -⟩
    exact absurd h_mem List.not_mem_nil

/-- What a log does after the calls that were made on it since it was empty. -/
structure Account (log : Log α) (calls : List (LogCall α)) : Prop where
  /-- An append fails exactly if a number accepted so far, though perhaps cut off since, is at or
  above the number of the append. -/
  fails : ∀ number item, (∃ e, log.append number item = .error e) ↔
    ∃ a ∈ (LogHistory.ofCalls calls).accepted, number ≤ a.number
  /-- It reports the greatest number accepted so far, and changes nothing. -/
  failed : ∀ number item e, log.append number item = .error e →
    e.attempted = number ∧ (LogHistory.ofCalls calls).IsHighest e.last ∧
      (∅ : Log α).after (calls ++ [.append number item]) = log
  /-- An append that does not fail is accepted in the history too. -/
  appended : ∀ number item log', log.append number item = .ok log' →
    (∅ : Log α).after (calls ++ [.append number item]) = log' ∧
      (LogHistory.ofCalls (calls ++ [.append number item])).accepted =
        (LogHistory.ofCalls calls).accepted ++ [⟨number, item⟩]
  /-- In the log are the accepted entries that no later cut reached, in the order of acceptance. -/
  entries : log.entries = (LogHistory.ofCalls calls).remaining
  /-- Truncation removes the entries up to a number, and says how many they were. -/
  truncate : ∀ upTo,
    (log.truncate upTo).1 = (log.entries.filter (fun e => e.number ≤ upTo)).length ∧
    (log.truncate upTo).2.entries = log.entries.filter (fun e => upTo < e.number)
  /-- If nothing was appended since, a further truncation up to there removes nothing. -/
  truncate_again : ∀ upTo upTo' cuts, upTo' ≤ upTo → (∀ call ∈ cuts, ∃ cut, call = .truncate cut) →
    (((log.truncate upTo).2.after cuts).truncate upTo').1 = 0
  /-- A read gives the first items above a number. -/
  read : ∀ after max, log.read after max =
    ((log.entries.filter (fun e => after < e.number)).take max).map (·.item)
  /-- The gaps between the numbers do not matter for it: with other numbers, of which the same ones
  are above the number read after, the items are the same. -/
  read_renumbered : ∀ after after' max (renumber : SequenceNumber → SequenceNumber) (log' : Log α),
    log'.entries = log.entries.map (fun e => ⟨renumber e.number, e.item⟩) →
    (∀ e ∈ log.entries, after < e.number ↔ after' < renumber e.number) →
    log'.read after' max = log.read after max
  /-- Truncations and reads may look for the place of the cut by bisection. -/
  bisection : ∀ number max, (log.truncate number).1 = log.cutPlace number ∧
    (log.truncate number).2.entries = log.entries.drop (log.cutPlace number) ∧
      log.read number max = ((log.entries.drop (log.cutPlace number)).take max).map (·.item)

/-- Nothing is removed twice. -/
theorem truncate_fst_of_forall_lt (h : ∀ e ∈ log.entries, upTo < e.number) {upTo' : SequenceNumber}
    (h_le : upTo' ≤ upTo) : (log.truncate upTo').1 = 0 := by
  rw [truncate_fst, List.length_eq_zero_iff, List.filter_eq_nil_iff]
  intro e h_mem h_number
  -- whatever is left is above the first cut, and so above the second
  have h_lt := UInt64.lt_of_le_of_lt h_le (h e h_mem)
  exact UInt64.not_le.mpr h_lt (of_decide_eq_true h_number)

/-- The numbers of the entries say no more than which entries are above the number read after. -/
theorem read_congr {after after' : SequenceNumber} {renumber : SequenceNumber → SequenceNumber}
    (h_entries : log'.entries = log.entries.map (fun e => ⟨renumber e.number, e.item⟩))
    (h_above : ∀ e ∈ log.entries, after < e.number ↔ after' < renumber e.number) (max : Nat) :
    log'.read after' max = log.read after max := by
  -- the same entries are above, under their new numbers
  have h_filter : log'.entries.filter (fun e => after' < e.number) =
      (log.entries.filter (fun e => after < e.number)).map
        (fun e => ⟨renumber e.number, e.item⟩) := by
    rw [h_entries, List.filter_map]
    refine congrArg (List.map _) (List.filter_congr ?_)
    intro e h_mem
    exact decide_eq_decide.mpr (h_above e h_mem).symm
  rw [read_eq, read_eq, h_filter, ← List.map_take, List.map_map]
  rfl

/-- Whatever calls were made on a log, it does what its history says. -/
theorem account (calls : List (LogCall α)) : ((∅ : Log α).after calls).Account calls where
  fails number item := (records_after calls).append_fails_iff
  failed number item e h := by
    obtain ⟨-, h_attempted, h_highest⟩ := (records_after calls).append_error h
    refine ⟨h_attempted, h_highest, ?_⟩
    rw [after_append]
    exact perform_of_error h
  appended number item log' h := by
    constructor
    · rw [after_append]
      exact perform_of_ok h
    · have h_above := (records_after calls).lt_of_append h
      rw [LogHistory.ofCalls_concat, LogHistory.extend, if_pos h_above,
        LogHistory.accepted_concat_append]
  entries := (records_after calls).entries
  truncate upTo := ⟨truncate_fst _ upTo, entries_truncate _ upTo⟩
  truncate_again upTo upTo' cuts h_le h_cuts := by
    refine truncate_fst_of_forall_lt (forall_lt_after ?_ h_cuts) h_le
    intro e h_mem
    rw [entries_truncate, List.mem_filter, decide_eq_true_iff] at h_mem
    exact h_mem.2
  read after max := read_eq _ after max
  read_renumbered after after' max renumber log' h_entries h_above :=
    read_congr h_entries h_above max
  bisection number max :=
    ⟨(truncate_eq_bisect _ number).1, (truncate_eq_bisect _ number).2, read_eq_bisect _ number max⟩

end Log

end OperationFeed
