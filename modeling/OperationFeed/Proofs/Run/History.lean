import OperationFeed.Proofs.Run.Stream

/-!
# What has been appended

The log forgets what an acknowledgement cuts off. The *history* of a run does not: it is the list of
all entries that ever entered the log, in order (`history`). A step appends what it leaves at the
end of the log beyond what was there before (`Step.appended`).

`Chronicle` relates the log to the history, for every facade: the numbers of the history strictly
increase up to the log's high-water mark, every item carries the number it was appended under, and
the log is an end of the history. It holds of every run (`Chronicle.of_run`), as a step either
appends to the log or cuts it (`Step.LogCourse`).
-/

namespace OperationFeed

/-- An entry of the log of a feed. -/
abbrev FeedEntry : Type := LogEntry Operation

/-- An operation as it enters the log under a number. -/
def FeedEntry.of (op : Operation) (number : SequenceNumber) : FeedEntry :=
  ⟨number, op.withNumber number⟩

/-! ### Checkpoints -/

/-- A number in a history is a checkpoint's. -/
def IsCheckpointIn (history : List FeedEntry) (number : SequenceNumber) : Prop :=
  ∃ e ∈ history, e.number = number ∧ e.item.isCheckpoint = true

section Checkpoints

variable {history new : List FeedEntry} {number : SequenceNumber}

/-- A number in a longer history is a checkpoint's in one of its parts. -/
theorem isCheckpointIn_append :
    IsCheckpointIn (history ++ new) number ↔
      IsCheckpointIn history number ∨ IsCheckpointIn new number := by
  simp only [IsCheckpointIn, List.mem_append, or_and_right, exists_or]

/-- The entry of an operation is a checkpoint's if the operation is one. -/
theorem isCheckpointIn_singleton {op : Operation} {other : SequenceNumber} :
    IsCheckpointIn [FeedEntry.of op other] number ↔ op.isCheckpoint = true ∧ other = number := by
  simp only [IsCheckpointIn, List.mem_singleton, exists_eq_left]
  exact And.comm

/-- A history that goes on keeps its checkpoints. -/
theorem IsCheckpointIn.append (h : IsCheckpointIn history number) (new : List FeedEntry) :
    IsCheckpointIn (history ++ new) number := isCheckpointIn_append.mpr (.inl h)

/-- A cut leaves the checkpoints above its number. -/
theorem isCheckpointIn_truncate {log : Log Operation} {upTo : SequenceNumber} :
    IsCheckpointIn (log.truncate upTo).2.entries number ↔
      upTo < number ∧ IsCheckpointIn log.entries number := by
  simp only [IsCheckpointIn, Log.entries_truncate, List.mem_filter, decide_eq_true_iff]
  constructor
  · rintro ⟨e, ⟨h_mem, h_lt⟩, rfl, h_checkpoint⟩
    exact ⟨h_lt, e, h_mem, rfl, h_checkpoint⟩
  · rintro ⟨h_lt, e, h_mem, rfl, h_checkpoint⟩
    exact ⟨e, ⟨h_mem, h_lt⟩, rfl, h_checkpoint⟩

end Checkpoints

/-! ### Growth -/

/-- A log takes some entries, one after another. -/
inductive Grows (log : Log Operation) : List FeedEntry → Log Operation → Prop
  | refl : Grows log [] log
  | snoc {new : List FeedEntry} {log' log'' : Log Operation} {op : Operation}
      {number : SequenceNumber} (grows : Grows log new log')
      (accepted : log'.append number (op.withNumber number) = .ok log'') :
      Grows log (new ++ [FeedEntry.of op number]) log''

namespace Grows

variable {log log' log'' : Log Operation} {new new' : List FeedEntry}

/-- A log that grows twice takes the entries of both times. -/
theorem trans (h : Grows log new log') (h' : Grows log' new' log'') :
    Grows log (new ++ new') log'' := by
  induction h' with
  | refl => rwa [List.append_nil]
  | snoc grows accepted ih =>
    rw [← List.append_assoc]
    exact .snoc ih accepted

/-- What a log takes is put at its end. -/
theorem entries (h : Grows log new log') : log'.entries = log.entries ++ new := by
  induction h with
  | refl => rw [List.append_nil]
  | snoc grows accepted ih =>
    rw [(Log.append_ok accepted).1, ih, List.append_assoc]
    rfl

end Grows

/-- A checkpoint in the log is still there once the log has grown. -/
theorem IsCheckpointIn.grows {log log' : Log Operation} {new : List FeedEntry}
    {number : SequenceNumber} (h : IsCheckpointIn log.entries number) (grows : Grows log new log') :
    IsCheckpointIn log'.entries number := by
  rw [grows.entries]
  exact h.append new

/-! ### Adding -/

namespace Feed

variable {op : Operation} {feed feed' : Feed}

/-- The log takes an operation under the number that was offered. -/
theorem Takes.grows (takes : Takes op feed feed') :
    Grows feed.log [FeedEntry.of op feed.metadata.offered] feed'.log :=
  .snoc .refl takes.accepted

/-- The entries that are appended before an operation that is added: a checkpoint that is due. -/
theorem Prepares.grows (prepares : Prepares op feed feed') :
    ∃ inserted, Grows feed.log inserted feed'.log ∧ inserted.length ≤ 1 ∧
      ∀ e ∈ inserted, e.item.isCheckpoint = true := by
  cases prepares with
  | notDue _ => exact ⟨[], .refl, Nat.zero_le _, nofun⟩
  | inserted _ takes =>
    refine ⟨_, takes.grows, Nat.le_refl _, ?_⟩
    intro e h_mem
    rw [List.mem_singleton.mp h_mem]
    rfl

/-- Whatever becomes of an add, the log has only grown by it. -/
theorem AddCourse.grows {result : Except FeedError SequenceNumber}
    (course : AddCourse op feed result feed') : ∃ new, Grows feed.log new feed'.log := by
  cases course with
  | refused same why => exact ⟨[], same.log ▸ .refl⟩
  | rejectedCheckpoint admits due rejects => exact ⟨[], rejects.eq ▸ .refl⟩
  | rejected admits prepares rejects =>
    obtain ⟨inserted, grows, -⟩ := prepares.grows
    exact ⟨inserted, rejects.eq ▸ grows⟩
  | accepted admits prepares takes =>
    obtain ⟨inserted, grows, -⟩ := prepares.grows
    exact ⟨_, grows.trans takes.grows⟩

end Feed

/-! ### Histories -/

/-- The entries that a step appends to the log. -/
def Step.appended (s : Step) : List FeedEntry :=
  s.after.state.log.entries.drop s.before.state.log.entries.length

/-- All entries that were ever appended, in order. -/
def history (steps : List Step) : List FeedEntry := steps.flatMap Step.appended

@[simp] theorem history_nil : history [] = [] := rfl

/-- A step's own entries come after all the others. -/
@[simp] theorem history_concat (steps : List Step) (s : Step) :
    history (steps ++ [s]) = history steps ++ s.appended := by
  rw [history, List.flatMap_append, List.flatMap_singleton, history]

/-- What a step does to the log. -/
inductive Step.LogCourse (s : Step) : Prop
  | grows (noCut : s.cut? = none) (grows : Grows s.before.state.log s.appended s.after.state.log)
  | cut (upTo : SequenceNumber) (cut : s.cut? = some upTo) (appended : s.appended = [])
      (log : s.after.state.log = (s.before.state.log.truncate upTo).2)

namespace Step

variable {s : Step}

/-- What the log has taken is what the step has appended. -/
theorem appended_of_grows {new : List FeedEntry}
    (grows : Grows s.before.state.log new s.after.state.log) : s.appended = new := by
  rw [appended, grows.entries, List.drop_left]

/-- A step that leaves the log appends nothing. -/
theorem appended_of_log_eq (h : s.after.state.log = s.before.state.log) : s.appended = [] :=
  appended_of_grows (by rw [h]; exact .refl)

/-- Only adding appends. -/
theorem appended_of_not_add (h : ∀ op, s.action ≠ .now (.add op)) : s.appended = [] := by
  cases s.stream_course with
  | same same noCut notAdd => exact appended_of_log_eq same.log
  | metadata request h_action h_after => exact appended_of_log_eq (by rw [h_after])
  | added op result h_action h_answer course => exact absurd h_action (h op)
  | truncated handle upTo h_action live h_after =>
    -- a cut leaves no more entries than there were
    rw [appended, h_after, Feed.log_truncate, List.drop_eq_nil_iff]
    split
    · exact (List.dropWhile_sublist _).length_le
    · exact Nat.le_refl _

/-- A step that appends is an add. -/
theorem exists_add_of_appended (h : s.appended ≠ []) : ∃ op, s.action = .now (.add op) := by
  apply Classical.byContradiction
  intro h_not
  exact h (appended_of_not_add fun op h_action => h_not ⟨op, h_action⟩)

/-- A step lets the log grow, or cuts it. -/
theorem log_course (s : Step) : s.LogCourse := by
  -- most steps leave the log, which is to grow by nothing
  have of_log_eq : s.cut? = none → s.after.state.log = s.before.state.log → s.LogCourse := by
    intro noCut h
    refine .grows noCut ?_
    rw [appended_of_log_eq h, h]
    exact .refl
  cases s.stream_course with
  | same same noCut notAdd => exact of_log_eq noCut same.log
  | metadata request h_action h_after => exact of_log_eq (cut?_now h_action) (by rw [h_after])
  | added op result h_action h_answer course =>
    obtain ⟨new, grows⟩ := course.grows
    refine .grows (cut?_now h_action) ?_
    rw [appended_of_grows grows]
    exact grows
  | truncated handle upTo h_action live h_after =>
    have h_log := Feed.log_truncate upTo s.before.state
    rw [← h_after] at h_log
    -- whether the turn of an acknowledgement is a cut depends on the setting
    have h_cut : s.cut? = if s.before.state.ackEffective then some upTo else none := by
      rw [cut?, h_action]
      simp only [live]
    cases h_effective : s.before.state.ackEffective with
    | false =>
      rw [h_effective] at h_log h_cut
      exact of_log_eq h_cut h_log
    | true =>
      rw [h_effective] at h_log h_cut
      exact .cut upTo h_cut (appended_of_not_add (ne_add_of_executor h_action)) h_log

/-- A step that appends nothing leaves nothing in the log that was not there before. -/
theorem mem_of_appended_nil (h : s.appended = []) :
    ∀ e ∈ s.after.state.log.entries, e ∈ s.before.state.log.entries := by
  intro e h_mem
  cases s.log_course with
  | grows noCut grows => rwa [grows.entries, h, List.append_nil] at h_mem
  | cut upTo cut appended log =>
    rw [log, Log.entries_truncate] at h_mem
    exact (List.mem_filter.mp h_mem).1

end Step

/-- How the log of a feed comes from the history of what was appended to it. -/
structure Chronicle (history : List FeedEntry) (log : Log Operation) : Prop where
  sorted : history.Pairwise (fun a b => a.number < b.number)
  highWater : log.highWater = history.getLast?.map (·.number)
  stamped : ∀ e ∈ history, e.item.sequenceNumber = some e.number
  suffix : log.entries <:+ history

namespace Chronicle

variable {history new : List FeedEntry} {log log' : Log Operation}

theorem empty : Chronicle [] ∅ := ⟨.nil, rfl, nofun, List.suffix_refl _⟩

/-- In a chronicle, no number is above the high-water mark. -/
theorem lt_of_mark_lt (h : Chronicle history log) {number : SequenceNumber}
    (h_mark : ∀ mark, log.highWater = some mark → mark < number) :
    ∀ e ∈ history, e.number < number := by
  intro e h_mem
  rw [h.highWater] at h_mark
  rcases List.eq_nil_or_concat history with rfl | ⟨before, last, rfl⟩
  · cases h_mem
  rw [List.concat_eq_append] at h_mem h_mark
  -- the high-water mark is the last number of the history
  have h_last : last.number < number := h_mark _ (by rw [List.getLast?_concat]; rfl)
  rcases List.mem_append.mp h_mem with h_mem | h_mem
  · have h_sorted := h.sorted
    rw [List.concat_eq_append, List.pairwise_append] at h_sorted
    exact UInt64.lt_trans (h_sorted.2.2 e h_mem last (List.mem_singleton.mpr rfl)) h_last
  · rwa [List.mem_singleton.mp h_mem]

/-- The operations in the log carry the numbers that they are under. -/
theorem stamped_of_mem (h : Chronicle history log) :
    ∀ e ∈ log.entries, e.item.sequenceNumber = some e.number :=
  fun e h_mem => h.stamped e (h.suffix.mem h_mem)

/-- What the log accepts is recorded at the end, under a greater number than all before. -/
theorem append (h : Chronicle history log) {op : Operation} {number : SequenceNumber}
    (accepted : log.append number (op.withNumber number) = .ok log') :
    Chronicle (history ++ [FeedEntry.of op number]) log' := by
  obtain ⟨h_entries, h_highWater, h_mark⟩ := Log.append_ok accepted
  refine ⟨?_, ?_, ?_, ?_⟩
  · refine List.pairwise_append.mpr ⟨h.sorted, List.pairwise_singleton _ _, ?_⟩
    intro e h_mem b hb
    rw [List.mem_singleton.mp hb]
    exact h.lt_of_mark_lt h_mark e h_mem
  · rw [h_highWater, List.getLast?_concat]
    rfl
  · intro e h_mem
    rcases List.mem_append.mp h_mem with h_mem | h_mem
    · exact h.stamped e h_mem
    · rw [List.mem_singleton.mp h_mem]
      rfl
  -- the log has grown at the same end as the history
  · obtain ⟨before, h_before⟩ := h.suffix
    refine ⟨before, ?_⟩
    rw [h_entries, ← List.append_assoc, h_before]
    rfl

/-- The history grows with the log. -/
theorem grows (h : Chronicle history log) (grows : Grows log new log') :
    Chronicle (history ++ new) log' := by
  induction grows with
  | refl => rwa [List.append_nil]
  | snoc grows accepted ih =>
    rw [← List.append_assoc]
    exact ih.append accepted

/-- A cut takes from the log, and not from the history. -/
theorem truncate (h : Chronicle history log) (upTo : SequenceNumber) :
    Chronicle history (log.truncate upTo).2 :=
  ⟨h.sorted, h.highWater, h.stamped, (List.dropWhile_suffix _).trans h.suffix⟩

/-- The log of every run is an end of its history. -/
theorem of_run {feed : Feed} (h_new : feed.log = ∅) {steps : List Step} {m : FeedMachine}
    (run : Run feed steps m) : Chronicle (OperationFeed.history steps) m.state.log := by
  induction run with
  | start =>
    change Chronicle [] feed.log
    rw [h_new]
    exact .empty
  | @step steps m run action ih =>
    rw [history_concat]
    cases Step.log_course ⟨m, action⟩ with
    | grows noCut grows => exact ih.grows grows
    | cut upTo cut appended log =>
      rw [appended, log, List.append_nil]
      exact ih.truncate upTo

end Chronicle

end OperationFeed
