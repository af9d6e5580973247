import OperationFeed.Proofs.Run.Allocation
import OperationFeed.Proofs.Run.History
import OperationFeed.Proofs.Run.Tasks

/-!
# Numbering

A feed that has its container's metadata to itself numbers its operations without gaps, from one on.
`Run.ledger` says so of every run, and what follows for the log: it holds the operations above the
greatest number up to which an acknowledgement has cut it, and that number is a checkpoint's.

The proof is by two invariants.

* `Tally` is about the feed and the history: the history's numbers are the numbers from one to its
  length, which is the counter, and truncation points are numbers of checkpoints in it.
* `Numbering` adds what a run knows beside the feed: an acknowledgement that waits for its turn is
  for a checkpoint in the history, and so is every one that has had its turn.

That the counter and the history grow together needs the log to take every number that is given out,
which is where the bound on these numbers comes in (`Feed.AddCourse.orderly`).
-/

namespace OperationFeed

/-! ### What a run is asked not to do -/

/-- The action neither gives out a number nor allows a cut, other than by adding operations. -/
def FeedAction.isOwn : FeedAction → Bool
  | .now (.metadata request) => !request.allocates && !request.allowsCut
  | _ => true

/-- The greatest number up to which the log was cut, zero if it never was. -/
def cutMark (steps : List Step) : Nat :=
  (steps.filterMap Step.cut?).foldl (fun mark upTo => max mark upTo.toNat) 0

@[simp] theorem cutMark_nil : cutMark [] = 0 := rfl

/-- A step that cuts raises the mark to its number, if that is greater. -/
@[simp] theorem cutMark_concat (steps : List Step) (s : Step) :
    cutMark (steps ++ [s]) =
      s.cut?.elim (cutMark steps) fun upTo => max (cutMark steps) upTo.toNat := by
  unfold cutMark
  rw [List.filterMap_append, List.foldl_append]
  cases h : s.cut? <;> simp [h]

/-! ### Feed and history -/

/-- The history of a feed that has its metadata to itself. -/
structure Tally (history : List FeedEntry) (feed : Feed) : Prop where
  inStep : feed.InStep
  current : feed.current.toNat = history.length
  numbers : history.map (·.number.toNat) = List.range' 1 history.length
  points : ∀ number, feed.metadata.store.isPoint number = true → IsCheckpointIn history number

namespace Tally

variable {history new : List FeedEntry} {op : Operation} {feed feed' : Feed}

/-- At the start nothing was numbered. -/
theorem initial (h : feed.IsNew) (h_plain : feed.metadata.record = none) : Tally [] feed where
  inStep := ⟨h_plain, by rw [h.log]; nofun⟩
  current := by
    rw [Feed.current, h.current]
    rfl
  numbers := rfl
  points number h_point := by
    rw [h.isPoint] at h_point
    cases h_point

/-- What leaves the stream leaves the tally. -/
theorem sameStream (h : Tally history feed) (same : feed.SameStream feed') :
    Tally history feed' where
  inStep := h.inStep.sameStream same
  current := by rw [Feed.current, same.current]; exact h.current
  numbers := h.numbers
  points number h_point := by
    rw [same.isPoint] at h_point
    exact h.points number h_point

/-- The log takes an operation, and the history has one number more. -/
theorem takes (h : Tally history feed) (takes : Feed.Takes op feed feed')
    (h_room : history.length + 1 < UInt64.size) :
    Tally (history ++ [FeedEntry.of op feed.metadata.offered]) feed' := by
  -- one above the counter, which is the length of the history
  have h_offered : feed.metadata.offered.toNat = history.length + 1 := by
    rw [Metadata.offered_of_plain h.inStep.plain, UInt64.toNat_add, UInt64.toNat_one,
      ← h.current]
    rw [← h.current] at h_room
    exact Nat.mod_eq_of_lt h_room
  refine ⟨h.inStep.takes takes, ?_, ?_, ?_⟩
  · rw [takes.current h.inStep.plain, List.length_append, List.length_singleton, ← h_offered,
      Metadata.offered_of_plain h.inStep.plain]
  · rw [List.map_append, List.map_singleton, h.numbers, List.length_append, List.length_singleton,
      List.range'_1_concat, Nat.add_comm 1]
    exact congrArg (fun n => _ ++ [n]) h_offered
  · -- the only new point is at the operation itself, if it is a checkpoint
    intro number h_point
    rw [takes.eq, Metadata.isPoint_numbered] at h_point
    rcases h_point with ⟨h_checkpoint, h_eq⟩ | h_point
    · exact ⟨_, List.mem_concat_self, h_eq, h_checkpoint⟩
    · exact (h.points number h_point).append _

/-- An operation is added, and a checkpoint before it if one is due. -/
theorem orderlyAdd (h : Tally history feed) {result : Except FeedError SequenceNumber}
    (orderly : Feed.OrderlyAdd op feed result feed')
    (h_room : feed.current.toNat + feed.numbersBetween feed' < UInt64.size) :
    ∃ new, Grows feed.log new feed'.log ∧ Tally (history ++ new) feed' := by
  have h_counted := h.sameStream (.of_sameCore (.counted feed .add))
  cases orderly with
  | refused same why =>
    refine ⟨[], same.log ▸ .refl, ?_⟩
    rw [List.append_nil]
    exact h.sameStream (.of_sameCore same)
  | @accepted feed₁ feed₂ admits prepares takes =>
    cases prepares with
    | notDue due =>
      -- no checkpoint was due: one number
      have h_between : feed.numbersBetween feed₂.woken = 1 := by
        change (feed₂.current - feed.current).toNat = 1
        rw [takes.current h_counted.inStep.plain]
        change (feed.current + 1 - feed.current).toNat = 1
        rw [UInt64.add_comm, UInt64.add_sub_cancel, UInt64.toNat_one]
      rw [h_between, h.current] at h_room
      have h' := h_counted.takes takes h_room
      exact ⟨_, takes.grows, h'.sameStream (.of_eq rfl rfl)⟩
    | @inserted feed' due inserts =>
      have h_first : feed'.current = feed.current + 1 := inserts.current h_counted.inStep.plain
      have h_plain := (h_counted.inStep.takes inserts).plain
      -- a checkpoint was due: two numbers
      have h_between : feed.numbersBetween feed₂.woken = 2 := by
        change (feed₂.current - feed.current).toNat = 2
        rw [takes.current h_plain]
        change (feed'.current + 1 - feed.current).toNat = 2
        rw [h_first, UInt64.add_assoc, UInt64.add_comm, UInt64.add_sub_cancel]
        rfl
      rw [h_between, h.current] at h_room
      have h' : Tally _ { feed' with lastAutoCheckpoint := (feed.counted .add).metadata.offered } :=
        (h_counted.takes inserts (Nat.lt_of_succ_lt h_room)).sameStream (.of_eq rfl rfl)
      have h'' := h'.takes takes (by rw [List.length_append]; exact h_room)
      refine ⟨_, inserts.grows.trans takes.grows, ?_⟩
      rw [← List.append_assoc]
      exact h''.sameStream (.of_eq rfl rfl)

/-- A cut takes points away at most, and gives out no number. -/
theorem truncate (h : Tally history feed) (upTo : SequenceNumber) :
    Tally history ((Feed.truncate upTo).effect feed).2 := by
  have h_cut : Tally history (feed.cut upTo) := by
    unfold Feed.cut
    rw [Metadata.effect_removeMarkers]
    split
    · refine ⟨⟨by simp [h.inStep.plain], h.inStep.mark_le⟩, h.current, h.numbers, ?_⟩
      intro number h_point
      exact h.points number ((MetadataStore.isPoint_removeMarkers _ _ _).mp h_point).2
    · exact h
  exact h_cut.sameStream (.truncate upTo feed)

/-- No number in the history is above its length. -/
theorem le_length (h : Tally history feed) {e : FeedEntry} (h_mem : e ∈ history) :
    e.number.toNat ≤ history.length := by
  have h_range := List.mem_map_of_mem (f := (·.number.toNat)) h_mem
  rw [h.numbers, List.mem_range'_1] at h_range
  omega

/-- What is appended to a history has greater numbers than its length. -/
theorem length_lt (h : Tally (history ++ new) feed) {e : FeedEntry} (h_mem : e ∈ new)
    (h_before : history.map (·.number.toNat) = List.range' 1 history.length) :
    history.length < e.number.toNat := by
  have h_numbers := h.numbers
  -- the numbers of the whole are those of the beginning, and the next ones
  rw [List.map_append, List.length_append, ← List.range'_append_1, h_before] at h_numbers
  have h_range := List.mem_map_of_mem (f := (·.number.toNat)) h_mem
  rw [List.append_cancel_left h_numbers, List.mem_range'_1] at h_range
  omega

end Tally

/-! ### Runs -/

/-- The truncation points, the waiting acknowledgements and the cuts of a run. -/
structure Numbering (steps : List Step) (m : FeedMachine) : Prop where
  tally : Tally (history steps) m.state
  tasks : ∀ handle upTo, (handle, FeedTask.truncate upTo) ∈ m.executor.tasks →
    IsCheckpointIn (history steps) upTo
  log : m.state.log.entries =
    (history steps).filter (fun e => cutMark steps < e.number.toNat)
  mark : cutMark steps = 0 ∨
    ∃ number, IsCheckpointIn (history steps) number ∧ cutMark steps = number.toNat

namespace Numbering

variable {steps : List Step} {m : FeedMachine}

/-- At the start nothing was numbered, and nothing waits. -/
theorem initial {feed : Feed} (h : feed.IsNew) (h_plain : feed.metadata.record = none) :
    Numbering [] ⟨feed, .fresh⟩ where
  tally := .initial h h_plain
  tasks _ _ h_mem := nomatch h_mem
  log := by
    change feed.log.entries = []
    rw [h.log]
    rfl
  mark := .inl rfl

/-- The cuts of a run are at numbers in its history. -/
theorem mark_le (h : Numbering steps m) : cutMark steps ≤ (history steps).length := by
  rcases h.mark with h_zero | ⟨number, ⟨e, h_mem, rfl, -⟩, h_eq⟩
  · rw [h_zero]
    exact Nat.zero_le _
  · rw [h_eq]
    exact h.tally.le_length h_mem

/-- A step of the run's own keeps the tally. -/
theorem step_tally (h : Numbering steps m) {action : FeedAction} (h_own : action.isOwn = true)
    (h_room : m.state.current.toNat + m.state.numbersBetween (Step.after ⟨m, action⟩).state <
      UInt64.size) :
    Tally (history (steps ++ [⟨m, action⟩])) (Step.after ⟨m, action⟩).state := by
  rw [history_concat]
  cases Step.stream_course ⟨m, action⟩ with
  | same same noCut notAdd =>
    rw [Step.appended_of_log_eq same.log, List.append_nil]
    exact h.tally.sameStream same
  -- a request from outside gives out no number and allows no cut
  | metadata request h_action h_after =>
    obtain rfl : action = .now (.metadata request) := h_action
    rw [Step.appended_of_not_add (fun op h => by cases h), List.append_nil, h_after]
    rw [FeedAction.isOwn, Bool.and_eq_true, Bool.not_eq_true', Bool.not_eq_true'] at h_own
    obtain ⟨h_allocates, h_allows⟩ := h_own
    have h_current := Metadata.current_answer (m := m.state.metadata) h_allocates
    have h_record : ((Metadata.answer request).effect m.state.metadata).2.record = none :=
      Metadata.record_answer_of_plain h.tally.inStep.plain
    refine ⟨⟨h_record, ?_⟩, ?_, h.tally.numbers, ?_⟩
    · rw [Feed.current, h_current]
      exact h.tally.inStep.mark_le
    · rw [Feed.current, h_current]
      exact h.tally.current
    · intro number h_point
      exact h.tally.points number (Metadata.isPoint_of_isPoint_answer h_allows h_point)
  | added op result h_action h_answer course =>
    have orderly := course.orderly h.tally.inStep h_room
    obtain ⟨new, grows, tally⟩ := h.tally.orderlyAdd orderly h_room
    rwa [Step.appended_of_grows grows]
  | truncated handle upTo h_action live h_after =>
    rw [Step.appended_of_not_add (Step.ne_add_of_executor h_action), List.append_nil, h_after]
    exact h.tally.truncate upTo

/-- An acknowledgement that waits for its turn is for a checkpoint that was there when
it was made. -/
theorem step_tasks (h : Numbering steps m) (h_sound : m.executor.Sound) (action : FeedAction)
    (handle : Handle) (upTo : SequenceNumber)
    (h_mem : (handle, FeedTask.truncate upTo) ∈ (Step.after ⟨m, action⟩).executor.tasks) :
    IsCheckpointIn (history steps) upTo := by
  rcases Step.truncate_origin (s := ⟨m, action⟩) h_sound h_mem with live | ⟨-, h_point⟩
  · exact h.tasks handle upTo live
  · exact h.tally.points _ h_point

/-- The log is what the mark leaves of the history, after the step as before it. -/
theorem step_log (h : Numbering steps m) {action : FeedAction}
    (h_tally : Tally (history (steps ++ [⟨m, action⟩])) (Step.after ⟨m, action⟩).state) :
    (Step.after ⟨m, action⟩).state.log.entries = (history (steps ++ [⟨m, action⟩])).filter
      (fun e => cutMark (steps ++ [⟨m, action⟩]) < e.number.toNat) := by
  rw [history_concat] at h_tally ⊢
  rw [cutMark_concat]
  cases Step.log_course ⟨m, action⟩ with
  | grows noCut grows =>
    -- what is new is above the mark, so the filter keeps all of it
    have h_new : (Step.appended ⟨m, action⟩).filter (fun e => cutMark steps < e.number.toNat) =
        Step.appended ⟨m, action⟩ := by
      apply List.filter_eq_self.mpr
      intro e h_mem
      have h_lt := h_tally.length_lt h_mem h.tally.numbers
      exact decide_eq_true (Nat.lt_of_le_of_lt h.mark_le h_lt)
    rw [grows.entries, noCut, Option.elim_none, List.filter_append, h_new]
    exact congrArg (· ++ _) h.log
  | cut upTo cut appended log =>
    rw [log, Log.entries_truncate, cut, Option.elim_some, appended, List.append_nil]
    change m.state.log.entries.filter _ = _
    rw [h.log, List.filter_filter]
    apply List.filter_congr
    intro e _
    rw [Bool.eq_iff_iff, Bool.and_eq_true, decide_eq_true_iff, decide_eq_true_iff,
      decide_eq_true_iff, UInt64.lt_iff_toNat_lt, Nat.max_lt, and_comm]

/-- A cut raises the mark to the number of a checkpoint. -/
theorem step_mark (h : Numbering steps m) (h_sound : m.executor.Sound) (action : FeedAction) :
    cutMark (steps ++ [⟨m, action⟩]) = 0 ∨
      ∃ number, IsCheckpointIn (history steps) number ∧
        cutMark (steps ++ [⟨m, action⟩]) = number.toNat := by
  rw [cutMark_concat]
  cases h_cut : Step.cut? ⟨m, action⟩ with
  | none => exact h.mark
  | some upTo =>
    rw [Option.elim_some]
    obtain ⟨handle, live⟩ := Step.exists_truncate_of_cut h_cut
    have h_checkpoint := h.tasks handle upTo (h_sound.lookup_eq_some.mp live)
    -- the greater of two checkpoints' numbers is a checkpoint's
    rcases Nat.le_total (cutMark steps) upTo.toNat with h_le | h_le
    · exact .inr ⟨upTo, h_checkpoint, Nat.max_eq_right h_le⟩
    · rw [Nat.max_eq_left h_le]
      exact h.mark

/-- A step of the run's own keeps all of it. -/
theorem step (h : Numbering steps m) (h_sound : m.executor.Sound) {action : FeedAction}
    (h_own : action.isOwn = true)
    (h_room : m.state.current.toNat + m.state.numbersBetween (Step.after ⟨m, action⟩).state <
      UInt64.size) :
    Numbering (steps ++ [⟨m, action⟩]) (Step.after ⟨m, action⟩) := by
  have h_tally := h.step_tally h_own h_room
  refine ⟨h_tally, ?_, h.step_log h_tally, ?_⟩
  · intro handle upTo h_mem
    rw [history_concat]
    exact (h.step_tasks h_sound action handle upTo h_mem).append _
  · rw [history_concat]
    rcases h.step_mark h_sound action with h_zero | ⟨number, h_checkpoint, h_eq⟩
    · exact .inl h_zero
    · exact .inr ⟨number, h_checkpoint.append _, h_eq⟩

theorem of_run {feed : Feed} (h_new : feed.IsNew) (h_plain : feed.metadata.record = none)
    (run : Run feed steps m) (h_own : ∀ s ∈ steps, s.action.isOwn = true)
    (h_few : allocated steps < UInt64.size) : Numbering steps m := by
  induction run with
  | start => exact .initial h_new h_plain
  | @step steps m run action ih =>
    have h_fewer : allocated steps < UInt64.size :=
      Nat.lt_of_le_of_lt (allocated_mono (List.prefix_append _ _)) h_few
    have h := ih (fun s h_mem => h_own s (List.mem_append_left _ h_mem)) h_fewer
    refine h.step run.sound ?_ ((Allocation.of_run h_new h_plain run h_fewer).room h_few)
    exact h_own _ List.mem_concat_self

end Numbering

end OperationFeed
