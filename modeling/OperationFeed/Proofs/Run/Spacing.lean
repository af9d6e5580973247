import OperationFeed.Proofs.Run.Allocation
import OperationFeed.Proofs.Run.Beside
import OperationFeed.Proofs.Run.History

/-!
# How far apart the inserted checkpoints are

A feed with a checkpoint frequency inserts checkpoints of its own. It does not count operations: it
compares the counter with the number of the last checkpoint that it inserted, when an operation is
added that is no checkpoint itself. `Run.spaced` says where this puts the checkpoints, for a feed
whose numbers nobody else gives out.

The counter alone says little about the log, since a number that is given out may be rejected. But
the log takes every number until it has taken the last one there is, and none after that. So it is
either full, and nothing is inserted any more, or level with the counter (`Feed.Level`), and then
the numbers that lie too far above the last inserted checkpoint are those of explicit checkpoints
(`Feed.Spaced`). This is kept by what happens to one operation, in the two stages of adding it
(`Feed.Spaced.prepares`, `Feed.Spaced.takes`), and then by every step of a run (`Spacing.step`).

The checkpoints that were inserted are read off the log (`Step.inserted`), and `Step.insert_course`
connects them with the number that the feed remembers.
-/

namespace OperationFeed

namespace Feed

variable {op : Operation} {feed feed' : Feed}

/-! ### The log and the counter -/

/-- The number that the log took last is the one that was given out last. -/
def Level (feed : Feed) : Prop :=
  (feed.current = 0 ∧ feed.log.highWater = none) ∨ feed.log.highWater = some feed.current

/-- The log has taken the last of all numbers. -/
def Full (feed : Feed) : Prop := ∃ mark, feed.log.highWater = some mark ∧ ∀ number, number ≤ mark

/-- A full log takes nothing, as every number is at most its mark. -/
theorem Full.not_takes (h : feed.Full) (takes : Takes op feed feed') : False := by
  obtain ⟨mark, h_mark, h_last⟩ := h
  have h_lt := (Log.append_ok takes.accepted).2.2 mark h_mark
  exact UInt64.not_lt.mpr (h_last _) h_lt

/-- Whatever the log takes brings it level with the counter. -/
theorem Takes.level (takes : Takes op feed feed') (h_plain : feed.metadata.record = none) :
    feed'.Level := by
  refine .inr ?_
  rw [(Log.append_ok takes.accepted).2.1, takes.current h_plain,
    Metadata.offered_of_plain h_plain]

/-- To take an operation forces no number. -/
theorem Takes.plain (takes : Takes op feed feed') (h_plain : feed.metadata.record = none) :
    feed'.metadata.record = none := by
  rw [takes.eq]
  exact Metadata.record_numbered_of_plain h_plain op

namespace Level

variable (h : feed.Level) (h_plain : feed.metadata.record = none)

include h h_plain

/-- If the log takes the next number, the counter does not start over. -/
theorem offered (takes : Takes op feed feed') :
    feed.metadata.offered.toNat = feed.current.toNat + 1 := by
  rw [Metadata.offered_of_plain h_plain]
  -- either nothing was taken yet, or the mark is the counter and the next number is above it
  rcases h with ⟨h_zero, -⟩ | h_mark
  · rw [Feed.current] at h_zero ⊢
    rw [h_zero]
    rfl
  · have h_lt := (Log.append_ok takes.accepted).2.2 _ h_mark
    rw [Metadata.offered_of_plain h_plain, UInt64.lt_iff_toNat_lt, UInt64.toNat_add,
      UInt64.toNat_one] at h_lt
    rw [UInt64.toNat_add, UInt64.toNat_one]
    have h_bound := feed.current.toNat_lt
    unfold Feed.current at *
    omega

/-- If the log rejects the next number, the counter has started over, and the log is full. -/
theorem rejects {cause : OutOfOrder} (rejects : Rejects op cause feed feed') :
    feed.current.toNat + 1 = UInt64.size ∧ feed'.Full := by
  obtain ⟨h_mark, -, h_le⟩ := Log.append_error rejects.refused
  -- what the log names as its last number is the counter
  have h_last : cause.last = feed.current := by
    rcases h with ⟨-, h_none⟩ | h_some
    · rw [h_none] at h_mark
      cases h_mark
    · exact (Option.some.inj (h_some.symm.trans h_mark)).symm
  rw [Metadata.offered_of_plain h_plain, h_last, UInt64.le_iff_toNat_le, UInt64.toNat_add,
    UInt64.toNat_one] at h_le
  have h_bound := feed.current.toNat_lt
  have h_end : feed.current.toNat + 1 = UInt64.size := by
    unfold UInt64.size
    unfold Feed.current at *
    omega
  refine ⟨h_end, feed.current, ?_, ?_⟩
  · rw [rejects.eq, h_mark, h_last]
  · intro number
    have h_number := number.toNat_lt_size
    rw [UInt64.le_iff_toNat_le]
    omega

end Level

/-! ### Spaced checkpoints -/

/-- The counter is at most a period above the last checkpoint that the feed inserted, but for
explicit checkpoints: above that, all numbers are theirs. -/
structure Spaced (frequency : UInt64) (explicit : Nat → Prop) (feed : Feed) : Prop where
  frequent : feed.config.autoCheckpointFrequency = some frequency
  plain : feed.metadata.record = none
  level : feed.Level
  last_le : feed.lastAutoCheckpoint.toNat ≤ feed.current.toNat
  explicit : ∀ n, feed.lastAutoCheckpoint.toNat + frequency.toNat < n → n ≤ feed.current.toNat →
    explicit n

/-- The counter is less than a period above the last checkpoint that the feed inserted. -/
def IsNear (frequency : UInt64) (feed : Feed) : Prop :=
  feed.current.toNat < feed.lastAutoCheckpoint.toNat + frequency.toNat

/-- A checkpoint is due if the counter is a period or more above the last one inserted. -/
theorem checkpointDue_iff {frequency : UInt64}
    (h : feed.config.autoCheckpointFrequency = some frequency) :
    feed.checkpointDue = true ↔
      frequency.toNat ≤ feed.current.toNat - feed.lastAutoCheckpoint.toNat := by
  rw [checkpointDue, h]
  exact decide_eq_true_iff

namespace Spaced

variable {frequency : UInt64} {explicit : Nat → Prop} (h : feed.Spaced frequency explicit)

include h

/-- A checkpoint that is due goes in a period or more above the last one, and then the counter is
near it. -/
theorem prepares (h_pos : 0 < frequency.toNat) (prepares : Prepares op feed feed') :
    feed'.Spaced frequency explicit ∧ (op.isCheckpoint = false → feed'.IsNear frequency) := by
  cases prepares with
  | notDue due =>
    refine ⟨h, ?_⟩
    intro h_kind
    rw [h_kind, Bool.not_false, Bool.true_and] at due
    have h_not := (checkpointDue_iff h.frequent).not.mp (Bool.not_eq_true _ ▸ due)
    have h_le := h.last_le
    unfold IsNear
    omega
  | @inserted feed' due takes =>
    have h_config : feed'.config = feed.config := by rw [takes.eq]
    have h_current : feed'.current = feed.metadata.offered :=
      (takes.current h.plain).trans (Metadata.offered_of_plain h.plain).symm
    have h_level : feed'.Level := takes.level h.plain
    have h_last : feed.metadata.offered.toNat = feed'.current.toNat := congrArg _ h_current.symm
    refine ⟨⟨?_, takes.plain h.plain, h_level, Nat.le_of_eq h_last, ?_⟩, fun _ => ?_⟩
    · show feed'.config.autoCheckpointFrequency = some frequency
      rw [h_config, h.frequent]
    · -- the checkpoint has the last number, so none is above it
      intro n h_low h_high
      have h_high : n ≤ feed'.current.toNat := h_high
      have h_low : feed.metadata.offered.toNat + frequency.toNat < n := h_low
      omega
    · show feed'.current.toNat < feed.metadata.offered.toNat + frequency.toNat
      omega

/-- The next operation goes in no further than a period above the last inserted checkpoint, unless
it is an explicit checkpoint. -/
theorem takes (h_near : op.isCheckpoint = false → feed.IsNear frequency)
    (takes : Takes op feed feed') :
    feed'.Spaced frequency fun n =>
      explicit n ∨ op.isCheckpoint = true ∧ n = feed.metadata.offered.toNat := by
  have h_offered := h.level.offered h.plain takes
  have h_current : feed'.current.toNat = feed.current.toNat + 1 := by
    rw [takes.current h.plain, ← Metadata.offered_of_plain h.plain, h_offered]
  have h_config : feed'.config = feed.config := by rw [takes.eq]
  have h_last : feed'.lastAutoCheckpoint = feed.lastAutoCheckpoint := by rw [takes.eq]
  refine ⟨h_config ▸ h.frequent, takes.plain h.plain, takes.level h.plain, ?_, ?_⟩
  · rw [h_last, h_current]
    exact Nat.le_add_right_of_le h.last_le
  · intro n h_low h_high
    rw [h_last] at h_low
    rw [h_current] at h_high
    -- the numbers are those of before and the new one
    rcases Nat.lt_or_eq_of_le h_high with h_lt | rfl
    · exact .inl (h.explicit n h_low (Nat.le_of_lt_succ h_lt))
    · cases h_kind : op.isCheckpoint with
      | true => exact .inr ⟨rfl, h_offered.symm⟩
      | false =>
        have h_near := h_near h_kind
        unfold IsNear at h_near
        omega

omit h in
/-- The spacing depends on a few things only. -/
theorem of_eq (h : feed.Spaced frequency explicit) (h_config : feed'.config = feed.config)
    (h_plain : feed'.metadata.record = none) (h_current : feed'.current = feed.current)
    (h_mark : feed'.log.highWater = feed.log.highWater)
    (h_last : feed'.lastAutoCheckpoint = feed.lastAutoCheckpoint) :
    feed'.Spaced frequency explicit := by
  obtain ⟨frequent, plain, level, last_le, explicit⟩ := h
  refine ⟨h_config ▸ frequent, h_plain, ?_, ?_, ?_⟩
  · rw [Level, h_current, h_mark]
    exact level
  · rw [h_last, h_current]
    exact last_le
  · rw [h_last, h_current]
    exact explicit

/-- More numbers may be called explicit than are. -/
theorem mono {explicit' : Nat → Prop} (h_mono : ∀ n, explicit n → explicit' n) :
    feed.Spaced frequency explicit' :=
  ⟨h.frequent, h.plain, h.level, h.last_le,
    fun n h_low h_high => h_mono n (h.explicit n h_low h_high)⟩

/-- That a fault point counts an operation does not matter to the spacing. -/
theorem counted (point : FaultPoint) : (feed.counted point).Spaced frequency explicit :=
  h.of_eq rfl h.plain rfl rfl rfl

/-- An operation that is no checkpoint goes in less than a period above the last inserted one. -/
theorem near (h_near : feed.IsNear frequency) (takes : Takes op feed feed') :
    feed.lastAutoCheckpoint.toNat < feed.metadata.offered.toNat ∧
      feed.metadata.offered.toNat ≤ feed.lastAutoCheckpoint.toNat + frequency.toNat := by
  have h_offered := h.level.offered h.plain takes
  have h_le := h.last_le
  unfold IsNear at h_near
  omega

/-- Adding an operation keeps the spacing, or it fills the log. -/
theorem addCourse (h_pos : 0 < frequency.toNat) {result : Except FeedError SequenceNumber}
    (course : AddCourse op feed result feed') :
    feed'.Full ∨ feed'.Spaced frequency fun n => explicit n ∨
      op.isCheckpoint = true ∧ ∃ number, result = .ok number ∧ n = number.toNat := by
  cases course with
  | refused same why =>
    refine .inr (Spaced.mono ?_ fun n => .inl)
    exact h.of_eq same.config (same.record_eq_none.mpr h.plain) same.current (by rw [same.log])
      same.lastAutoCheckpoint
  | rejectedCheckpoint admits due rejects =>
    have h' := h.counted .add
    exact .inl (h'.level.rejects h'.plain rejects).2
  | rejected admits prepares rejects =>
    have h' := ((h.counted .add).prepares h_pos prepares).1
    exact .inl (h'.level.rejects h'.plain rejects).2
  | @accepted feed₁ feed₂ admits prepares takes =>
    obtain ⟨h', h_near⟩ := (h.counted .add).prepares h_pos prepares
    have h'' := h'.takes h_near takes
    have h_woken : feed₂.woken.Spaced frequency _ := h''.of_eq rfl h''.plain rfl rfl rfl
    -- the new explicit number is that of the operation, if it is a checkpoint
    refine .inr (h_woken.mono ?_)
    rintro n (h_explicit | ⟨h_kind, h_number⟩)
    · exact .inl h_explicit
    · exact .inr ⟨h_kind, _, rfl, h_number⟩

end Spaced

namespace Full

variable (h : feed.Full)

include h

/-- Nothing is inserted into a full log. -/
theorem prepares (prepares : Prepares op feed feed') : feed'.Full := by
  cases prepares with
  | notDue due => exact h
  | inserted due takes => exact absurd takes h.not_takes

/-- A full log stays full, whatever is added. -/
theorem addCourse {result : Except FeedError SequenceNumber}
    (course : AddCourse op feed result feed') : feed'.Full := by
  have h_counted : (feed.counted .add).Full := h
  cases course with
  | refused same why =>
    rw [Full, same.log]
    exact h
  | rejectedCheckpoint admits due rejects =>
    rw [rejects.eq]
    exact h
  | rejected admits prepares rejects =>
    have h_prepared := h_counted.prepares prepares
    rw [rejects.eq]
    exact h_prepared
  | accepted admits prepares takes => exact absurd takes (h_counted.prepares prepares).not_takes

end Full

end Feed

/-! ### What is inserted -/

namespace Step

/-- The entries that a step appends for the feed itself: all but the one of the operation that it
adds. -/
def inserted (s : Step) : List FeedEntry :=
  match s.answer with
  | .success _ => s.appended.dropLast
  | _ => s.appended

/-- The step adds an operation, and the answer is its number. -/
def Adds (s : Step) (op : Operation) (number : Nat) : Prop :=
  s.action = .now (.add op) ∧ s.answer = .success (.number number)

variable {s : Step}

/-- A step that appends nothing inserts nothing. -/
theorem inserted_of_appended_nil (h : s.appended = []) : s.inserted = [] := by
  unfold inserted
  rw [h]
  split <;> rfl

/-- All but the last entry are inserted by a step that adds its operation. -/
theorem inserted_of_success {answer : Answer} {new : List FeedEntry} {e : FeedEntry}
    (h : s.answer = .success answer)
    (grows : Grows s.before.state.log (new ++ [e]) s.after.state.log) : s.inserted = new := by
  unfold inserted
  rw [h, appended_of_grows grows]
  exact List.dropLast_concat

/-- All entries are inserted by a step whose operation fails. -/
theorem inserted_of_failure {e : FeedError} {new : List FeedEntry} (h : s.answer = .failure e)
    (grows : Grows s.before.state.log new s.after.state.log) : s.inserted = new := by
  unfold inserted
  rw [h, appended_of_grows grows]

/-- An operation gets its number in the second stage of being added. -/
theorem Adds.takes {op : Operation} {number : Nat} (h : s.Adds op number) :
    ∃ feed₁ feed₂, Feed.Prepares op (s.before.state.counted .add) feed₁ ∧
      Feed.Takes op feed₁ feed₂ ∧ s.after.state = feed₂.woken ∧
      number = feed₁.metadata.offered.toNat := by
  obtain ⟨h_action, h_answer⟩ := h
  cases s.stream_course with
  | same same noCut notAdd => exact absurd h_action (notAdd op)
  | metadata request h_metadata h_after => exact absurd h_action (ne_add_of_metadata h_metadata op)
  | truncated handle upTo h_turn live h_after =>
    exact absurd h_action (ne_add_of_executor h_turn op)
  | added op' result h_action' h_answer' course =>
    obtain rfl : op' = op := by
      injection h_action'.symm.trans h_action with h_call
      injection h_call
    rw [h_answer'] at h_answer
    -- of the courses, only the accepted one answers with a number
    generalize h_after : s.after.state = feed' at course
    cases course with
    | accepted admits prepares takes =>
      injection h_answer with h_number
      injection h_number with h_number
      exact ⟨_, _, prepares, takes, rfl, h_number.symm⟩
    | _ => cases h_answer

/-- What a step inserts, and what the feed remembers of it. -/
inductive InsertCourse (s : Step) : Prop
  | nothing (inserted : s.inserted = [])
      (last : s.after.state.lastAutoCheckpoint = s.before.state.lastAutoCheckpoint)
  -- A checkpoint that is due; the operation follows, unless the log rejects it.
  | checkpoint {op : Operation} {feed' : Feed} (action : s.action = .now (.add op))
      (due : (!op.isCheckpoint && s.before.state.checkpointDue) = true)
      (takes : Feed.Takes .checkpoint (s.before.state.counted .add) feed')
      (inserted : s.inserted = [FeedEntry.of .checkpoint s.before.state.metadata.offered])
      (last : s.after.state.lastAutoCheckpoint = s.before.state.metadata.offered)
      (follows : s.Adds op feed'.metadata.offered.toNat ∨
        ∃ cause feed'', Feed.Rejects op cause
          { feed' with lastAutoCheckpoint := s.before.state.metadata.offered } feed'')

/-- Every step takes one of the two courses. -/
theorem insert_course (s : Step) : s.InsertCourse := by
  have of_not_add : (∀ op, s.action ≠ .now (.add op)) → s.InsertCourse := by
    intro h_add
    exact .nothing (inserted_of_appended_nil (appended_of_not_add h_add))
      (FeedAction.keeps_lastAutoCheckpoint h_add s.before)
  have of_log_eq : s.after.state.log = s.before.state.log →
      s.after.state.lastAutoCheckpoint = s.before.state.lastAutoCheckpoint → s.InsertCourse :=
    fun h_log => .nothing (inserted_of_appended_nil (appended_of_log_eq h_log))
  cases s.stream_course with
  | same same noCut notAdd => exact of_not_add notAdd
  | metadata request h_action h_after => exact of_not_add (ne_add_of_metadata h_action)
  | truncated handle upTo h_action live h_after => exact of_not_add (ne_add_of_executor h_action)
  | added op result h_action h_answer course =>
  -- by how far the operation gets, and by whether a checkpoint is due before it
  generalize h_after : s.after.state = feed' at course
  cases course with
  | refused same why =>
    apply of_log_eq
    · rw [h_after, same.log]
    · rw [h_after, same.lastAutoCheckpoint]
  | rejectedCheckpoint admits due rejects =>
    apply of_log_eq
    · rw [h_after, rejects.eq]
      rfl
    · rw [h_after, rejects.eq]
      rfl
  | rejected admits prepares rejects =>
    cases prepares with
    | notDue due =>
      apply of_log_eq
      · rw [h_after, rejects.eq]
        rfl
      · rw [h_after, rejects.eq]
        rfl
    | inserted due takes =>
      have grows : Grows s.before.state.log
          [FeedEntry.of .checkpoint s.before.state.metadata.offered] s.after.state.log := by
        rw [h_after, rejects.eq]
        exact takes.grows
      -- the checkpoint stays in the log although the operation is rejected
      refine .checkpoint h_action due takes (inserted_of_failure h_answer grows) ?_
        (.inr ⟨_, _, rejects⟩)
      rw [h_after, rejects.eq]
      rfl
  | accepted admits prepares takes =>
    cases prepares with
    | notDue due =>
      have grows : Grows s.before.state.log
          ([] ++ [FeedEntry.of op s.before.state.metadata.offered]) s.after.state.log := by
        rw [h_after]
        exact takes.grows
      refine .nothing (inserted_of_success h_answer grows) ?_
      rw [h_after, Feed.woken, takes.eq]
      rfl
    | @inserted feed₁ due inserts =>
      have grows : Grows s.before.state.log
          ([FeedEntry.of .checkpoint s.before.state.metadata.offered] ++
            [FeedEntry.of op feed₁.metadata.offered]) s.after.state.log := by
        rw [h_after]
        exact inserts.grows.trans takes.grows
      refine .checkpoint h_action due inserts (inserted_of_success h_answer grows) ?_
        (.inl ⟨h_action, h_answer⟩)
      rw [h_after, Feed.woken, takes.eq]
      rfl

end Step

/-- The number of the last checkpoint that was inserted, zero if there is none. -/
def lastInserted (steps : List Step) : Nat :=
  ((steps.flatMap Step.inserted).getLast?.map (·.number.toNat)).getD 0

section LastInserted

variable {steps : List Step} {s : Step}

/-- A step that inserts nothing leaves the last inserted checkpoint. -/
theorem lastInserted_concat_of_nil (h : s.inserted = []) :
    lastInserted (steps ++ [s]) = lastInserted steps := by
  rw [lastInserted, List.flatMap_append, List.flatMap_singleton, h, List.append_nil, lastInserted]

/-- What a step inserts is the last inserted checkpoint from then on. -/
theorem lastInserted_concat_of_singleton {e : FeedEntry} (h : s.inserted = [e]) :
    lastInserted (steps ++ [s]) = e.number.toNat := by
  rw [lastInserted, List.flatMap_append, List.flatMap_singleton, h, List.getLast?_concat]
  rfl

/-- The feed remembers the last checkpoint that it inserted. -/
theorem Run.lastInserted_eq {feed : Feed} {m : FeedMachine} (h_new : feed.lastAutoCheckpoint = 0)
    (run : Run feed steps m) : lastInserted steps = m.state.lastAutoCheckpoint.toNat := by
  induction run with
  | start =>
    rw [h_new]
    rfl
  | @step steps m run action ih =>
    cases Step.insert_course ⟨m, action⟩ with
    | nothing inserted last => rw [lastInserted_concat_of_nil inserted, ih, last]
    | checkpoint h_action due takes inserted last follows =>
      rw [lastInserted_concat_of_singleton inserted, last]
      rfl

end LastInserted

/-! ### Runs -/

/-- The action gives out no number, unless it adds an operation. -/
def FeedAction.leavesNumbers : FeedAction → Bool
  | .now (.metadata request) => !request.allocates
  | _ => true

/-- One of the steps adds a checkpoint under a number. -/
def AddsCheckpoint (steps : List Step) (number : Nat) : Prop :=
  ∃ s ∈ steps, ∃ op, s.Adds op number ∧ op.isCheckpoint = true

/-- The log is full, or the checkpoints are spaced. -/
def Spacing (frequency : UInt64) (steps : List Step) (feed : Feed) : Prop :=
  feed.Full ∨ feed.Spaced frequency (AddsCheckpoint steps)

section Runs

variable {frequency : UInt64} {steps : List Step} {m : FeedMachine} {action : FeedAction}

/-- A step that adds nothing leaves counter and mark as they are. -/
theorem Spacing.step_of_not_add (h : Spacing frequency steps m.state)
    (h_add : ∀ op, action ≠ .now (.add op))
    (h_plain : m.state.metadata.record = none →
      (Step.after ⟨m, action⟩).state.metadata.record = none)
    (h_current : (Step.after ⟨m, action⟩).state.current = m.state.current)
    (h_mark : (Step.after ⟨m, action⟩).state.log.highWater = m.state.log.highWater) :
    Spacing frequency (steps ++ [⟨m, action⟩]) (Step.after ⟨m, action⟩).state := by
  rcases h with ⟨mark, h_full, h_last⟩ | h
  · exact .inl ⟨mark, h_mark.trans h_full, h_last⟩
  · have h_last := FeedAction.keeps_lastAutoCheckpoint h_add m
    have h' := h.of_eq (FeedAction.keeps_config action m) (h_plain h.plain) h_current h_mark h_last
    refine .inr (h'.mono ?_)
    rintro n ⟨s, h_mem, h_adds⟩
    exact ⟨s, List.mem_append_left _ h_mem, h_adds⟩

/-- A step by which nobody else gets a number keeps the spacing. -/
theorem Spacing.step (h : Spacing frequency steps m.state) (h_pos : 0 < frequency.toNat)
    (h_numbers : action.leavesNumbers = true) :
    Spacing frequency (steps ++ [⟨m, action⟩]) (Step.after ⟨m, action⟩).state := by
  cases Step.stream_course ⟨m, action⟩ with
  | same same noCut notAdd =>
    exact h.step_of_not_add notAdd same.plain same.current (by rw [same.log])
  | metadata request h_action h_after =>
    obtain rfl : action = .now (.metadata request) := h_action
    have h_allocates : request.allocates = false := by
      rwa [FeedAction.leavesNumbers, Bool.not_eq_true'] at h_numbers
    refine h.step_of_not_add (by rintro op ⟨⟩) ?_ ?_ (by rw [h_after])
    · rw [h_after]
      exact Metadata.record_answer_of_plain
    · rw [h_after]
      exact Metadata.current_answer h_allocates
  | truncated handle upTo h_action live h_after =>
    have h_stream := Feed.SameStream.truncate upTo m.state
    rw [← h_after] at h_stream
    refine h.step_of_not_add (Step.ne_add_of_executor h_action) ?_ ?_ ?_
    · exact fun h_plain => h_stream.plain (Feed.cut_plain upTo _ h_plain)
    · exact h_stream.current.trans (Feed.cut_current ..)
    · rw [h_stream.log]
      exact Feed.cut_highWater ..
  | added op result h_action h_answer course =>
    -- only here does the counter move
    rcases h with h_full | h
    · exact .inl (h_full.addCourse course)
    · refine (h.addCourse h_pos course).imp_right fun h' => h'.mono ?_
      rintro n (⟨s, h_mem, h_adds⟩ | ⟨h_kind, number, rfl, rfl⟩)
      · exact ⟨s, List.mem_append_left _ h_mem, h_adds⟩
      · exact ⟨_, List.mem_concat_self, op, ⟨h_action, h_answer⟩, h_kind⟩

/-- In a run in which nobody else gets a number, the spacing is kept throughout. -/
theorem Spacing.of_run {feed : Feed} (run : Run feed steps m) (h_new : feed.IsNew)
    (h_plain : feed.metadata.record = none) (h_last : feed.lastAutoCheckpoint = 0)
    (h_frequency : feed.config.autoCheckpointFrequency = some frequency)
    (h_pos : 0 < frequency.toNat) (h_numbers : ∀ s ∈ steps, s.action.leavesNumbers = true) :
    Spacing frequency steps m.state := by
  induction run with
  | start =>
    have h_level : feed.Level := .inl ⟨h_new.current, by rw [h_new.log]; rfl⟩
    refine .inr ⟨h_frequency, h_plain, h_level, ?_, ?_⟩
    · rw [h_last]
      exact Nat.zero_le _
    · intro n h_low h_high
      rw [Feed.current, h_new.current] at h_high
      exact absurd h_high (Nat.not_le.mpr (Nat.zero_lt_of_lt h_low))
  | step run action ih =>
    have h := ih fun s h_mem => h_numbers s (List.mem_append_left _ h_mem)
    exact h.step h_pos (h_numbers _ List.mem_concat_self)

end Runs

/-! ### Where the checkpoints are -/

/-- A valid configuration has no period of zero. -/
theorem Config.frequency_pos {config : Config} {frequency : UInt64}
    (h_valid : config.validate = .ok ()) (h : config.autoCheckpointFrequency = some frequency) :
    0 < frequency.toNat := by
  apply Nat.pos_of_ne_zero
  intro h_zero
  have h_frequency : frequency = 0 := UInt64.toNat_inj.mp h_zero
  rw [Config.validate, h, h_frequency, if_pos rfl] at h_valid
  cases h_valid

/-- What a step does to the spacing of the checkpoints that a feed inserts, after
the steps before. -/
structure Step.KeepsSpacing (frequency : Nat) (before : List Step) (s : Step) : Prop where
  /-- What a step appends is an operation under the number that it is answered with, after what the
  step inserts. -/
  parts : ∀ op number, s.Adds op number →
    ∃ e, s.appended = s.inserted ++ [e] ∧ e.number.toNat = number ∧ e.item = op.withNumber e.number
  /-- An operation that is no checkpoint goes in after the last inserted checkpoint, at most a
  period above it. -/
  near : ∀ op number, s.Adds op number → op.isCheckpoint = false →
    lastInserted (before ++ [s]) < number ∧ number ≤ lastInserted (before ++ [s]) + frequency
  /-- What is inserted is one checkpoint, before an operation that is none. The operation gets the
  next number, if there is one. -/
  single : ∀ e ∈ s.inserted, s.inserted = [e] ∧ e.item.isCheckpoint = true ∧
    ∃ op, s.action = .now (.add op) ∧ op.isCheckpoint = false ∧
      (e.number.toNat + 1 < UInt64.size → s.Adds op (e.number.toNat + 1))
  /-- It goes in more than a period above the last one, -/
  far : ∀ e ∈ s.inserted, lastInserted before + frequency + 1 ≤ e.number.toNat
  /-- and by more than that only because of explicit checkpoints. -/
  explicit : ∀ e ∈ s.inserted, ∀ n, lastInserted before + frequency < n → n < e.number.toNat →
    AddsCheckpoint before n

section Step

variable {frequency : UInt64} {before : List Step} {s : Step}

/-- The last entry of a step that adds an operation is that operation's. -/
theorem Step.Adds.parts {op : Operation} {number : Nat} (h : s.Adds op number) :
    ∃ e, s.appended = s.inserted ++ [e] ∧ e.number.toNat = number ∧
      e.item = op.withNumber e.number := by
  obtain ⟨feed₁, feed₂, prepares, takes, h_after, rfl⟩ := h.takes
  obtain ⟨new, grows, -⟩ := prepares.grows
  have h_grows : Grows s.before.state.log (new ++ [FeedEntry.of op feed₁.metadata.offered])
      s.after.state.log := by
    rw [h_after]
    exact grows.trans takes.grows
  refine ⟨FeedEntry.of op feed₁.metadata.offered, ?_, rfl, rfl⟩
  rw [appended_of_grows h_grows, inserted_of_success h.2 h_grows]

/-- The operation before which a checkpoint is inserted gets the next number, if there is one. -/
theorem Feed.Spaced.adds_next {explicit : Nat → Prop} {op : Operation} {feed' : Feed}
    (h : s.before.state.Spaced frequency explicit)
    (takes : Takes .checkpoint (s.before.state.counted .add) feed')
    (follows : s.Adds op feed'.metadata.offered.toNat ∨ ∃ cause feed'', Rejects op cause
      { feed' with lastAutoCheckpoint := s.before.state.metadata.offered } feed'')
    (h_room : s.before.state.metadata.offered.toNat + 1 < UInt64.size) :
    s.Adds op (s.before.state.metadata.offered.toNat + 1) := by
  have h_plain : feed'.metadata.record = none := takes.plain h.plain
  have h_current : feed'.metadata.store.current = s.before.state.metadata.offered :=
    (takes.current h.plain).trans (Metadata.offered_of_plain h.plain).symm
  rcases follows with adds | ⟨cause, feed'', rejects⟩
  · have h_next : feed'.metadata.offered.toNat = s.before.state.metadata.offered.toNat + 1 := by
      rw [Metadata.offered_of_plain h_plain, h_current, UInt64.toNat_add, UInt64.toNat_one]
      exact Nat.mod_eq_of_lt h_room
    exact h_next ▸ adds
  · -- a rejection would mean that the checkpoint has the last number
    have h_level : Level { feed' with lastAutoCheckpoint := s.before.state.metadata.offered } :=
      takes.level h.plain
    have h_end : feed'.metadata.store.current.toNat + 1 = UInt64.size :=
      (h_level.rejects h_plain rejects).1
    rw [h_current] at h_end
    exact absurd h_end (Nat.ne_of_lt h_room)

/-- An operation that is added is at most a period above the last inserted checkpoint, which may
have come right before it. -/
theorem Step.near_of_adds (h : Spacing frequency before s.before.state)
    (h_pos : 0 < frequency.toNat)
    (h_after : lastInserted (before ++ [s]) = s.after.state.lastAutoCheckpoint.toNat)
    {op : Operation} {number : Nat} (h_adds : s.Adds op number) (h_kind : op.isCheckpoint = false) :
    lastInserted (before ++ [s]) < number ∧
      number ≤ lastInserted (before ++ [s]) + frequency.toNat := by
  obtain ⟨feed₁, feed₂, prepares, takes, h_state, rfl⟩ := h_adds.takes
  rcases h with h_full | h
  · have h_counted : (s.before.state.counted .add).Full := h_full
    exact absurd takes (h_counted.prepares prepares).not_takes
  · obtain ⟨h', h_near⟩ := (h.counted .add).prepares h_pos prepares
    have h_last : s.after.state.lastAutoCheckpoint = feed₁.lastAutoCheckpoint := by
      rw [h_state, Feed.woken, takes.eq]
    rw [h_after, h_last]
    exact h'.near (h_near h_kind) takes

/-- A step keeps the spacing if the feed remembers the last inserted checkpoint. -/
theorem Step.keepsSpacing (h : Spacing frequency before s.before.state)
    (h_pos : 0 < frequency.toNat)
    (h_before : lastInserted before = s.before.state.lastAutoCheckpoint.toNat)
    (h_after : lastInserted (before ++ [s]) = s.after.state.lastAutoCheckpoint.toNat) :
    s.KeepsSpacing frequency.toNat before := by
  have near : ∀ op number, s.Adds op number → op.isCheckpoint = false →
      lastInserted (before ++ [s]) < number ∧
        number ≤ lastInserted (before ++ [s]) + frequency.toNat :=
    fun op number => near_of_adds h h_pos h_after
  cases s.insert_course with
  | nothing inserted last =>
    have h_none : ∀ e, e ∉ s.inserted := by
      rw [inserted]
      exact fun e => List.not_mem_nil
    exact ⟨fun op number => Adds.parts, near, fun e h_mem => absurd h_mem (h_none e),
      fun e h_mem => absurd h_mem (h_none e), fun e h_mem => absurd h_mem (h_none e)⟩
  | @checkpoint op feed' h_action due takes inserted last follows =>
    rcases h with h_full | h
    -- a full log does not take the checkpoint
    · exact absurd takes (Feed.Full.not_takes h_full)
    have h' := h.counted .add
    have h_number : s.before.state.metadata.offered.toNat = s.before.state.current.toNat + 1 :=
      h'.level.offered h'.plain takes
    -- the checkpoint is due as the counter is a period above the last, and its number is the next
    obtain ⟨h_kind, h_due⟩ := Bool.and_eq_true_iff.mp due
    have h_period := (Feed.checkpointDue_iff h.frequent).mp h_due
    have h_le := h.last_le
    have h_eq : ∀ e ∈ s.inserted, e = FeedEntry.of .checkpoint s.before.state.metadata.offered := by
      intro e h_mem
      rw [inserted] at h_mem
      exact List.mem_singleton.mp h_mem
    refine ⟨fun op number => Adds.parts, near, ?_, ?_, ?_⟩
    · intro e h_mem
      obtain rfl := h_eq e h_mem
      exact ⟨inserted, rfl, op, h_action, Bool.not_eq_true' _ ▸ h_kind,
        h.adds_next takes follows⟩
    · intro e h_mem
      rw [h_eq e h_mem, h_before]
      show _ ≤ s.before.state.metadata.offered.toNat
      omega
    · intro e h_mem n h_low h_high
      rw [h_before] at h_low
      rw [h_eq e h_mem] at h_high
      refine h.explicit n h_low ?_
      have h_high : n < s.before.state.metadata.offered.toNat := h_high
      omega

/-- Without a frequency, nothing is inserted. -/
theorem Step.inserted_eq_nil (h : s.before.state.config.autoCheckpointFrequency = none) :
    s.inserted = [] := by
  cases s.insert_course with
  | nothing inserted last => exact inserted
  | checkpoint h_action due takes inserted last follows =>
    rw [Feed.checkpointDue, h, Bool.and_false] at due
    cases due

end Step

/-- In every run of a feed whose numbers nobody else gives out, the checkpoints that the feed
inserts are spaced by its frequency. Without a frequency it inserts none. -/
theorem Run.spaced {facade : Metadata.Facade} {container : ContainerId} {config : Config}
    {feed : Feed} {steps : List Step} {m : FeedMachine}
    (h_facade : facade = .plain ∨ facade = .traced)
    (h_make : Feed.make (.fresh facade container) config = .ok feed) (run : Run feed steps m)
    (h_numbers : ∀ s ∈ steps, s.action.leavesNumbers = true) :
    (∀ frequency, config.autoCheckpointFrequency = some frequency →
      ∀ before s, before ++ [s] <+: steps → s.KeepsSpacing frequency.toNat before) ∧
    (config.autoCheckpointFrequency = none → ∀ s ∈ steps, s.inserted = []) := by
  have h_new := Feed.isNew_of_make h_make
  have h_plain := Feed.record_of_make h_make h_facade
  obtain ⟨h_valid, h_config, h_last, -⟩ := Feed.start_of_make h_make
  refine ⟨?_, ?_⟩
  · rintro frequency h_frequency before s ⟨rest, rfl⟩
    have run_before : Run feed before s.before := run.of_append (List.append_assoc ..)
    have run_after : Run feed (before ++ [s]) s.after := run_before.step s.action
    have h_spacing : Spacing frequency before s.before.state := by
      refine .of_run run_before h_new h_plain h_last ?_
        (Config.frequency_pos h_valid h_frequency) ?_
      · rw [h_config, h_frequency]
      · intro s' h_mem
        exact h_numbers s' (List.mem_append_left _ (List.mem_append_left _ h_mem))
    exact Step.keepsSpacing h_spacing (Config.frequency_pos h_valid h_frequency)
      (run_before.lastInserted_eq h_last) (run_after.lastInserted_eq h_last)
  · intro h_none
    refine run.forall_mem ?_
    intro before s h_prefix run
    apply Step.inserted_eq_nil
    rw [run.config_eq, h_config, h_none]

/-- Checkpoints are added when one is due, an operation is refused, and the log is cut, before a
checkpoint is inserted. -/
def spacedActions : List FeedAction :=
  [.now (.add (.ofKind .probe)), .now (.add (.ofKind .probe)), .now (.add .checkpoint),
    .now (.add .checkpoint), .now (.add ⟨some 9, .probe⟩), .later (.acknowledge 3),
    .executor (.turn 0), .now (.add (.ofKind .probe)), .now (.add (.ofKind .probe)),
    .now (.add (.ofKind .probe))]

/-- With a period of two, checkpoints are inserted under the numbers five and eight. -/
theorem spaced_of_spacedActions : ∃ feed,
    Feed.make (.fresh .traced 1) ⟨some 2, true⟩ = .ok feed ∧
    (∀ s ∈ Step.trace ⟨feed, .fresh⟩ spacedActions, s.action.leavesNumbers = true) ∧
    (∀ before s, before ++ [s] <+: Step.trace ⟨feed, .fresh⟩ spacedActions →
      s.KeepsSpacing 2 before) ∧
    ((Step.trace ⟨feed, .fresh⟩ spacedActions).flatMap Step.inserted).map (·.number) = [5, 8] := by
  refine ⟨_, rfl, by decide, ?_, rfl⟩
  have h_spaced := Run.spaced (.inr rfl)
    (show Feed.make (.fresh .traced 1) ⟨some 2, true⟩ = _ from rfl)
    (Run.perform .start spacedActions) (by decide)
  exact h_spaced.1 2 rfl

end OperationFeed
