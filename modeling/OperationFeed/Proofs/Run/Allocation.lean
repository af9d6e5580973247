import Mathlib.Algebra.GroupWithZero.Nat
import OperationFeed.Proofs.Run.Stream

/-!
# Numbers given out

A store's counter goes through all numbers below `2 ^ 64` and then starts over. As long as a run has
given out fewer than that (`allocated`), the counter is how many it has given out, and every number
in the log is at most the counter (`Feed.Ahead`). So the number offered next is above all those in
the log, and the log takes it: of the four courses that adding can take, the two in which the log
rejects a number are out (`Feed.AddCourse.orderly_of_ahead`).

A facade that keeps a call record can be told to give out any number. `Counts` is for runs in which
nothing is forced on it, and `Allocation` for a facade without a record, of which that is always
true (`Feed.InStep`).
-/

namespace OperationFeed

namespace Feed

/-- The counter, as the feed sees it. -/
abbrev current (feed : Feed) : SequenceNumber := feed.metadata.store.current

/-- The numbers in the log are at most the counter, and no other number will be given out than the
counter's next. -/
structure Ahead (feed : Feed) : Prop where
  unforced : feed.metadata.Unforced
  mark_le : ∀ mark, feed.log.highWater = some mark → mark ≤ feed.current

/-- The numbers in the log are at most the counter, and no other number can be given out than the
counter's next. -/
structure InStep (feed : Feed) : Prop where
  plain : feed.metadata.record = none
  mark_le : ∀ mark, feed.log.highWater = some mark → mark ≤ feed.current

/-- A facade without a record forces nothing. -/
theorem InStep.ahead {feed : Feed} (h : InStep feed) : Ahead feed :=
  ⟨Metadata.unforced_of_plain h.plain, h.mark_le⟩

/-- What leaves the counter and the log leaves the log behind the counter. -/
theorem Ahead.sameStream {feed feed' : Feed} (h : Ahead feed) (same : SameStream feed feed')
    (unforced : feed'.metadata.Unforced) : Ahead feed' where
  unforced := unforced
  mark_le := by rw [same.log, current, same.current]; exact h.mark_le

/-- What leaves the core, and with it what is forced, leaves the log behind the counter. -/
theorem Ahead.sameCore {feed feed' : Feed} (h : Ahead feed) (same : SameCore feed feed') :
    Ahead feed' := by
  refine h.sameStream (.of_sameCore same) ?_
  have h_forced := same.forced
  have unforced := h.unforced
  rw [Metadata.Unforced] at unforced ⊢
  -- the two records force the same, and the first one forces nothing
  cases h_record : feed.metadata.record with
  | none =>
    rw [same.record_eq_none.mpr h_record]
    rfl
  | some r =>
    rw [h_record, Option.map_some, Option.map_eq_some_iff] at h_forced
    obtain ⟨r', h_record', h_eq⟩ := h_forced
    rw [h_record] at unforced
    rw [h_record']
    exact h_eq.trans unforced

/-- What leaves the counter and the log, and adds no record, leaves them in step. -/
theorem InStep.sameStream {feed feed' : Feed} (h : InStep feed) (same : SameStream feed feed') :
    InStep feed' where
  plain := same.plain h.plain
  mark_le := by rw [same.log, current, same.current]; exact h.mark_le

variable {op : Operation} {feed feed' : Feed}

/-- An operation that is taken moves the counter by one. -/
theorem Takes.current_of_unforced (takes : Takes op feed feed') (h : feed.metadata.Unforced) :
    feed'.current = feed.current + 1 := by
  rw [takes.eq]
  exact Metadata.current_numbered_of_unforced h op

/-- Over a facade without a record, an operation that is taken moves the counter by one. -/
theorem Takes.current (takes : Takes op feed feed') (h : feed.metadata.record = none) :
    feed'.current = feed.current + 1 :=
  takes.current_of_unforced (Metadata.unforced_of_plain h)

/-- The number that the log takes is the counter's next, which the counter then has. -/
theorem Ahead.takes (h : Ahead feed) (takes : Takes op feed feed') : Ahead feed' where
  unforced := by
    rw [takes.eq]
    exact Metadata.unforced_numbered h.unforced op
  mark_le mark h_mark := by
    have h_accepted := (Log.append_ok takes.accepted).2.1
    rw [h_accepted, Option.some.injEq, Metadata.offered_of_unforced h.unforced] at h_mark
    rw [takes.current_of_unforced h.unforced, h_mark]
    exact UInt64.le_refl _

/-- An operation that the log takes leaves a facade without a record in step. -/
theorem InStep.takes (h : InStep feed) (takes : Takes op feed feed') : InStep feed' where
  plain := by
    rw [takes.eq]
    exact Metadata.record_numbered_of_plain h.plain op
  mark_le := (h.ahead.takes takes).mark_le

/-- A checkpoint that was due leaves the log in step. -/
theorem Ahead.prepares (h : Ahead feed) (prepares : Prepares op feed feed') : Ahead feed' := by
  cases prepares with
  | notDue _ => exact h
  | inserted _ takes =>
    have h' := h.takes takes
    exact ⟨h'.unforced, h'.mark_le⟩

/-- A checkpoint that was due leaves a facade without a record in step. -/
theorem InStep.prepares (h : InStep feed) (prepares : Prepares op feed feed') : InStep feed' := by
  cases prepares with
  | notDue _ => exact h
  | inserted _ takes =>
    have h' := h.takes takes
    exact ⟨h'.plain, h'.mark_le⟩

/-- A cut leaves the counter and the high-water mark. -/
theorem Ahead.truncate (h : Ahead feed) (upTo : SequenceNumber)
    (unforced : ((Feed.truncate upTo).effect feed).2.metadata.Unforced) :
    Ahead ((Feed.truncate upTo).effect feed).2 where
  unforced := unforced
  mark_le := by
    have same := SameStream.truncate upTo feed
    rw [same.log, cut_highWater, Feed.current, same.current, cut_current]
    exact h.mark_le

/-- A cut leaves a facade without a record in step. -/
theorem InStep.truncate (h : InStep feed) (upTo : SequenceNumber) :
    InStep ((Feed.truncate upTo).effect feed).2 := by
  have h_plain := (SameStream.truncate upTo feed).plain (cut_plain upTo feed h.plain)
  exact ⟨h_plain, (h.ahead.truncate upTo (Metadata.unforced_of_plain h_plain)).mark_le⟩

/-- The log rejects no number while the counter does not start over. -/
theorem Rejects.lt_room {cause : OutOfOrder} (rejects : Rejects op cause feed feed')
    (h : Ahead feed) : UInt64.size ≤ feed.current.toNat + 1 := by
  obtain ⟨h_mark, -, h_le⟩ := Log.append_error rejects.refused
  have h_last := h.mark_le _ h_mark
  rw [Metadata.offered_of_unforced h.unforced] at h_le
  -- the next number is not above the counter, so the counter has started over
  have h_next := UInt64.le_iff_toNat_le.mp (UInt64.le_trans h_le h_last)
  rw [UInt64.toNat_add, UInt64.toNat_one] at h_next
  have h_bound := feed.current.toNat_lt
  unfold Feed.current UInt64.size at *
  omega

/-- A number that is rejected is given out all the same. -/
theorem Rejects.current {cause : OutOfOrder} (rejects : Rejects op cause feed feed')
    (h : feed.metadata.Unforced) : feed'.current = feed.current + 1 := by
  rw [rejects.eq]
  exact Metadata.current_numbered_of_unforced h op

/-- How many numbers lie between two states of the counter. -/
def numbersBetween (feed feed' : Feed) : Nat := (feed'.current - feed.current).toNat

/-- If the counter does not start over, it goes up by the numbers in between. -/
theorem toNat_current (h_room : feed.current.toNat + numbersBetween feed feed' < UInt64.size) :
    feed'.current.toNat = feed.current.toNat + numbersBetween feed feed' := by
  have h_sum : feed.current + (feed'.current - feed.current) = feed'.current := by
    rw [UInt64.add_comm, UInt64.sub_add_cancel]
  rw [← h_sum, UInt64.toNat_add]
  exact Nat.mod_eq_of_lt h_room

/-- A rejection makes the counter start over, at most one number after the call began. -/
theorem Rejects.not_room {cause : OutOfOrder} {feed₁ : Feed}
    (rejects : Rejects op cause feed₁ feed')
    (h : Ahead feed₁) (h_near : feed₁.current = feed.current ∨ feed₁.current = feed.current + 1) :
    ¬ feed.current.toNat + numbersBetween feed feed' < UInt64.size := by
  intro h_room
  -- the counter was at its last number, and the rejected one made it start over
  have h_last := rejects.lt_room h
  have h_start := rejects.current h.unforced
  have h_sum := toNat_current h_room
  have h_bound := feed₁.current.toNat_lt
  rw [h_start, UInt64.toNat_add, UInt64.toNat_one] at h_sum
  unfold UInt64.size at h_last
  rcases h_near with h_near | h_near
  · rw [h_near] at h_last h_sum h_bound
    omega
  · rw [h_near, UInt64.toNat_add, UInt64.toNat_one] at h_last h_sum h_bound
    omega

/-- The courses of adding an operation in which the log rejects no number. -/
inductive OrderlyAdd (op : Operation) (feed : Feed) :
    Except FeedError SequenceNumber → Feed → Prop
  | refused {e : FeedError} {feed' : Feed} (same : SameCore feed feed')
      (why : (feed.isClosed = true ∧ e = .closed) ∨
        (∃ number, op.sequenceNumber = some number ∧ e = .alreadySequenced number) ∨
        feed.strike .add = some e) :
      OrderlyAdd op feed (.error e) feed'
  | accepted {feed₁ feed₂ : Feed} (admits : Admits op feed)
      (prepares : Prepares op (feed.counted .add) feed₁) (takes : Takes op feed₁ feed₂) :
      OrderlyAdd op feed (.ok feed₁.metadata.offered) feed₂.woken

/-- While the counter does not start over, adding is orderly. -/
theorem AddCourse.orderly_of_ahead {result : Except FeedError SequenceNumber}
    (course : AddCourse op feed result feed') (h : Ahead feed)
    (h_room : feed.current.toNat + numbersBetween feed feed' < UInt64.size) :
    OrderlyAdd op feed result feed' := by
  have h_counted := h.sameCore (.counted feed .add)
  cases course with
  | refused same why => exact .refused same why
  | accepted admits prepares takes => exact .accepted admits prepares takes
  | rejectedCheckpoint admits due rejects =>
    exact absurd h_room (rejects.not_room h_counted (.inl rfl))
  | rejected admits prepares rejects =>
    refine absurd h_room (rejects.not_room (h_counted.prepares prepares) ?_)
    -- at most a checkpoint has taken a number in between
    cases prepares with
    | notDue _ => exact .inl rfl
    | inserted _ takes => exact .inr (takes.current_of_unforced h_counted.unforced)

/-- Over a facade without a record, adding is orderly while the counter does not start over. -/
theorem AddCourse.orderly {result : Except FeedError SequenceNumber}
    (course : AddCourse op feed result feed') (h : InStep feed)
    (h_room : feed.current.toNat + numbersBetween feed feed' < UInt64.size) :
    OrderlyAdd op feed result feed' := course.orderly_of_ahead h.ahead h_room

end Feed

/-! ### Counting along a run -/

/-- How many numbers a step has given out. -/
def Step.allocated (s : Step) : Nat := s.before.state.numbersBetween s.after.state

/-- How many numbers a list of steps has given out. -/
def allocated (steps : List Step) : Nat := (steps.map Step.allocated).sum

@[simp] theorem allocated_nil : allocated [] = 0 := rfl

/-- A step gives out what it gives out, on top of the steps before it. -/
@[simp] theorem allocated_concat (steps : List Step) (s : Step) :
    allocated (steps ++ [s]) = allocated steps + s.allocated := by
  rw [allocated, List.map_append, List.sum_append, List.map_singleton, List.sum_singleton,
    allocated]

/-- More steps have given out at least as many numbers. -/
theorem allocated_mono {steps steps' : List Step} (h : steps <+: steps') :
    allocated steps ≤ allocated steps' := by
  obtain ⟨rest, rfl⟩ := h
  unfold allocated
  rw [List.map_append, List.sum_append]
  exact Nat.le_add_right _ _

/-- The counter of a run in which nothing is forced is how many numbers it has given out. -/
structure Counts (steps : List Step) (m : FeedMachine) : Prop where
  current : m.state.current.toNat = allocated steps
  ahead : m.state.Ahead

namespace Counts

/-- At the start nothing was given out, and nothing is in the log. -/
theorem initial {feed : Feed} (h : feed.IsNew) (unforced : feed.metadata.Unforced) :
    Counts [] ⟨feed, .fresh⟩ where
  current := by
    change feed.metadata.store.current.toNat = 0
    rw [h.current]
    rfl
  ahead := ⟨unforced, by rw [h.log]; nofun⟩

variable {steps : List Step} {m : FeedMachine}

/-- The counter does not start over in a step, as long as few numbers are given out. -/
theorem room (h : Counts steps m) {action : FeedAction}
    (h_few : allocated (steps ++ [⟨m, action⟩]) < UInt64.size) :
    m.state.current.toNat + m.state.numbersBetween (Step.after ⟨m, action⟩).state <
      UInt64.size := by
  rw [h.current]
  rwa [allocated_concat] at h_few

/-- A step keeps the count, as long as nothing is forced and few numbers are given out. -/
theorem step (h : Counts steps m) (action : FeedAction)
    (h_few : allocated (steps ++ [⟨m, action⟩]) < UInt64.size)
    (unforced : (Step.after ⟨m, action⟩).state.metadata.Unforced) :
    Counts (steps ++ [⟨m, action⟩]) (Step.after ⟨m, action⟩) := by
  have h_room := h.room h_few
  have h_current := Feed.toNat_current h_room
  refine ⟨by rw [h_current, h.current, allocated_concat]; rfl, unforced, ?_⟩
  -- by what the step does to the stream
  cases Step.stream_course ⟨m, action⟩ with
  | same same noCut notAdd => exact (h.ahead.sameStream same unforced).mark_le
  | metadata request h_action h_after =>
    -- the counter goes up, and the log stays
    intro mark h_mark
    rw [h_after] at h_mark
    have h_le := UInt64.le_iff_toNat_le.mp (h.ahead.mark_le mark h_mark)
    rw [UInt64.le_iff_toNat_le, h_current]
    exact Nat.le_add_right_of_le h_le
  | added op result h_action h_answer course =>
    have orderly := course.orderly_of_ahead h.ahead h_room
    generalize (Step.after ⟨m, action⟩).state = feed' at orderly ⊢
    cases orderly with
    | refused same why => exact (h.ahead.sameCore same).mark_le
    | accepted admits prepares takes =>
      have h_counted := h.ahead.sameCore (.counted m.state .add)
      exact ((h_counted.prepares prepares).takes takes).mark_le
  | truncated handle upTo h_action live h_after =>
    rw [h_after] at unforced ⊢
    exact (h.ahead.truncate upTo unforced).mark_le

end Counts

/-- The counter of a run is how many numbers it has given out. -/
structure Allocation (steps : List Step) (m : FeedMachine) : Prop where
  current : m.state.current.toNat = allocated steps
  inStep : m.state.InStep

namespace Allocation

theorem initial {feed : Feed} (h : feed.IsNew) (h_plain : feed.metadata.record = none) :
    Allocation [] ⟨feed, .fresh⟩ := by
  have counts := Counts.initial h (Metadata.unforced_of_plain h_plain)
  exact ⟨counts.current, h_plain, counts.ahead.mark_le⟩

variable {steps : List Step} {m : FeedMachine}

/-- It is a count in which nothing is forced. -/
theorem counts (h : Allocation steps m) : Counts steps m := ⟨h.current, h.inStep.ahead⟩

/-- The counter does not start over in a step, as long as few numbers are given out. -/
theorem room (h : Allocation steps m) {action : FeedAction}
    (h_few : allocated (steps ++ [⟨m, action⟩]) < UInt64.size) :
    m.state.current.toNat + m.state.numbersBetween (Step.after ⟨m, action⟩).state <
      UInt64.size := h.counts.room h_few

/-- A step keeps the count: there is no record in which anything could be forced. -/
theorem step (h : Allocation steps m) (action : FeedAction)
    (h_few : allocated (steps ++ [⟨m, action⟩]) < UInt64.size) :
    Allocation (steps ++ [⟨m, action⟩]) (Step.after ⟨m, action⟩) := by
  -- no step adds a record; the rest is what holds of every count
  have h_plain : (Step.after ⟨m, action⟩).state.metadata.record = none := by
    cases Step.stream_course ⟨m, action⟩ with
    | same same noCut notAdd => exact same.plain h.inStep.plain
    | metadata request h_action h_after =>
      rw [h_after]
      exact Metadata.record_answer_of_plain h.inStep.plain
    | added op result h_action h_answer course =>
      have orderly := course.orderly h.inStep (h.room h_few)
      generalize (Step.after ⟨m, action⟩).state = feed' at orderly ⊢
      cases orderly with
      | refused same why => exact same.record_eq_none.mpr h.inStep.plain
      | accepted admits prepares takes =>
        have h_counted := h.inStep.sameStream (.of_sameCore (.counted m.state .add))
        exact ((h_counted.prepares prepares).takes takes).plain
    | truncated handle upTo h_action live h_after =>
      rw [h_after]
      exact (h.inStep.truncate upTo).plain
  have counts := h.counts.step action h_few (Metadata.unforced_of_plain h_plain)
  exact ⟨counts.current, h_plain, counts.ahead.mark_le⟩

/-- The counter of every run is how many numbers it has given out. -/
theorem of_run {feed : Feed} (h_new : feed.IsNew) (h_plain : feed.metadata.record = none)
    (run : Run feed steps m) (h_few : allocated steps < UInt64.size) : Allocation steps m := by
  induction run with
  | start => exact .initial h_new h_plain
  | step run action ih =>
    -- the steps before have given out no more
    refine (ih (Nat.lt_of_le_of_lt ?_ h_few)).step action h_few
    exact allocated_mono (List.prefix_append _ _)

end Allocation

end OperationFeed
