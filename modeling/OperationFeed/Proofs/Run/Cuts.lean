import OperationFeed.Proofs.Run.Points
import OperationFeed.Proofs.Run.Reads

/-!
# What is cut off stays away

An acknowledgement cuts the log while acknowledgements are effective. `Run.cut_for_good` says that
this is for good: no operation up to its number is ever in the log again, and no read brings one,
whatever is added, forced or acknowledged afterwards, for every facade.

The log itself would accept a number that was cut off, as long as it is above its high-water mark.
What keeps such a number away is that the cut is made below the mark: everything at which the log
may be cut, and everything up to which it is going to be cut, has been reached (`Guarded`). A
truncation point is where a checkpoint was appended, or where the log has rejected a number, and
both are reached (`Step.PointOrigin`). From then on the log is clear up to the number
(`Log.ClearUpTo`), and stays so.
-/

namespace OperationFeed

/-! ### Logs -/

namespace Log

/-- Nothing up to a number is in the log, and nothing up to it will be accepted. -/
structure ClearUpTo (upTo : SequenceNumber) (log : Log Operation) : Prop where
  above : ∀ e ∈ log.entries, upTo < e.number
  reached : log.Reaches upTo

variable {upTo number : SequenceNumber} {log log' : Log Operation} {new : List FeedEntry}

/-- What the log has reached stays reached as it grows. -/
theorem Reaches.grows (h : log.Reaches number) (grows : Grows log new log') :
    log'.Reaches number := by
  induction grows with
  | refl => exact h
  | snoc grows accepted ih => exact ih.append accepted

/-- A clear log takes nothing up to the number as it grows. -/
theorem ClearUpTo.grows (h : ClearUpTo upTo log) (grows : Grows log new log') :
    ClearUpTo upTo log' := by
  induction grows with
  | refl => exact h
  | snoc grows accepted ih =>
    refine ⟨?_, ih.reached.append accepted⟩
    intro e h_mem
    rw [(append_ok accepted).1] at h_mem
    rcases List.mem_append.mp h_mem with h_mem | h_mem
    · exact ih.above e h_mem
    · rw [List.mem_singleton.mp h_mem]
      exact ih.reached.lt_of_append accepted

/-- A clear log stays clear when it is cut again, at whatever number. -/
theorem ClearUpTo.truncate (h : ClearUpTo upTo log) (number : SequenceNumber) :
    ClearUpTo upTo (log.truncate number).2 := by
  refine ⟨?_, h.reached⟩
  intro e h_mem
  rw [entries_truncate] at h_mem
  exact h.above e (List.mem_filter.mp h_mem).1

/-- A log is clear up to a number that it has reached, once it is cut there. -/
theorem clearUpTo_truncate (h : log.Reaches upTo) : ClearUpTo upTo (log.truncate upTo).2 := by
  refine ⟨?_, h⟩
  intro e h_mem
  rw [entries_truncate] at h_mem
  exact of_decide_eq_true (List.mem_filter.mp h_mem).2

end Log

/-! ### Steps -/

namespace Step

variable {s : Step} {upTo number : SequenceNumber}

/-- No step takes back what the log has reached. -/
theorem reaches (h : s.before.state.log.Reaches number) : s.after.state.log.Reaches number := by
  cases s.log_course with
  | grows noCut grows => exact h.grows grows
  | cut upTo cut appended log =>
    rw [log]
    exact h

/-- No step brings anything up to the number into a clear log. -/
theorem clearUpTo (h : s.before.state.log.ClearUpTo upTo) : s.after.state.log.ClearUpTo upTo := by
  cases s.log_course with
  | grows noCut grows => exact h.grows grows
  | cut number cut appended log =>
    rw [log]
    exact h.truncate number

/-- A step that cuts the log clears it, as far as the log has reached. -/
theorem clearUpTo_of_cut (h_cut : s.cut? = some upTo) (h : s.before.state.log.Reaches upTo) :
    s.after.state.log.ClearUpTo upTo := by
  cases s.log_course with
  | grows noCut grows =>
    rw [noCut] at h_cut
    cases h_cut
  | cut number cut appended log =>
    obtain rfl : number = upTo := Option.some.inj (cut.symm.trans h_cut)
    rw [log]
    exact Log.clearUpTo_truncate h

end Step

/-- The log has reached every number at which it may be cut, and every number up to which an
acknowledgement that waits for its turn is going to cut it. -/
structure Guarded (m : FeedMachine) : Prop where
  points : ∀ number, m.state.metadata.store.isPoint number = true → m.state.log.Reaches number
  tasks : ∀ handle upTo, (handle, FeedTask.truncate upTo) ∈ m.executor.tasks →
    m.state.log.Reaches upTo

namespace Guarded

variable {feed : Feed} {steps : List Step} {m : FeedMachine}

/-- At the start there is neither a truncation point nor an acknowledgement. -/
theorem initial (h : feed.IsNew) : Guarded ⟨feed, .fresh⟩ where
  points number h_point := by
    rw [h.isPoint] at h_point
    cases h_point
  tasks _ _ h_mem := nomatch h_mem

/-- A step keeps it, unless it is a request to allow a cut. -/
theorem step (h : Guarded m) (h_sound : m.executor.Sound) {action : FeedAction}
    (h_cuts : action.allowsCut = false) : Guarded (Step.after ⟨m, action⟩) where
  points number h_point := by
    -- by where the truncation point comes from
    cases Step.point_origin (s := ⟨m, action⟩) h_point with
    | kept old => exact Step.reaches (s := ⟨m, action⟩) (h.points number old)
    | requested allows =>
      change action.allowsCut = true at allows
      rw [h_cuts] at allows
      cases allows
    | marked checkpoint =>
      obtain ⟨e, h_mem, rfl, -⟩ := checkpoint
      exact Log.bounded _ e h_mem
    | stranded last strands => exact ⟨last, strands.highWater, strands.le⟩
  tasks handle upTo h_mem := by
    apply Step.reaches (s := ⟨m, action⟩)
    -- an acknowledgement is accepted at a truncation point, which was reached
    rcases Step.truncate_origin (s := ⟨m, action⟩) h_sound h_mem with live | ⟨-, h_point⟩
    · exact h.tasks handle upTo live
    · exact h.points upTo h_point

theorem of_run (h_new : feed.IsNew) (run : Run feed steps m)
    (h_cuts : ∀ s ∈ steps, s.action.allowsCut = false) : Guarded m := by
  induction run with
  | start => exact .initial h_new
  | @step steps m run action ih =>
    have h := ih fun s h_mem => h_cuts s (List.mem_append_left _ h_mem)
    exact h.step run.sound (h_cuts _ List.mem_concat_self)

end Guarded

/-! ### Runs -/

namespace Run

variable {feed : Feed} {before later steps : List Step} {m : FeedMachine} {c : Step}
  {upTo : SequenceNumber}

/-- A log that is clear up to a number after a step is so at the end of every run that goes on. -/
theorem clearUpTo (run : Run feed (before ++ c :: later) m)
    (h : c.after.state.log.ClearUpTo upTo) : m.state.log.ClearUpTo upTo := by
  generalize h_steps : before ++ c :: later = steps at run
  induction run generalizing later with
  | start => cases before <;> cases h_steps
  | @step steps m run action ih =>
    rcases List.eq_nil_or_concat later with rfl | ⟨later', last, rfl⟩
    · obtain ⟨rfl, h_last⟩ := List.append_inj' h_steps rfl
      obtain rfl := (List.cons.inj h_last).1
      exact h
    · rw [List.concat_eq_append, ← List.cons_append, ← List.append_assoc] at h_steps
      exact Step.clearUpTo (s := ⟨m, action⟩) (ih (List.append_inj' h_steps rfl).1)

/-- The step in which an acknowledgement cuts the log clears it up to the number. -/
theorem clearUpTo_of_cut (h_new : feed.IsNew) (run : Run feed (before ++ c :: later) m)
    (h_cuts : ∀ s ∈ before ++ c :: later, s.action.allowsCut = false) (h_cut : c.cut? = some upTo) :
    c.after.state.log.ClearUpTo upTo := by
  have run' : Run feed before c.before := run.of_append rfl
  have guarded : Guarded c.before :=
    .of_run h_new run' fun s h_mem => h_cuts s (List.mem_append_left _ h_mem)
  obtain ⟨handle, live⟩ := Step.exists_truncate_of_cut h_cut
  apply Step.clearUpTo_of_cut h_cut
  exact guarded.tasks handle upTo (run'.sound.lookup_eq_some.mp live)

/-- Once an acknowledgement has cut the log up to a number, nothing up to it is in the log after any
step, and no read that is resolved later brings an operation with such a number. -/
theorem cut_for_good {facade : Metadata.Facade} {container : ContainerId} {config : Config}
    (h_make : Feed.make (.fresh facade container) config = .ok feed)
    (run : Run feed (before ++ c :: later) m)
    (h_cuts : ∀ s ∈ before ++ c :: later, s.action.allowsCut = false) (h_cut : c.cut? = some upTo) :
    (∀ s ∈ c :: later, ∀ e ∈ s.after.state.log.entries, upTo < e.number) ∧
    (∀ s ∈ later, ∀ call ∈ before ++ c :: later, ∀ handle after max timeout operations,
      call.AcceptsRead handle after max timeout → s.Resolves handle (.ok (.batch operations)) →
        ∀ op ∈ operations, ∃ number, op.sequenceNumber = some number ∧ upTo < number) := by
  have h_new := Feed.isNew_of_make h_make
  have h_first : c.after.state.log.ClearUpTo upTo := run.clearUpTo_of_cut h_new h_cuts h_cut
  -- the steps up to a later one are a run, and leave the log clear
  have h_before : ∀ later₁ s later₂, later = later₁ ++ s :: later₂ →
      Run feed (before ++ c :: later₁) s.before := by
    rintro later₁ s later₂ rfl
    exact run.of_append (by rw [List.append_assoc, List.cons_append])
  constructor
  · intro s h_s e h_mem
    rcases List.mem_cons.mp h_s with rfl | h_s
    · exact h_first.above e h_mem
    · obtain ⟨later₁, later₂, h_split⟩ := List.append_of_mem h_s
      have h_clear := (h_before _ _ _ h_split).clearUpTo h_first
      exact (Step.clearUpTo h_clear).above e h_mem
  · intro s h_s call h_call handle after max timeout operations accepts resolves op h_op
    obtain ⟨later₁, later₂, h_split⟩ := List.append_of_mem h_s
    have run' := h_before _ _ _ h_split
    have h_clear := run'.clearUpTo h_first
    have h_steps : before ++ c :: later = (before ++ c :: later₁) ++ s :: later₂ := by
      rw [h_split, List.append_assoc, List.cons_append]
    rw [h_steps] at run h_call
    -- the read was called before it was resolved
    have h_call := run.mem_of_resolves h_call accepts.course.1 resolves
    obtain ⟨-, rfl⟩ := ((run'.step s.action).read_origin h_call accepts resolves).found
    -- the operation was read from the log, under its own number
    rw [Log.read_eq] at h_op
    obtain ⟨e, h_mem, rfl⟩ := List.mem_map.mp h_op
    have h_mem : e ∈ s.before.state.log.entries :=
      (List.mem_filter.mp (List.mem_of_mem_take h_mem)).1
    have chronicle := Chronicle.of_run h_new.log run'
    exact ⟨e.number, chronicle.stamped_of_mem e h_mem, h_clear.above e h_mem⟩

/-- A checkpoint far ahead, and an acknowledgement of it. -/
def farCheckpoint : List FeedAction :=
  [.now (.add (.ofKind .probe)), .now (.metadata (.forceNext 10)), .now (.add .checkpoint),
    .later (.acknowledge 10)]

/-- An operation is to be added under a number that was cut off, and another one above. -/
def afterFarCheckpoint : List FeedAction :=
  [.now (.metadata (.forceNext 5)), .now (.add (.ofKind .probe)), .now (.metadata (.forceNext 11)),
    .now (.add (.ofKind .probe)), .later (.read 0 5 ⟨0⟩)]

/-- What is read after the cut is above it. -/
theorem cut_for_good_of_farCheckpoint : ∃ feed before c later m s op,
    Feed.make (.fresh .recorded 1) .standard = .ok feed ∧ Run feed (before ++ c :: later) m ∧
    (∀ s ∈ before ++ c :: later, s.action.allowsCut = false) ∧ c.cut? = some 10 ∧
    c.before.state.log.size = 2 ∧ s ∈ later ∧ s.Resolves 1 (.ok (.batch [op])) ∧
    ∃ number, op.sequenceNumber = some number ∧ 10 < number := by
  have run : ∀ feed, Run feed (Step.trace ⟨feed, .fresh⟩ farCheckpoint ++
      ⟨Step.final ⟨feed, .fresh⟩ farCheckpoint, .executor (.turn 0)⟩ ::
        Step.trace (Step.after ⟨Step.final ⟨feed, .fresh⟩ farCheckpoint, .executor (.turn 0)⟩)
          afterFarCheckpoint)
      (Step.final ⟨feed, .fresh⟩ (farCheckpoint ++ .executor (.turn 0) :: afterFarCheckpoint)) := by
    intro feed
    exact Run.perform .start (farCheckpoint ++ .executor (.turn 0) :: afterFarCheckpoint)
  have h_last : ∀ m s, (Step.trace m afterFarCheckpoint)[4]? = some s →
      s ∈ Step.trace m afterFarCheckpoint := fun _ _ h => List.mem_of_getElem? h
  have h_make := show Feed.make (.fresh .recorded 1) .standard = _ from rfl
  refine ⟨_, _, _, _, _, _, _, h_make, run _, by decide, rfl, rfl, h_last _ _ rfl, ⟨rfl, nofun⟩, ?_⟩
  refine (cut_for_good h_make (run _) (by decide) rfl).2 _ (h_last _ _ rfl) _
    (List.mem_append_right _ (List.mem_cons_of_mem _ (h_last _ _ rfl))) 1 0 5 ⟨0⟩ _ ⟨rfl, rfl⟩
    ⟨rfl, nofun⟩ _ (List.mem_singleton.mpr rfl)

end Run

end OperationFeed
