import OperationFeed.Proofs.Executor.Reordering
import OperationFeed.Proofs.Feed.Changes
import OperationFeed.Proofs.Run.Closing

/-!
# Changes in another order

Acknowledgements and changes of attributes that have been accepted, and not been carried out yet,
may be carried out in any order in which the changes of any one segment's attributes stay in
theirs (`Run.sameOutcome_of_reordering`). Those who wait for the log to drain are told in every
order or in none, whether acknowledgements cut the log or not, and a change is refused in every
order or in none.

Whatever else is there may be there: readers that wait, whether they have been told of an operation
or not, other changes, and those who wait for the log to drain.
-/

namespace OperationFeed

namespace FeedTask

/-- A change is a task that does not wait. -/
def IsChange (task : FeedTask) : Prop := task.waits = false

/-- A change that is not one of attributes is an acknowledgement. -/
theorem IsChange.exists_eq_truncate {task : FeedTask} (h : task.IsChange)
    (h_none : task.segment? = none) : ∃ upTo, task = .truncate upTo := by
  cases task with
  | truncate upTo => exact ⟨upTo, rfl⟩
  | persist | sealAttributes | deleteAttributes => cases h_none
  | read | awaitDrain => cases h

/-- Two changes do the same in either order, unless they concern the attributes of one segment. -/
theorem IsChange.commute_turn {task task' : FeedTask} (h : task.IsChange) (h' : task'.IsChange)
    (apart : Apart segment? task task') (now : Nat) :
    (task.turn now).Commute (Feed.Alike CallRecord.SameCalls) (task'.turn now) := by
  cases h_segment : task.segment? with
  | some segment =>
    cases h_segment' : task'.segment? with
    | some segment' =>
      have h_ne : segment ≠ segment' := by
        rintro rfl
        exact apart segment h_segment h_segment'
      exact commute_of_segment? h_segment h_segment' h_ne now
    | none =>
      -- a change of attributes and a cut
      obtain ⟨upTo, rfl⟩ := h'.exists_eq_truncate h_segment'
      exact (commute_truncate_of_segment? h_segment upTo now).symm Feed.equivalence_alike.symm
  | none =>
    obtain ⟨upTo, rfl⟩ := h.exists_eq_truncate h_segment
    cases h_segment' : task'.segment? with
    | some segment' => exact commute_truncate_of_segment? h_segment' upTo now
    | none =>
      obtain ⟨upTo', rfl⟩ := h'.exists_eq_truncate h_segment'
      have commute := Feed.commute_truncate upTo upTo'
      exact ⟨fun _ => rfl, fun _ => rfl, commute.states⟩

/-- Changes may be rearranged: they end in one turn, and commute unless they share a segment. -/
theorem rearrangeable :
    Machine.Rearrangeable Feed (Feed.Alike CallRecord.SameCalls) IsChange segment? where
  equivalence := Feed.equivalence_alike
  finishes h now feed := Feed.exists_finished_of_not_waits h now feed
  respects _ now := respects_turn CallRecord.SameCalls.similarity now _
  commute h h' apart now := h.commute_turn h' apart now

end FeedTask

/-- Two machines in which the same has come of some changes. -/
structure SameOutcome (m m' : FeedMachine) : Prop where
  log : m'.state.log = m.state.log
  markers : m'.state.metadata.store.markers = m.state.metadata.store.markers
  points : m'.state.metadata.store.points = m.state.metadata.store.points
  attributes : m'.state.attributes = m.state.attributes
  /-- The same are waiting for the log to drain, and the others have had the same answers. -/
  drained : m'.state.drained = m.state.drained
  /-- What has become of every handle, with its result. -/
  handles : m'.executor.handles = m.executor.handles
  tasks : m'.executor.tasks.Perm m.executor.tasks
  /-- All the rest, but for the order of the calls in the record. -/
  alike : m.state.Alike CallRecord.SameCalls m'.state

/-- Machines that differ in the order of calls have the same outcome. -/
theorem SameOutcome.of_sameButOrder {m m' : FeedMachine}
    (h : m.SameButOrder (Feed.Alike CallRecord.SameCalls) m') : SameOutcome m m' := by
  obtain ⟨⟨metadata, h_alike, h_state⟩, h_executor⟩ := h
  have h_store : m'.state.metadata.store = m.state.metadata.store := by
    rw [h_state]
    exact h_alike.store.symm
  refine ⟨?_, congrArg (·.markers) h_store, congrArg (·.points) h_store, ?_, ?_, h_executor.handles,
    h_executor.tasks, ⟨metadata, h_alike, h_state⟩⟩
  · rw [h_state]
    rfl
  · rw [h_state]
    rfl
  · rw [h_state]
    rfl

/-- The turns of some tasks, one after another. -/
def turnsOf (batch : List (Handle × FeedTask)) : List FeedAction :=
  batch.map fun p => .executor (.turn p.1)

/-- To perform the turns as actions is to perform them one after another. -/
theorem Step.final_turnsOf (m : FeedMachine) (batch : List (Handle × FeedTask)) :
    Step.final m (turnsOf batch) = m.afterTurns batch := by
  induction batch generalizing m with
  | nil => rfl
  | cons p batch ih => exact ih (m.afterTurn p)

namespace Run

variable {feed : Feed} {steps : List Step} {m : FeedMachine}

/-- Accepted changes that have not been carried out yet lead to the same log, truncation
markers and points, attributes, answers for those who wait for the log to drain, and results,
in every two orders that keep the changes of any one segment's attributes in theirs; each of
them is carried out. -/
theorem sameOutcome_of_reordering (run : Run feed steps m) {first second : List (Handle × FeedTask)}
    (pending : m.Pending FeedTask.IsChange first)
    (reordering : Reordering (fun p => p.2.segment?) first second) :
    SameOutcome (Step.final m (turnsOf first)) (Step.final m (turnsOf second)) ∧
    ∀ p ∈ first, (∀ task, (p.1, task) ∉ (Step.final m (turnsOf first)).executor.tasks) ∧
      (m.executor.handles[p.1]? = some .waiting → ∃ result,
        (Step.final m (turnsOf first)).executor.handles[p.1]? = some (.resolved result)) := by
  rw [Step.final_turnsOf, Step.final_turnsOf]
  refine ⟨?_, ?_⟩
  -- one order is reached from the other by swapping neighbours that commute
  · exact .of_sameButOrder
      (FeedTask.rearrangeable.afterTurns_reordering reordering run.sound pending)
  · intro p h_p
    refine ⟨?_, FeedTask.rearrangeable.exists_result_afterTurns run.sound pending h_p⟩
    intro task h_mem
    have h_not := ((FeedTask.rearrangeable.mem_tasks_afterTurns run.sound pending).mp h_mem).2
    exact h_not (List.mem_map.mpr ⟨p, h_p, rfl⟩)

/-- Two acknowledgements, and changes of two segments' attributes; somebody waits for the log to
drain. -/
def mixedCalls : List FeedAction :=
  [.now (.add (.ofKind .probe)), .now (.add .checkpoint), .now (.add (.ofKind .probe)),
    .now (.add .checkpoint), .later .awaitDrain, .later (.persist ⟨7⟩ [⟨⟨0, 1⟩, .upsert 5⟩]),
    .later (.sealAttributes ⟨7⟩), .later (.persist ⟨7⟩ [⟨⟨0, 1⟩, .delete⟩]),
    .later (.persist ⟨8⟩ [⟨⟨0, 1⟩, .upsert 6⟩]), .later (.acknowledge 2), .later (.acknowledge 4)]

/-- The changes in the order of the calls. -/
def mixedBatch : List (Handle × FeedTask) :=
  [(1, .persist ⟨7⟩ [⟨⟨0, 1⟩, .upsert 5⟩]), (2, .sealAttributes ⟨7⟩),
    (3, .persist ⟨7⟩ [⟨⟨0, 1⟩, .delete⟩]), (4, .persist ⟨8⟩ [⟨⟨0, 1⟩, .upsert 6⟩]),
    (5, .truncate 2), (6, .truncate 4)]

/-- The same changes, with the later acknowledgement first; segment 7 has its changes in order. -/
def mixedBatchReordered : List (Handle × FeedTask) :=
  [(6, .truncate 4), (1, .persist ⟨7⟩ [⟨⟨0, 1⟩, .upsert 5⟩]),
    (4, .persist ⟨8⟩ [⟨⟨0, 1⟩, .upsert 6⟩]), (5, .truncate 2), (2, .sealAttributes ⟨7⟩),
    (3, .persist ⟨7⟩ [⟨⟨0, 1⟩, .delete⟩])]

/-- The two orders come to the same, and tell the one who waits in both. -/
theorem sameOutcome_of_mixedBatch : ∃ feed steps m,
    Feed.make (.fresh .recorded 1) .standard = .ok feed ∧ Run feed steps m ∧
    m.Pending FeedTask.IsChange mixedBatch ∧
    Reordering (fun p => p.2.segment?) mixedBatch mixedBatchReordered ∧
    m.state.drained.isPending = true ∧
    SameOutcome (Step.final m (turnsOf mixedBatch)) (Step.final m (turnsOf mixedBatchReordered)) ∧
    (Step.final m (turnsOf mixedBatch)).state.drained.past = [.completed] := by
  have run : ∀ feed, Run feed (Step.trace ⟨feed, .fresh⟩ mixedCalls)
      (Step.final ⟨feed, .fresh⟩ mixedCalls) := fun feed => Run.perform .start mixedCalls
  have h_make := show Feed.make (.fresh .recorded 1) .standard = _ from rfl
  have perm : mixedBatchReordered.Perm mixedBatch := by decide
  -- each of the two segments keeps the order of its own changes
  have sameKey : ∀ k, mixedBatchReordered.filter (fun p => p.2.segment? = some k) =
      mixedBatch.filter (fun p => p.2.segment? = some k) := by
    intro k
    by_cases h_seven : k = ⟨7⟩
    · subst h_seven
      rfl
    by_cases h_eight : k = ⟨8⟩
    · subst h_eight
      rfl
    simp [mixedBatch, mixedBatchReordered, FeedTask.segment?, Ne.symm h_seven, Ne.symm h_eight]
  have kind : ∀ p ∈ mixedBatch, FeedTask.IsChange p.2 := by
    unfold FeedTask.IsChange
    decide
  refine ⟨_, _, _, h_make, run _, ⟨by decide, by decide, kind⟩, ⟨perm, sameKey⟩, rfl, ?_, rfl⟩
  exact (sameOutcome_of_reordering (run _) ⟨by decide, by decide, kind⟩ ⟨perm, sameKey⟩).1

end Run

end OperationFeed
