import OperationFeed.Proofs.Run.Numbering

/-!
# The ledger of a run

What the calls that add operations have to do with the log, for a feed that has its container's
metadata to itself. An add is either accepted or refused (`Step.Accepts`, `Step.Refuses`). Accepted
operations, and the checkpoints that the feed inserts, make up the history, whose numbers are one,
two, and so on; refused ones leave no trace. `Run.ledger` puts this together for every run.

An add is never refused by the log. It may still fail with the log's error: a fault is injected with
any error its injector was made with (`log_error_of_injector`).
-/

namespace OperationFeed

namespace Step

/-- The step adds an operation under a number. A checkpoint may have been inserted before it. -/
structure Accepts (s : Step) (op : Operation) (number : SequenceNumber) : Prop where
  unnumbered : op.sequenceNumber = none
  answer : s.answer = .success (.number number.toNat)
  appended : ∃ inserted, s.appended = inserted ++ [⟨number, op.withNumber number⟩] ∧
    inserted.length ≤ 1 ∧ ∀ e ∈ inserted, e.item.isCheckpoint = true

/-- The step refuses to add an operation: because the feed is closed, because the operation has a
number already, or because this very call was made to fail. -/
structure Refuses (s : Step) (op : Operation) (e : FeedError) : Prop where
  answer : s.answer = .failure e
  log : s.after.state.log = s.before.state.log
  current : s.after.state.current = s.before.state.current
  appended : s.appended = []
  why : (s.before.state.isClosed = true ∧ e = .closed) ∨
    (∃ number, op.sequenceNumber = some number ∧ e = .alreadySequenced number) ∨
    s.before.state.strike .add = some e

/-- Adding an operation is accepted or refused, as long as the log takes every number. -/
theorem accepts_or_refuses {s : Step} {op : Operation} {result : Except FeedError SequenceNumber}
    (answer : s.answer = .ofResult (fun n => .number n.toNat) result)
    (orderly : Feed.OrderlyAdd op s.before.state result s.after.state) :
    (∃ number, s.Accepts op number) ∨ ∃ e, s.Refuses op e := by
  generalize h_after : s.after.state = feed' at orderly
  cases orderly with
  | refused same why =>
    -- refused before it had any effect
    rw [← h_after] at same
    exact .inr ⟨_, answer, same.log, same.current, appended_of_log_eq same.log, why⟩
  | accepted admits prepares takes =>
    obtain ⟨inserted, grows, h_length, h_checkpoint⟩ := prepares.grows
    refine .inl ⟨_, admits.unnumbered, answer, inserted, appended_of_grows ?_, h_length,
      h_checkpoint⟩
    rw [h_after]
    exact grows.trans takes.grows

end Step

/-- What is known of a run on a feed that has its container's metadata to itself. -/
structure Ledger (steps : List Step) (m : FeedMachine) : Prop where
  /-- The operations ever appended have the numbers one, two, and so on, -/
  numbers : (history steps).map (·.number.toNat) = List.range' 1 (history steps).length
  /-- which are all the numbers that were given out. -/
  current : m.state.metadata.store.current.toNat = (history steps).length
  /-- Every operation carries its number. -/
  stamped : ∀ e ∈ history steps, e.item.sequenceNumber = some e.number
  /-- Adding is accepted, and appends the operation, or it is refused, and changes nothing. -/
  adds : ∀ s ∈ steps, ∀ op, s.action = .now (.add op) →
    (∃ number, s.Accepts op number) ∨ ∃ e, s.Refuses op e
  /-- Nothing else appends. -/
  others : ∀ s ∈ steps, (∀ op, s.action ≠ .now (.add op)) → s.appended = []
  /-- The log holds the operations above the greatest number up to which it was cut, -/
  log : m.state.log.entries = (history steps).filter (fun e => cutMark steps < e.number.toNat)
  /-- which is a checkpoint's, if there was any cut. -/
  mark : cutMark steps = 0 ∨ ∃ e ∈ history steps,
    e.item.isCheckpoint = true ∧ e.number.toNat = cutMark steps

/-- The ledger of every run in which nobody but the feed gives out numbers or allows cuts, up to
`2 ^ 64 - 1` numbers. -/
theorem Run.ledger {facade : Metadata.Facade} {container : ContainerId} {config : Config}
    {feed : Feed} {steps : List Step} {m : FeedMachine}
    (h_facade : facade = .plain ∨ facade = .traced)
    (h_make : Feed.make (.fresh facade container) config = .ok feed) (run : Run feed steps m)
    (h_own : ∀ s ∈ steps, s.action.isOwn = true) (h_few : allocated steps < UInt64.size - 1) :
    Ledger steps m := by
  have h_new := Feed.isNew_of_make h_make
  have h_plain := Feed.record_of_make h_make h_facade
  have h_size : allocated steps < UInt64.size := Nat.lt_of_lt_of_le h_few (Nat.sub_le _ _)
  have numbering := Numbering.of_run h_new h_plain run h_own h_size
  have chronicle := Chronicle.of_run h_new.log run
  refine ⟨numbering.tally.numbers, numbering.tally.current, chronicle.stamped, ?_, ?_,
    numbering.log, ?_⟩
  · refine run.forall_mem ?_
    intro before s h_prefix run op h_action
    obtain ⟨m, action⟩ := s
    have h_few := Nat.lt_of_le_of_lt (allocated_mono h_prefix) h_size
    have allocation := Allocation.of_run h_new h_plain run
      (Nat.lt_of_le_of_lt (allocated_mono (List.prefix_append _ _)) h_few)
    -- the step is orderly, since the run up to it has room for its numbers
    cases Step.stream_course ⟨m, action⟩ with
    | added op' result h_action' h_answer course =>
      -- the step adds the operation that it was said to add
      obtain rfl : op' = op := by
        rw [h_action] at h_action'
        injection h_action' with h_call
        injection h_call with h_op
        exact h_op.symm
      exact Step.accepts_or_refuses h_answer
        (course.orderly allocation.inStep (allocation.room h_few))
    | same same noCut notAdd => exact absurd h_action (notAdd op)
    | metadata request h_action' h_after => rw [h_action] at h_action'; cases h_action'
    | truncated handle upTo h_action' live h_after => rw [h_action] at h_action'; cases h_action'
  · exact fun s _ h_not => Step.appended_of_not_add h_not
  · rcases numbering.mark with h_zero | ⟨number, ⟨e, h_mem, rfl, h_checkpoint⟩, h_eq⟩
    · exact .inl h_zero
    · exact .inr ⟨e, h_mem, h_checkpoint, h_eq.symm⟩

/-- Three probes, with a checkpoint inserted before all but the first, and one of
them acknowledged. -/
def acknowledgedActions : List FeedAction :=
  [.now (.add (.ofKind .probe)), .now (.add (.ofKind .probe)), .later (.acknowledge 2),
    .executor (.turn 0), .now (.add (.ofKind .probe))]

/-- The ledger of a run with inserted checkpoints and a cut. -/
theorem ledger_of_acknowledged_run : ∃ feed,
    Feed.make (.fresh .traced 1) ⟨some 1, true⟩ = .ok feed ∧
    (∀ s ∈ Step.trace ⟨feed, .fresh⟩ acknowledgedActions, s.action.isOwn = true) ∧
    allocated (Step.trace ⟨feed, .fresh⟩ acknowledgedActions) < UInt64.size - 1 ∧
    Ledger (Step.trace ⟨feed, .fresh⟩ acknowledgedActions)
      (Step.final ⟨feed, .fresh⟩ acknowledgedActions) ∧
    (history (Step.trace ⟨feed, .fresh⟩ acknowledgedActions)).length = 5 ∧
    cutMark (Step.trace ⟨feed, .fresh⟩ acknowledgedActions) = 2 := by
  refine ⟨_, rfl, ?_, ?_, ?_, rfl, rfl⟩
  · decide
  · decide
  · exact Run.ledger (.inr rfl) (show Feed.make (.fresh .traced 1) ⟨some 1, true⟩ = _ from rfl)
      (Run.perform .start acknowledgedActions) (by decide) (by decide)

/-- An injector that strikes at its first call, with the error of a log, and an add
that meets it. -/
def faultyActions : List FeedAction :=
  [.now (.makeInjector (.atCalls [1] (.log ⟨5, 3⟩))), .now (.inject .add (some ⟨0⟩)),
    .now (.add (.ofKind .probe))]

/-- Not every run is free of adds that fail with the error of a log. -/
theorem log_error_of_injector :
    ¬ ∀ (facade : Metadata.Facade) (container : ContainerId) (config : Config) (feed : Feed)
      (steps : List Step) (m : FeedMachine), (facade = .plain ∨ facade = .traced) →
      Feed.make (.fresh facade container) config = .ok feed → Run feed steps m →
      (∀ s ∈ steps, s.action.isOwn = true) → allocated steps < UInt64.size - 1 →
      ∀ s ∈ steps, ∀ op, s.action = .now (.add op) → ∀ cause, s.answer ≠ .failure (.log cause) := by
  intro h
  exact h .plain 1 .standard _ _ _ (.inl rfl) rfl (Run.perform .start faultyActions) (by decide)
    (by decide) _ (List.mem_cons_of_mem _ (List.mem_cons_of_mem _ (List.mem_singleton.mpr rfl))) _
    rfl _ rfl

end OperationFeed
