import OperationFeed.Proofs.Run.History
import OperationFeed.Proofs.Run.Tasks

/-!
# Where truncation points come from

The log is cut at checkpoints, so a truncation point should be the number of a checkpoint that was
appended. For a facade that gives out numbers in order it is. A facade with a call record may be
told to give out a number that the log then rejects, and a checkpoint's number is marked before the
log is asked: such a number becomes a truncation point without a checkpoint (`Step.StrandsPoint`),
and whatever operation is in the log under it may be acknowledged and cut off.

There is no other exception. A truncation point that is there after a step was there before, or
somebody has asked for it, or it is at a checkpoint in the log, or it was stranded in the step
(`Step.PointOrigin`). `Run.point_origin` follows for every facade: in a run in which nobody else
asks for truncation points, each of them, and each number that is acknowledged, is a checkpoint's or
was stranded.
-/

namespace OperationFeed

/-! ### Adding -/

namespace Feed

variable {feed feed' : Feed} {op : Operation} {number : SequenceNumber}

/-- A point that is there once the log has taken an operation is an old one, or the operation is a
checkpoint. -/
theorem Takes.point_origin (takes : Takes op feed feed')
    (h : feed'.metadata.store.isPoint number = true) :
    feed.metadata.store.isPoint number = true ∨ IsCheckpointIn feed'.log.entries number := by
  rw [takes.eq, Metadata.isPoint_numbered] at h
  rcases h with h_new | h_old
  · refine .inr ?_
    rw [takes.grows.entries, isCheckpointIn_append]
    exact .inr (isCheckpointIn_singleton.mpr h_new)
  · exact .inl h_old

/-- The checkpoint that comes before an operation adds a point only at itself. -/
theorem Prepares.point_origin (prepares : Prepares op feed feed')
    (h : feed'.metadata.store.isPoint number = true) :
    feed.metadata.store.isPoint number = true ∨ IsCheckpointIn feed'.log.entries number := by
  cases prepares with
  | notDue due => exact .inl h
  | inserted due takes => exact takes.point_origin h

/-- A point that is there once the log has rejected an operation is an old one, or it is at the
number that was rejected. -/
theorem Rejects.point_origin {cause : OutOfOrder} (rejects : Rejects op cause feed feed')
    (h : feed'.metadata.store.isPoint number = true) :
    feed.metadata.store.isPoint number = true ∨
      ∃ last, cause = ⟨last, number⟩ ∧ feed'.log.highWater = some last ∧ number ≤ last := by
  obtain ⟨h_mark, h_attempted, h_le⟩ := Log.append_error rejects.refused
  rw [rejects.eq, Metadata.isPoint_numbered] at h
  -- the rejected operation was a checkpoint, or the point is older
  rcases h with ⟨-, rfl⟩ | h_old
  · refine .inr ⟨cause.last, ?_, ?_, h_le⟩
    · rw [← h_attempted]
    · rw [rejects.eq]
      exact h_mark
  · exact .inl h_old

/-- A point that is there after an operation was added, or was not, is an old one, or it is at a
checkpoint in the log, or it is at the number that the log has rejected. -/
theorem AddCourse.point_origin {result : Except FeedError SequenceNumber}
    (course : AddCourse op feed result feed') (h : feed'.metadata.store.isPoint number = true) :
    feed.metadata.store.isPoint number = true ∨ IsCheckpointIn feed'.log.entries number ∨
      ∃ last, result = .error (.log ⟨last, number⟩) ∧ feed'.log.highWater = some last ∧
        number ≤ last := by
  have h_counted := SameCore.isPoint (.counted feed .add) number
  cases course with
  | refused same why =>
    rw [same.isPoint] at h
    exact .inl h
  | rejectedCheckpoint admits due rejects =>
    rcases rejects.point_origin h with h_old | ⟨last, rfl, h_rest⟩
    · exact .inl (h_counted ▸ h_old)
    · exact .inr (.inr ⟨last, rfl, h_rest⟩)
  | rejected admits prepares rejects =>
    rcases rejects.point_origin h with h_prepared | ⟨last, rfl, h_rest⟩
    -- rejected after an inserted checkpoint, which is in the log
    · rcases prepares.point_origin h_prepared with h_old | h_checkpoint
      · exact .inl (h_counted ▸ h_old)
      · refine .inr (.inl ?_)
        rw [rejects.eq]
        exact h_checkpoint
    · exact .inr (.inr ⟨last, rfl, h_rest⟩)
  | @accepted feed₁ feed₂ admits prepares takes =>
    have h_taken : feed₂.metadata.store.isPoint number = true := h
    rcases takes.point_origin h_taken with h_prepared | h_checkpoint
    · rcases prepares.point_origin h_prepared with h_old | h_checkpoint
      · exact .inl (h_counted ▸ h_old)
      · exact .inr (.inl (h_checkpoint.grows takes.grows))
    · exact .inr (.inl h_checkpoint)

end Feed

/-! ### Steps -/

/-- The action asks for a truncation point. -/
def FeedAction.allowsCut : FeedAction → Bool
  | .now (.metadata request) => request.allowsCut
  | _ => false

namespace Step

/-- Adding an operation fails as the log rejects a number, and the number has become a truncation
point all the same. The log's last number is given with it. -/
structure StrandsPoint (s : Step) (number last : SequenceNumber) : Prop where
  adds : ∃ op, s.action = .now (.add op)
  answer : s.answer = .failure (.log ⟨last, number⟩)
  highWater : s.after.state.log.highWater = some last
  le : number ≤ last
  fresh : s.before.state.metadata.store.isPoint number = false
  point : s.after.state.metadata.store.isPoint number = true

/-- Where a truncation point that is there after a step comes from. -/
inductive PointOrigin (s : Step) (number : SequenceNumber) : Prop
  | kept (old : s.before.state.metadata.store.isPoint number = true)
  | requested (allows : s.action.allowsCut = true)
  | marked (checkpoint : IsCheckpointIn s.after.state.log.entries number)
  | stranded (last : SequenceNumber) (strands : s.StrandsPoint number last)

/-- Every truncation point comes from one of these four. -/
theorem point_origin {s : Step} {number : SequenceNumber}
    (h : s.after.state.metadata.store.isPoint number = true) : s.PointOrigin number := by
  cases s.stream_course with
  | same same noCut notAdd =>
    rw [same.isPoint] at h
    exact .kept h
  | metadata request h_action h_after =>
    rw [h_after] at h
    cases h_allows : request.allowsCut with
    | true => exact .requested (by rw [h_action]; exact h_allows)
    | false => exact .kept (Metadata.isPoint_of_isPoint_answer h_allows h)
  | added op result h_action h_answer course =>
    rcases course.point_origin h with h_old | h_checkpoint | ⟨last, rfl, h_mark, h_le⟩
    · exact .kept h_old
    · exact .marked h_checkpoint
    -- a point that was there before is not stranded by this step
    · cases h_fresh : s.before.state.metadata.store.isPoint number with
      | true => exact .kept h_fresh
      | false => exact .stranded last ⟨⟨op, h_action⟩, h_answer, h_mark, h_le, h_fresh, h⟩
  | truncated handle upTo h_action live h_after =>
    -- a cut removes points at most
    rw [h_after, (Feed.SameStream.truncate upTo s.before.state).isPoint, Feed.cut] at h
    split at h
    · rw [Metadata.effect_removeMarkers, MetadataStore.isPoint_removeMarkers] at h
      exact .kept h.2
    · exact .kept h

/-- An acknowledgement that is not refused for one of two reasons is at a truncation point, even if
a fault strikes it. -/
theorem isPoint_of_acknowledge {s : Step} {upTo : SequenceNumber}
    (h_action : s.action = .later (.acknowledge upTo)) (h_open : s.answer ≠ .failure .closed)
    (h_valid : s.answer ≠ .failure (.invalidTruncationPoint upTo)) :
    s.before.state.metadata.store.isPoint upTo = true := by
  cases h_closed : s.before.state.isClosed with
  | true =>
    refine absurd (answer_of_error h_action ?_) h_open
    rw [AsyncCall.attempt, Feed.effect_acknowledge, if_pos h_closed]
  | false =>
    -- an open feed refuses it with the second error if it is no point
    by_cases h_point : s.before.state.metadata.store.isPoint upTo = true
    · exact h_point
    · have h_not_closed : ¬ s.before.state.isClosed = true := by simp [h_closed]
      refine absurd (answer_of_error h_action ?_) h_valid
      rw [AsyncCall.attempt, Feed.effect_acknowledge, if_neg h_not_closed, if_neg h_point]

end Step

/-! ### Runs -/

namespace Run

variable {feed : Feed} {steps : List Step} {m : FeedMachine} {number : SequenceNumber}

/-- A truncation point of a run is the number of a checkpoint that was appended, or
it was stranded. -/
theorem point_origin (h_new : feed.IsNew) (run : Run feed steps m)
    (h_cuts : ∀ s ∈ steps, s.action.allowsCut = false)
    (h : m.state.metadata.store.isPoint number = true) :
    IsCheckpointIn (history steps) number ∨ ∃ s ∈ steps, ∃ last, s.StrandsPoint number last := by
  induction run with
  | start =>
    rw [h_new.isPoint] at h
    cases h
  | @step steps m run action ih =>
    cases Step.point_origin (s := ⟨m, action⟩) h with
    | kept old =>
      -- there before the step, so by induction
      rcases ih (fun s h_mem => h_cuts s (List.mem_append_left _ h_mem)) old with
        h_checkpoint | ⟨s, h_s, h_strands⟩
      · rw [history_concat]
        exact .inl (h_checkpoint.append _)
      · exact .inr ⟨s, List.mem_append_left _ h_s, h_strands⟩
    | requested allows =>
      rw [h_cuts _ List.mem_concat_self] at allows
      cases allows
    | marked checkpoint =>
      -- the log is an end of the history
      obtain ⟨e, h_mem, h_checkpoint⟩ := checkpoint
      have chronicle := Chronicle.of_run h_new.log (run.step action)
      exact .inl ⟨e, chronicle.suffix.mem h_mem, h_checkpoint⟩
    | stranded last strands => exact .inr ⟨_, List.mem_concat_self, last, strands⟩

/-- In every run in which nobody but the feed asks for truncation points, each of them is
the number of a checkpoint that was appended, or it was stranded; and so is every number
that is acknowledged. -/
theorem checkpoint_or_stranded {facade : Metadata.Facade} {container : ContainerId}
    {config : Config}
    (h_make : Feed.make (.fresh facade container) config = .ok feed) (run : Run feed steps m)
    (h_cuts : ∀ s ∈ steps, s.action.allowsCut = false) :
    (∀ number, ((Feed.isTruncationPoint number).effect m.state).1 = true →
      IsCheckpointIn (history steps) number ∨ ∃ s ∈ steps, ∃ last, s.StrandsPoint number last) ∧
    (∀ before s, before ++ [s] <+: steps → ∀ upTo, s.action = .later (.acknowledge upTo) →
      s.answer ≠ .failure .closed → s.answer ≠ .failure (.invalidTruncationPoint upTo) →
        IsCheckpointIn (history before) upTo ∨ ∃ c ∈ before, ∃ last, c.StrandsPoint upTo last) := by
  have h_new := Feed.isNew_of_make h_make
  constructor
  · intro number h_point
    rw [Feed.effect_isTruncationPoint] at h_point
    exact run.point_origin h_new h_cuts h_point
  · rintro before s ⟨rest, h_split⟩ upTo h_action h_open h_valid
    rw [List.append_assoc, List.singleton_append] at h_split
    -- the acknowledgement sees the points of the run before it
    have run' : Run feed before s.before := run.of_append h_split.symm
    apply run'.point_origin h_new
    · intro c h_c
      apply h_cuts
      rw [← h_split]
      exact List.mem_append_left _ h_c
    · exact Step.isPoint_of_acknowledge h_action h_open h_valid

/-- A number is given out twice, the second time for a checkpoint. -/
def strandingActions : List FeedAction :=
  [.now (.add (.ofKind .probe)), .now (.metadata (.forceNext 1)), .now (.add .checkpoint)]

/-- The checkpoint is rejected, and its number is a truncation point without a checkpoint. -/
theorem checkpoint_or_stranded_of_strandingActions : ∃ feed,
    Feed.make (.fresh .recorded 1) .standard = .ok feed ∧
    (∀ s ∈ Step.trace ⟨feed, .fresh⟩ strandingActions, s.action.allowsCut = false) ∧
    (∀ e ∈ history (Step.trace ⟨feed, .fresh⟩ strandingActions), e.item.isCheckpoint = false) ∧
    ∃ s ∈ Step.trace ⟨feed, .fresh⟩ strandingActions, ∃ last, s.StrandsPoint 1 last := by
  refine ⟨_, rfl, by decide, by decide, ?_⟩
  have origin := (checkpoint_or_stranded
    (show Feed.make (.fresh .recorded 1) .standard = _ from rfl)
    (Run.perform .start strandingActions) (by decide)).1 1 rfl
  refine origin.resolve_left ?_
  rintro ⟨e, h_mem, -, h_checkpoint⟩
  obtain rfl := List.mem_singleton.mp h_mem
  cases h_checkpoint

/-- The number is acknowledged, and the operation under it is cut off, though no checkpoint was ever
appended. -/
theorem stranded_point_acknowledged : ∃ feed m,
    Feed.make (.fresh .recorded 1) .standard = .ok feed ∧
    Run feed (Step.trace ⟨feed, .fresh⟩ strandingActions) m ∧
    (∀ s ∈ Step.trace ⟨feed, .fresh⟩ strandingActions, s.action.allowsCut = false) ∧
    (∀ e ∈ history (Step.trace ⟨feed, .fresh⟩ strandingActions), e.item.isCheckpoint = false) ∧
    Step.AcceptsAcknowledge ⟨m, .later (.acknowledge 1)⟩ 1 ∧ m.state.log.size = 1 ∧
    (Step.final m [.later (.acknowledge 1), .executor (.turn 0)]).state.log.size = 0 := by
  refine ⟨_, _, rfl, Run.perform .start strandingActions, by decide, by decide, ⟨rfl, 0, rfl⟩, rfl,
    rfl⟩

end Run

end OperationFeed
