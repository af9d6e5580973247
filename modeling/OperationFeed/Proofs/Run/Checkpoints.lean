import OperationFeed.Proofs.Run.Allocation
import OperationFeed.Proofs.Run.History

/-!
# Checkpoints and truncation points

Where the log may be cut is written down in the metadata, apart from the log: a checkpoint is marked
when it is appended, and markers are removed when the log is cut. As long as nobody else marks or
removes anything, the two agree (`Feed.Marked`), whoever else gives out numbers: a truncation point,
and a marker, is at every checkpoint in the log and nowhere else.

What a caller sees of it is `Feed.MirrorsLog`, which speaks of the answers of the facade only, and
`Run.mirrors_log` proves it at the end of every run.

A checkpoint is marked before the log takes it. The log must therefore not reject it, which is where
the bound on the numbers that are given out comes in (`Feed.AddCourse.orderly`).
-/

namespace OperationFeed

/-- The action leaves it to the feed to say where the log may be cut. -/
def FeedAction.leavesCuts : FeedAction → Bool
  | .now (.metadata request) => !request.changesCuts
  | _ => true

namespace Feed

/-- Truncation points and markers are at the checkpoints in the log. -/
structure Marked (feed : Feed) : Prop where
  point : ∀ number, feed.metadata.store.isPoint number = true ↔
    IsCheckpointIn feed.log.entries number
  marker : ∀ number address, feed.metadata.store.marker? number = some address ↔
    IsCheckpointIn feed.log.entries number ∧ address = ⟨number⟩

namespace Marked

variable {feed feed' : Feed} {op : Operation}

/-- At the start there is neither a checkpoint nor a mark. -/
theorem initial (h : feed.IsNew) : Marked feed := by
  have h_none : ∀ number, ¬ IsCheckpointIn feed.log.entries number := by
    rintro number ⟨e, h_mem, -⟩
    rw [h.log] at h_mem
    cases h_mem
  refine ⟨?_, ?_⟩
  · intro number
    simp [h.isPoint number, h_none number]
  · intro number address
    have h_marker : feed.metadata.store.marker? number = none := by
      rw [MetadataStore.marker?, h.markers]
      rfl
    simp [h_marker, h_none number]

/-- What leaves the log and the marks leaves them in agreement. -/
theorem sameStream (h : Marked feed) (same : SameStream feed feed') : Marked feed' := by
  refine ⟨?_, ?_⟩
  · intro number
    rw [same.isPoint, same.log, h.point]
  · intro number address
    rw [same.marker?, same.log, h.marker]

/-- A checkpoint that the log takes is marked, and no other operation is. -/
theorem takes (h : Marked feed) (takes : Takes op feed feed') : Marked feed' := by
  -- one more number is a checkpoint's, if the operation is one
  have h_checkpoint : ∀ number, IsCheckpointIn feed'.log.entries number ↔
      IsCheckpointIn feed.log.entries number ∨
        (op.isCheckpoint = true ∧ feed.metadata.offered = number) := by
    intro number
    rw [takes.grows.entries, isCheckpointIn_append, isCheckpointIn_singleton]
  refine ⟨?_, ?_⟩
  · intro number
    rw [h_checkpoint, takes.eq, Metadata.isPoint_numbered, h.point, or_comm]
  · intro number address
    rw [h_checkpoint, takes.eq]
    change (feed.metadata.numbered op).store.marker? number = some address ↔ _
    rw [Metadata.marker?_numbered]
    split
    · next h_new => simp [h_new, eq_comm]
    · next h_new => simp [h_new, h.marker]

/-- So does the checkpoint that comes before an operation. -/
theorem prepares (h : Marked feed) (prepares : Prepares op feed feed') : Marked feed' := by
  cases prepares with
  | notDue due => exact h
  | inserted due takes => exact (h.takes takes).sameStream (.of_eq rfl rfl)

/-- Adding marks what it appends, as long as the log rejects nothing. -/
theorem orderlyAdd (h : Marked feed) {result : Except FeedError SequenceNumber}
    (orderly : OrderlyAdd op feed result feed') : Marked feed' := by
  cases orderly with
  | refused same why => exact h.sameStream (.of_sameCore same)
  | accepted admits prepares takes =>
    have h_counted := h.sameStream (.of_sameCore (.counted feed .add))
    have h_taken := (h_counted.prepares prepares).takes takes
    exact h_taken.sameStream (.of_eq rfl rfl)

/-- The cut removes a checkpoint together with its marks. -/
theorem truncate (h : Marked feed) (upTo : SequenceNumber) :
    Marked ((Feed.truncate upTo).effect feed).2 := by
  -- log and marks are cut at the same number, or both stay
  have h_cut : Marked (feed.cut upTo) := by
    unfold cut
    rw [Metadata.effect_removeMarkers]
    split
    · refine ⟨?_, ?_⟩
      · intro number
        rw [MetadataStore.isPoint_removeMarkers, isCheckpointIn_truncate, h.point]
      · intro number address
        rw [MetadataStore.marker?_removeMarkers, isCheckpointIn_truncate]
        split
        · next h_lt => rw [h.marker, and_iff_right h_lt]
        · next h_lt => simp [h_lt]
    · exact h
  exact h_cut.sameStream (.truncate upTo feed)

/-- A request that changes nothing about cuts leaves the marks. -/
theorem answer (h : Marked feed) {request : MetadataRequest}
    (h_cuts : request.changesCuts = false) :
    Marked { feed with metadata := ((Metadata.answer request).effect feed.metadata).2 } := by
  obtain ⟨h_points, h_markers⟩ := Metadata.cuts_answer (m := feed.metadata) h_cuts
  refine ⟨?_, ?_⟩
  · intro number
    rw [← h.point, MetadataStore.isPoint, h_points, MetadataStore.isPoint]
  · intro number address
    rw [← h.marker, MetadataStore.marker?, h_markers, MetadataStore.marker?]

end Marked

/-! ### What a caller sees -/

/-- What the metadata answers about cuts is what the log has of checkpoints. -/
structure MirrorsLog (feed : Feed) : Prop where
  /-- Every operation in the log carries its number. -/
  stamped : ∀ e ∈ feed.log.entries, e.item.sequenceNumber = some e.number
  /-- The log may be cut at a number exactly if it is a checkpoint's. -/
  point : ∀ number, ((isTruncationPoint number).effect feed).1 = true ↔
    IsCheckpointIn feed.log.entries number
  /-- A checkpoint has a marker, at its own number, -/
  marker : ∀ number, IsCheckpointIn feed.log.entries number →
    ((Metadata.marker? number).effect feed.metadata).1 = some ⟨number⟩
  /-- and no other number has one. -/
  noMarker : ∀ number, ¬ IsCheckpointIn feed.log.entries number →
    ((Metadata.marker? number).effect feed.metadata).1 = none
  /-- There are as many markers as checkpoints. -/
  count : feed.metadata.store.markerCount = feed.log.entries.countP (·.item.isCheckpoint)
  /-- The closest truncation point is the greatest checkpoint that does not exceed the number, -/
  closest : ∀ number closest, ((closestTruncationPoint? number).effect feed).1 = some closest ↔
    (IsCheckpointIn feed.log.entries closest ∧ closest ≤ number) ∧
      ∀ other, IsCheckpointIn feed.log.entries other → other ≤ number → other ≤ closest
  /-- if there is any. -/
  noClosest : ∀ number, ((closestTruncationPoint? number).effect feed).1 = none ↔
    ∀ other, IsCheckpointIn feed.log.entries other → number < other

namespace Marked

variable {feed : Feed}

/-- The markers, in order, are those of the checkpoints in the log. -/
theorem markers_eq (h : Marked feed) :
    feed.metadata.store.markers.entries =
      (feed.log.entries.filter (·.item.isCheckpoint)).map (fun e => (e.number, ⟨e.number⟩)) := by
  apply Table.entries_eq
  · -- the numbers in the log increase, and so do those of some of its entries
    rw [List.pairwise_map]
    exact (feed.log.sorted.filter _).imp fun h_lt => UInt64.lt_iff_toNat_lt.mp h_lt
  · intro number address
    change feed.metadata.store.marker? number = some address ↔ _
    rw [h.marker, List.mem_map]
    constructor
    · rintro ⟨⟨e, h_mem, rfl, h_checkpoint⟩, rfl⟩
      exact ⟨e, List.mem_filter.mpr ⟨h_mem, h_checkpoint⟩, rfl⟩
    · rintro ⟨e, h_mem, h_eq⟩
      obtain ⟨h_mem, h_checkpoint⟩ := List.mem_filter.mp h_mem
      obtain ⟨rfl, rfl⟩ := Prod.mk.inj h_eq
      exact ⟨⟨e, h_mem, rfl, h_checkpoint⟩, rfl⟩

/-- With the marks where the checkpoints are, the answers are read off the log. -/
theorem mirrorsLog (h : Marked feed)
    (stamped : ∀ e ∈ feed.log.entries, e.item.sequenceNumber = some e.number) :
    MirrorsLog feed where
  stamped := stamped
  point number := by
    rw [effect_isTruncationPoint]
    exact h.point number
  marker number h_checkpoint := (h.marker number ⟨number⟩).mpr ⟨h_checkpoint, rfl⟩
  noMarker number h_not := by
    rw [Option.eq_none_iff_forall_ne_some]
    intro address h_some
    exact h_not ((h.marker number address).mp h_some).1
  count := by
    rw [MetadataStore.markerCount, Table.size, h.markers_eq, List.length_map,
      List.countP_eq_length_filter]
  closest number closest := by
    simp only [← h.point]
    exact MetadataStore.closestPoint?_eq_some_iff
  noClosest number := by
    simp only [← h.point]
    exact MetadataStore.closestPoint?_eq_none_iff

end Marked

end Feed

/-! ### Runs -/

namespace Run

variable {feed : Feed} {steps : List Step} {m : FeedMachine}

/-- Along a run marks and checkpoints agree, step by step. -/
theorem marked (h_new : feed.IsNew) (h_plain : feed.metadata.record = none) (run : Run feed steps m)
    (h_cuts : ∀ s ∈ steps, s.action.leavesCuts = true) (h_few : allocated steps < UInt64.size) :
    m.state.Marked := by
  induction run with
  | start => exact .initial h_new
  | @step steps m run action ih =>
    have h_fewer : allocated steps < UInt64.size :=
      Nat.lt_of_le_of_lt (allocated_mono (List.prefix_append _ _)) h_few
    have marked : m.state.Marked :=
      ih (fun s h_mem => h_cuts s (List.mem_append_left _ h_mem)) h_fewer
    -- few numbers were given out, so the log rejects none
    have allocation := Allocation.of_run h_new h_plain run h_fewer
    cases Step.stream_course ⟨m, action⟩ with
    | same same noCut notAdd => exact marked.sameStream same
    | metadata request h_action h_after =>
      have h_request : request.changesCuts = false := by
        have h_last := h_cuts _ List.mem_concat_self
        rwa [h_action, FeedAction.leavesCuts, Bool.not_eq_true'] at h_last
      rw [h_after]
      exact marked.answer h_request
    | added op result h_action h_answer course =>
      exact marked.orderlyAdd (course.orderly allocation.inStep (allocation.room h_few))
    | truncated handle upTo h_action live h_after =>
      rw [h_after]
      exact marked.truncate upTo

/-- At the end of every run in which nobody but the feed marks places or removes marks, what the
metadata answers about cuts is what the log has of checkpoints. -/
theorem mirrors_log {facade : Metadata.Facade} {container : ContainerId} {config : Config}
    (h_facade : facade = .plain ∨ facade = .traced)
    (h_make : Feed.make (.fresh facade container) config = .ok feed) (run : Run feed steps m)
    (h_cuts : ∀ s ∈ steps, s.action.leavesCuts = true) (h_few : allocated steps < UInt64.size) :
    m.state.MirrorsLog := by
  have h_new := Feed.isNew_of_make h_make
  have h_plain := Feed.record_of_make h_make h_facade
  have marked := run.marked h_new h_plain h_cuts h_few
  exact marked.mirrorsLog (Chronicle.of_run h_new.log run).stamped_of_mem

/-- A checkpoint that the feed inserts, one that is added, and a number that somebody else takes. Of
two acknowledgements of the first checkpoint, only the second one is effective. -/
def checkpointActions : List FeedAction :=
  [.now (.add (.ofKind .probe)), .now (.metadata .next), .now (.add (.ofKind .probe)),
    .now (.add .checkpoint), .later (.acknowledge 3), .now (.setAckEffective false),
    .executor (.turn 0), .now (.setAckEffective true), .later (.acknowledge 3),
    .executor (.turn 1)]

/-- The second checkpoint is left, and its mark. -/
theorem mirrors_log_of_checkpointActions : ∃ feed,
    Feed.make (.fresh .traced 1) ⟨some 2, true⟩ = .ok feed ∧
    (∀ s ∈ Step.trace ⟨feed, .fresh⟩ checkpointActions, s.action.leavesCuts = true) ∧
    allocated (Step.trace ⟨feed, .fresh⟩ checkpointActions) < UInt64.size ∧
    (Step.final ⟨feed, .fresh⟩ checkpointActions).state.MirrorsLog ∧
    (Step.final ⟨feed, .fresh⟩ checkpointActions).state.log.entries.map (·.number) = [4, 5] ∧
    (Step.final ⟨feed, .fresh⟩ checkpointActions).state.metadata.store.markers.entries =
      [(5, ⟨5⟩)] := by
  refine ⟨_, rfl, ?_, ?_, ?_, rfl, rfl⟩
  · decide
  · decide
  · exact mirrors_log (.inr rfl) (show Feed.make (.fresh .traced 1) ⟨some 2, true⟩ = _ from rfl)
      (Run.perform .start checkpointActions) (by decide) (by decide)

end Run

end OperationFeed
