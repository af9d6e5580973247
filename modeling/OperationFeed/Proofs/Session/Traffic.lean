import OperationFeed.Proofs.Run.Traffic
import OperationFeed.Proofs.Session.Reconstruction

/-!
# The traffic with a recording facade

All that a feed and its container's metadata have to do with each other is in the record of a facade
that keeps one. `Traffic` says what the record of a run is: the calls of its steps in their order,
where each kind of step makes the calls of its kind and all other steps make none. The two look-ups
of a session are made by steps with the hook in between (`Session.LooksUpBySteps`). `Run.traffic`
proves it of every run in which no number is forced.

The counter must not start over, or the log would reject numbers that were given out.
-/

namespace OperationFeed

/-! ### Look-ups of a session -/

/-- What a session's look-ups of a segment are, as actions on its machine, if the hook performs the
actions `during`. -/
structure Session.LooksUpBySteps (session : Session) (hook : StateM Session Unit)
    (segment : SegmentId) (start : UInt64) (length : Nat) : Prop where
  /-- A look-up of bytes that is refused by a closed feed or by its fault point asks
  for nothing more. -/
  refused : session.feed.isClosed = true ∨ session.feed.strike .getAppendData ≠ none →
    ((Feed.getAppendData hook segment start length).run session).2.machine =
      Step.final session.machine [.now .admitLookup]
  /-- Any other looks up the segment after its hook, whatever comes of it. -/
  admitted : session.feed.isClosed = false → session.feed.strike .getAppendData = none →
    ∀ during, (hook.run session.admitted).2.machine = Step.final session.admitted.machine during →
      ((Feed.getAppendData hook segment start length).run session).2.machine =
        Step.final session.machine
          (.now .admitLookup :: during ++ [.now (.lookUpBytes segment start length)])
  /-- What is known of a segment is looked up after the hook, also in a closed feed. -/
  segmentMetadata : ∀ during, (hook.run session).2.machine = Step.final session.machine during →
    ((Feed.segmentMetadata hook segment).run session).2.machine =
      Step.final session.machine (during ++ [.now (.segmentInfo segment)])

/-- The look-ups of every session are such actions, whatever the hook is. -/
theorem Session.looksUpBySteps (session : Session) (hook : StateM Session Unit)
    (segment : SegmentId) (start : UInt64) (length : Nat) :
    session.LooksUpBySteps hook segment start length where
  refused h := by
    have h_refused : ∃ e, (Feed.admitLookup.effect session.feed).1 = .error e := by
      rw [Feed.effect_admitLookup]
      split
      · exact ⟨_, rfl⟩
      next h_open =>
      -- the feed is open, so a fault strikes
      obtain ⟨e, h_strike⟩ := Option.ne_none_iff_exists'.mp (h.resolve_left h_open)
      rw [h_strike]
      exact ⟨e, rfl⟩
    obtain ⟨e, h_error⟩ := h_refused
    rw [run_getAppendData_of_refused hook segment start length h_error]
    rfl
  admitted h_open h_fault during h_during := by
    have h_admitted := admits_lookUp h_open h_fault
    rw [run_getAppendData_of_admitted hook segment start length h_admitted, Step.final_append,
      Step.final]
    -- letting the look-up in is the first action
    change Step.final (hook.run session.admitted).2.machine
      [.now (.lookUpBytes segment start length)] = _
    rw [h_during]
    rfl
  segmentMetadata during h_during := by
    rw [Step.final_append, ← h_during]
    rfl

/-! ### The whole traffic -/

/-- What the record of a facade tells of a run. -/
structure Traffic (steps : List Step) (m : FeedMachine) : Prop where
  /-- The facade has recorded the calls of the steps, one after another. -/
  calls : ∃ r, m.state.metadata.record = some r ∧ r.calls = steps.flatMap Step.traffic
  /-- Adding an operation asks for its number, and before it perhaps for that of an inserted
  checkpoint; an operation that is refused asks for nothing. -/
  adds : ∀ s ∈ steps, ∀ op, s.action = .now (.add op) → s.AddTraffic op
  /-- The turn of an acknowledgement removes markers if acknowledgements are effective. -/
  cuts : ∀ s ∈ steps, ∀ upTo, s.IsTurnOf (.truncate upTo) →
    s.traffic = if s.before.state.ackEffective then [.removeMarkers upTo] else []
  lookUps : ∀ s ∈ steps, ∀ segment, s.LooksUp segment → s.traffic = [.segment segment]
  /-- Nothing else asks for anything, except a request to the metadata. -/
  others : ∀ s ∈ steps, (∀ request, s.action ≠ .now (.metadata request)) →
    (∀ op, s.action ≠ .now (.add op)) → (∀ upTo, ¬ s.IsTurnOf (.truncate upTo)) →
    (∀ segment, ¬ s.LooksUp segment) → s.traffic = []
  /-- Look-ups are made by a session in such steps. -/
  sessions : ∀ (session : Session) hook segment start length,
    session.LooksUpBySteps hook segment start length
  /-- Every number that is given out is used, if nobody else asks for numbers. -/
  numbers : (∀ s ∈ steps, s.action ≠ .now (.metadata .next)) →
    (steps.flatMap Step.traffic).filterMap MetadataCall.allocated? =
      (history steps).map (·.number)
  /-- Whatever is appended is numbered, and marked if it is a checkpoint, before it is
  in the log. -/
  marked : ∀ (op : Operation) (feed : Feed), ∃ between number, feed.NumbersFirst op between number
  /-- No segment is changed, except by a request to the metadata. -/
  segments : ∀ s ∈ steps, (∀ request, s.action ≠ .now (.metadata request)) →
    s.after.state.metadata.store.segments = s.before.state.metadata.store.segments

/-- Two of the four facades keep a record, which is empty at first. -/
theorem Feed.emptyRecord_of_make {facade : Metadata.Facade} {container : ContainerId}
    {config : Config} {feed : Feed} (h_facade : facade = .recorded ∨ facade = .tracedRecorded)
    (h_make : Feed.make (.fresh facade container) config = .ok feed) :
    feed.metadata.record = some ⟨[], none⟩ := by
  rw [Feed.make] at h_make
  split at h_make
  · cases h_make
  · obtain rfl := Except.ok.inj h_make
    rcases h_facade with rfl | rfl <;> rfl

/-- The traffic of every run over a facade that keeps a record, in which nobody forces a number, up
to `2 ^ 64 - 1` numbers. -/
theorem Run.traffic {facade : Metadata.Facade} {container : ContainerId} {config : Config}
    {feed : Feed} {steps : List Step} {m : FeedMachine}
    (h_facade : facade = .recorded ∨ facade = .tracedRecorded)
    (h_make : Feed.make (.fresh facade container) config = .ok feed) (run : Run feed steps m)
    (h_force : ∀ s ∈ steps, ∀ number, s.action ≠ .now (.metadata (.forceNext number)))
    (h_few : allocated steps < UInt64.size) : Traffic steps m := by
  have h_new := Feed.isNew_of_make h_make
  have h_empty := Feed.emptyRecord_of_make h_facade h_make
  have unforced : feed.metadata.Unforced := by
    rw [Metadata.Unforced, h_empty]
    rfl
  have recorded := Recorded.of_run h_new unforced run h_force h_few
  refine ⟨?_, ?_, ?_, ?_, ?_, ?_, ?_, ?_, ?_⟩
  -- the record was empty at first, so its calls are those of the steps
  · refine ⟨_, by rw [recorded.record, h_empty]; rfl, ?_⟩
    rw [CallRecord.calls_noteAll]
    rfl
  · refine run.forall_mem ?_
    intro before s h_prefix run op h_action
    obtain ⟨ahead, h_room⟩ := Recorded.room_of_prefix h_new unforced h_force h_few h_prefix run
    exact (Step.add_traffic h_action ahead h_room).1
  · exact fun s _ upTo turn => Step.traffic_of_truncate turn
  · intro s _ segment h_lookUp
    -- for both ways to look up a segment
    rcases h_lookUp with h_action | ⟨start, length, h_action⟩ <;>
      rw [Step.traffic, h_action] <;> rfl
  · exact fun s _ => Step.traffic_of_other
  · exact fun session hook segment start length => session.looksUpBySteps hook segment start length
  · exact allocated?_flatMap_traffic
  · exact fun op feed => feed.exists_numbersFirst op
  · refine run.forall_mem ?_
    intro before s h_prefix run h_request
    -- no step changes a segment that is not a request
    obtain ⟨ahead, h_room⟩ := Recorded.room_of_prefix h_new unforced h_force h_few h_prefix run
    exact (Step.asks ahead run.sound h_room h_request).segments

/-- Two probes, with a checkpoint inserted before the second, which is then acknowledged; a
checkpoint, and another probe, with a checkpoint inserted before it; a look-up; and a probe for a
closed feed. -/
def recordedActions : List FeedAction :=
  [.now (.add (.ofKind .probe)), .now (.add (.ofKind .probe)), .later (.acknowledge 2),
    .executor (.turn 0), .now (.add .checkpoint), .now (.add (.ofKind .probe)),
    .now .admitLookup, .now (.lookUpBytes ⟨7⟩ 0 1), .now .close, .now (.add (.ofKind .probe))]

/-- The traffic of a run in which there is some of every kind. -/
theorem traffic_of_recorded_run : ∃ feed,
    Feed.make (.fresh .recorded 1) ⟨some 1, true⟩ = .ok feed ∧
    (∀ s ∈ Step.trace ⟨feed, .fresh⟩ recordedActions, ∀ number,
      s.action ≠ .now (.metadata (.forceNext number))) ∧
    allocated (Step.trace ⟨feed, .fresh⟩ recordedActions) < UInt64.size ∧
    Traffic (Step.trace ⟨feed, .fresh⟩ recordedActions)
      (Step.final ⟨feed, .fresh⟩ recordedActions) ∧
    (Step.trace ⟨feed, .fresh⟩ recordedActions).flatMap Step.traffic =
      [.next 1, .next 2, .recordMarker 2, .setPoint 2, .next 3, .removeMarkers 2,
        .next 4, .recordMarker 4, .setPoint 4, .next 5, .recordMarker 5, .setPoint 5, .next 6,
        .segment ⟨7⟩] := by
  have h_force : ∀ feed, ∀ s ∈ Step.trace ⟨feed, .fresh⟩ recordedActions, ∀ number,
      s.action ≠ .now (.metadata (.forceNext number)) := by
    intro feed s h_mem number
    apply Step.action_ne_of_mem_trace h_mem
    simp [recordedActions]
  refine ⟨_, rfl, h_force _, ?_, ?_, ?_⟩
  · decide
  · exact Run.traffic (.inl rfl) (show Feed.make (.fresh .recorded 1) ⟨some 1, true⟩ = _ from rfl)
      (Run.perform .start recordedActions) (h_force _) (by decide)
  · decide

end OperationFeed
