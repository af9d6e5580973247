import Mathlib.Data.List.Basic
import OperationFeed.Proofs.Feed.Traffic
import OperationFeed.Proofs.Run.Ledger
import OperationFeed.Proofs.Run.Turns

/-!
# The calls of a run

Which calls a step makes of the metadata of the container can be told from the step
(`Step.traffic`): adding an operation makes those by which the entries that it appends got their
numbers, an acknowledgement removes markers if it cuts the log, and a look-up asks for a segment. As
long as nothing is forced and the counter does not start over, the record of a facade is that of all
steps, one after another (`Recorded.of_run`).

The numbers that a feed asks for are those of the operations that it appends
(`Step.allocated?_traffic`), and it never changes a segment (`Step.asks`).
-/

namespace OperationFeed

/-! ### Adding -/

/-- The calls by which an entry got its number. -/
def FeedEntry.numberingCalls (e : FeedEntry) : List MetadataCall := e.item.numberingCalls e.number

/-- An operation that is no checkpoint asks for its number, and no more. -/
theorem Operation.numberingCalls_of_plain {op : Operation} (h : op.isCheckpoint = false)
    (number : SequenceNumber) : op.numberingCalls number = [.next number] := by
  rw [numberingCalls, h]
  rfl

namespace Feed

variable {op : Operation} {feed feed' : Feed}

/-- What refuses an operation before it has any effect keeps it from being admitted. -/
theorem not_admits {e : FeedError} (why : (feed.isClosed = true ∧ e = .closed) ∨
    (∃ number, op.sequenceNumber = some number ∧ e = .alreadySequenced number) ∨
    feed.strike .add = some e) : ¬ Admits op feed := by
  rintro ⟨isOpen, unnumbered, noFault⟩
  rcases why with ⟨h_closed, -⟩ | ⟨number, h_number, -⟩ | h_strike
  · exact Bool.false_ne_true (isOpen.symm.trans h_closed)
  · exact Option.some_ne_none number (h_number.symm.trans unnumbered)
  · exact Option.some_ne_none e (h_strike.symm.trans noFault)

/-- A call that is not admitted asks for nothing. -/
theorem metadata_add_of_not_admits (h : ¬ Admits op feed) :
    ((add op).effect feed).2.metadata = feed.metadata := by
  rw [effect_add]
  -- one after another, the three things that may refuse the operation
  split
  · rfl
  next h_closed =>
  cases h_number : op.sequenceNumber with
  | some number => rfl
  | none =>
  cases h_strike : feed.strike .add with
  | some e => rfl
  | none => exact absurd ⟨Bool.not_eq_true _ ▸ h_closed, h_number, h_strike⟩ h

/-- What is asked for before an operation is that a checkpoint which is due gets its number. -/
theorem Prepares.asks (prepares : Prepares op feed feed') (unforced : feed.metadata.Unforced) :
    ∃ inserted, Grows feed.log inserted feed'.log ∧
      Asks (inserted.flatMap FeedEntry.numberingCalls) feed feed' ∧
      (inserted = [] ∨
        op.isCheckpoint = false ∧ inserted = [FeedEntry.of .checkpoint feed.metadata.offered]) := by
  cases prepares with
  | notDue _ => exact ⟨[], .refl, .of_eq rfl, .inl rfl⟩
  | inserted due takes =>
    rw [Bool.and_eq_true, Bool.not_eq_true'] at due
    exact ⟨_, takes.grows, (takes.asks unforced).congr rfl, .inr ⟨due.1, rfl⟩⟩

/-- What is asked for in all is that the entries by which the log grows get their numbers. -/
theorem exists_asks_of_takes {feed₁ feed₂ : Feed} (prepares : Prepares op (feed.counted .add) feed₁)
    (takes : Takes op feed₁ feed₂) (unforced : feed.metadata.Unforced) :
    ∃ inserted,
      Grows feed.log (inserted ++ [FeedEntry.of op feed₁.metadata.offered]) feed₂.log ∧
      Asks ((inserted ++ [FeedEntry.of op feed₁.metadata.offered]).flatMap FeedEntry.numberingCalls)
        feed feed₂.woken ∧
      (inserted = [] ∨ ∃ checkpoint,
        op.isCheckpoint = false ∧ inserted = [FeedEntry.of .checkpoint checkpoint]) := by
  obtain ⟨inserted, grows, asks, h_inserted⟩ := prepares.asks unforced
  refine ⟨inserted, grows.trans takes.grows, ?_, h_inserted.imp_right fun h => ⟨_, h⟩⟩
  -- the count of the fault point, the checkpoint, and then the operation
  have asks' := (feed.asks_counted .add).trans (asks.trans (takes.asks (asks.unforced unforced)))
  rw [List.flatMap_append, List.flatMap_singleton]
  exact asks'.congr rfl

end Feed

/-! ### Steps -/

/-- The calls that look up a segment. -/
def FeedCall.lookUps : FeedCall → List MetadataCall
  | .lookUpBytes segment _ _ | .segmentInfo segment => [.segment segment]
  | _ => []

/-- A call that is neither a request to the metadata nor an addition makes no other calls. -/
theorem FeedCall.asks {call : FeedCall} (h_metadata : ∀ request, call ≠ .metadata request)
    (h_add : ∀ op, call ≠ .add op) (feed : Feed) :
    Feed.Asks call.lookUps feed (call.act.effect feed).2 := by
  cases call with
  | metadata request => exact absurd rfl (h_metadata request)
  | add op => exact absurd rfl (h_add op)
  | recordAppend segment offset data =>
    rw [act, Act.effect_bind, Attempt.effect_tryOut, Feed.effect_recordAppend]
    refine .of_eq ?_
    split
    · rfl
    · rfl
  | admitLookup =>
    rw [act, Act.effect_bind, Attempt.effect_tryOut, Feed.effect_admitLookup]
    refine .of_eq ?_
    split
    · rfl
    · rfl
  | lookUpBytes segment start length =>
    rw [act, Act.effect_bind, Attempt.effect_tryOut, Feed.effect_lookUpBytes]
    exact feed.asks_lookedUp segment
  | admitMerge =>
    rw [act, Act.effect_bind, Attempt.effect_tryOut, Feed.effect_requireOpen]
    exact .of_eq rfl
  | isTruncationPoint number =>
    rw [act, Act.effect_bind, Feed.effect_isTruncationPoint]
    exact .of_eq rfl
  | segmentInfo segment =>
    rw [act, Act.effect_bind, Feed.effect_segmentInfo?]
    exact feed.asks_lookedUp segment
  | close =>
    rw [act, Act.effect_bind, Feed.effect_close]
    refine .of_eq ?_
    dsimp only
    split
    · rfl
    · rfl
  | clearAppendData | closestTruncationPoint | setAckEffective | makeInjector | inject =>
    exact .of_eq rfl

/-- The calls that a step makes of the metadata. -/
def Step.traffic (s : Step) : List MetadataCall :=
  match s.action with
  | .now (.metadata request) => request.noted s.before.state.metadata
  | .now (.add _) => s.appended.flatMap FeedEntry.numberingCalls
  | .now call => call.lookUps
  | .later _ => []
  | .executor _ => s.cut?.toList.map .removeMarkers

namespace Step

variable {s : Step}

/-- The step looks up a segment: for itself, or for a range of its bytes. -/
def LooksUp (s : Step) (segment : SegmentId) : Prop :=
  s.action = .now (.segmentInfo segment) ∨
    ∃ start length, s.action = .now (.lookUpBytes segment start length)

/-- What a step asks of the metadata that adds an operation. -/
inductive AddTraffic (s : Step) (op : Operation) : Prop
  -- An operation that is refused asks for nothing.
  | refused {e : FeedError} (refuses : s.Refuses op e) (traffic : s.traffic = []) : AddTraffic s op
  -- Nothing is inserted before an operation: its own number is asked for.
  | alone {number : SequenceNumber} (accepts : s.Accepts op number)
      (appended : s.appended = [FeedEntry.of op number])
      (traffic : s.traffic = op.numberingCalls number) : AddTraffic s op
  -- A checkpoint is inserted before an operation that is none.
  | preceded {checkpoint number : SequenceNumber} (accepts : s.Accepts op number)
      (plain : op.isCheckpoint = false)
      (appended : s.appended = [FeedEntry.of .checkpoint checkpoint, FeedEntry.of op number])
      (traffic : s.traffic =
        [.next checkpoint, .recordMarker checkpoint, .setPoint checkpoint, .next number]) :
      AddTraffic s op

/-- While the counter does not start over, adding asks for the numbers of what it appends. -/
theorem add_traffic {op : Operation} (h_action : s.action = .now (.add op))
    (ahead : s.before.state.Ahead)
    (h_room : s.before.state.current.toNat + s.allocated < UInt64.size) :
    s.AddTraffic op ∧ s.before.state.Asks s.traffic s.after.state := by
  have h_traffic : s.traffic = s.appended.flatMap FeedEntry.numberingCalls := by
    rw [traffic, h_action]
  have h_state : s.after.state = ((Feed.add op).effect s.before.state).2 := by
    rw [after, h_action]
    rfl
  have h_answer : s.answer =
      .ofResult (fun n => .number n.toNat) ((Feed.add op).effect s.before.state).1 := by
    rw [answer, h_action]
    rfl
  -- while the counter does not start over, the operation is refused at once or goes in
  have course := Feed.add_course op s.before.state
  rw [← h_state] at course
  have orderly := course.orderly_of_ahead ahead h_room
  generalize ((Feed.add op).effect s.before.state).1 = result at h_answer orderly
  generalize h_after : s.after.state = feed' at orderly h_state
  cases orderly with
  | refused same why =>
    rw [← h_after] at same
    have h_appended : s.appended = [] := appended_of_log_eq same.log
    have h_none : s.traffic = [] := by rw [h_traffic, h_appended, List.flatMap_nil]
    refine ⟨.refused ⟨h_answer, same.log, same.current, h_appended, why⟩ h_none, ?_⟩
    rw [h_none, h_state]
    exact .of_eq (Feed.metadata_add_of_not_admits (Feed.not_admits why))
  | @accepted feed₁ feed₂ admits prepares takes =>
    obtain ⟨inserted, grows, asks, h_inserted⟩ :=
      Feed.exists_asks_of_takes prepares takes ahead.unforced
    have h_appended : s.appended = inserted ++ [FeedEntry.of op feed₁.metadata.offered] := by
      apply appended_of_grows
      rw [h_after]
      exact grows
    rw [← h_appended, ← h_traffic] at asks
    refine ⟨?_, asks⟩
    -- by whether a checkpoint was inserted
    rcases h_inserted with rfl | ⟨checkpoint, plain, rfl⟩
    · refine .alone ⟨admits.unnumbered, h_answer, [], h_appended, Nat.zero_le _, ?_⟩ h_appended ?_
      · exact List.forall_mem_nil _
      · rw [h_traffic, h_appended, List.nil_append, List.flatMap_singleton]
        rfl
    · refine .preceded ⟨admits.unnumbered, h_answer, _, h_appended, Nat.le_refl _, ?_⟩ plain
        h_appended ?_
      · exact List.forall_mem_singleton.mpr rfl
      · have h_number : (FeedEntry.of op feed₁.metadata.offered).numberingCalls =
            [.next feed₁.metadata.offered] := Operation.numberingCalls_of_plain plain _
        rw [h_traffic, h_appended, List.flatMap_append, List.flatMap_singleton,
          List.flatMap_singleton, h_number]
        rfl

/-- An acknowledgement removes markers if acknowledgements are effective when its turn comes. -/
theorem traffic_of_truncate {upTo : SequenceNumber} (turn : s.IsTurnOf (.truncate upTo)) :
    s.traffic = if s.before.state.ackEffective then [.removeMarkers upTo] else [] := by
  obtain ⟨handle, h_action, live⟩ := turn
  rw [traffic, h_action]
  simp only [cut?, h_action, live]
  split
  · rfl
  · rfl

/-- Other moves of the executor ask for nothing. -/
theorem traffic_of_executor {move : ExecutorMove} (h_action : s.action = .executor move)
    (h_turn : ∀ upTo, ¬ s.IsTurnOf (.truncate upTo)) : s.traffic = [] := by
  have noCut : s.cut? = none :=
    Option.eq_none_iff_forall_ne_some.mpr fun upTo h_cut => h_turn upTo (isTurnOf_of_cut h_cut)
  rw [traffic, h_action, noCut]
  rfl

/-- The metadata are as before a move that is not the turn of an acknowledgement. -/
theorem metadata_of_executor {move : ExecutorMove} (h_action : s.action = .executor move)
    (h_turn : ∀ upTo, ¬ s.IsTurnOf (.truncate upTo)) :
    s.after.state.metadata = s.before.state.metadata := by
  have course := Machine.move_course move s.before
  rw [← after_of_executor h_action] at course
  generalize s.after = m' at course
  cases course with
  | quiet noTask same => rfl
  -- no task but an acknowledgement touches the metadata in its turn
  | @finished handle task result executor live turn same =>
    refine FeedTask.keeps_metadata _ ?_ s.before.state
    rintro upTo rfl
    exact h_turn upTo ⟨handle, h_action, live⟩
  | @parked handle task task' executor live turn same =>
    refine FeedTask.keeps_metadata _ ?_ s.before.state
    rintro upTo rfl
    exact h_turn upTo ⟨handle, h_action, live⟩
  | ended ended =>
    apply ended.state fun feed => feed.metadata = s.before.state.metadata
    · exact fun task feed h_same => (FeedTask.keeps_metadata_abandon task feed).trans h_same
    · rfl

/-- What a move of the executor asks for is what cutting the log does. -/
theorem asks_executor {move : ExecutorMove} (h_action : s.action = .executor move)
    (h_sound : s.before.executor.Sound) : s.before.state.Asks s.traffic s.after.state := by
  by_cases h_turn : ∃ upTo, s.IsTurnOf (.truncate upTo)
  · obtain ⟨upTo, turn⟩ := h_turn
    rw [traffic_of_truncate turn, turn.state_eq h_sound]
    exact Feed.asks_truncate upTo s.before.state
  · have h_turn := not_exists.mp h_turn
    rw [traffic_of_executor h_action h_turn]
    exact .of_eq (metadata_of_executor h_action h_turn)

/-- A call whose result comes later asks for nothing, when it is made. -/
theorem asks_later {call : AsyncCall} (h_action : s.action = .later call) :
    s.before.state.Asks s.traffic s.after.state := by
  have h_keeps : call.perform.Keeps (fun m => m.state.metadata) := by
    refine .bind .get fun m => .bind ?_ fun launch => ?_
    · exact fun m' => AsyncCall.keeps_metadata m.executor.clock call m'.state
    · cases launch with
      | error e => exact .pure _
      | ok launch =>
        exact .bind (Machine.keeps_start FeedTask.keeps_metadata_abandon launch) fun _ => .pure _
  have h_traffic : s.traffic = [] := by rw [traffic, h_action]
  rw [h_traffic, after, h_action]
  exact .of_eq (h_keeps s.before)

/-- What a step asks of the metadata that is not a request to them, while the counter does not start
over. No such step changes a segment. -/
theorem asks (ahead : s.before.state.Ahead) (h_sound : s.before.executor.Sound)
    (h_room : s.before.state.current.toNat + s.allocated < UInt64.size)
    (h_request : ∀ request, s.action ≠ .now (.metadata request)) :
    s.before.state.Asks s.traffic s.after.state := by
  cases h_action : s.action with
  | later call => exact asks_later h_action
  | executor move => exact asks_executor h_action h_sound
  | now call =>
    -- adding has been treated, and what is left are look-ups and calls that ask for nothing
    by_cases h_add : ∃ op, call = .add op
    · obtain ⟨op, rfl⟩ := h_add
      exact (add_traffic h_action ahead h_room).2
    · have h_metadata : ∀ request, call ≠ .metadata request := by
        rintro request rfl
        exact h_request request h_action
      have h_add := not_exists.mp h_add
      have h_traffic : s.traffic = call.lookUps := by
        unfold traffic
        rw [h_action]
        cases call with
        | metadata request => exact absurd rfl (h_metadata request)
        | add op => exact absurd rfl (h_add op)
        | _ => rfl
      rw [h_traffic, after, h_action]
      exact FeedCall.asks h_metadata h_add s.before.state

/-- The record of a facade is continued by the calls of a step, unless a number is forced. -/
theorem record_after (ahead : s.before.state.Ahead) (h_sound : s.before.executor.Sound)
    (h_room : s.before.state.current.toNat + s.allocated < UInt64.size)
    (h_force : ∀ number, s.action ≠ .now (.metadata (.forceNext number))) :
    s.after.state.metadata.record = s.before.state.metadata.record.map (·.noteAll s.traffic) := by
  by_cases h_request : ∃ request, s.action = .now (.metadata request)
  · obtain ⟨request, h_action⟩ := h_request
    have h_forces : ∀ number, request ≠ .forceNext number := by
      rintro number rfl
      exact h_force number h_action
    have h_traffic : s.traffic = request.noted s.before.state.metadata := by rw [traffic, h_action]
    rw [h_traffic, after, h_action]
    exact Metadata.record_answer ahead.unforced h_forces
  · exact (asks ahead h_sound h_room (not_exists.mp h_request)).record

/-- An acknowledgement, a request to the metadata, an addition and a look-up are all that asks for
anything. -/
theorem traffic_of_other (h_request : ∀ request, s.action ≠ .now (.metadata request))
    (h_add : ∀ op, s.action ≠ .now (.add op)) (h_turn : ∀ upTo, ¬ s.IsTurnOf (.truncate upTo))
    (h_lookUp : ∀ segment, ¬ s.LooksUp segment) : s.traffic = [] := by
  cases h_action : s.action with
  | later call => rw [traffic, h_action]
  | executor move => exact traffic_of_executor h_action h_turn
  | now call =>
    rw [traffic, h_action]
    cases call with
    | metadata request => exact absurd h_action (h_request request)
    | add op => exact absurd h_action (h_add op)
    | lookUpBytes segment start length =>
      exact absurd (.inr ⟨start, length, h_action⟩) (h_lookUp segment)
    | segmentInfo segment => exact absurd (.inl h_action) (h_lookUp segment)
    | _ => rfl

end Step

/-! ### Numbers that are asked for -/

/-- The number that a call gave out. -/
def MetadataCall.allocated? : MetadataCall → Option SequenceNumber
  | .next allocated => some allocated
  | _ => none

/-- The numbers that are given out for some entries are those of the entries. -/
theorem allocated?_numberingCalls (entries : List FeedEntry) :
    (entries.flatMap FeedEntry.numberingCalls).filterMap MetadataCall.allocated? =
      entries.map (·.number) := by
  induction entries with
  | nil => rfl
  | cons e entries ih =>
    have h_entry : e.numberingCalls.filterMap MetadataCall.allocated? = [e.number] := by
      rw [FeedEntry.numberingCalls, Operation.numberingCalls]
      split
      · rfl
      · rfl
    rw [List.flatMap_cons, List.filterMap_append, h_entry, ih, List.map_cons, List.singleton_append]

/-- A step asks for the numbers of the entries that it appends, unless it is a request
for a number. -/
theorem Step.allocated?_traffic {s : Step} (h : s.action ≠ .now (.metadata .next)) :
    s.traffic.filterMap MetadataCall.allocated? = s.appended.map (·.number) := by
  by_cases h_add : ∃ op, s.action = .now (.add op)
  · obtain ⟨op, h_action⟩ := h_add
    rw [traffic, h_action]
    exact allocated?_numberingCalls s.appended
  -- nothing is appended by any other step, and no other call but a request gives out a number
  rw [appended_of_not_add (not_exists.mp h_add), List.map_nil, traffic]
  cases h_action : s.action with
  | later call => rfl
  | executor move => cases s.cut? <;> rfl
  | now call =>
    cases call with
    | add op => exact absurd ⟨op, h_action⟩ h_add
    | metadata request =>
      cases request with
      | next => exact absurd h_action h
      | _ => rfl
    | _ => rfl

/-- All the numbers that are asked for are in the history. -/
theorem allocated?_flatMap_traffic {steps : List Step}
    (h : ∀ s ∈ steps, s.action ≠ .now (.metadata .next)) :
    (steps.flatMap Step.traffic).filterMap MetadataCall.allocated? =
      (history steps).map (·.number) := by
  rw [history, List.filterMap_flatMap, List.map_flatMap]
  exact List.flatMap_congr fun s h_mem => Step.allocated?_traffic (h s h_mem)

/-! ### Runs -/

section Run

variable {feed : Feed} {steps : List Step} {m : FeedMachine}

/-- The counter and the record of a run in which nothing is forced. -/
structure Recorded (feed : Feed) (steps : List Step) (m : FeedMachine) : Prop where
  counts : Counts steps m
  record : m.state.metadata.record =
    feed.metadata.record.map (·.noteAll (steps.flatMap Step.traffic))

/-- While nothing is forced and numbers are left, the record is that of all steps. -/
theorem Recorded.of_run (h_new : feed.IsNew) (unforced : feed.metadata.Unforced)
    (run : Run feed steps m)
    (h_force : ∀ s ∈ steps, ∀ number, s.action ≠ .now (.metadata (.forceNext number)))
    (h_few : allocated steps < UInt64.size) : Recorded feed steps m := by
  induction run with
  | start => exact ⟨.initial h_new unforced, Option.map_id'.symm⟩
  | @step steps m run action ih =>
    have h_mono := allocated_mono (List.prefix_append steps [⟨m, action⟩])
    obtain ⟨counts, h_record⟩ := ih (fun s h_mem => h_force s (List.mem_append_left _ h_mem))
      (Nat.lt_of_le_of_lt h_mono h_few)
    -- the counter has room for the last step, as it has for the whole run
    have h_after := Step.record_after (s := ⟨m, action⟩) counts.ahead run.sound
      (counts.room h_few) (h_force _ List.mem_concat_self)
    refine ⟨counts.step action h_few (counts.ahead.unforced.of_record h_after), ?_⟩
    rw [h_after, h_record, List.flatMap_append, List.flatMap_singleton,
      CallRecord.map_noteAll_append]

/-- Before every step of such a run, the numbers in the log are at most the counter, and there is
room for those that the step takes. -/
theorem Recorded.room_of_prefix {before : List Step} {s : Step} (h_new : feed.IsNew)
    (unforced : feed.metadata.Unforced)
    (h_force : ∀ s ∈ steps, ∀ number, s.action ≠ .now (.metadata (.forceNext number)))
    (h_few : allocated steps < UInt64.size) (h_start : before ++ [s] <+: steps)
    (run : Run feed before s.before) :
    s.before.state.Ahead ∧ s.before.state.current.toNat + s.allocated < UInt64.size := by
  have h_few' := Nat.lt_of_le_of_lt (allocated_mono h_start) h_few
  have h_before := Nat.lt_of_le_of_lt (allocated_mono (List.prefix_append before [s])) h_few'
  have h_mem : ∀ c ∈ before, c ∈ steps :=
    fun c h_mem => h_start.subset (List.mem_append_left _ h_mem)
  have recorded := of_run h_new unforced run (fun c h_c => h_force c (h_mem c h_c)) h_before
  exact ⟨recorded.counts.ahead, recorded.counts.room h_few'⟩

end Run

end OperationFeed
