import OperationFeed.Proofs.Run.Basic

/-!
# Steps and the stream

Of all the steps of a run, few concern the stream of operations: the log, the counter, the
truncation markers and the truncation points. `Step.StreamCourse` tells them apart. A step is a
request to the metadata, or it adds an operation, or it is the turn of an acknowledgement, or it
leaves the stream as it is (`Feed.SameStream`); readers, timeouts, attributes, closing and the end
of the executor are all of the last kind.
-/

namespace OperationFeed

namespace Feed

/-- Two feeds with the same log, counter, truncation markers and truncation points. -/
structure SameStream (feed feed' : Feed) : Prop where
  current : feed'.metadata.store.current = feed.metadata.store.current
  markers : feed'.metadata.store.markers = feed.metadata.store.markers
  points : feed'.metadata.store.points = feed.metadata.store.points
  plain : feed.metadata.record = none → feed'.metadata.record = none
  log : feed'.log = feed.log

namespace SameStream

theorem refl (feed : Feed) : SameStream feed feed := ⟨rfl, rfl, rfl, id, rfl⟩

theorem trans {feed₁ feed₂ feed₃ : Feed} (h : SameStream feed₁ feed₂)
    (h' : SameStream feed₂ feed₃) : SameStream feed₁ feed₃ :=
  ⟨h'.current.trans h.current, h'.markers.trans h.markers, h'.points.trans h.points,
    fun h_plain => h'.plain (h.plain h_plain), h'.log.trans h.log⟩

variable {feed feed' : Feed}

/-- The stream is part of the core. -/
theorem of_sameCore (h : SameCore feed feed') : SameStream feed feed' :=
  ⟨h.current, h.markers, h.points, h.record_eq_none.mpr, h.log⟩

/-- The stream is all in the metadata and the log. -/
theorem of_eq (h_metadata : feed'.metadata = feed.metadata) (h_log : feed'.log = feed.log) :
    SameStream feed feed' :=
  ⟨by rw [h_metadata], by rw [h_metadata], by rw [h_metadata], by rw [h_metadata]; exact id, h_log⟩

/-- The slots are not part of the stream. -/
theorem slots (h : SameStream feed feed') (arrivals drained : WaitSlot) :
    SameStream feed { feed' with arrivals, drained } :=
  ⟨h.current, h.markers, h.points, h.plain, h.log⟩

theorem isPoint (h : SameStream feed feed') (number : SequenceNumber) :
    feed'.metadata.store.isPoint number = feed.metadata.store.isPoint number := by
  rw [MetadataStore.isPoint, h.points, MetadataStore.isPoint]

theorem marker? (h : SameStream feed feed') (number : SequenceNumber) :
    feed'.metadata.store.marker? number = feed.metadata.store.marker? number := by
  rw [MetadataStore.marker?, h.markers, MetadataStore.marker?]

/-- Closing is not part of the stream. -/
theorem close (feed : Feed) : SameStream feed (close.effect feed).2 := by
  rw [effect_close]
  split <;> exact ⟨rfl, rfl, rfl, id, rfl⟩

/-- Telling those who wait for the log to drain is not part of the stream. -/
theorem truncate (upTo : SequenceNumber) (feed : Feed) :
    SameStream (feed.cut upTo) ((truncate upTo).effect feed).2 := by
  rw [effect_truncate]
  split <;> exact ⟨rfl, rfl, rfl, id, rfl⟩

/-- To abandon a task is at most to leave a slot. -/
theorem abandon (task : FeedTask) (feed : Feed) :
    SameStream feed ((Work.abandon task : Act Feed Unit).effect feed).2 := by
  cases task <;> exact ⟨rfl, rfl, rfl, id, rfl⟩

/-- No call whose result comes later touches the stream at once. -/
theorem asyncCourse {now : Nat} {call : AsyncCall} {result : Except FeedError FeedLaunch}
    (course : AsyncCourse now feed call result feed') : SameStream feed feed' := by
  cases course with
  | read course =>
    cases course with
    | refused same => exact of_sameCore same
    | struck same strikes => exact of_sameCore same
    | found same isOpen serves => exact of_sameCore same
    | waits same isOpen serves => exact (of_sameCore same).slots _ _
  | acknowledge same point task => exact of_sameCore same
  | attributes same notRead task => exact of_sameCore same
  | drain course => cases course <;> exact ⟨rfl, rfl, rfl, id, rfl⟩

/-- No turn of a reader touches the stream. -/
theorem readerCourse {now : Nat} {reader : Reader} {turn : FeedTurn}
    (course : ReaderCourse now reader feed turn feed') : SameStream feed feed' := by
  cases course <;> exact ⟨rfl, rfl, rfl, id, rfl⟩

/-- To start something is not part of the stream. -/
theorem startCourse {e : Executor FeedTask FeedResult} {launch : FeedLaunch} {m' : FeedMachine}
    (start : Machine.StartCourse ⟨feed, e⟩ launch m') : SameStream feed m'.state := by
  cases start with
  | ready result => exact refl feed
  | task task alive => exact refl feed
  | dead task dead => exact abandon task feed

/-- A shutdown abandons the tasks, and nothing more. -/
theorem ended {m m' : FeedMachine} (ended : m.Ended m') : SameStream m.state m'.state :=
  ended.state (SameStream m.state) (fun task s h => h.trans (abandon task s)) (refl m.state)

end SameStream

end Feed

namespace Step

/-- The step is a turn of a task. -/
def IsTurnOf (s : Step) (task : FeedTask) : Prop :=
  ∃ handle, s.action = .executor (.turn handle) ∧
    s.before.executor.tasks.lookup handle = some task

/-- The number up to which a step cuts the log: an acknowledgement has its turn, while
acknowledgements are effective. -/
def cut? (s : Step) : Option SequenceNumber :=
  match s.action with
  | .executor (.turn handle) =>
    match s.before.executor.tasks.lookup handle with
    | some (.truncate upTo) => if s.before.state.ackEffective then some upTo else none
    | _ => none
  | _ => none

/-- What a step does to the stream. -/
inductive StreamCourse (s : Step) : Prop
  -- Nothing.
  | same (same : s.before.state.SameStream s.after.state) (noCut : s.cut? = none)
      (notAdd : ∀ op, s.action ≠ .now (.add op))
  -- It is a request to the metadata.
  | metadata (request : MetadataRequest) (action : s.action = .now (.metadata request))
      (after : s.after.state = { s.before.state with
        metadata := ((Metadata.answer request).effect s.before.state.metadata).2 })
  -- It adds an operation, or fails to.
  | added (op : Operation) (result : Except FeedError SequenceNumber)
      (action : s.action = .now (.add op))
      (answer : s.answer = .ofResult (fun n => .number n.toNat) result)
      (course : Feed.AddCourse op s.before.state result s.after.state)
  -- It is the turn of an acknowledgement.
  | truncated (handle : Handle) (upTo : SequenceNumber)
      (action : s.action = .executor (.turn handle))
      (live : s.before.executor.tasks.lookup handle = some (.truncate upTo))
      (after : s.after.state = ((Feed.truncate upTo).effect s.before.state).2)

/-- No call that is answered at once cuts the log by itself. -/
theorem cut?_now {s : Step} {call : FeedCall} (h : s.action = .now call) : s.cut? = none := by
  rw [cut?, h]

/-- Of the turns, only those of acknowledgements cut the log. -/
theorem cut?_turn {s : Step} {handle : Handle} {task : FeedTask}
    (h : s.action = .executor (.turn handle))
    (live : s.before.executor.tasks.lookup handle = some task)
    (h_task : ∀ upTo, task ≠ .truncate upTo) : s.cut? = none := by
  rw [cut?, h]
  simp only [live]
  cases task with
  | truncate upTo => exact absurd rfl (h_task upTo)
  | _ => rfl

/-- A cut is made by an acknowledgement whose turn has come. -/
theorem isTurnOf_of_cut {s : Step} {upTo : SequenceNumber} (h : s.cut? = some upTo) :
    s.IsTurnOf (.truncate upTo) := by
  unfold cut? at h
  split at h
  · next handle h_action =>
    split at h
    · next upTo' live =>
      split at h
      · obtain rfl := Option.some.inj h
        exact ⟨handle, h_action, live⟩
      · cases h
    · cases h
  · cases h

/-- A step that cuts is the turn of an acknowledgement for the number. -/
theorem exists_truncate_of_cut {s : Step} {upTo : SequenceNumber} (h : s.cut? = some upTo) :
    ∃ handle, s.before.executor.tasks.lookup handle = some (.truncate upTo) := by
  obtain ⟨handle, -, live⟩ := isTurnOf_of_cut h
  exact ⟨handle, live⟩

theorem ne_add_of_metadata {s : Step} {request : MetadataRequest}
    (h : s.action = .now (.metadata request)) (op : Operation) : s.action ≠ .now (.add op) := by
  rw [h]
  rintro ⟨⟩

theorem ne_add_of_later {s : Step} {call : AsyncCall} (h : s.action = .later call)
    (op : Operation) : s.action ≠ .now (.add op) := by
  rw [h]
  rintro ⟨⟩

theorem ne_add_of_executor {s : Step} {move : ExecutorMove} (h : s.action = .executor move)
    (op : Operation) : s.action ≠ .now (.add op) := by
  rw [h]
  rintro ⟨⟩

/-- Every step takes one of these courses. -/
theorem stream_course (s : Step) : s.StreamCourse := by
  have course := s.course
  generalize h_action : s.action = action, h_answer : s.answer = answer, h_after : s.after = m'
    at course
  cases course with
  | called course =>
    have noCut := cut?_now h_action
    cases course with
    | outside same notAdd =>
      refine .same ?_ noCut ?_
      · rw [h_after]
        exact .of_sameCore same
      · intro op h
        rw [h_action, FeedAction.now.injEq] at h
        exact notAdd op h
    | metadata request => exact .metadata request h_action (by rw [h_after])
    | added course => exact .added _ _ h_action h_answer (by rw [h_after]; exact course)
    | toggled effective =>
      refine .same ?_ noCut (by rw [h_action]; rintro op ⟨⟩)
      rw [h_after]
      exact ⟨rfl, rfl, rfl, id, rfl⟩
    | closed =>
      refine .same ?_ noCut (by rw [h_action]; rintro op ⟨⟩)
      rw [h_after]
      exact .close _
  | refused course =>
    refine .same ?_ (by rw [cut?, h_action]) (ne_add_of_later h_action)
    rw [h_after]
    exact .asyncCourse course
  | launched course start =>
    refine .same ?_ (by rw [cut?, h_action]) (ne_add_of_later h_action)
    rw [h_after]
    exact (Feed.SameStream.asyncCourse course).trans (.startCourse start)
  -- a move that touches no task, or a turn without one
  | @quiet move executor noTask same =>
    refine .same ?_ ?_ (ne_add_of_executor h_action)
    · rw [h_after]
      exact .refl _
    · rw [cut?, h_action]
      cases move with
      | turn handle => simp only [noTask handle rfl]
      | _ => rfl
  | finished live course same =>
    cases course with
    | truncated upTo => exact .truncated _ upTo h_action live (by rw [h_after])
    | attributes same changes =>
      refine .same ?_ (cut?_turn h_action live ?_) (ne_add_of_executor h_action)
      · rw [h_after]
        exact .of_sameCore same
      -- an acknowledgement does not change attributes
      · rintro upTo rfl
        cases changes
    | read course =>
      refine .same ?_ (cut?_turn h_action live nofun) (ne_add_of_executor h_action)
      rw [h_after]
      exact .readerCourse course
    | drain same =>
      refine .same ?_ (cut?_turn h_action live nofun) (ne_add_of_executor h_action)
      rw [h_after]
      exact .refl _
  | parked live course same =>
    cases course with
    | read course =>
      refine .same ?_ (cut?_turn h_action live nofun) (ne_add_of_executor h_action)
      rw [h_after]
      exact .readerCourse course
    | drain same =>
      refine .same ?_ (cut?_turn h_action live nofun) (ne_add_of_executor h_action)
      rw [h_after]
      exact .refl _
  | ended ended =>
    refine .same ?_ (by rw [cut?, h_action]) (ne_add_of_executor h_action)
    rw [h_after]
    exact .ended ended

end Step

end OperationFeed
