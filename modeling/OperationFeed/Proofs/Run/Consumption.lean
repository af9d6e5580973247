import OperationFeed.Proofs.Run.History
import OperationFeed.Proofs.Run.Reads

/-!
# Consumers

A *consumer* goes through the operations of a feed. It reads what comes after its position, and
moves the position to the last number it was given; if a read fails, it reads again. In the meantime
everybody else does what they like, except that they acknowledge nothing above the position.

`Consumes.received_eq` says that the consumer is given every operation that was ever appended
between the number at which it started and its position, each of them once, and in order. Two
invariants carry the proof:

* `Uncut`: above the position, the log and the history are the same, and no acknowledgement that
  waits for its turn will change that;
* `Consumption`: what the consumer was given goes up to its position, and what a pending read brings
  is the next of it (`IsPage`).

A read is served at some time between its call and its end. The log may have grown since the call,
so the page that it brings is found in the history at that time; it is still the next page later,
since a history grows at its end only.
-/

namespace OperationFeed

/-- Someone who goes through the operations of a feed. -/
structure Consumer where
  /-- The number up to which operations were received. -/
  position : SequenceNumber
  /-- The handle of the read that was made last, if it is not over. -/
  pending : Option Handle
  /-- What was received so far, one batch after another. -/
  received : List (List Operation)

namespace Consumer

/-- The read is over. With operations, the position moves to the number of the last one. -/
def receive (c : Consumer) : FeedResult → Consumer
  | .ok (.batch operations) =>
    ⟨(operations.getLast?.bind (·.sequenceNumber)).getD c.position, none,
      c.received ++ [operations]⟩
  | _ => { c with pending := none }

end Consumer

/-- A consumer that starts at a number, in a run in which nothing above its
position is acknowledged. -/
inductive Consumes (feed : Feed) (start : SequenceNumber) :
    List Step → FeedMachine → Consumer → Prop
  -- The consumer starts in the middle of a run.
  | start {steps : List Step} {m : FeedMachine} (run : Run feed steps m)
      (acks : ∀ s ∈ steps, ∀ upTo, s.AcceptsAcknowledge upTo → upTo ≤ start) :
      Consumes feed start steps m ⟨start, none, []⟩
  -- Something happens that is not of the consumer, or a read of the consumer is refused.
  | other {steps : List Step} {m : FeedMachine} {c : Consumer}
      (consumes : Consumes feed start steps m c)
      (action : FeedAction)
      (acks : ∀ upTo, Step.AcceptsAcknowledge ⟨m, action⟩ upTo → upTo ≤ c.position) :
      Consumes feed start (steps ++ [⟨m, action⟩]) (Step.after ⟨m, action⟩) c
  -- The consumer reads after its position.
  | read {steps : List Step} {m : FeedMachine} {c : Consumer}
      (consumes : Consumes feed start steps m c)
      (idle : c.pending = none) (max : Nat) (timeout : Duration) (some : max ≠ 0) {handle : Handle}
      (accepts : Step.AcceptsRead ⟨m, .later (.read c.position max timeout)⟩ handle c.position max
        timeout) :
      Consumes feed start (steps ++ [⟨m, .later (.read c.position max timeout)⟩])
        (Step.after ⟨m, .later (.read c.position max timeout)⟩) { c with pending := handle }
  -- The consumer takes the result of its read.
  | receive {steps : List Step} {m : FeedMachine} {c : Consumer}
      (consumes : Consumes feed start steps m c) {handle : Handle} (pending : c.pending = handle)
      {s : Step} (h_s : s ∈ steps) {result : FeedResult} (resolves : s.Resolves handle result) :
      Consumes feed start steps m (c.receive result)
  -- The consumer does not wait any longer.
  | giveUp {steps : List Step} {m : FeedMachine} {c : Consumer}
      (consumes : Consumes feed start steps m c) :
      Consumes feed start steps m { c with pending := none }

/-! ### What is not cut off -/

/-- Above a position, everything that was ever appended is in the log, and stays there. -/
structure Uncut (position : SequenceNumber) (steps : List Step) (m : FeedMachine) : Prop where
  log : entriesAbove position m.state.log.entries = entriesAbove position (history steps)
  tasks : ∀ handle upTo, (handle, FeedTask.truncate upTo) ∈ m.executor.tasks → upTo ≤ position

namespace Uncut

variable {position position' : SequenceNumber} {steps : List Step} {m : FeedMachine} {feed : Feed}

/-- At the start there is nothing to be cut off. -/
theorem initial (h_new : feed.log = ∅) : Uncut position [] ⟨feed, .fresh⟩ where
  log := by
    change entriesAbove position feed.log.entries = _
    rw [h_new]
    rfl
  tasks _ _ h_mem := nomatch h_mem

/-- Above a greater position there is less to be cut off. -/
theorem mono (h : Uncut position steps m) (h_le : position ≤ position') :
    Uncut position' steps m where
  log := by
    rw [← entriesAbove_entriesAbove h_le, h.log, entriesAbove_entriesAbove h_le]
  tasks handle upTo h_mem := UInt64.le_trans (h.tasks handle upTo h_mem) h_le

/-- A step keeps it, as long as nothing above the position is acknowledged. -/
theorem step (h : Uncut position steps m) (h_sound : m.executor.Sound) {action : FeedAction}
    (acks : ∀ upTo, Step.AcceptsAcknowledge ⟨m, action⟩ upTo → upTo ≤ position) :
    Uncut position (steps ++ [⟨m, action⟩]) (Step.after ⟨m, action⟩) where
  log := by
    rw [history_concat, entriesAbove_append, ← h.log]
    cases Step.log_course ⟨m, action⟩ with
    | grows noCut grows => rw [grows.entries, entriesAbove_append]
    | cut upTo cut appended log =>
      -- what is cut off is up to the position
      obtain ⟨handle, live⟩ := Step.exists_truncate_of_cut cut
      have h_le := h.tasks handle upTo (h_sound.lookup_eq_some.mp live)
      rw [appended, log, Log.entries_truncate]
      change entriesAbove position (entriesAbove upTo m.state.log.entries) = _
      rw [entriesAbove_entriesAbove h_le]
      exact (List.append_nil _).symm
  tasks handle upTo h_mem := by
    rcases Step.truncate_origin (s := ⟨m, action⟩) h_sound h_mem with live | ⟨accepts, -⟩
    · exact h.tasks handle upTo live
    · exact acks upTo accepts

theorem of_run (h_new : feed.log = ∅) (run : Run feed steps m)
    (acks : ∀ s ∈ steps, ∀ upTo, s.AcceptsAcknowledge upTo → upTo ≤ position) :
    Uncut position steps m := by
  induction run with
  | start => exact .initial h_new
  | @step steps m run action ih =>
    have h := ih fun s h_mem => acks s (List.mem_append_left _ h_mem)
    exact h.step run.sound (acks _ List.mem_concat_self)

end Uncut

/-! ### Pages -/

/-- The operations are the next ones of a history, after a number. -/
def IsPage (position : SequenceNumber) (history : List FeedEntry) (operations : List Operation) :
    Prop :=
  ∃ page last, operations = (page ++ [last]).map (·.item) ∧
    page ++ [last] <+: entriesAbove position history

/-- A page is still the next one after more was appended. -/
theorem IsPage.append {position : SequenceNumber} {history : List FeedEntry}
    {operations : List Operation} (h : IsPage position history operations) (new : List FeedEntry) :
    IsPage position (history ++ new) operations := by
  obtain ⟨page, last, h_eq, h_page⟩ := h
  refine ⟨page, last, h_eq, h_page.trans ?_⟩
  rw [entriesAbove_append]
  exact List.prefix_append _ _

/-- A read after a position brings the next page. -/
theorem Uncut.isPage {position : SequenceNumber} {feed : Feed} {steps : List Step} {m : FeedMachine}
    {s call : Step} {handle : Handle} {max : Nat} {timeout : Duration} {operations : List Operation}
    (uncut : Uncut position steps s.before) (run : Run feed (steps ++ [s]) m)
    (h_call : call ∈ steps ++ [s]) (accepts : call.AcceptsRead handle position max timeout)
    (h_max : max ≠ 0) (resolves : s.Resolves handle (.ok (.batch operations))) :
    IsPage position (history steps) operations := by
  obtain ⟨serves, rfl⟩ := (run.read_origin h_call accepts resolves).found
  have h_read : s.before.state.log.read position max =
      ((entriesAbove position (history steps)).take max).map (·.item) := by
    rw [Log.read_eq, ← uncut.log]
    rfl
  -- the read is for at least one operation, and was served, so there is one
  have h_some : (entriesAbove position (history steps)).take max ≠ [] := by
    intro h_nil
    rw [h_nil, List.map_nil, Log.read_eq_nil] at h_read
    exact Feed.not_serves.mpr ⟨h_max, h_read.resolve_left h_max⟩ serves
  obtain ⟨page, last, h_page⟩ := List.eq_nil_or_concat _ |>.resolve_left h_some
  rw [List.concat_eq_append] at h_page
  refine ⟨page, last, ?_, ?_⟩
  · rw [h_read, h_page]
  · rw [← h_page]
    exact List.take_prefix _ _

/-! ### What a consumer has received -/

namespace Consumes

variable {feed : Feed} {start : SequenceNumber} {steps : List Step} {m : FeedMachine} {c : Consumer}

/-- What a consumer goes through is a run. -/
theorem run (h : Consumes feed start steps m c) : Run feed steps m := by
  induction h with
  | start run acks => exact run
  | other consumes action acks ih => exact ih.step action
  | read consumes idle max timeout some accepts ih => exact ih.step _
  | receive consumes pending h_s resolves ih => exact ih
  | giveUp consumes ih => exact ih

end Consumes

/-- What a consumer has received up to its position, and what its pending read brings. -/
structure Consumption (start : SequenceNumber) (steps : List Step) (m : FeedMachine)
    (c : Consumer) : Prop where
  uncut : Uncut c.position steps m
  /-- The position is the start, or the number of an operation that was appended. -/
  reached : c.position = start ∨ start < c.position ∧ ∃ e ∈ history steps, e.number = c.position
  received : c.received.flatten =
    (entriesBetween start c.position (history steps)).map (·.item)
  /-- The pending read is one after the position, -/
  pending : ∀ handle, c.pending = some handle → ∃ call ∈ steps, ∃ max timeout,
    max ≠ 0 ∧ call.AcceptsRead handle c.position max timeout
  /-- and what it brings is the next page. -/
  page : ∀ handle, c.pending = some handle → ∀ s ∈ steps, ∀ operations,
    s.Resolves handle (.ok (.batch operations)) → IsPage c.position (history steps) operations

namespace Consumption

variable {feed : Feed} {start : SequenceNumber} {steps : List Step} {m : FeedMachine} {c : Consumer}

/-- A consumer never goes back before its start. -/
theorem le (h : Consumption start steps m c) : start ≤ c.position := by
  rcases h.reached with h_eq | ⟨h_lt, -⟩
  · rw [h_eq]
    exact UInt64.le_refl _
  · exact UInt64.le_of_lt h_lt

/-- At the start nothing was received, and nothing lies between start and position. -/
theorem initial (uncut : Uncut start steps m) : Consumption start steps m ⟨start, none, []⟩ where
  uncut := uncut
  reached := .inl rfl
  received := by
    rw [entriesBetween_self]
    rfl
  pending := nofun
  page := nofun

/-- A read that is over, or given up, is forgotten. -/
theorem forget (h : Consumption start steps m c) :
    Consumption start steps m { c with pending := none } :=
  { h with pending := nofun, page := nofun }

/-- Whatever is appended comes after what was received. -/
theorem received_append (h : Consumption start steps m c) {new : List FeedEntry}
    (sorted : (history steps ++ new).Pairwise (fun a b => a.number < b.number)) :
    c.received.flatten = (entriesBetween start c.position (history steps ++ new)).map (·.item) := by
  rw [h.received]
  -- the position is the start, or a number in the history, which the new ones exceed
  rcases h.reached with h_eq | ⟨-, e, h_mem, h_eq⟩
  · rw [h_eq, entriesBetween_self, entriesBetween_self]
  · rw [entriesBetween_append_of_lt]
    intro e' h_new
    rw [← h_eq]
    exact (List.pairwise_append.mp sorted).2.2 e h_mem e' h_new

/-- A step that is not of the consumer leaves its account in order. -/
theorem step (h : Consumption start steps m c) (h_new : feed.log = ∅) (run : Run feed steps m)
    {action : FeedAction}
    (acks : ∀ upTo, Step.AcceptsAcknowledge ⟨m, action⟩ upTo → upTo ≤ c.position) :
    Consumption start (steps ++ [⟨m, action⟩]) (Step.after ⟨m, action⟩) c where
  uncut := h.uncut.step run.sound acks
  reached := by
    rw [history_concat]
    apply h.reached.imp_right
    rintro ⟨h_lt, e, h_mem, h_eq⟩
    exact ⟨h_lt, e, List.mem_append_left _ h_mem, h_eq⟩
  received := by
    have chronicle := Chronicle.of_run h_new (run.step action)
    rw [history_concat] at chronicle ⊢
    exact h.received_append chronicle.sorted
  pending handle h_pending := by
    obtain ⟨call, h_call, h_read⟩ := h.pending handle h_pending
    exact ⟨call, List.mem_append_left _ h_call, h_read⟩
  page handle h_pending s h_s operations resolves := by
    rw [history_concat]
    refine IsPage.append ?_ _
    rcases List.mem_append.mp h_s with h_s | h_s
    · exact h.page handle h_pending s h_s operations resolves
    · -- the read is resolved now, while the position is still the one it was made with
      obtain rfl := List.mem_singleton.mp h_s
      obtain ⟨call, h_call, max, timeout, h_max, accepts⟩ := h.pending handle h_pending
      exact h.uncut.isPage (run.step action) (List.mem_append_left _ h_call) accepts h_max resolves

/-- So does a read of the consumer, from its position on. -/
theorem read (h : Consumption start steps m c) (h_new : feed.log = ∅) (run : Run feed steps m)
    {max : Nat} {timeout : Duration} (h_max : max ≠ 0) {handle : Handle}
    (accepts : Step.AcceptsRead ⟨m, .later (.read c.position max timeout)⟩ handle c.position max
      timeout) :
    Consumption start (steps ++ [⟨m, .later (.read c.position max timeout)⟩])
      (Step.after ⟨m, .later (.read c.position max timeout)⟩) { c with pending := handle } := by
  have h' : Consumption start (steps ++ [⟨m, .later (.read c.position max timeout)⟩]) _ c :=
    h.step h_new run fun upTo ack => by cases ack.action
  refine { h' with pending := ?_, page := ?_ }
  · intro handle' h_eq
    obtain rfl := Option.some.inj h_eq
    exact ⟨_, List.mem_concat_self, max, timeout, h_max, accepts⟩
  · intro handle' h_eq s h_s operations resolves
    obtain rfl := Option.some.inj h_eq
    rw [history_concat]
    refine IsPage.append ?_ _
    rcases List.mem_append.mp h_s with h_s | h_s
    · -- the handle is new, so nothing has resolved it before
      have h_lt := run.lt_of_resolves h_s resolves
      rw [accepts.course.1] at h_lt
      exact absurd h_lt (Nat.lt_irrefl _)
    · obtain rfl := List.mem_singleton.mp h_s
      exact h.uncut.isPage (run.step _) List.mem_concat_self accepts
        h_max resolves

/-- Receiving a page moves the position to the number of its last operation. -/
theorem receive (h : Consumption start steps m c) (h_new : feed.log = ∅) (run : Run feed steps m)
    {handle : Handle} (h_pending : c.pending = handle) {s : Step} (h_s : s ∈ steps)
    {result : FeedResult} (resolves : s.Resolves handle result) :
    Consumption start steps m (c.receive result) := by
  cases result with
  | error e => exact h.forget
  | ok reply =>
  cases reply with
  | batch operations =>
    have chronicle := Chronicle.of_run h_new run
    -- the page that was read, found in the history of today
    obtain ⟨page, last, h_eq, h_page⟩ := h.page handle h_pending s h_s operations resolves
    have h_last : last ∈ entriesAbove c.position (history steps) :=
      h_page.subset List.mem_concat_self
    obtain ⟨h_mem, h_lt⟩ := mem_entriesAbove.mp h_last
    -- the last operation carries its number, which is the new position
    have h_receive : c.receive (.ok (.batch operations)) =
        ⟨last.number, none, c.received ++ [operations]⟩ := by
      rw [Consumer.receive, h_eq, List.map_append, List.map_singleton, List.getLast?_concat,
        Option.bind_some, chronicle.stamped last h_mem, Option.getD_some]
    rw [h_receive]
    refine ⟨h.uncut.mono (UInt64.le_of_lt h_lt), .inr ⟨?_, last, h_mem, rfl⟩, ?_, nofun, nofun⟩
    · exact UInt64.lt_of_le_of_lt h.le h_lt
    · calc (c.received ++ [operations]).flatten
          = c.received.flatten ++ operations := by
            rw [List.flatten_append, List.flatten_singleton]
        _ = (entriesBetween start c.position (history steps)).map (·.item) ++
            (page ++ [last]).map (·.item) := by rw [h.received, h_eq]
        _ = (entriesBetween start c.position (history steps) ++
            entriesBetween c.position last.number (history steps)).map (·.item) := by
            rw [entriesBetween_page chronicle.sorted h_page, ← List.map_append]
        _ = (entriesBetween start last.number (history steps)).map (·.item) := by
            rw [entriesBetween_append chronicle.sorted h.le (UInt64.le_of_lt h_lt)]
  | _ => exact h.forget

end Consumption

/-- A consumer has received exactly the operations that were ever appended with numbers above the
one at which it started, up to its position, in the order of their numbers. -/
theorem Consumes.received_eq {facade : Metadata.Facade} {container : ContainerId} {config : Config}
    {feed : Feed} {start : SequenceNumber} {steps : List Step} {m : FeedMachine} {c : Consumer}
    (h_make : Feed.make (.fresh facade container) config = .ok feed)
    (h : Consumes feed start steps m c) :
    start ≤ c.position ∧ (history steps).Pairwise (fun a b => a.number < b.number) ∧
      (∀ e ∈ history steps, e.item.sequenceNumber = some e.number) ∧
      c.received.flatten = ((history steps).filter
        (fun e => start < e.number ∧ e.number ≤ c.position)).map (·.item) := by
  have h_new := (Feed.isNew_of_make h_make).log
  have consumption : Consumption start steps m c := by
    induction h with
    | start run acks => exact .initial (.of_run h_new run acks)
    | other consumes action acks ih => exact ih.step h_new consumes.run acks
    | read consumes idle max timeout some accepts ih =>
      exact ih.read h_new consumes.run some accepts
    | receive consumes pending h_s resolves ih =>
      exact ih.receive h_new consumes.run pending h_s resolves
    | giveUp consumes ih => exact ih.forget
  have chronicle := Chronicle.of_run h_new h.run
  exact ⟨consumption.le, chronicle.sorted, chronicle.stamped, consumption.received⟩

/-- Two operations and two reads of one each; the first operation is a checkpoint, and is cut off in
between. -/
def twoPages : List FeedAction :=
  [.now (.add .checkpoint), .now (.add (.ofKind .probe)), .later (.read 0 1 ⟨0⟩),
    .later (.acknowledge 1), .executor (.turn 1), .later (.read 1 5 ⟨0⟩)]

/-- A consumer that receives both pages. -/
theorem Consumes.received_of_twoPages : ∃ feed,
    Feed.make (.fresh .plain 1) .standard = .ok feed ∧
    Consumes feed 0 (Step.trace ⟨feed, .fresh⟩ twoPages) (Step.final ⟨feed, .fresh⟩ twoPages)
      ⟨2, none, [[Operation.checkpoint.withNumber 1], [(Operation.ofKind .probe).withNumber 2]]⟩ ∧
    (Step.final ⟨feed, .fresh⟩ twoPages).state.log.size = 1 ∧
    [Operation.checkpoint.withNumber 1, (Operation.ofKind .probe).withNumber 2] =
      ((history (Step.trace ⟨feed, .fresh⟩ twoPages)).filter
        (fun e => 0 < e.number ∧ e.number ≤ 2)).map (·.item) := by
  have no_ack : ∀ {m : FeedMachine} {call : FeedCall} {position : SequenceNumber},
      ∀ upTo, Step.AcceptsAcknowledge ⟨m, .now call⟩ upTo → upTo ≤ position :=
    fun upTo ack => by cases ack.action
  have h_last : ∀ (steps : List Step) s, s ∈ steps ++ [s] :=
    fun _ _ => List.mem_concat_self
  have consumes : ∀ feed, Feed.make (.fresh .plain 1) .standard = .ok feed →
      Consumes feed 0 (Step.trace ⟨feed, .fresh⟩ twoPages) (Step.final ⟨feed, .fresh⟩ twoPages)
        ⟨2, none,
          [[Operation.checkpoint.withNumber 1], [(Operation.ofKind .probe).withNumber 2]]⟩ := by
    intro feed h_make
    have start : Consumes feed 0 [] ⟨feed, .fresh⟩ ⟨0, none, []⟩ :=
      .start .start fun s h => nomatch h
    obtain rfl := Except.ok.inj h_make
    have added := (start.other (.now (.add .checkpoint)) no_ack).other
      (.now (.add (.ofKind .probe))) no_ack
    have first : Consumes _ 0 _ _ ⟨1, none, [[Operation.checkpoint.withNumber 1]]⟩ :=
      (added.read rfl 1 ⟨0⟩ (by decide) ⟨rfl, rfl⟩).receive rfl (h_last _ _) ⟨rfl, nofun⟩
    -- the first page is acknowledged once the position is there
    have acknowledged := first.other (.later (.acknowledge 1)) fun upTo ack => by
      obtain rfl : (1 : SequenceNumber) = upTo := by injection ack.action with h; injection h
      exact UInt64.le_refl _
    have cut := acknowledged.other (.executor (.turn 1)) fun upTo ack => by cases ack.action
    exact (cut.read rfl 5 ⟨0⟩ (by decide) ⟨rfl, rfl⟩).receive rfl (h_last _ _) ⟨rfl, nofun⟩
  refine ⟨_, rfl, consumes _ rfl, rfl, ?_⟩
  exact (Consumes.received_eq (show Feed.make (.fresh .plain 1) .standard = _ from rfl)
    (consumes _ rfl)).2.2.2

end OperationFeed
