import OperationFeed.Proofs.Effect
import OperationFeed.Proofs.Table
import OperationFeed.Session.MetadataRequest

/-!
# Effects on the metadata

What each call of the facade leaves, for every facade. Numbering an operation is the one composite:
a number is given out, and for a checkpoint the number is then marked (`Metadata.numbered`). The
number is known in advance, one above the last (`Metadata.offered_of_unforced`), unless a record has
been told to give out another.

The last section says how far an outside request can reach: only two kinds of request give out a
number or allow a cut (`MetadataRequest.allocates`, `MetadataRequest.allowsCut`), and only three
change what is known about cuts at all (`MetadataRequest.changesCuts`).
-/

namespace OperationFeed

namespace Table

variable {κ ν : Type} [Ranked κ]

/-- An insert adds one key to those that are there. -/
theorem contains_insert (t : Table κ ν) (k j : κ) (v : ν) :
    (t.insert k v).contains j = true ↔ k = j ∨ t.contains j = true := by
  rw [contains, contains, get?_insert]
  by_cases h : rank k = rank j
  · simp [rank_inj.1 h]
  · simp [h, mt (congrArg rank) h]

/-- Of the keys that are there, those stay that satisfy the predicate. -/
theorem contains_retain (t : Table κ ν) (p : κ → Bool) (j : κ) :
    (t.retain p).contains j = true ↔ p j = true ∧ t.contains j = true := by
  rw [contains, contains, get?_retain]
  by_cases h : p j = true <;> simp [h]

end Table

namespace MetadataStore

@[simp] theorem isPoint_fresh (container : ContainerId) (number : SequenceNumber) :
    (fresh container).isPoint number = false := rfl

/-- To set a truncation point adds it to those that are there. -/
theorem isPoint_setPoint (store : MetadataStore) (number other : SequenceNumber) :
    (store.setPoint number).isPoint other = true ↔ number = other ∨ store.isPoint other = true :=
  store.points.contains_insert number other ()

/-- A removal leaves the truncation points above its number. -/
theorem isPoint_removeMarkers (store : MetadataStore) (upTo number : SequenceNumber) :
    (store.removeMarkers upTo).isPoint number = true ↔
      upTo < number ∧ store.isPoint number = true := by
  rw [isPoint, removeMarkers, Table.contains_retain, isPoint]
  simp

/-- To record a marker replaces the one of its number, and no other. -/
theorem marker?_recordMarker (store : MetadataStore) (number other : SequenceNumber)
    (address : LogAddress) :
    (store.recordMarker number address).marker? other =
      if number = other then some address else store.marker? other := by
  rw [marker?, recordMarker, Table.get?_insert, marker?]
  simp only [rank_inj]

/-- A removal leaves the markers above its number. -/
theorem marker?_removeMarkers (store : MetadataStore) (upTo number : SequenceNumber) :
    (store.removeMarkers upTo).marker? number =
      if upTo < number then store.marker? number else none := by
  rw [marker?, removeMarkers, Table.get?_retain, marker?]
  simp only [decide_eq_true_iff]

/-- Two removals come to the same in either order: what is above both numbers stays. -/
theorem removeMarkers_comm (store : MetadataStore) (upTo upTo' : SequenceNumber) :
    (store.removeMarkers upTo).removeMarkers upTo' =
      (store.removeMarkers upTo').removeMarkers upTo := by
  simp only [removeMarkers, Table.retain_comm (fun number => decide (upTo < number))]

/-- A change of one segment leaves all that is not about segments. -/
@[simp] theorem updateSegment_snd (store : MetadataStore) (segment : SegmentId)
    (change : SegmentInfo → SegmentInfo) : (store.updateSegment segment change).2 =
      { store with segments := (store.segment? segment).elim store.segments fun info =>
          store.segments.insert segment (change info) } := by
  unfold updateSegment
  split
  · next h_none => rw [h_none, Option.elim_none]
  · next h_some => rw [h_some, Option.elim_some]

/-- Truncation points are the keys of a table. -/
theorem isPoint_iff_mem {store : MetadataStore} {number : SequenceNumber} :
    store.isPoint number = true ↔ (number, ()) ∈ store.points.entries := by
  rw [isPoint, Table.contains_iff]
  exact ⟨fun ⟨_, h_mem⟩ => h_mem, fun h_mem => ⟨(), h_mem⟩⟩

/-- The closest point is the greatest one that is not above the number. -/
theorem closestPoint?_eq_some_iff {store : MetadataStore} {number closest : SequenceNumber} :
    store.closestPoint? number = some closest ↔
      (store.isPoint closest = true ∧ closest ≤ number) ∧
        ∀ other, store.isPoint other = true → other ≤ number → other ≤ closest := by
  -- the closest point is the floor in the table of points
  have h_floor : store.closestPoint? number = some closest ↔
      store.points.floor? number = some (closest, ()) := by
    rw [closestPoint?, Option.map_eq_some_iff]
    constructor
    · rintro ⟨e, h_e, rfl⟩
      exact h_e
    · intro h
      exact ⟨_, h, rfl⟩
  rw [h_floor, Table.floor?_eq_some_iff, isPoint_iff_mem]
  constructor
  · rintro ⟨h_closest, h_greatest⟩
    exact ⟨h_closest, fun other h_other => h_greatest (other, ()) (isPoint_iff_mem.mp h_other)⟩
  · rintro ⟨h_closest, h_greatest⟩
    exact ⟨h_closest, fun other h_other => h_greatest other.1 (isPoint_iff_mem.mpr h_other)⟩

/-- There is none exactly if every truncation point is above the number. -/
theorem closestPoint?_eq_none_iff {store : MetadataStore} {number : SequenceNumber} :
    store.closestPoint? number = none ↔ ∀ other, store.isPoint other = true → number < other := by
  rw [closestPoint?, Option.map_eq_none_iff, Table.floor?_eq_none_iff]
  constructor
  · intro h other h_other
    exact h (other, ()) (isPoint_iff_mem.mp h_other)
  · intro h other h_other
    exact h other.1 (isPoint_iff_mem.mpr h_other)

end MetadataStore

namespace CallRecord

/-- Write down calls, one after another. -/
def noteAll (r : CallRecord) (calls : List MetadataCall) : CallRecord := calls.foldl note r

/-- Calls that are written down come after those that were there. -/
theorem calls_noteAll (r : CallRecord) (calls : List MetadataCall) :
    (r.noteAll calls).calls = r.calls ++ calls := by
  induction calls generalizing r with
  | nil => exact (List.append_nil _).symm
  | cons call calls ih =>
    rw [List.append_cons, ← calls_note, ← ih, noteAll, List.foldl_cons, noteAll]

/-- Writing calls down forces nothing, and takes nothing forced away. -/
theorem forced_noteAll (r : CallRecord) (calls : List MetadataCall) :
    (r.noteAll calls).forced = r.forced := by
  induction calls generalizing r with
  | nil => rfl
  | cons call calls ih => exact (ih (r.note call)).trans (forced_note r call)

theorem noteAll_append (r : CallRecord) (calls later : List MetadataCall) :
    r.noteAll (calls ++ later) = (r.noteAll calls).noteAll later := List.foldl_append

/-- The same of a facade that may keep no record. -/
theorem map_noteAll_append (record : Option CallRecord) (calls later : List MetadataCall) :
    record.map (·.noteAll (calls ++ later)) =
      (record.map (·.noteAll calls)).map (·.noteAll later) := by
  rw [Option.map_map]
  exact congrArg (Option.map · record) (funext fun r => r.noteAll_append calls later)

end CallRecord

/-- The calls by which an operation gets its number. -/
def Operation.numberingCalls (op : Operation) (number : SequenceNumber) : List MetadataCall :=
  .next number :: if op.isCheckpoint then [.recordMarker number, .setPoint number] else []

namespace Metadata

/-! ### The calls of the facade -/

/-- Events are told beside the metadata. -/
@[simp] theorem effect_tell (event : Event) (m : Metadata) : (tell event).effect m = ((), m) := by
  simp [tell]

@[simp] theorem effect_noteCall (call : MetadataCall) (m : Metadata) :
    (noteCall call).effect m = ((), { m with record := m.record.map (·.note call) }) := (rfl)

@[simp] theorem effect_changeStore (change : MetadataStore → MetadataStore) (m : Metadata) :
    (changeStore change).effect m = ((), { m with store := change m.store }) := (rfl)

/-- A marker is recorded in the store, and the call in the record if there is one. -/
@[simp] theorem effect_recordMarker (number : SequenceNumber) (address : LogAddress)
    (m : Metadata) :
    (recordMarker number address).effect m =
      ((), { m with
        store := m.store.recordMarker number address
        record := m.record.map (·.note (.recordMarker number)) }) := by
  simp [recordMarker]

@[simp] theorem effect_setPoint (number : SequenceNumber) (m : Metadata) :
    (setPoint number).effect m =
      ((), { m with
        store := m.store.setPoint number
        record := m.record.map (·.note (.setPoint number)) }) := by
  simp [setPoint]

@[simp] theorem effect_removeMarkers (upTo : SequenceNumber) (m : Metadata) :
    (removeMarkers upTo).effect m =
      ((), { m with
        store := m.store.removeMarkers upTo
        record := m.record.map (·.note (.removeMarkers upTo)) }) := by
  simp [removeMarkers]

/-- Whether a number is a truncation point is asked without a trace in the record. -/
@[simp] theorem effect_isPoint (number : SequenceNumber) (m : Metadata) :
    (isPoint number).effect m = (m.store.isPoint number, m) := by
  simp [isPoint]

/-- A segment is looked up in the store, and the call is written down. -/
@[simp] theorem effect_segment? (segment : SegmentId) (m : Metadata) :
    (segment? segment).effect m =
      (m.store.segment? segment,
        { m with record := m.record.map (·.note (.segment segment)) }) := by
  simp [segment?]

/-! ### Numbering an operation -/

/-- The number that the facade gives out next. -/
def offered (m : Metadata) : SequenceNumber := m.allocate.1

/-- The metadata once the offered number is given out. -/
def taken (m : Metadata) : Metadata := (next.effect m).2

/-- The metadata once an operation has its number: a checkpoint's number is marked. -/
def numbered (m : Metadata) (op : Operation) : Metadata :=
  if op.isCheckpoint then
    ((setPoint m.offered).effect ((recordMarker m.offered ⟨m.offered⟩).effect m.taken).2).2
  else
    m.taken

@[simp] theorem effect_next (m : Metadata) : next.effect m = (m.offered, m.taken) := (rfl)

/-- The number that is given out is written down. -/
theorem taken_eq (m : Metadata) :
    m.taken = { m.allocate.2 with
      record := m.allocate.2.record.map (·.note (.next m.offered)) } := by
  simp [taken, next, offered]

/-- Giving out a number leaves every truncation point. -/
@[simp] theorem points_taken (m : Metadata) : m.taken.store.points = m.store.points := by
  rw [taken_eq, allocate]
  split <;> rfl

/-- Giving out a number leaves every marker. -/
@[simp] theorem markers_taken (m : Metadata) : m.taken.store.markers = m.store.markers := by
  rw [taken_eq, allocate]
  split <;> rfl

/-- Numbering allows a cut at the number of a checkpoint, and nowhere else. -/
theorem isPoint_numbered (m : Metadata) (op : Operation) (number : SequenceNumber) :
    (m.numbered op).store.isPoint number = true ↔
      (op.isCheckpoint = true ∧ m.offered = number) ∨ m.store.isPoint number = true := by
  -- giving out the number adds no point
  have h_taken : m.taken.store.isPoint number = m.store.isPoint number := by
    rw [MetadataStore.isPoint, points_taken, MetadataStore.isPoint]
  by_cases h : op.isCheckpoint
  · simp only [numbered, h, if_true, true_and, effect_setPoint, effect_recordMarker,
      MetadataStore.isPoint_setPoint]
    rw [← h_taken]
    rfl
  · simp [numbered, h, h_taken]

/-- A checkpoint's marker is at its own number. -/
theorem marker?_numbered (m : Metadata) (op : Operation) (number : SequenceNumber) :
    (m.numbered op).store.marker? number =
      if op.isCheckpoint = true ∧ m.offered = number then some ⟨number⟩
      else m.store.marker? number := by
  -- giving out the number records no marker
  have h_taken : m.taken.store.marker? number = m.store.marker? number := by
    rw [MetadataStore.marker?, markers_taken, MetadataStore.marker?]
  by_cases h : op.isCheckpoint
  · simp only [numbered, h, if_true, true_and, effect_setPoint, effect_recordMarker]
    change (m.taken.store.recordMarker m.offered ⟨m.offered⟩).marker? number = _
    rw [MetadataStore.marker?_recordMarker, h_taken]
    split
    · next h_eq => rw [h_eq]
    · rfl
  · simp [numbered, h, h_taken]

/-- Numbering an operation has nothing to do with segments. -/
theorem segments_numbered (m : Metadata) (op : Operation) :
    (m.numbered op).store.segments = m.store.segments := by
  have h_taken : m.taken.store.segments = m.store.segments := by
    rw [taken_eq, allocate]
    split <;> rfl
  unfold numbered
  split <;> simp [MetadataStore.setPoint, MetadataStore.recordMarker, h_taken]

/-- Nothing is forced: the next number comes from the store. -/
def Unforced (m : Metadata) : Prop := m.record.bind (·.forced) = none

/-- More calls in a record force nothing. -/
theorem Unforced.of_record {m m' : Metadata} (h : m.Unforced) {calls : List MetadataCall}
    (h_record : m'.record = m.record.map (·.noteAll calls)) : m'.Unforced := by
  rw [Unforced] at h ⊢
  rw [h_record]
  cases h_some : m.record with
  | none => rfl
  | some r =>
    rw [h_some] at h
    exact (r.forced_noteAll calls).trans h

section Unforced

variable {m : Metadata} (h : m.Unforced)

include h

/-- With nothing forced, the store's counter gives the number. -/
theorem allocate_of_unforced :
    m.allocate = (m.store.next.1, { m with store := m.store.next.2 }) := by
  obtain ⟨store, _ | ⟨latestFirst, _ | forced⟩, traced⟩ := m
  · rfl
  · rfl
  · cases h

/-- That number is one above the last. -/
theorem offered_of_unforced : m.offered = m.store.current + 1 := by
  rw [offered, allocate_of_unforced h]
  rfl

/-- The counter goes up by one with each operation, checkpoint or not. -/
theorem current_numbered_of_unforced (op : Operation) :
    (m.numbered op).store.current = m.store.current + 1 := by
  have h_taken : m.taken.store.current = m.store.current + 1 := by
    rw [taken_eq, allocate_of_unforced h]
    rfl
  unfold numbered
  split <;> simp [MetadataStore.setPoint, MetadataStore.recordMarker, h_taken]

/-- The record tells how an operation got its number. -/
theorem record_numbered_of_unforced (op : Operation) :
    (m.numbered op).record = m.record.map (·.noteAll (op.numberingCalls m.offered)) := by
  have h_taken : m.taken.record = m.record.map (·.note (.next m.offered)) := by
    rw [taken_eq, allocate_of_unforced h]
  unfold numbered Operation.numberingCalls
  split
  · rw [effect_setPoint, effect_recordMarker, h_taken, Option.map_map, Option.map_map]
    rfl
  · exact h_taken

/-- Numbering an operation forces nothing. -/
theorem unforced_numbered (op : Operation) : (m.numbered op).Unforced :=
  h.of_record (record_numbered_of_unforced h op)

end Unforced

section Plain

variable {m : Metadata} (h : m.record = none)

include h

/-- Without a record nothing can be forced. -/
theorem unforced_of_plain : m.Unforced := by
  rw [Unforced, h]
  rfl

/-- Without a record, the number is one above the last. -/
theorem offered_of_plain : m.offered = m.store.current + 1 :=
  offered_of_unforced (unforced_of_plain h)

/-- A facade without a record gets none by numbering. -/
theorem record_numbered_of_plain (op : Operation) : (m.numbered op).record = none := by
  have h_taken : m.taken.record = none := by
    rw [taken_eq, allocate, h]
    simp
  unfold numbered
  split <;> simp [h_taken]

end Plain

end Metadata

/-! ### Requests from outside -/

namespace MetadataRequest

/-- Whether the request gives out a sequence number. -/
def allocates : MetadataRequest → Bool
  | .next => true
  | _ => false

/-- Whether the request allows the log to be cut somewhere. -/
def allowsCut : MetadataRequest → Bool
  | .setPoint _ => true
  | _ => false

/-- The calls that a facade records of the request. -/
def noted (m : Metadata) : MetadataRequest → List MetadataCall
  | .next => [.next m.offered]
  | .recordMarker number _ => [.recordMarker number]
  | .setPoint number => [.setPoint number]
  | .removeMarkers upTo => [.removeMarkers upTo]
  | .segment id => [.segment id]
  | _ => []

/-- Whether the request changes where the log may be cut, or what is recorded of such places. -/
def changesCuts : MetadataRequest → Bool
  | .recordMarker .. | .setPoint _ | .removeMarkers _ => true
  | _ => false

end MetadataRequest

namespace Metadata

variable {request : MetadataRequest}

/-- A request is recorded as it is made, unless it forces a number. -/
theorem record_answer {m : Metadata} (h : m.Unforced)
    (h_force : ∀ number, request ≠ .forceNext number) :
    ((answer request).effect m).2.record = m.record.map (·.noteAll (request.noted m)) := by
  -- a request that is not written down leaves the record as it is
  have h_none : m.record = m.record.map (·.noteAll []) := Option.map_id'.symm
  cases request with
  | forceNext number => exact absurd rfl (h_force number)
  | next =>
    simp only [answer, Act.effect_bind, effect_next, Act.effect_pure, taken_eq,
      allocate_of_unforced h]
    rfl
  | recordMarker | setPoint | removeMarkers | segment =>
    simp only [answer, Act.effect_bind, effect_recordMarker, effect_setPoint, effect_removeMarkers,
      effect_segment?, Act.effect_pure]
    rfl
  | isPoint number =>
    simp only [answer, Act.effect_bind, effect_isPoint, Act.effect_pure]
    exact h_none
  | _ => exact h_none

/-- A facade without a record gets none by answering a request. -/
theorem record_answer_of_plain {m : Metadata} (h : m.record = none) :
    ((answer request).effect m).2.record = none := by
  cases request <;>
    simp [answer, container, current, marker?, closestPoint?, forceNext, editSegment?, editSegment,
      taken_eq, allocate, h]

/-- A request that gives out no number leaves the counter where it is. -/
theorem current_answer {m : Metadata} (h : request.allocates = false) :
    ((answer request).effect m).2.store.current = m.store.current := by
  -- only one request gives out a number; all others leave the counter
  cases request with
  | next => cases h
  | _ =>
    simp [answer, container, current, marker?, closestPoint?, forceNext, editSegment?,
      editSegment, MetadataStore.recordMarker, MetadataStore.setPoint,
      MetadataStore.removeMarkers, MetadataStore.mapSegment]

/-- A request that allows no cut adds no truncation point. -/
theorem isPoint_of_isPoint_answer {m : Metadata} {number : SequenceNumber}
    (h : request.allowsCut = false)
    (h_point : ((answer request).effect m).2.store.isPoint number = true) :
    m.store.isPoint number = true := by
  cases request with
  | setPoint _ => cases h
  -- a removal leaves fewer points, and nothing else touches them
  | removeMarkers upTo =>
    simp only [answer, Act.effect_bind, effect_removeMarkers, Act.effect_pure,
      MetadataStore.isPoint_removeMarkers] at h_point
    exact h_point.2
  | _ =>
    simpa [answer, container, current, marker?, closestPoint?, forceNext, editSegment?,
      editSegment, MetadataStore.recordMarker, MetadataStore.mapSegment,
      MetadataStore.isPoint] using h_point

/-- A request that changes nothing about cuts leaves every truncation point and every marker. -/
theorem cuts_answer {m : Metadata} (h : request.changesCuts = false) :
    ((answer request).effect m).2.store.points = m.store.points ∧
      ((answer request).effect m).2.store.markers = m.store.markers := by
  cases request with
  | recordMarker _ _ | setPoint _ | removeMarkers _ => cases h
  | _ =>
    simp [answer, container, current, marker?, closestPoint?, forceNext, editSegment?,
      editSegment, MetadataStore.mapSegment]

end Metadata

end OperationFeed
