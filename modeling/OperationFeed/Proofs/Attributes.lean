import OperationFeed.Attribute.Store

/-!
# Changes of attributes, segment by segment

A store of attributes is known by the states of the segments (`AttributeStore.ext_state?`), and each
change concerns one segment: whether it is refused and what it makes of the segment are decided by
the segment's own state (`SegmentChange.refusal?`, `SegmentChange.revised`), and the other segments
stay as they are. `SegmentChange.perform_eq` says so of all three changes at once.
-/

namespace OperationFeed

namespace AttributeStore

variable {store store' : AttributeStore} {segment other : SegmentId} {state state' : AttributeState}

/-- The states of the segments determine a store. -/
theorem ext_state? (h : ∀ segment, store.state? segment = store'.state? segment) :
    store = store' := by
  obtain ⟨segments⟩ := store
  obtain ⟨segments'⟩ := store'
  exact congrArg mk (Table.ext_get? h)

/-- A state that is put is seen by its own segment. -/
theorem state?_put (store : AttributeStore) (segment : SegmentId) (state : AttributeState)
    (other : SegmentId) :
    (store.put segment state).state? other =
      if segment = other then some state else store.state? other := by
  rw [state?, put, Table.get?_insert, state?]
  simp only [rank_inj]

@[simp] theorem state?_put_self : (store.put segment state).state? segment = some state := by
  rw [state?_put, if_pos rfl]

theorem state?_put_of_ne (h : segment ≠ other) :
    (store.put segment state).state? other = store.state? other := by
  rw [state?_put, if_neg h]

/-- To put the state that is there already changes nothing. -/
theorem put_of_state? (h : store.state? segment = some state) :
    store.put segment state = store := by
  apply ext_state?
  intro other
  rw [state?_put]
  split
  · next h_eq => rw [← h_eq, h]
  · rfl

/-- States of two segments may be put in either order. -/
theorem put_comm (h : segment ≠ other) :
    (store.put segment state).put other state' = (store.put other state').put segment state := by
  apply ext_state?
  intro third
  by_cases h_third : segment = third
  · subst h_third
    rw [state?_put_of_ne (Ne.symm h), state?_put_self, state?_put_self]
  · rw [state?_put_of_ne h_third, state?_put _ other, state?_put _ other, state?_put_of_ne h_third]

end AttributeStore

/-- A change of one segment's attributes. -/
inductive SegmentChange where
  -- Apply deltas.
  | apply (deltas : List AttributeDelta)
  -- Freeze the attributes.
  | sealAll
  -- Delete them for good.
  | deleteAll

namespace SegmentChange

/-- Change a segment's attributes: the refusal, if there is one, and the store afterwards. -/
def perform (store : AttributeStore) (segment : SegmentId) :
    SegmentChange → Option AttributeError × AttributeStore
  | .apply deltas =>
    match store.apply segment deltas with
    | .error e => (some e, store)
    | .ok store' => (none, store')
  | .sealAll => (none, store.sealAll segment)
  | .deleteAll => (none, store.deleteAll segment)

/-- Why a change is refused by a segment in some state: only deltas ever are. -/
def refusal? (segment : SegmentId) : SegmentChange → Option AttributeState → Option AttributeError
  | .apply deltas, some (.sealed _) =>
    if deltas.isEmpty then none else some (.segmentSealed segment)
  | .apply _, some .tombstoned => some (.segmentNotFound segment)
  | _, _ => none

/-- What a change makes of a segment in some state. -/
def revised : SegmentChange → Option AttributeState → AttributeState
  | .apply deltas, none => .live (AttributeMap.applyAll ∅ deltas)
  | .apply deltas, some (.live attributes) => .live (AttributeMap.applyAll attributes deltas)
  | .apply _, some state => state
  | .sealAll, none => .sealed ∅
  | .sealAll, some .tombstoned => .tombstoned
  | .sealAll, some state => .sealed state.attributes
  | .deleteAll, _ => .tombstoned

/-- A change depends on nothing but the segment's state, and changes nothing else. -/
theorem perform_eq (change : SegmentChange) (store : AttributeStore) (segment : SegmentId) :
    change.perform store segment =
      (change.refusal? segment (store.state? segment),
        store.put segment (change.revised (store.state? segment))) := by
  cases change with
  | apply deltas =>
    -- what deltas come to is decided by the state; where they are refused, putting the old state
    -- back is no change
    cases h_state : store.state? segment with
    | none => simp [perform, AttributeStore.apply, h_state, refusal?, revised]
    | some state =>
      cases state with
      | live attributes => simp [perform, AttributeStore.apply, h_state, refusal?, revised]
      | «sealed» attributes =>
        have h_same := AttributeStore.put_of_state? h_state
        cases h_empty : deltas.isEmpty <;>
          simp [perform, AttributeStore.apply, h_state, h_empty, refusal?, revised, h_same]
      | tombstoned =>
        have h_same := AttributeStore.put_of_state? h_state
        simp [perform, AttributeStore.apply, h_state, refusal?, revised, h_same]
  | sealAll =>
    -- a seal keeps what is in a snapshot, and leaves a tombstone alone
    rw [perform, AttributeStore.sealAll, AttributeStore.snapshot]
    cases h_state : store.state? segment with
    | none => rfl
    | some state =>
      cases state with
      | live attributes => rfl
      | «sealed» attributes => rfl
      | tombstoned =>
        rw [revised, AttributeStore.put_of_state? h_state]
        rfl
  | deleteAll => rfl

end SegmentChange

end OperationFeed
