import OperationFeed.Proofs.Attributes

/-!
# The life of a segment's attributes

The attributes of a segment are absent, live, sealed or deleted for good. These are the stages of
their life (`AttributeStage`), and calls only ever lead from an earlier one to a later one:

* `SegmentChange.stage_le_revised` says so of one change, and `AttributeStore.stage_le_after` of all
  the calls that are made on a store, for whatever segments;
* `AttributeStore.state?_after_of_sealed` says that sealed attributes stay as they were sealed until
  they are deleted.

An entry may have been made for the segment before its deltas are refused, and sealing takes the
entry out before it is put back sealed. `SegmentChange.performInPlace` is this way of making a
change, and `SegmentChange.performInPlace_eq` says that nothing is gained or lost on it.

`AttributeStore.lifecycle` is the whole account.
-/

namespace OperationFeed

/-! ### Stages -/

/-- How far the attributes of a segment have come. -/
inductive AttributeStage where
  -- The segment was never touched.
  | absent
  -- Open to change.
  | live
  -- Frozen.
  | sealed
  -- Deleted for good.
  | tombstoned
deriving DecidableEq

namespace AttributeStage

/-- The place of a stage among the stages. -/
def place : AttributeStage → Nat
  | absent => 0
  | live => 1
  | «sealed» => 2
  | tombstoned => 3

instance : LE AttributeStage := ⟨fun stage stage' => stage.place ≤ stage'.place⟩

/-- Nothing comes after the last stage. -/
theorem eq_tombstoned {stage : AttributeStage} (h : tombstoned ≤ stage) : stage = tombstoned := by
  change 3 ≤ stage.place at h
  cases stage with
  | tombstoned => rfl
  | absent => exact absurd h (by decide)
  | live => exact absurd h (by decide)
  | «sealed» => exact absurd h (by decide)

/-- The stage that a segment has reached with a state. -/
def ofState : Option AttributeState → AttributeStage
  | none => absent
  | some (.live _) => live
  | some (.sealed _) => «sealed»
  | some .tombstoned => tombstoned

/-- Only a tombstone has come to the last stage. -/
theorem ofState_eq_tombstoned {state? : Option AttributeState} (h : ofState state? = tombstoned) :
    state? = some .tombstoned := by
  rcases state? with _ | state
  · cases h
  · cases state with
    | live attributes => cases h
    | «sealed» attributes => cases h
    | tombstoned => rfl

end AttributeStage

namespace AttributeStore

variable {store : AttributeStore} {segment other : SegmentId}

/-- How far the attributes of a segment have come in a store. -/
def stage (store : AttributeStore) (segment : SegmentId) : AttributeStage :=
  .ofState (store.state? segment)

/-- A snapshot shows the attributes of the segment's state. -/
theorem snapshot_of_state? {state : AttributeState} (h : store.state? segment = some state) :
    store.snapshot segment = state.attributes := by
  rw [snapshot, h]

/-- What is in a snapshot is decided by the segment's state. -/
theorem snapshot_congr {store' : AttributeStore}
    (h : store.state? segment = store'.state? segment) :
    store.snapshot segment = store'.snapshot segment := by
  rw [snapshot, snapshot, h]

/-- Sealing keeps the attributes, unless they have been deleted. -/
theorem state?_sealAll (h : store.state? segment ≠ some .tombstoned) :
    (store.sealAll segment).state? segment = some (.sealed (store.snapshot segment)) := by
  rw [sealAll]
  split
  · next h_state => exact absurd h_state h
  · exact state?_put_self

end AttributeStore

/-! ### One change -/

namespace SegmentChange

/-- A change is seen by its own segment, as what it makes of the state. -/
theorem state?_perform (change : SegmentChange) (store : AttributeStore)
    (segment other : SegmentId) :
    (change.perform store segment).2.state? other =
      if segment = other then some (change.revised (store.state? segment))
      else store.state? other := by
  rw [perform_eq, AttributeStore.state?_put]

/-- No change takes a segment back. -/
theorem stage_le_revised (change : SegmentChange) (state? : Option AttributeState) :
    AttributeStage.ofState state? ≤ .ofState (some (change.revised state?)) := by
  change AttributeStage.place _ ≤ AttributeStage.place _
  -- one case per change and stage; the places of the stages are numbers
  cases change with
  | apply deltas =>
    rcases state? with _ | state
    · exact Nat.zero_le _
    · cases state <;> exact Nat.le_refl _
  | sealAll =>
    rcases state? with _ | state
    · exact Nat.zero_le _
    · cases state with
      | live attributes => exact Nat.le_succ 1
      | «sealed» attributes => exact Nat.le_refl _
      | tombstoned => exact Nat.le_refl _
  | deleteAll =>
    rcases state? with _ | state
    · exact Nat.zero_le _
    · cases state with
      | live attributes => exact Nat.le_add_left 1 2
      | «sealed» attributes => exact Nat.le_succ 2
      | tombstoned => exact Nat.le_refl _

/-- Sealed attributes are changed by nothing but their deletion. -/
theorem revised_of_sealed {change : SegmentChange} (attributes : AttributeMap)
    (h : change ≠ .deleteAll) :
    change.revised (some (.sealed attributes)) = .sealed attributes := by
  cases change with
  | apply deltas => rfl
  | sealAll => rfl
  | deleteAll => exact absurd rfl h

end SegmentChange

/-! ### Refusals -/

namespace AttributeStore

variable {store : AttributeStore} {segment other : SegmentId} {deltas : List AttributeDelta}

/-- What becomes of deltas: a seal refuses them if there are any, a tombstone refuses them anyway,
and otherwise they are accepted. -/
theorem apply_course (store : AttributeStore) (segment : SegmentId) (deltas : List AttributeDelta) :
    (store.stage segment = .sealed ∧ deltas ≠ [] ∧
        store.apply segment deltas = .error (.segmentSealed segment)) ∨
      (store.stage segment = .tombstoned ∧
        store.apply segment deltas = .error (.segmentNotFound segment)) ∨
      (¬ (store.stage segment = .sealed ∧ deltas ≠ []) ∧ store.stage segment ≠ .tombstoned ∧
        ∃ store', store.apply segment deltas = .ok store') := by
  rw [apply, stage]
  cases store.state? segment with
  | none => simp [AttributeStage.ofState]
  | some state =>
    cases state with
    | live attributes => simp [AttributeStage.ofState]
    | «sealed» attributes => cases deltas <;> simp [AttributeStage.ofState]
    | tombstoned => simp [AttributeStage.ofState]

/-- The seal is what refuses deltas exactly if there is one, and there are deltas. -/
theorem apply_eq_error_segmentSealed : store.apply segment deltas = .error (.segmentSealed other) ↔
    other = segment ∧ store.stage segment = .sealed ∧ deltas ≠ [] := by
  rcases store.apply_course segment deltas with
    ⟨h_stage, h_deltas, h_apply⟩ | ⟨h_stage, h_apply⟩ | ⟨h_open, h_live, store', h_apply⟩
  · simp [h_apply, h_stage, h_deltas, eq_comm]
  · simp [h_apply, h_stage]
  · simp [h_apply, h_open]

/-- The tombstone is what refuses deltas exactly if there is one. -/
theorem apply_eq_error_segmentNotFound :
    store.apply segment deltas = .error (.segmentNotFound other) ↔
      other = segment ∧ store.stage segment = .tombstoned := by
  rcases store.apply_course segment deltas with
    ⟨h_stage, h_deltas, h_apply⟩ | ⟨h_stage, h_apply⟩ | ⟨h_open, h_live, store', h_apply⟩
  · simp [h_apply, h_stage]
  · simp [h_apply, h_stage, eq_comm]
  · simp [h_apply, h_live]

/-- Deltas are accepted where neither refuses them. -/
theorem exists_apply_eq_ok : (∃ store', store.apply segment deltas = .ok store') ↔
    ¬ (store.stage segment = .sealed ∧ deltas ≠ []) ∧ store.stage segment ≠ .tombstoned := by
  rcases store.apply_course segment deltas with
    ⟨h_stage, h_deltas, h_apply⟩ | ⟨h_stage, h_apply⟩ | ⟨h_open, h_live, store', h_apply⟩
  · simp [h_apply, h_stage, h_deltas]
  · simp [h_apply, h_stage]
  · exact iff_of_true ⟨store', h_apply⟩ ⟨h_open, h_live⟩

/-! ### Changes in place -/

/-- Make an entry for a segment that has none: its attributes are live, and there are none. -/
def touch (store : AttributeStore) (segment : SegmentId) : AttributeStore :=
  if (store.state? segment).isSome then store else store.put segment (.live ∅)

/-- Let one delta change the entry of a segment with live attributes. -/
def amend (store : AttributeStore) (segment : SegmentId) (delta : AttributeDelta) :
    AttributeStore :=
  match store.state? segment with
  | some (.live attributes) => store.put segment (.live (attributes.applyDelta delta))
  | _ => store

/-- Apply deltas to the entry of a segment, which is made if there is none, one after another: the
refusal, if there is one, and the store that is left. -/
def applyInPlace (store : AttributeStore) (segment : SegmentId) (deltas : List AttributeDelta) :
    Option AttributeError × AttributeStore :=
  let touched := store.touch segment
  match touched.state? segment with
  | some (.sealed _) =>
    if deltas.isEmpty then (none, touched) else (some (.segmentSealed segment), touched)
  | some .tombstoned => (some (.segmentNotFound segment), touched)
  | _ => (none, deltas.foldl (fun store delta => store.amend segment delta) touched)

/-- Take the entry of a segment out, and put it back sealed. -/
def sealInPlace (store : AttributeStore) (segment : SegmentId) : AttributeStore :=
  let taken : AttributeStore := ⟨store.segments.erase segment⟩
  match store.state? segment with
  | none => taken.put segment (.sealed ∅)
  | some (.live attributes) | some (.sealed attributes) => taken.put segment (.sealed attributes)
  | some .tombstoned => taken.put segment .tombstoned

/-- An entry that is there is not made again. -/
theorem touch_of_state? {state : AttributeState} (h : store.state? segment = some state) :
    store.touch segment = store := by
  rw [touch, h, if_pos Option.isSome_some]

/-- Of two states that are put, the second one stays. -/
theorem put_put (store : AttributeStore) (segment : SegmentId) (state state' : AttributeState) :
    (store.put segment state).put segment state' = store.put segment state' := by
  apply ext_state?
  intro other
  simp only [state?_put]
  split <;> rfl

/-- What was taken out is put back at its place. -/
theorem put_erase (store : AttributeStore) (segment : SegmentId) (state : AttributeState) :
    (⟨store.segments.erase segment⟩ : AttributeStore).put segment state =
      store.put segment state := by
  apply ext_state?
  intro other
  rw [state?_put, state?_put]
  split
  · rfl
  · next h =>
    rw [state?, Table.get?_erase, if_neg fun h_rank => h (rank_inj.mp h_rank).symm, state?]

/-- Deltas that change an entry one after another leave what they make of its
attributes together. -/
theorem foldl_amend (store : AttributeStore) (segment : SegmentId) (attributes : AttributeMap)
    (deltas : List AttributeDelta) :
    deltas.foldl (fun store delta => store.amend segment delta)
        (store.put segment (.live attributes)) =
      store.put segment (.live (attributes.applyAll deltas)) := by
  induction deltas generalizing attributes with
  | nil => rfl
  | cons delta deltas ih =>
    -- the entry is live after every delta, so the next one finds it live
    have h_amend : (store.put segment (.live attributes)).amend segment delta =
        store.put segment (.live (attributes.applyDelta delta)) := by
      rw [amend, state?_put_self]
      exact put_put ..
    rw [List.foldl_cons, h_amend, ih]
    rfl

end AttributeStore

namespace SegmentChange

/-- Change a segment's attributes in place. -/
def performInPlace (store : AttributeStore) (segment : SegmentId) :
    SegmentChange → Option AttributeError × AttributeStore
  | .apply deltas => store.applyInPlace segment deltas
  | .sealAll => (none, store.sealInPlace segment)
  | .deleteAll => (none, store.deleteAll segment)

/-- Whether an entry is made early or taken out for a while, a change comes to the same. -/
theorem performInPlace_eq (change : SegmentChange) (store : AttributeStore) (segment : SegmentId) :
    change.performInPlace store segment = change.perform store segment := by
  cases change with
  | apply deltas =>
    rw [performInPlace, perform, AttributeStore.applyInPlace, AttributeStore.apply]
    cases h_state : store.state? segment with
    | none =>
      -- the entry that is made early has no attributes, and the deltas start from none
      have h_touch : store.touch segment = store.put segment (.live ∅) := by
        rw [AttributeStore.touch, h_state]
        rfl
      simp only [h_touch, AttributeStore.state?_put_self, AttributeStore.foldl_amend]
    | some state =>
      simp only [AttributeStore.touch_of_state? h_state, h_state]
      cases state with
      | live attributes =>
        have h_same := AttributeStore.put_of_state? h_state
        simp only [← AttributeStore.foldl_amend, h_same]
      | «sealed» attributes => cases deltas <;> rfl
      | tombstoned => rfl
  | sealAll =>
    rw [performInPlace, perform, AttributeStore.sealInPlace, AttributeStore.sealAll,
      AttributeStore.snapshot]
    -- the entry is out while its state is looked at, and the state is what is put back
    cases h_state : store.state? segment with
    | none => simp only [AttributeStore.put_erase]
    | some state =>
      cases state with
      | live attributes => simp only [AttributeStore.put_erase, AttributeState.attributes]
      | «sealed» attributes => simp only [AttributeStore.put_erase, AttributeState.attributes]
      | tombstoned => simp only [AttributeStore.put_erase, AttributeStore.put_of_state? h_state]
  | deleteAll => rfl

end SegmentChange

/-! ### Any number of calls -/

/-- A call that changes the attributes of some segment. -/
structure AttributeCall where
  segment : SegmentId
  change : SegmentChange

namespace AttributeStore

variable {store : AttributeStore} {segment other : SegmentId} {calls : List AttributeCall}

/-- The store after calls, made one after another. -/
def after (store : AttributeStore) (calls : List AttributeCall) : AttributeStore :=
  calls.foldl (fun store call => (call.change.perform store call.segment).2) store

/-- What every call keeps is kept by all of them. -/
theorem after_induction {P : AttributeStore → Prop} (h_store : P store)
    (h_step : ∀ store, ∀ call ∈ calls, P store → P (call.change.perform store call.segment).2) :
    P (store.after calls) := by
  induction calls generalizing store with
  | nil => exact h_store
  | cons call calls ih =>
    refine ih (h_step store call (List.mem_cons_self ..) h_store) ?_
    intro store' call' h_mem
    exact h_step store' call' (List.mem_cons_of_mem _ h_mem)

/-- One call takes no segment back, its own or another one. -/
theorem stage_le_perform (store : AttributeStore) (call : AttributeCall) (other : SegmentId) :
    store.stage other ≤ (call.change.perform store call.segment).2.stage other := by
  rw [stage, stage, SegmentChange.state?_perform]
  split
  · next h =>
    subst h
    exact call.change.stage_le_revised _
  · exact Nat.le_refl _

/-- The stages of a segment go forward. -/
theorem stage_le_after (store : AttributeStore) (calls : List AttributeCall) (other : SegmentId) :
    store.stage other ≤ (store.after calls).stage other :=
  after_induction (P := fun store' => store.stage other ≤ store'.stage other) (Nat.le_refl _)
    fun store' call _ h => Nat.le_trans h (store'.stage_le_perform call other)

/-- What is deleted stays deleted. -/
theorem state?_after_of_tombstoned (h : store.state? segment = some .tombstoned)
    (calls : List AttributeCall) : (store.after calls).state? segment = some .tombstoned := by
  have h_le := store.stage_le_after calls segment
  rw [stage, h] at h_le
  exact AttributeStage.ofState_eq_tombstoned (AttributeStage.eq_tombstoned h_le)

/-- What is sealed stays as it was sealed until it is deleted. -/
theorem state?_after_of_sealed {attributes : AttributeMap}
    (h : store.state? segment = some (.sealed attributes))
    (h_calls : ⟨segment, .deleteAll⟩ ∉ calls) :
    (store.after calls).state? segment = some (.sealed attributes) := by
  refine after_induction (P := fun store => store.state? segment = some (.sealed attributes)) h ?_
  intro store call h_mem h_sealed
  rw [SegmentChange.state?_perform]
  split
  · next h_segment =>
    -- a deletion of this segment is not among the calls
    have h_change : call.change ≠ .deleteAll := by
      intro h_change
      apply h_calls
      rwa [← h_segment, ← h_change]
    rw [h_segment, h_sealed, SegmentChange.revised_of_sealed attributes h_change]
  · exact h_sealed

/-- Calls for other segments leave a segment's state as it is. -/
theorem state?_after_of_ne (store : AttributeStore) (h : ∀ call ∈ calls, call.segment ≠ other) :
    (store.after calls).state? other = store.state? other := by
  refine after_induction (P := fun store' => store'.state? other = store.state? other) rfl ?_
  intro store' call h_mem h_same
  rw [SegmentChange.state?_perform, if_neg (h call h_mem), h_same]

/-- How the attributes of segments live, from some moment on: `store` is the store at that moment,
and `calls` are any calls that are made then, one after another. -/
structure Lifecycle (store : AttributeStore) : Prop where
  /-- A segment is absent, then live, then sealed, then tombstoned, and never goes back. -/
  forward : ∀ calls segment, store.stage segment ≤ (store.after calls).stage segment
  /-- A tombstone is never left, and there are no attributes any more. -/
  tombstone : ∀ calls segment, store.state? segment = some .tombstoned →
    (store.after calls).state? segment = some .tombstoned ∧ (store.after calls).snapshot segment = ∅
  /-- Deletion leaves a tombstone, wherever the segment has come. -/
  deletion : ∀ segment, (store.deleteAll segment).state? segment = some .tombstoned
  /-- Sealing loses no attribute, and what is sealed stays as it was when it was sealed until it is
  deleted. -/
  sealing : ∀ calls segment, store.state? segment ≠ some .tombstoned →
    ⟨segment, .deleteAll⟩ ∉ calls →
    ((store.sealAll segment).after calls).state? segment = some (.sealed (store.snapshot segment)) ∧
      ((store.sealAll segment).after calls).snapshot segment = store.snapshot segment
  /-- Deltas are refused because of a seal exactly if the segment is sealed and there are some. -/
  segmentSealed : ∀ segment other deltas,
    store.apply segment deltas = .error (.segmentSealed other) ↔
      other = segment ∧ store.stage segment = .sealed ∧ deltas ≠ []
  /-- They are refused because of a tombstone exactly if there is one, even if there are none. -/
  segmentNotFound : ∀ segment other deltas,
    store.apply segment deltas = .error (.segmentNotFound other) ↔
      other = segment ∧ store.stage segment = .tombstoned
  /-- All other deltas are accepted. -/
  accepted : ∀ segment deltas, (∃ store', store.apply segment deltas = .ok store') ↔
    ¬ (store.stage segment = .sealed ∧ deltas ≠ []) ∧ store.stage segment ≠ .tombstoned
  /-- Made in place, a change leads to the same answer and the same store. -/
  inPlace : ∀ (change : SegmentChange) segment,
    change.performInPlace store segment = change.perform store segment
  /-- Refused deltas leave every segment as it is, even if they are applied in place. -/
  refused : ∀ segment deltas, (store.applyInPlace segment deltas).1 ≠ none →
    (store.applyInPlace segment deltas).2 = store
  /-- Calls for other segments change neither a segment's state nor its snapshot. -/
  others : ∀ calls other, (∀ call ∈ calls, call.segment ≠ other) →
    (store.after calls).state? other = store.state? other ∧
      (store.after calls).snapshot other = store.snapshot other

/-- Whatever a store has come to, all that is said of the life of attributes holds from there on. -/
theorem lifecycle (store : AttributeStore) : store.Lifecycle where
  forward calls segment := store.stage_le_after calls segment
  tombstone calls segment h := by
    have h_state := state?_after_of_tombstoned h calls
    exact ⟨h_state, snapshot_of_state? h_state⟩
  deletion segment := state?_put_self
  sealing calls segment h h_calls := by
    have h_state := state?_after_of_sealed (state?_sealAll h) h_calls
    exact ⟨h_state, snapshot_of_state? h_state⟩
  segmentSealed segment other deltas := apply_eq_error_segmentSealed
  segmentNotFound segment other deltas := apply_eq_error_segmentNotFound
  accepted segment deltas := exists_apply_eq_ok
  inPlace change segment := change.performInPlace_eq store segment
  refused segment deltas h := by
    have h_eq := (SegmentChange.apply deltas).performInPlace_eq store segment
    rw [SegmentChange.performInPlace, SegmentChange.perform] at h_eq
    cases h_apply : store.apply segment deltas with
    | error e => rw [h_eq, h_apply]
    | ok store' =>
      rw [h_eq, h_apply] at h
      exact absurd rfl h
  others calls other h := by
    have h_state := store.state?_after_of_ne h
    exact ⟨h_state, snapshot_congr h_state⟩

end AttributeStore

end OperationFeed
