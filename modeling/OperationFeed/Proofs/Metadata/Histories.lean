import Mathlib.Data.Set.Card
import OperationFeed.Proofs.Lasts
import OperationFeed.Proofs.Metadata

/-!
# Truncation points and markers in view of the history

What a container remembers of its cuts can be told without it, from the calls that were made. A
number is a truncation point if it was set as one and no removal since then has reached it
(`IsSetPoint`). A marker is the last one that was recorded for its number, provided that no removal
since then has reached it either (`IsLastMarker`). The two kinds of calls have nothing to do with
each other, and the order in which numbers come is of no account.

* `MetadataStore.isPoint_after` and `MetadataStore.marker?_after` say that a store
  remembers just that;
* `MetadataStore.closestPoint?_mono` and `MetadataStore.closestPoint?_of_isPoint` say how the
  closest point moves with the number that is asked about;
* `MetadataStore.after_remembers` puts together what a store answers after any calls.

All who make calls on a store make them on the same one, so it does not matter who made which.
-/

namespace OperationFeed

/-- A call that gives out a number, or changes what is remembered of cuts. -/
inductive MarkingCall where
  -- Give out the next sequence number.
  | next
  -- Record the log position of a sequence number.
  | recordMarker (number : SequenceNumber) (address : LogAddress)
  -- Allow the log to be cut at a number.
  | setPoint (number : SequenceNumber)
  -- Forget the markers and truncation points up to a number.
  | removeMarkers (upTo : SequenceNumber)
deriving DecidableEq

namespace MarkingCall

/-- A removal that reaches a number. -/
def Removes (number : SequenceNumber) : MarkingCall → Prop
  | removeMarkers upTo => number ≤ upTo
  | next | recordMarker .. | setPoint _ => False

/-- A call after which an earlier marker of a number is not the one that counts. -/
def Supersedes (number : SequenceNumber) : MarkingCall → Prop
  | recordMarker number' _ => number' = number
  | removeMarkers upTo => number ≤ upTo
  | next | setPoint _ => False

end MarkingCall

/-- A number was set as a truncation point, and no removal has reached it since. -/
def IsSetPoint (calls : List MarkingCall) (number : SequenceNumber) : Prop :=
  Lasts (MarkingCall.Removes number) (.setPoint number) calls

/-- A position was recorded for a number, and since then neither was another one recorded for it nor
has a removal reached it. -/
def IsLastMarker (calls : List MarkingCall) (number : SequenceNumber) (address : LogAddress) :
    Prop :=
  Lasts (MarkingCall.Supersedes number) (.recordMarker number address) calls

section History

variable {calls : List MarkingCall} {call : MarkingCall} {number : SequenceNumber}
  {address : LogAddress}

/-- After one more call, a point is one that the call sets, or an earlier one that it leaves. -/
theorem isSetPoint_concat : IsSetPoint (calls ++ [call]) number ↔
    call = .setPoint number ∨ ¬ call.Removes number ∧ IsSetPoint calls number := by
  rw [IsSetPoint, lasts_concat, IsSetPoint, eq_comm]

/-- After one more call, a marker is the one it records, or an earlier one that it leaves. -/
theorem isLastMarker_concat : IsLastMarker (calls ++ [call]) number address ↔
    call = .recordMarker number address ∨
      ¬ call.Supersedes number ∧ IsLastMarker calls number address := by
  rw [IsLastMarker, lasts_concat, IsLastMarker, eq_comm]

end History

/-- A table has as many entries as there are keys with a value. -/
theorem Table.size_eq_ncard {κ ν : Type} [Ranked κ] (t : Table κ ν) :
    t.size = {k | ∃ v, t.get? k = some v}.ncard := by
  classical
  -- the keys are sorted, so no key has two entries
  have h_distinct : (t.entries.map (·.1)).Nodup := by
    rw [List.Nodup, List.pairwise_map]
    refine t.sorted.imp fun h_lt h_eq => ?_
    rw [h_eq] at h_lt
    exact Nat.lt_irrefl _ h_lt
  have h_keys : {k | ∃ v, t.get? k = some v} = ((t.entries.map (·.1)).toFinset : Set κ) := by
    ext k
    simp [get?_eq_some_iff]
  rw [h_keys, Set.ncard_coe_finset, List.toFinset_card_of_nodup h_distinct, List.length_map, size]

namespace MetadataStore

variable {store : MetadataStore} {container : ContainerId} {calls : List MarkingCall}
  {call : MarkingCall} {number number' closest : SequenceNumber} {address : LogAddress}

/-! ### The closest truncation point -/

/-- A truncation point is the closest one to itself. -/
theorem closestPoint?_of_isPoint (h : store.isPoint number = true) :
    store.closestPoint? number = some number :=
  closestPoint?_eq_some_iff.mpr ⟨⟨h, UInt64.le_refl _⟩, fun _ _ h_le => h_le⟩

/-- Further up there is a truncation point too, and it is no smaller. -/
theorem closestPoint?_mono (h_le : number ≤ number')
    (h : store.closestPoint? number = some closest) :
    ∃ closest', store.closestPoint? number' = some closest' ∧ closest ≤ closest' := by
  obtain ⟨⟨h_point, h_closest⟩, -⟩ := closestPoint?_eq_some_iff.mp h
  have h_below : closest ≤ number' := UInt64.le_trans h_closest h_le
  -- the point below the smaller number is below the greater one too
  cases h_above : store.closestPoint? number' with
  | none =>
    have h_lt := closestPoint?_eq_none_iff.mp h_above closest h_point
    exact absurd h_below (UInt64.not_le.mpr h_lt)
  | some closest' =>
    obtain ⟨-, h_greatest⟩ := closestPoint?_eq_some_iff.mp h_above
    exact ⟨closest', rfl, h_greatest closest h_point h_below⟩

/-! ### The store after calls -/

/-- What a call makes of a store. -/
def perform (store : MetadataStore) : MarkingCall → MetadataStore
  | .next => store.next.2
  | .recordMarker number address => store.recordMarker number address
  | .setPoint number => store.setPoint number
  | .removeMarkers upTo => store.removeMarkers upTo

/-- The store after calls, one after another. -/
def after (store : MetadataStore) (calls : List MarkingCall) : MetadataStore :=
  calls.foldl perform store

theorem after_concat (store : MetadataStore) (calls : List MarkingCall) (call : MarkingCall) :
    store.after (calls ++ [call]) = (store.after calls).perform call :=
  List.foldl_append

/-- A call sets a point, removes points, or leaves them. -/
theorem isPoint_perform : (store.perform call).isPoint number = true ↔
    call = .setPoint number ∨ ¬ call.Removes number ∧ store.isPoint number = true := by
  cases call with
  | next => simp [MarkingCall.Removes, perform, next, isPoint]
  | recordMarker other address => simp [MarkingCall.Removes, perform, recordMarker, isPoint]
  | setPoint other => simp [MarkingCall.Removes, perform, isPoint_setPoint]
  | removeMarkers upTo => simp [MarkingCall.Removes, perform, isPoint_removeMarkers]

/-- A call records a marker, removes markers, or leaves them. -/
theorem marker?_perform : (store.perform call).marker? number = some address ↔
    call = .recordMarker number address ∨
      ¬ call.Supersedes number ∧ store.marker? number = some address := by
  cases call with
  | next => simp [MarkingCall.Supersedes, perform, next, marker?]
  | recordMarker other address' =>
    rw [perform, marker?_recordMarker]
    by_cases h : other = number <;> simp [MarkingCall.Supersedes, h]
  | setPoint other => simp [MarkingCall.Supersedes, perform, setPoint, marker?]
  | removeMarkers upTo =>
    rw [perform, marker?_removeMarkers]
    -- a removal leaves the markers above its number, and those are not superseded
    by_cases h : upTo < number
    · simp [MarkingCall.Supersedes, h]
    · simp [MarkingCall.Supersedes, h, UInt64.not_lt.mp h]

/-- The truncation points are the numbers that were set and not removed since. -/
theorem isPoint_after : ((fresh container).after calls).isPoint number = true ↔
    IsSetPoint calls number := by
  -- by the last call: what it does to a point is what it does to the history
  induction calls using List.reverseRecOn with
  | nil => exact iff_of_false Bool.false_ne_true not_lasts_nil
  | append_singleton calls call ih =>
    rw [after_concat, isPoint_perform, isSetPoint_concat, ih]

/-- The markers are those that were recorded last for their numbers, and not removed since. -/
theorem marker?_after : ((fresh container).after calls).marker? number = some address ↔
    IsLastMarker calls number address := by
  induction calls using List.reverseRecOn with
  | nil => exact iff_of_false (Option.not_mem_none address) not_lasts_nil
  | append_singleton calls call ih =>
    rw [after_concat, marker?_perform, isLastMarker_concat, ih]

/-- Segments are left alone. -/
theorem segments_after (store : MetadataStore) (calls : List MarkingCall) :
    (store.after calls).segments = store.segments := by
  induction calls using List.reverseRecOn with
  | nil => rfl
  | append_singleton calls call ih =>
    rw [after_concat, ← ih]
    cases call <;> rfl

/-- The counter goes up with every number that is given out, and stays where it is otherwise. -/
theorem current_after (store : MetadataStore) (calls : List MarkingCall) :
    (store.after calls).current = store.current + .ofNat (calls.count .next) := by
  induction calls using List.reverseRecOn with
  | nil => exact (UInt64.add_zero _).symm
  | append_singleton calls call ih =>
    rw [after_concat, List.count_append, List.count_singleton]
    cases call with
    -- only giving out a number moves the counter
    | next =>
      rw [if_pos (beq_self_eq_true _), UInt64.ofNat_add, ← UInt64.add_assoc, ← ih]
      rfl
    | _ => exact ih

/-- What a store remembers of its cuts after some calls, and that the calls change nothing else but
the counter. -/
structure Remembers (store : MetadataStore) (calls : List MarkingCall) : Prop where
  /-- The truncation points are the numbers that were set after the last removal
  that reached them. -/
  points : ∀ number, store.isPoint number = true ↔ IsSetPoint calls number
  /-- A marker is the last one recorded for its number after the last removal that reached it. -/
  markers :
    ∀ number address, store.marker? number = some address ↔ IsLastMarker calls number address
  /-- Without such a record there is no marker. -/
  unmarked : ∀ number, store.marker? number = none ↔ ∀ address, ¬ IsLastMarker calls number address
  /-- The closest truncation point is the greatest one up to a number. -/
  closest : ∀ number closest, store.closestPoint? number = some closest ↔
    (IsSetPoint calls closest ∧ closest ≤ number) ∧
      ∀ other, IsSetPoint calls other → other ≤ number → other ≤ closest
  /-- There is none exactly if all truncation points are above the number. -/
  closestNone : ∀ number, store.closestPoint? number = none ↔
    ∀ other, IsSetPoint calls other → number < other
  /-- For a greater number it is no smaller. -/
  closestMono : ∀ number number' closest, number ≤ number' →
    store.closestPoint? number = some closest →
      ∃ closest', store.closestPoint? number' = some closest' ∧ closest ≤ closest'
  /-- For a truncation point it is that point. -/
  closestSelf : ∀ number, IsSetPoint calls number → store.closestPoint? number = some number
  /-- As many markers are counted as there are numbers with one. -/
  counted : store.markerCount = {number | ∃ address, IsLastMarker calls number address}.ncard
  /-- From whatever state of knowledge the calls are made, the segments stay as they are. -/
  segments : ∀ start : MetadataStore, (start.after calls).segments = start.segments
  /-- The counter changes with the numbers that are given out, and with no other call. -/
  counter : ∀ start : MetadataStore,
    (start.after calls).current = start.current + .ofNat (calls.count .next)

/-- After any calls a container remembers of its cuts what the calls say. -/
theorem after_remembers (container : ContainerId) (calls : List MarkingCall) :
    ((fresh container).after calls).Remembers calls where
  points _ := isPoint_after
  markers _ _ := marker?_after
  unmarked number := by
    rw [Option.eq_none_iff_forall_ne_some]
    exact forall_congr' fun address => not_congr marker?_after
  closest number closest := by
    simp only [closestPoint?_eq_some_iff, isPoint_after]
  closestNone number := by
    simp only [closestPoint?_eq_none_iff, isPoint_after]
  closestMono _ _ _ := closestPoint?_mono
  closestSelf _ h := closestPoint?_of_isPoint (isPoint_after.mpr h)
  counted := by
    rw [markerCount, Table.size_eq_ncard]
    exact congrArg Set.ncard (Set.ext fun number => exists_congr fun address => marker?_after)
  segments start := start.segments_after calls
  counter start := start.current_after calls

/-- Points may be set out of order, and again after they were removed. -/
example :
    let store :=
      (fresh 1).after [.setPoint 7, .setPoint 3, .removeMarkers 7, .setPoint 5, .setPoint 3]
    store.closestPoint? 4 = some 3 ∧ store.closestPoint? 9 = some 5 ∧ store.isPoint 7 = false := by
  decide

end MetadataStore

end OperationFeed
