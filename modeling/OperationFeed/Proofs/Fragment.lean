import OperationFeed.Fragment.Store
import OperationFeed.Proofs.Table

/-!
# Fragments that tile a range

A stream of bytes that is recorded chunk by chunk leaves fragments of which each begins where the
one before it ends. Such fragments *tile* the range of the stream (`Tiles`), and what is read of a
tiled range is what was recorded there:

* `Tiles.insertEntry` says that one more chunk at the end of the range extends the tiling. An empty
  chunk leaves an empty fragment at the end, which the next chunk replaces, so at most the last
  fragment is ever empty;
* `Tiles.walk_eq` says that the walk through tiles gives their bytes;
* `FragmentMap.read_of_tiles` puts the first fragment, which may begin before the range that is
  asked for, before the walk through the others.

A store *holds* a run of bytes of a segment if the fragments of the segment tile it
(`FragmentStore.Holds`).
-/

namespace OperationFeed

/-- Fragments that follow one another from an offset on, and the bytes that they hold together. -/
inductive Tiles : Nat → List (UInt64 × Bytes) → Bytes → Prop
  | nil (offset : Nat) : Tiles offset [] []
  -- An empty fragment is the last one.
  | emptyEnd {offset : Nat} {start : UInt64} (begins : start.toNat = offset) :
      Tiles offset [(start, [])] []
  | cons {offset : Nat} {start : UInt64} {data bytes : Bytes} {rest : List (UInt64 × Bytes)}
      (begins : start.toNat = offset) (nonempty : data ≠ [])
      (tiles : Tiles (offset + data.length) rest bytes) :
      Tiles offset ((start, data) :: rest) (data ++ bytes)

namespace Tiles

variable {offset length : Nat} {entries : List (UInt64 × Bytes)} {bytes : Bytes}

/-- One fragment tiles its own range, be it empty or not. -/
theorem single {start : UInt64} (begins : start.toNat = offset) (data : Bytes) :
    Tiles offset [(start, data)] data := by
  by_cases h_data : data = []
  · rw [h_data]
    exact .emptyEnd begins
  · have h := Tiles.cons begins h_data (.nil _)
    rwa [List.append_nil] at h

/-- No tile begins before the first one. -/
theorem le_start (h : Tiles offset entries bytes) : ∀ e ∈ entries, offset ≤ e.1.toNat := by
  induction h with
  | nil offset => exact nofun
  | emptyEnd begins =>
    intro e h_mem
    rw [List.mem_singleton.mp h_mem]
    exact Nat.le_of_eq begins.symm
  | cons begins nonempty tiles ih =>
    intro e h_mem
    rcases List.mem_cons.mp h_mem with rfl | h_mem
    · exact Nat.le_of_eq begins.symm
    · exact Nat.le_trans (Nat.le_add_right _ _) (ih e h_mem)

/-- A chunk that is recorded at the end of the tiles is the last tile, in place of an empty one. -/
theorem insertEntry (h : Tiles offset entries bytes) {stop : UInt64}
    (h_stop : stop.toNat = offset + bytes.length) (data : Bytes) :
    Tiles offset (Table.insertEntry stop data entries) (bytes ++ data) := by
  -- along the tiles: the chunk goes past each of them that has bytes in it
  induction h with
  | nil offset => exact single h_stop data
  | @emptyEnd offset start begins =>
    -- the empty tile starts at the end of the range, so the chunk takes its place
    have h_eq : rank stop = rank start := by
      show stop.toNat = start.toNat
      rw [h_stop, begins, List.length_nil, Nat.add_zero]
    rw [Table.insertEntry, if_neg (Nat.not_lt.mpr (Nat.le_of_eq h_eq.symm)), if_pos h_eq]
    exact single h_stop data
  | @cons offset start first bytes rest begins nonempty tiles ih =>
    -- the end lies behind a tile with bytes in it
    have h_first : 0 < first.length := List.length_pos_iff.mpr nonempty
    rw [List.length_append] at h_stop
    have h_lt : rank start < rank stop := by
      show start.toNat < stop.toNat
      omega
    rw [Table.insertEntry, if_neg (Nat.not_lt.mpr (Nat.le_of_lt h_lt)),
      if_neg (Nat.ne_of_gt h_lt), List.append_assoc]
    exact .cons begins nonempty (ih (by omega))

/-- The walk through tiles gives their bytes. -/
theorem walk_eq (h : Tiles offset entries bytes) (h_length : length ≤ bytes.length) :
    FragmentMap.walk entries offset length = some (bytes.take length) := by
  induction h generalizing length with
  | nil offset =>
    obtain rfl : length = 0 := Nat.le_zero.mp h_length
    rfl
  | emptyEnd begins =>
    obtain rfl : length = 0 := Nat.le_zero.mp h_length
    rfl
  | @cons offset start data bytes rest begins nonempty tiles ih =>
    cases length with
    | zero => rw [FragmentMap.walk, List.take_zero]
    | succ length =>
      rw [FragmentMap.walk, if_neg (by omega), if_pos ⟨begins, nonempty⟩]
      -- the first tile has all that is asked for, or all of it is taken and the others
      -- give the rest
      by_cases h_fits : length + 1 ≤ data.length
      · rw [if_pos h_fits, List.take_append_of_le_length h_fits]
      · rw [List.length_append] at h_length
        rw [if_neg h_fits, ih (by omega), Option.map_some, List.take_append,
          List.take_of_length_le (Nat.le_of_not_le h_fits)]

/-- A position in the range of the tiles lies in one of them, and the tiles after that one hold the
bytes after its own. -/
theorem split (h : Tiles offset entries bytes) {position : Nat} (h_low : offset ≤ position)
    (h_high : position < offset + bytes.length) :
    ∃ before start data after rest, entries = before ++ (start, data) :: after ∧
      start.toNat ≤ position ∧ position < start.toNat + data.length ∧
      Tiles (start.toNat + data.length) after rest ∧
      bytes.drop (position - offset) = data.drop (position - start.toNat) ++ rest := by
  induction h with
  | nil offset => exact absurd h_low (Nat.not_le.mpr h_high)
  | emptyEnd begins => exact absurd h_low (Nat.not_le.mpr h_high)
  | @cons offset start data bytes rest begins nonempty tiles ih =>
    rw [List.length_append] at h_high
    by_cases h_first : position < offset + data.length
    -- the position is in the first tile
    · refine ⟨[], start, data, rest, bytes, rfl, by omega, by omega,
        by rw [begins]; exact tiles, ?_⟩
      rw [begins, List.drop_append_of_le_length (by omega)]
    · -- the position is behind the first tile
      obtain ⟨before, start', data', after, rest', h_entries, h_start, h_end, h_tiles, h_drop⟩ :=
        ih (Nat.le_of_not_lt h_first) (by omega)
      refine ⟨(start, data) :: before, start', data', after, rest', by rw [h_entries]; rfl, h_start,
        h_end, h_tiles, ?_⟩
      rw [← h_drop, List.drop_append, List.drop_of_length_le (by omega), List.nil_append]
      congr 1
      omega

end Tiles

/-! ### Reading -/

namespace FragmentMap

variable {m : FragmentMap} {base : Nat} {bytes : Bytes} {offset : UInt64} {length : Nat}

/-- What is read from tiles, beginning anywhere in them and ending with them at the latest, is what
they hold there. -/
theorem read_of_tiles (h : Tiles base m.fragments.entries bytes)
    (h_room : base + bytes.length < offsetLimit) (h_low : base ≤ offset.toNat)
    (h_begin : offset.toNat < base + bytes.length)
    (h_end : offset.toNat + length ≤ base + bytes.length) :
    m.read offset length = some ((bytes.drop (offset.toNat - base)).take length) := by
  obtain ⟨before, start, data, after, rest, h_entries, h_start, h_data, h_tiles, h_drop⟩ :=
    h.split h_low h_begin
  -- the tile of the position is the floor of the offset, and those behind it are above
  have h_after : ∀ e ∈ after, rank offset < rank e.1 :=
    fun e h_mem => Nat.lt_of_lt_of_le h_data (h_tiles.le_start e h_mem)
  have h_floor : m.fragments.floor? offset = some (start, data) :=
    Table.floor?_of_split h_entries h_start h_after
  have h_above : m.fragments.above offset = after := Table.above_of_split h_entries h_start h_after
  -- the first tile, cut at the offset, is a tile that begins there
  have h_cut : Tiles offset.toNat ((offset, data.drop (offset.toNat - start.toNat)) :: after)
      (bytes.drop (offset.toNat - base)) := by
    rw [h_drop]
    refine .cons rfl ?_ ?_
    · rw [ne_eq, List.drop_eq_nil_iff]
      omega
    · rw [List.length_drop]
      rwa [show offset.toNat + (data.length - (offset.toNat - start.toNat)) =
        start.toNat + data.length by omega]
  -- the tile ends within the range of the tiles, which ends before the last offset
  have h_last : start.toNat + data.length < offsetLimit := by
    have h_counted := congrArg List.length h_drop
    rw [List.length_append, List.length_drop, List.length_drop] at h_counted
    omega
  rw [FragmentMap.read, tailFrom?, h_floor]
  simp only [Option.bind_eq_bind, Option.bind_some]
  rw [if_pos ⟨h_data, h_last⟩, Option.bind_some, h_above]
  apply h_cut.walk_eq
  rw [List.length_drop]
  omega

end FragmentMap

/-! ### All segments -/

namespace FragmentStore

variable {store : FragmentStore} {segment other : SegmentId} {base : Nat} {bytes : Bytes}
  {offset : UInt64} {length : Nat}

/-- What the store has of a segment are the bytes of a range, from an offset on. -/
def Holds (store : FragmentStore) (segment : SegmentId) (base : Nat) (bytes : Bytes) : Prop :=
  Tiles base ((store.segment? segment).getD ∅).fragments.entries bytes

/-- Without a fragment of the segment, the range is empty. -/
theorem holds_nil (h : ((store.segment? segment).getD ∅).isEmpty = true) (base : Nat) :
    store.Holds segment base [] := by
  rw [FragmentMap.isEmpty, Table.isEmpty, List.isEmpty_iff] at h
  rw [Holds, h]
  exact .nil base

/-- A chunk that is recorded at the end of what the store holds extends it. -/
theorem Holds.record (h : store.Holds segment base bytes)
    (h_offset : offset.toNat = base + bytes.length) (data : Bytes) :
    (store.record segment offset data).Holds segment base (bytes ++ data) := by
  rw [Holds, segment?, FragmentStore.record, Table.get?_insert, if_pos rfl, Option.getD_some]
  exact Tiles.insertEntry h h_offset data

/-- Recording for one segment leaves the others alone. -/
theorem segment?_record_of_ne (h : other ≠ segment) (offset : UInt64) (data : Bytes) :
    (store.record other offset data).segment? segment = store.segment? segment := by
  rw [segment?, FragmentStore.record, Table.get?_insert, if_neg (mt rank_inj.mp h), segment?]

/-- What is read of a range in the store is what the store holds of it. -/
theorem Holds.read (h : store.Holds segment base bytes)
    (h_room : base + bytes.length < offsetLimit) (h_low : base ≤ offset.toNat)
    (h_begin : offset.toNat < base + bytes.length)
    (h_end : offset.toNat + length ≤ base + bytes.length) :
    store.read segment offset length = some ((bytes.drop (offset.toNat - base)).take length) := by
  unfold FragmentStore.read
  unfold Holds at h
  cases h_segment : store.segment? segment with
  | none =>
    -- nothing is there, and a range without bytes has no position in it
    rw [h_segment] at h
    have h_bytes : bytes = [] := by cases h; rfl
    rw [h_bytes] at h_begin
    exact absurd h_low (Nat.not_le.mpr h_begin)
  | some kept =>
    rw [h_segment] at h
    exact FragmentMap.read_of_tiles h h_room h_low h_begin h_end

end FragmentStore

end OperationFeed
