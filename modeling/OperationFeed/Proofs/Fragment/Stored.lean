import OperationFeed.Proofs.Lasts
import OperationFeed.Proofs.Table
import OperationFeed.Fragment.Map

/-!
# What is read is stored

Fragments may overlap, be nested in one another, be empty or have been replaced: whatever is read of
them is right, byte for byte. A fragment *spans* a position if one of its bytes is there (`Spans`).

* `FragmentMap.walk_spans` says that each byte that a walk gives is the byte of a fragment that
  spans its position, and `FragmentMap.walk_take` that a shorter walk gives the beginning of what a
  longer one gives. `FragmentMap.read_spans` and `FragmentMap.read_take` say the same of a reading,
  whose first fragment may have started before the range;
* `FragmentMap.mem_ofInserts` says which fragments are there after any inserts: those that were
  inserted last at their offset.

`FragmentMap.read_ofInserts` is the account of a reading after any inserts.
-/

namespace OperationFeed

/-- A position lies in a fragment, which is given with the offset at which it starts. -/
def Spans (fragment : UInt64 × Bytes) (position : Nat) : Prop :=
  fragment.1.toNat ≤ position ∧ position < fragment.1.toNat + fragment.2.length

instance (fragment : UInt64 × Bytes) (position : Nat) : Decidable (Spans fragment position) :=
  inferInstanceAs (Decidable (_ ∧ _))

/-- The byte of a fragment at a position that lies in it. -/
def byteAt? (fragment : UInt64 × Bytes) (position : Nat) : Option UInt8 :=
  fragment.2[position - fragment.1.toNat]?

/-- A fragment spans the positions of its bytes. -/
theorem spans_add {start : UInt64} {data : Bytes} {i : Nat} (h : i < data.length) :
    Spans (start, data) (start.toNat + i) :=
  ⟨Nat.le_add_right .., Nat.add_lt_add_left h _⟩

/-- The byte at a position is found by its place in the fragment. -/
theorem byteAt?_add (start : UInt64) (data : Bytes) (i : Nat) :
    byteAt? (start, data) (start.toNat + i) = data[i]? := by
  rw [byteAt?, Nat.add_sub_cancel_left]

/-- A fragment that is cut at an offset in it ends where it did. -/
theorem add_length_drop {start offset : UInt64} {data : Bytes}
    (h : Spans (start, data) offset.toNat) :
    offset.toNat + (data.drop (offset.toNat - start.toNat)).length = start.toNat + data.length := by
  simp only [Spans, List.length_drop] at h ⊢
  omega

/-- And something is left of it. -/
theorem drop_ne_nil {start offset : UInt64} {data : Bytes} (h : Spans (start, data) offset.toNat) :
    data.drop (offset.toNat - start.toNat) ≠ [] := by
  rw [ne_eq, List.drop_eq_nil_iff, Nat.not_le]
  exact Nat.sub_lt_left_of_lt_add h.1 h.2

/-- It spans what is left. -/
theorem spans_drop {start offset : UInt64} {data : Bytes} {position : Nat}
    (h : Spans (start, data) offset.toNat) :
    Spans (offset, data.drop (offset.toNat - start.toNat)) position ↔
      offset.toNat ≤ position ∧ Spans (start, data) position := by
  simp only [Spans, List.length_drop] at h ⊢
  omega

/-- And it holds the bytes that were there. -/
theorem byteAt?_drop {start offset : UInt64} (data : Bytes) {position : Nat}
    (h_start : start.toNat ≤ offset.toNat) (h_position : offset.toNat ≤ position) :
    byteAt? (offset, data.drop (offset.toNat - start.toNat)) position =
      byteAt? (start, data) position := by
  simp only [byteAt?, List.getElem?_drop]
  congr 1
  omega

namespace FragmentMap

variable {m : FragmentMap} {entries : List (UInt64 × Bytes)} {current remaining shorter : Nat}
  {offset : UInt64} {length : Nat} {bytes : Bytes}

/-! ### The walk -/

/-- Each byte that a walk gives is that of a fragment on its way. -/
theorem walk_spans (h : walk entries current remaining = some bytes) :
    bytes.length = remaining ∧ ∀ i < remaining, ∃ fragment ∈ entries,
      Spans fragment (current + i) ∧ bytes[i]? = byteAt? fragment (current + i) := by
  -- by the cases of the walk, which has found something, so there is no gap on its way
  fun_induction walk entries current remaining generalizing bytes with
  | case1 entries current =>
    obtain rfl := Option.some.inj h
    exact ⟨rfl, fun i h_lt => absurd h_lt (Nat.not_lt_zero i)⟩
  | case2 current remaining => cases h
  | case3 start data rest current remaining h_passed ih =>
    obtain ⟨h_length, h_bytes⟩ := ih h
    refine ⟨h_length, fun i h_lt => ?_⟩
    obtain ⟨fragment, h_mem, h_found⟩ := h_bytes i h_lt
    exact ⟨fragment, List.mem_cons_of_mem _ h_mem, h_found⟩
  | case4 start data rest current remaining h_passed h_here h_fits =>
    obtain rfl := Option.some.inj h
    obtain ⟨rfl, h_nonempty⟩ := h_here
    refine ⟨List.length_take_of_le h_fits, fun i h_lt => ?_⟩
    refine ⟨(start, data), List.mem_cons_self .., spans_add (Nat.lt_of_lt_of_le h_lt h_fits), ?_⟩
    rw [byteAt?_add, List.getElem?_take_of_lt h_lt]
  | case5 start data rest current remaining h_passed h_here h_short ih =>
    obtain ⟨tail, h_tail, rfl⟩ := Option.map_eq_some_iff.mp h
    obtain ⟨rfl, h_nonempty⟩ := h_here
    obtain ⟨h_length, h_bytes⟩ := ih h_tail
    refine ⟨by rw [List.length_append, h_length]; omega, fun i h_lt => ?_⟩
    by_cases h_first : i < data.length
    · refine ⟨(start, data), List.mem_cons_self .., spans_add h_first, ?_⟩
      rw [byteAt?_add, List.getElem?_append_left h_first]
    · -- the byte comes from further on
      obtain ⟨fragment, h_mem, h_found⟩ := h_bytes (i - data.length) (by omega)
      refine ⟨fragment, List.mem_cons_of_mem _ h_mem, ?_⟩
      rw [List.getElem?_append_right (Nat.le_of_not_lt h_first)]
      rwa [show start.toNat + data.length + (i - data.length) = start.toNat + i by omega] at h_found
  | case6 start data rest current remaining h_passed h_gap => cases h

/-- A shorter walk gives the beginning of what a longer one gives. -/
theorem walk_take (h : walk entries current remaining = some bytes) (h_le : shorter ≤ remaining) :
    walk entries current shorter = some (bytes.take shorter) := by
  -- both walks go the same way, and the shorter one stops first
  fun_induction walk entries current remaining generalizing bytes shorter with
  | case1 entries current =>
    obtain rfl : shorter = 0 := Nat.le_zero.mp h_le
    rw [walk, List.take_zero]
  | case2 current remaining => cases h
  | case3 start data rest current remaining h_passed ih =>
    cases shorter with
    | zero => rw [walk, List.take_zero]
    | succ shorter =>
      rw [walk, if_pos h_passed]
      exact ih h h_le
  | case4 start data rest current remaining h_passed h_here h_fits =>
    obtain rfl := Option.some.inj h
    cases shorter with
    | zero => rw [walk, List.take_zero]
    | succ shorter =>
      rw [walk, if_neg h_passed, if_pos h_here, if_pos (Nat.le_trans h_le h_fits), List.take_take,
        Nat.min_eq_left h_le]
  | case5 start data rest current remaining h_passed h_here h_short ih =>
    obtain ⟨tail, h_tail, rfl⟩ := Option.map_eq_some_iff.mp h
    cases shorter with
    | zero => rw [walk, List.take_zero]
    | succ shorter =>
      rw [walk, if_neg h_passed, if_pos h_here]
      split
      · next h_fits => rw [List.take_append_of_le_length h_fits]
      · next h_longer =>
        rw [ih h_tail (by omega), Option.map_some, List.take_append,
          List.take_of_length_le (Nat.le_of_not_le h_longer)]
  | case6 start data rest current remaining h_passed h_gap => cases h

/-! ### Readings -/

/-- What a reading begins with is the end of the fragment at or below the offset. -/
theorem tailFrom?_eq_some_iff : m.tailFrom? offset = some bytes ↔
    ∃ start data, m.fragments.floor? offset = some (start, data) ∧
      Spans (start, data) offset.toNat ∧ start.toNat + data.length < offsetLimit ∧
      bytes = data.drop (offset.toNat - start.toNat) := by
  rw [tailFrom?]
  cases h_floor : m.fragments.floor? offset with
  | none => simp
  | some entry =>
    obtain ⟨start, data⟩ := entry
    have h_start : start.toNat ≤ offset.toNat := (Table.floor?_spec h_floor).1.2
    simp only [Option.bind_eq_bind, Option.bind_some, Option.ite_none_right_eq_some,
      Option.some.injEq, Prod.mk.injEq, Spans]
    constructor
    · rintro ⟨⟨h_end, h_room⟩, rfl⟩
      exact ⟨start, data, ⟨rfl, rfl⟩, ⟨h_start, h_end⟩, h_room, rfl⟩
    · rintro ⟨_, _, ⟨rfl, rfl⟩, ⟨_, h_end⟩, h_room, rfl⟩
      exact ⟨⟨h_end, h_room⟩, rfl⟩

/-- A reading is a walk, with the tail of its first fragment put before those above the offset. -/
theorem read_eq_some_iff : m.read offset length = some bytes ↔
    ∃ tail, m.tailFrom? offset = some tail ∧
      walk ((offset, tail) :: m.fragments.above offset) offset.toNat length = some bytes := by
  rw [read, Option.bind_eq_bind, Option.bind_eq_some_iff]

/-- Each byte that is read is that of a stored fragment. -/
theorem read_spans (h : m.read offset length = some bytes) :
    bytes.length = length ∧ ∀ i < length, ∃ fragment ∈ m.fragments.entries,
      Spans fragment (offset.toNat + i) ∧ bytes[i]? = byteAt? fragment (offset.toNat + i) := by
  obtain ⟨tail, h_tail, h_walk⟩ := read_eq_some_iff.mp h
  obtain ⟨start, data, h_floor, h_spans, h_room, rfl⟩ := tailFrom?_eq_some_iff.mp h_tail
  obtain ⟨h_length, h_bytes⟩ := walk_spans h_walk
  refine ⟨h_length, fun i h_lt => ?_⟩
  -- the walk found the byte in the tail or above the offset
  obtain ⟨fragment, h_mem, h_fragment, h_byte⟩ := h_bytes i h_lt
  rcases List.mem_cons.mp h_mem with rfl | h_mem
  · -- the first fragment, which was cut at the offset
    refine ⟨(start, data), (Table.floor?_spec h_floor).1.1,
      ((spans_drop h_spans).mp h_fragment).2, ?_⟩
    rw [h_byte, byteAt?_drop data h_spans.1 (Nat.le_add_right ..)]
  · exact ⟨fragment, (List.mem_filter.mp h_mem).1, h_fragment, h_byte⟩

/-- A shorter reading gives the beginning of what a longer one gives. -/
theorem read_take (h : m.read offset length = some bytes) (h_le : shorter ≤ length) :
    m.read offset shorter = some (bytes.take shorter) := by
  obtain ⟨tail, h_tail, h_walk⟩ := read_eq_some_iff.mp h
  exact read_eq_some_iff.mpr ⟨tail, h_tail, walk_take h_walk h_le⟩

/-! ### Inserts -/

/-- The fragments after inserts, one after another. -/
def ofInserts (inserts : List (UInt64 × Bytes)) : FragmentMap :=
  inserts.foldl (fun m fragment => m.insert fragment.1 fragment.2) ∅

/-- A fragment was inserted, and none at its offset after it. -/
def IsLastInsert (inserts : List (UInt64 × Bytes)) (fragment : UInt64 × Bytes) : Prop :=
  ∃ before after, inserts = before ++ fragment :: after ∧ ∀ later ∈ after, later.1 ≠ fragment.1

/-- An insert puts one fragment in, in the place of the one at its offset. -/
theorem mem_insert {fragment : UInt64 × Bytes} {start : UInt64} {data : Bytes} :
    fragment ∈ (m.insert start data).fragments.entries ↔
      fragment = (start, data) ∨ fragment.1 ≠ start ∧ fragment ∈ m.fragments.entries := by
  obtain ⟨offset, bytes⟩ := fragment
  rw [← Table.get?_eq_some_iff, ← Table.get?_eq_some_iff, insert, Table.get?_insert]
  by_cases h : start = offset
  · subst h
    simp [eq_comm]
  · have h_ne : offset ≠ start := Ne.symm h
    rw [if_neg (mt rank_inj.mp h)]
    simp [h_ne]

/-- The newest insert is the last at its offset, and leaves the others what they were. -/
theorem isLastInsert_concat {inserts : List (UInt64 × Bytes)} {fragment last : UInt64 × Bytes} :
    IsLastInsert (inserts ++ [last]) fragment ↔
      fragment = last ∨ fragment.1 ≠ last.1 ∧ IsLastInsert inserts fragment := by
  rw [ne_comm]
  exact lasts_concat

/-- The fragments that are there are those that were inserted last at their offset. -/
theorem mem_ofInserts {inserts : List (UInt64 × Bytes)} {fragment : UInt64 × Bytes} :
    fragment ∈ (ofInserts inserts).fragments.entries ↔ IsLastInsert inserts fragment := by
  induction inserts using List.reverseRecOn with
  | nil => exact iff_of_false List.not_mem_nil not_lasts_nil
  | append_singleton inserts last ih =>
    have h_last : ofInserts (inserts ++ [last]) = (ofInserts inserts).insert last.1 last.2 := by
      rw [ofInserts, List.foldl_append]
      rfl
    rw [h_last, mem_insert, isLastInsert_concat, ih]

/-- Whatever was inserted, in whatever order: a reading that succeeds gives as many bytes as were
asked for, each of them that of a fragment that is there and spans its position, and every shorter
reading from the same offset gives the beginning of it. -/
theorem read_ofInserts {inserts : List (UInt64 × Bytes)}
    (h : (ofInserts inserts).read offset length = some bytes) :
    bytes.length = length ∧
      (∀ i < length, ∃ fragment, IsLastInsert inserts fragment ∧
        Spans fragment (offset.toNat + i) ∧ bytes[i]? = byteAt? fragment (offset.toNat + i)) ∧
      ∀ shorter ≤ length, (ofInserts inserts).read offset shorter = some (bytes.take shorter) := by
  obtain ⟨h_length, h_bytes⟩ := read_spans h
  refine ⟨h_length, fun i h_lt => ?_, fun shorter h_le => read_take h h_le⟩
  obtain ⟨fragment, h_mem, h_found⟩ := h_bytes i h_lt
  exact ⟨fragment, mem_ofInserts.mp h_mem, h_found⟩

/-- Inserts of which the second lies within the first, the fourth replaces the third, the fifth is
empty, and the last runs past the last offset. -/
def patchwork : List (UInt64 × Bytes) :=
  [(0, [1, 2, 3, 4]), (2, [9]), (4, [5]), (4, [6, 7]), (6, []), (0xFFFFFFFFFFFFFFFF, [8, 8])]

/-- A reading across the nested fragment, which is not seen, and the one that was replaced. -/
theorem read_ofInserts_patchwork :
    (ofInserts patchwork).read 1 4 = some [2, 3, 4, 6] ∧
      (∀ i < 4, ∃ fragment, IsLastInsert patchwork fragment ∧
        Spans fragment (1 + i) ∧ [2, 3, 4, 6][i]? = byteAt? fragment (1 + i)) ∧
      ∀ shorter ≤ 4, (ofInserts patchwork).read 1 shorter = some ([2, 3, 4, 6].take shorter) := by
  have h : (ofInserts patchwork).read 1 4 = some [2, 3, 4, 6] := by decide
  exact ⟨h, (read_ofInserts h).2⟩

end FragmentMap

end OperationFeed
