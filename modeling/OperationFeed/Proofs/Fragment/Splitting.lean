import OperationFeed.Proofs.Fragment.Coverage

/-!
# Splitting a reading

A range of scattered fragments can be read at once or in two parts, one behind the other, wherever
it is split. What is read is the same (`FragmentMap.Scattered.eq_drop_of_read`), and with one
exception the two parts can be read exactly if the whole can.

The exception is a fragment that reaches past the last offset. A reading does not begin in such a
fragment, but one that has begun before it goes on into it. So the whole range can be read, and its
second part cannot, if it is split in such a fragment (`FragmentMap.overhanging_read_only_at_once`).
`FragmentMap.Scattered.read_add_iff` is the law with that exception.
-/

namespace OperationFeed

/-- Below the limit, offsets add up as numbers do. -/
theorem toNat_add_ofNat {offset : UInt64} {count : Nat} (h : offset.toNat + count < offsetLimit) :
    (offset + UInt64.ofNat count).toNat = offset.toNat + count :=
  toNat_of_offsetAfter? (if_pos h)

namespace FragmentMap

namespace Scattered

variable {m : FragmentMap} {offset later : UInt64} {first second : Nat} {bytes front back : Bytes}

/-- A reading that begins further on and ends at the same position gives the end of the bytes. -/
theorem eq_drop_of_read (h : m.Scattered) (h_later : later.toNat = offset.toNat + first)
    (h_read : m.read offset (first + second) = some bytes)
    (h_back : m.read later second = some back) : back = bytes.drop first := by
  obtain ⟨h_length, h_bytes⟩ := read_spans h_read
  obtain ⟨h_second, h_back⟩ := read_spans h_back
  apply List.ext_getElem?
  intro i
  rw [List.getElem?_drop]
  by_cases h_lt : i < second
  · -- both have the byte of the one fragment that spans the position
    obtain ⟨fragment, h_mem, h_spans, h_byte⟩ := h_back i h_lt
    obtain ⟨other, h_other, h_spans', h_byte'⟩ := h_bytes (first + i) (Nat.add_lt_add_left h_lt _)
    rw [h_later, Nat.add_assoc] at h_spans h_byte
    obtain rfl := h.disjoint fragment h_mem other h_other _ h_spans h_spans'
    rw [h_byte, h_byte']
  · rw [List.getElem?_eq_none (by omega), List.getElem?_eq_none (by omega)]

/-- A reading that succeeds can be split wherever no fragment reaches past the last offset. -/
theorem read_parts (h : m.Scattered) (h_second : 1 ≤ second)
    (h_later : later.toNat = offset.toNat + first)
    (h_read : m.read offset (first + second) = some bytes)
    (h_room : ∀ fragment ∈ m.fragments.entries, Spans fragment later.toNat →
      fragment.1.toNat + fragment.2.length < offsetLimit) :
    m.read offset first = some (bytes.take first) ∧
      m.read later second = some (bytes.drop first) := by
  refine ⟨read_take h_read (Nat.le_add_right ..), ?_⟩
  -- every position of the second part was read with the whole
  obtain ⟨back, h_back⟩ : ∃ back, m.read later second = some back := by
    refine h.exists_read h_second (fun position h_low h_high => ?_) h_room
    exact covers_of_read h_read (by omega) (by omega)
  rw [h_back, h.eq_drop_of_read h_later h_read h_back]

/-- Two readings, of which the second begins where the first ends, make one. -/
theorem read_add (h : m.Scattered) (h_first : 1 ≤ first)
    (h_later : later.toNat = offset.toNat + first)
    (h_front : m.read offset first = some front) (h_back : m.read later second = some back) :
    m.read offset (first + second) = some (front ++ back) := by
  -- every position of the whole was read with one of the parts
  obtain ⟨bytes, h_read⟩ : ∃ bytes, m.read offset (first + second) = some bytes := by
    refine h.exists_read (by omega) (fun position h_low h_high => ?_) ?_
    · by_cases h_lt : position < offset.toNat + first
      · exact covers_of_read h_front h_low h_lt
      · exact covers_of_read h_back (by omega) (by omega)
    · exact fun fragment h_mem h_spans => h.room_of_read h_front h_mem h_spans
  -- the first part is the beginning of the whole, the second part its end
  have h_take := read_take h_read (Nat.le_add_right first second)
  rw [h_front, Option.some.injEq] at h_take
  rw [h_read, h_take, h.eq_drop_of_read h_later h_read h_back, List.take_append_drop]

/-- A range is read at once, and no fragment at the split reaches past the last offset, exactly if
its parts are read one after the other, with the same bytes. -/
theorem read_add_iff (h : m.Scattered) (h_first : 1 ≤ first) (h_second : 1 ≤ second)
    (h_limit : offset.toNat + first + second < offsetLimit) :
    (m.read offset (first + second) = some bytes ∧
        ∀ fragment ∈ m.fragments.entries, Spans fragment (offset.toNat + first) →
          fragment.1.toNat + fragment.2.length < offsetLimit) ↔
      ∃ front back, m.read offset first = some front ∧
        m.read (offset + UInt64.ofNat first) second = some back ∧ bytes = front ++ back := by
  have h_later : (offset + UInt64.ofNat first).toNat = offset.toNat + first :=
    toNat_add_ofNat (by omega)
  constructor
  · rintro ⟨h_read, h_room⟩
    rw [← h_later] at h_room
    obtain ⟨h_front, h_back⟩ := h.read_parts h_second h_later h_read h_room
    exact ⟨_, _, h_front, h_back, (List.take_append_drop ..).symm⟩
  · rintro ⟨front, back, h_front, h_back, rfl⟩
    refine ⟨h.read_add h_first h_later h_front h_back, fun fragment h_mem h_spans => ?_⟩
    -- the second part begins at the split, so the fragment there does not reach past
    -- the last offset
    rw [← h_later] at h_spans
    exact h.room_of_read h_back h_mem h_spans

end Scattered

/-- Two fragments that meet, of which the second reaches past the last offset. -/
def overhanging : FragmentMap :=
  ofInserts [(0xFFFFFFFFFFFFFFFC, [1, 2]), (0xFFFFFFFFFFFFFFFE, [3, 4, 5])]

/-- Split before the second fragment begins, the range is read in two parts as well. -/
theorem overhanging_read_add_iff : overhanging.Scattered ∧
    overhanging.read 0xFFFFFFFFFFFFFFFC 3 = some [1, 2, 3] ∧
    ∃ front back, overhanging.read 0xFFFFFFFFFFFFFFFC 1 = some front ∧
      overhanging.read (0xFFFFFFFFFFFFFFFC + UInt64.ofNat 1) 2 = some back ∧
      [1, 2, 3] = front ++ back := by
  have h : overhanging.Scattered := by decide
  have h_read : overhanging.read 0xFFFFFFFFFFFFFFFC 3 = some [1, 2, 3] := by decide
  have h_room : ∀ fragment ∈ overhanging.fragments.entries,
      Spans fragment ((0xFFFFFFFFFFFFFFFC : UInt64).toNat + 1) →
      fragment.1.toNat + fragment.2.length < offsetLimit := by decide
  exact ⟨h, h_read, (h.read_add_iff (by decide) (by decide) (by decide)).mp ⟨h_read, h_room⟩⟩

/-- Split where the second fragment begins, it is not. -/
theorem overhanging_read_only_at_once : overhanging.Scattered ∧
    (0xFFFFFFFFFFFFFFFC : UInt64).toNat + 2 + 1 < offsetLimit ∧
    overhanging.read 0xFFFFFFFFFFFFFFFC (2 + 1) = some [1, 2, 3] ∧
    ¬ ∃ front back, overhanging.read 0xFFFFFFFFFFFFFFFC 2 = some front ∧
      overhanging.read (0xFFFFFFFFFFFFFFFC + UInt64.ofNat 2) 1 = some back ∧
      [1, 2, 3] = front ++ back := by
  have h_second : overhanging.read (0xFFFFFFFFFFFFFFFC + UInt64.ofNat 2) 1 = none := by decide
  refine ⟨by decide, by decide, by decide, ?_⟩
  rintro ⟨front, back, -, h_back, -⟩
  rw [h_second] at h_back
  cases h_back

end FragmentMap

end OperationFeed
