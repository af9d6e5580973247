import Mathlib.Data.List.Pairwise
import OperationFeed.Proofs.Fragment.Rounds

/-!
# Reading tidy fragments

Fragments are *scattered* if none is empty and no two overlap (`FragmentMap.Scattered`), and *tidy*
if, besides, none reaches past the last offset (`FragmentMap.Tidy`). A range of tidy fragments can
be read exactly if each of its positions lies in some fragment (`FragmentMap.Covers`).

The walk follows a chain of fragments, each of which starts where the one before ends. That there is
such a chain comes from the positions alone: `InLine.exists_walk` finds it, fragment by fragment. In
a line of fragments that begins at a position or behind it, only the first can span that position,
so it starts there; and what lies behind its end is covered by the others.

`FragmentMap.Tidy.readsCovered` is the account of what is read.
-/

namespace OperationFeed

/-- A fragment ends where the other one starts, or before. -/
def EndsBefore (fragment other : UInt64 × Bytes) : Prop :=
  fragment.1.toNat + fragment.2.length ≤ other.1.toNat

instance : DecidableRel EndsBefore := fun _ _ => Nat.decLe _ _

/-- A fragment with bytes in it spans the position at which it starts. -/
theorem spans_start {fragment : UInt64 × Bytes} (h : fragment.2 ≠ []) :
    Spans fragment fragment.1.toNat :=
  ⟨Nat.le_refl _, Nat.lt_add_of_pos_right (List.length_pos_iff.mpr h)⟩

/-- No position lies in both fragments. -/
def Separate (fragment other : UInt64 × Bytes) : Prop :=
  ∀ position, Spans fragment position → ¬ Spans other position

instance : Std.Symm Separate where
  symm _ _ h position h_other h_fragment := h position h_fragment h_other

/-- A fragment that ends before another one starts has no position in common with it. -/
theorem EndsBefore.separate {fragment other : UInt64 × Bytes} (h : EndsBefore fragment other) :
    Separate fragment other :=
  fun _ h_fragment h_other => Nat.not_lt.mpr (Nat.le_trans h h_other.1) h_fragment.2

/-! ### Fragments in a line -/

/-- Fragments with bytes in them from a position on, each of which ends before the next starts. -/
structure InLine (position : Nat) (entries : List (UInt64 × Bytes)) : Prop where
  begins : ∀ fragment ∈ entries, position ≤ fragment.1.toNat
  nonempty : ∀ fragment ∈ entries, fragment.2 ≠ []
  apart : entries.Pairwise EndsBefore

namespace InLine

variable {position remaining : Nat} {head : UInt64 × Bytes} {entries rest : List (UInt64 × Bytes)}

/-- Behind the first fragment, the others are in a line. -/
theorem tail (h : InLine position (head :: rest)) :
    InLine (head.1.toNat + head.2.length) rest where
  begins _ h_mem := List.rel_of_pairwise_cons h.apart h_mem
  nonempty fragment h_mem := h.nonempty fragment (List.mem_cons_of_mem _ h_mem)
  apart := h.apart.of_cons

/-- If the position at which a line begins is spanned, then by the first fragment, from there on. -/
theorem head_eq (h : InLine position (head :: rest))
    (h_covered : ∃ fragment ∈ head :: rest, Spans fragment position) :
    head.1.toNat = position := by
  obtain ⟨fragment, h_mem, h_spans⟩ := h_covered
  apply Nat.le_antisymm _ (h.begins head (List.mem_cons_self ..))
  -- any other fragment starts behind the end of the first
  rcases List.mem_cons.mp h_mem with rfl | h_mem
  · exact h_spans.1
  · calc head.1.toNat ≤ head.1.toNat + head.2.length := Nat.le_add_right ..
      _ ≤ fragment.1.toNat := h.tail.begins fragment h_mem
      _ ≤ position := h_spans.1

/-- A walk through a line gets to its end if every position on its way is spanned. -/
theorem exists_walk (h : InLine position entries)
    (h_covered : ∀ further, position ≤ further → further < position + remaining →
      ∃ fragment ∈ entries, Spans fragment further) :
    ∃ bytes, FragmentMap.walk entries position remaining = some bytes := by
  induction entries generalizing position remaining with
  | nil =>
    cases remaining with
    | zero => exact ⟨[], rfl⟩
    | succ remaining =>
      obtain ⟨fragment, h_mem, -⟩ :=
        h_covered position (Nat.le_refl _) (Nat.lt_add_of_pos_right (Nat.succ_pos _))
      cases h_mem
  | cons head rest ih =>
    obtain ⟨start, data⟩ := head
    cases remaining with
    | zero => exact ⟨[], rfl⟩
    | succ remaining =>
      -- the position is spanned, and only the first fragment can do it
      have h_here : start.toNat = position :=
        h.head_eq (h_covered position (Nat.le_refl _) (Nat.lt_add_of_pos_right (Nat.succ_pos _)))
      have h_data : data ≠ [] := h.nonempty _ (List.mem_cons_self ..)
      rw [FragmentMap.walk, if_neg (Nat.not_lt.mpr (Nat.le_of_eq h_here.symm)),
        if_pos ⟨h_here, h_data⟩]
      split
      · exact ⟨_, rfl⟩
      · next h_short =>
        -- what the first fragment leaves of the range is spanned by the others
        have h_behind : ∀ further, start.toNat + data.length ≤ further →
            further < start.toNat + data.length + (remaining + 1 - data.length) →
            ∃ fragment ∈ rest, Spans fragment further := by
          intro further h_low h_high
          obtain ⟨fragment, h_mem, h_spans⟩ := h_covered further (by omega) (by omega)
          rcases List.mem_cons.mp h_mem with rfl | h_mem
          · exact absurd h_spans.2 (Nat.not_lt.mpr h_low)
          · exact ⟨fragment, h_mem, h_spans⟩
        obtain ⟨bytes, h_bytes⟩ := ih h.tail h_behind
        rw [← h_here, h_bytes]
        exact ⟨data ++ bytes, rfl⟩

end InLine

/-! ### Scattered fragments -/

namespace FragmentMap

variable {m : FragmentMap} {offset : UInt64} {length position : Nat} {bytes tail : Bytes}

/-- Some fragment spans the position. -/
def Covers (m : FragmentMap) (position : Nat) : Prop :=
  ∃ fragment ∈ m.fragments.entries, Spans fragment position

instance (m : FragmentMap) (position : Nat) : Decidable (m.Covers position) :=
  inferInstanceAs (Decidable (∃ fragment ∈ m.fragments.entries, Spans fragment position))

/-- What is read is covered. -/
theorem covers_of_read (h : m.read offset length = some bytes) (h_low : offset.toNat ≤ position)
    (h_high : position < offset.toNat + length) : m.Covers position := by
  obtain ⟨fragment, h_mem, h_spans, -⟩ := (read_spans h).2 (position - offset.toNat) (by omega)
  rw [Nat.add_sub_of_le h_low] at h_spans
  exact ⟨fragment, h_mem, h_spans⟩

/-- No fragment is empty or overlaps another one. -/
structure Scattered (m : FragmentMap) : Prop where
  nonempty : ∀ fragment ∈ m.fragments.entries, fragment.2 ≠ []
  disjoint : ∀ fragment ∈ m.fragments.entries, ∀ other ∈ m.fragments.entries, ∀ position,
    Spans fragment position → Spans other position → fragment = other

/-- Of two fragments that do not overlap, the one that starts first ends before the other one. -/
theorem Scattered.endsBefore (h : m.Scattered) {fragment other : UInt64 × Bytes}
    (h_fragment : fragment ∈ m.fragments.entries) (h_other : other ∈ m.fragments.entries)
    (h_lt : fragment.1.toNat < other.1.toNat) : EndsBefore fragment other := by
  by_contra h_not
  -- otherwise the other one would start in the fragment, and be the same
  have h_spans : Spans fragment other.1.toNat := ⟨Nat.le_of_lt h_lt, Nat.lt_of_not_le h_not⟩
  have h_start : Spans other other.1.toNat := spans_start (h.nonempty other h_other)
  rw [h.disjoint fragment h_fragment other h_other _ h_spans h_start] at h_lt
  exact Nat.lt_irrefl _ h_lt

/-- That fragments are scattered is seen from one to the next. -/
theorem scattered_iff : m.Scattered ↔ (∀ fragment ∈ m.fragments.entries, fragment.2 ≠ []) ∧
    m.fragments.entries.Pairwise EndsBefore := by
  constructor
  · intro h
    -- the list is sorted, so what starts first stands first in it
    refine ⟨h.nonempty, m.fragments.sorted.imp_of_mem ?_⟩
    exact fun h_fragment h_other h_lt => h.endsBefore h_fragment h_other h_lt
  · rintro ⟨h_nonempty, h_apart⟩
    refine ⟨h_nonempty, ?_⟩
    intro fragment h_fragment other h_other position h_spans h_spans'
    by_contra h_ne
    -- of two different ones, one stands before the other, and ends before it
    have h_either : m.fragments.entries.Pairwise Separate := h_apart.imp EndsBefore.separate
    exact h_either.forall h_fragment h_other h_ne position h_spans h_spans'

instance (m : FragmentMap) : Decidable m.Scattered := decidable_of_iff _ scattered_iff.symm

namespace Scattered

/-- A fragment that spans the offset and ends before the last one has its tail there. -/
theorem exists_tail (h : m.Scattered) {fragment : UInt64 × Bytes}
    (h_mem : fragment ∈ m.fragments.entries) (h_spans : Spans fragment offset.toNat)
    (h_room : fragment.1.toNat + fragment.2.length < offsetLimit) :
    ∃ tail, m.tailFrom? offset = some tail := by
  have h_floor : m.fragments.floor? offset = some fragment := by
    refine Table.floor?_eq_some_iff.mpr ⟨⟨h_mem, h_spans.1⟩, fun other h_other h_le => ?_⟩
    apply Nat.le_of_not_lt
    intro h_lt
    -- the other one starts in the fragment
    have h_ends := Nat.le_trans (h.endsBefore h_mem h_other h_lt) h_le
    exact Nat.not_lt.mpr h_ends h_spans.2
  exact ⟨_, tailFrom?_eq_some_iff.mpr ⟨_, _, h_floor, h_spans, h_room, rfl⟩⟩

/-- Where a reading begins, no fragment reaches past the last offset. -/
theorem room_of_read (h : m.Scattered) (h_read : m.read offset length = some bytes)
    {fragment : UInt64 × Bytes} (h_mem : fragment ∈ m.fragments.entries)
    (h_spans : Spans fragment offset.toNat) :
    fragment.1.toNat + fragment.2.length < offsetLimit := by
  obtain ⟨tail, h_tail, -⟩ := read_eq_some_iff.mp h_read
  obtain ⟨start, data, h_floor, h_first, h_room, -⟩ := tailFrom?_eq_some_iff.mp h_tail
  obtain ⟨⟨h_there, -⟩, -⟩ := Table.floor?_spec h_floor
  -- the reading began with a fragment that spans the offset, and there is only one
  obtain rfl := h.disjoint fragment h_mem (start, data) h_there _ h_spans h_first
  exact h_room

/-- With what is left of the first fragment at the offset, the fragments from there on are in a
line. -/
theorem inLine (h : m.Scattered) (h_tail : m.tailFrom? offset = some tail) :
    InLine offset.toNat ((offset, tail) :: m.fragments.above offset) := by
  obtain ⟨start, data, h_floor, h_spans, h_room, rfl⟩ := tailFrom?_eq_some_iff.mp h_tail
  obtain ⟨⟨h_mem, -⟩, -⟩ := Table.floor?_spec h_floor
  have h_above : ∀ fragment ∈ m.fragments.above offset,
      fragment ∈ m.fragments.entries ∧ offset.toNat < fragment.1.toNat := by
    intro fragment h_fragment
    rwa [Table.above, List.mem_filter, decide_eq_true_iff] at h_fragment
  constructor
  case begins =>
    intro fragment h_fragment
    rcases List.mem_cons.mp h_fragment with rfl | h_fragment
    · exact Nat.le_refl _
    · exact Nat.le_of_lt (h_above fragment h_fragment).2
  case nonempty =>
    intro fragment h_fragment
    rcases List.mem_cons.mp h_fragment with rfl | h_fragment
    · exact drop_ne_nil h_spans
    · exact h.nonempty fragment (h_above fragment h_fragment).1
  case apart =>
    refine .cons (fun fragment h_fragment => ?_) ?_
    · rw [EndsBefore, add_length_drop h_spans]
      -- cut at the offset, the first fragment still ends where it did
      obtain ⟨h_there, h_lt⟩ := h_above fragment h_fragment
      exact h.endsBefore h_mem h_there (Nat.lt_of_le_of_lt h_spans.1 h_lt)
    · exact (scattered_iff.mp h).2.filter _

/-- Positions from the offset on that are covered are covered by that line. -/
theorem exists_inLine (h : m.Scattered) (h_tail : m.tailFrom? offset = some tail)
    (h_low : offset.toNat ≤ position) (h_covers : m.Covers position) :
    ∃ fragment ∈ (offset, tail) :: m.fragments.above offset, Spans fragment position := by
  obtain ⟨start, data, h_floor, h_spans, h_room, rfl⟩ := tailFrom?_eq_some_iff.mp h_tail
  obtain ⟨⟨h_mem, -⟩, -⟩ := Table.floor?_spec h_floor
  obtain ⟨fragment, h_fragment, h_position⟩ := h_covers
  by_cases h_above : offset.toNat < fragment.1.toNat
  · refine ⟨fragment, List.mem_cons_of_mem _ ?_, h_position⟩
    exact List.mem_filter.mpr ⟨h_fragment, decide_eq_true h_above⟩
  · -- the fragment spans the offset, too, so it is the one that was cut there
    have h_offset : Spans fragment offset.toNat :=
      ⟨Nat.le_of_not_lt h_above, Nat.lt_of_le_of_lt h_low h_position.2⟩
    obtain rfl := h.disjoint fragment h_fragment _ h_mem _ h_offset h_spans
    exact ⟨_, List.mem_cons_self .., (spans_drop h_spans).mpr ⟨h_low, h_position⟩⟩

/-- A range of covered positions can be read, unless it begins in a fragment that reaches past the
last offset. -/
theorem exists_read (h : m.Scattered) (h_length : 0 < length)
    (h_covered : ∀ position, offset.toNat ≤ position → position < offset.toNat + length →
      m.Covers position)
    (h_room : ∀ fragment ∈ m.fragments.entries, Spans fragment offset.toNat →
      fragment.1.toNat + fragment.2.length < offsetLimit) :
    ∃ bytes, m.read offset length = some bytes := by
  -- the fragment at the offset is the first, and from its tail on all are in a line
  obtain ⟨fragment, h_mem, h_spans⟩ :=
    h_covered _ (Nat.le_refl _) (Nat.lt_add_of_pos_right h_length)
  obtain ⟨tail, h_tail⟩ := h.exists_tail h_mem h_spans (h_room fragment h_mem h_spans)
  obtain ⟨bytes, h_walk⟩ := (h.inLine h_tail).exists_walk fun position h_low h_high =>
    h.exists_inLine h_tail h_low (h_covered position h_low h_high)
  exact ⟨bytes, read_eq_some_iff.mpr ⟨tail, h_tail, h_walk⟩⟩

end Scattered

/-! ### Tidy fragments -/

/-- No fragment is empty, overlaps another one or reaches past the last offset. -/
structure Tidy (m : FragmentMap) : Prop where
  nonempty : ∀ fragment ∈ m.fragments.entries, fragment.2 ≠ []
  disjoint : ∀ fragment ∈ m.fragments.entries, ∀ other ∈ m.fragments.entries, ∀ position,
    Spans fragment position → Spans other position → fragment = other
  room : ∀ fragment ∈ m.fragments.entries, fragment.1.toNat + fragment.2.length < offsetLimit

/-- Tidy fragments are scattered, and none reaches past the last offset. -/
theorem tidy_iff : m.Tidy ↔ m.Scattered ∧
    ∀ fragment ∈ m.fragments.entries, fragment.1.toNat + fragment.2.length < offsetLimit :=
  ⟨fun h => ⟨⟨h.nonempty, h.disjoint⟩, h.room⟩, fun h => ⟨h.1.nonempty, h.1.disjoint, h.2⟩⟩

instance (m : FragmentMap) : Decidable m.Tidy := decidable_of_iff _ tidy_iff.symm

namespace Tidy

theorem scattered (h : m.Tidy) : m.Scattered := (tidy_iff.mp h).1

/-- A position that is covered is in the tail of the fragment at or below it. -/
theorem exists_tail (h : m.Tidy) (h_covers : m.Covers offset.toNat) :
    ∃ tail, m.tailFrom? offset = some tail := by
  obtain ⟨fragment, h_mem, h_spans⟩ := h_covers
  exact h.scattered.exists_tail h_mem h_spans (h.room fragment h_mem)

/-- A range of covered positions can be read. -/
theorem exists_read (h : m.Tidy) (h_length : 0 < length)
    (h_covered : ∀ position, offset.toNat ≤ position → position < offset.toNat + length →
      m.Covers position) : ∃ bytes, m.read offset length = some bytes :=
  h.scattered.exists_read h_length h_covered fun fragment h_mem _ => h.room fragment h_mem

end Tidy

/-- Readings from an offset on give exactly what is covered. -/
structure ReadsCovered (m : FragmentMap) (offset : UInt64) : Prop where
  /-- A range with a position in it is read if all its positions are covered. -/
  found : ∀ length ≥ 1, (∃ bytes, m.read offset length = some bytes) ↔
    ∀ position, offset.toNat ≤ position → position < offset.toNat + length → m.Covers position
  /-- Each byte is that of the only fragment that spans its position. -/
  bytes : ∀ length bytes, m.read offset length = some bytes → bytes.length = length ∧
    ∀ i < length, ∃ fragment ∈ m.fragments.entries, Spans fragment (offset.toNat + i) ∧
      (∀ other ∈ m.fragments.entries, Spans other (offset.toNat + i) → other = fragment) ∧
      bytes[i]? = byteAt? fragment (offset.toNat + i)
  /-- A range without positions is read if the offset is covered. -/
  empty : m.read offset 0 = some [] ↔ m.Covers offset.toNat
  /-- In rounds, the same is read, and no offset on the way is past the last one. -/
  rounds : ∀ length, ∃ rounds ≤ m.size + 1,
    m.readInRounds rounds offset length = some ((m.read offset length).elim .missed .found)

/-- Whatever tidy fragments there are, readings from any offset on give exactly what is covered. -/
theorem Tidy.readsCovered (h : m.Tidy) (offset : UInt64) : m.ReadsCovered offset := by
  constructor
  case found =>
    intro length h_length
    refine ⟨?_, h.exists_read h_length⟩
    rintro ⟨bytes, h_read⟩ position h_low h_high
    exact covers_of_read h_read h_low h_high
  case bytes =>
    intro length bytes h_read
    obtain ⟨h_length, h_bytes⟩ := read_spans h_read
    refine ⟨h_length, fun i h_lt => ?_⟩
    -- the byte is that of a fragment there, which is the only one
    obtain ⟨fragment, h_mem, h_spans, h_byte⟩ := h_bytes i h_lt
    refine ⟨fragment, h_mem, h_spans, fun other h_other h_spans' => ?_, h_byte⟩
    exact h.disjoint other h_other fragment h_mem _ h_spans' h_spans
  case empty =>
    rw [read_eq_some_iff]
    constructor
    · rintro ⟨tail, h_tail, -⟩
      obtain ⟨start, data, h_floor, h_spans, -⟩ := tailFrom?_eq_some_iff.mp h_tail
      exact ⟨_, (Table.floor?_spec h_floor).1.1, h_spans⟩
    · intro h_covers
      obtain ⟨tail, h_tail⟩ := h.exists_tail h_covers
      exact ⟨tail, h_tail, rfl⟩
  case rounds =>
    intro length
    -- rounds overflow only where a fragment reaches past the last offset, which no tidy one does
    obtain ⟨rounds, h_rounds, ending, h_ending, h_answer, h_overflow⟩ :=
      m.exists_readInRounds offset length
    refine ⟨rounds, h_rounds, ?_⟩
    rw [h_ending, ← h_answer]
    cases ending with
    | found bytes => rfl
    | missed => rfl
    | overflowed =>
      obtain ⟨fragment, h_mem, h_reach⟩ := h_overflow rfl
      exact absurd (h.room fragment h_mem) (Nat.not_lt.mpr h_reach)

/-- Two fragments that meet, and one behind a gap. -/
def gapped : FragmentMap := ofInserts [(9, [5, 6]), (2, [1, 2, 3]), (5, [4])]

/-- The two that meet are read as one, up to the gap. -/
theorem gapped_readsCovered : gapped.Tidy ∧ gapped.ReadsCovered 3 ∧
    gapped.read 3 3 = some [2, 3, 4] ∧ gapped.read 3 4 = none := by
  have h : gapped.Tidy := by decide
  exact ⟨h, h.readsCovered 3, by decide, by decide⟩

end FragmentMap

end OperationFeed
