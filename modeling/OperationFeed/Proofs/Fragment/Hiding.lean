import OperationFeed.Proofs.Fragment.Coverage

/-!
# Fragments that hide others

A reading begins with the fragment that starts last at or before its offset, and goes on only where
a fragment starts exactly at the end of the one before. So a fragment can be hidden by another one
that starts in it: the bytes of a range are there, all in one fragment, and yet the range is not
read (`FragmentMap.nested_hidden_range`). Nothing else hides a fragment:

* `FragmentMap.walk_eq_none_iff` says that a walk finds nothing exactly if it is led to a position
  in its range at which no fragment with bytes in it starts (`DeadEnd`);
* `FragmentMap.read_eq_none_iff` says the same of a reading, by its first fragment
  (`FragmentMap.Misses`), and `FragmentMap.read_eq_none_iff_hidden` of a range that one fragment
  holds (`FragmentMap.Hides`);
* `FragmentMap.read_insert_of_gap` says that a fragment that is recorded in a gap hides nothing,
  whatever it runs over behind the gap.
-/

namespace OperationFeed

/-! ### Dead ends -/

/-- The positions to which fragments lead from a given one on: where one with bytes in it starts, it
leads on to its end. -/
inductive LeadsTo (entries : List (UInt64 × Bytes)) (position : Nat) : Nat → Prop
  | here : LeadsTo entries position position
  | behind {fragment : UInt64 × Bytes} (leads : LeadsTo entries position fragment.1.toNat)
      (mem : fragment ∈ entries) (nonempty : fragment.2 ≠ []) :
      LeadsTo entries position (fragment.1.toNat + fragment.2.length)

/-- A position to which fragments lead, and from which none with bytes in it leads on. -/
structure DeadEnd (entries : List (UInt64 × Bytes)) (position stop : Nat) : Prop where
  leads : LeadsTo entries position stop
  closed : ∀ fragment ∈ entries, fragment.1.toNat = stop → fragment.2 = []

section DeadEnd

variable {entries rest : List (UInt64 × Bytes)} {start : UInt64} {data : Bytes}
  {position stop : Nat}

/-- Fragments lead only further on. -/
theorem LeadsTo.le (h : LeadsTo entries position stop) : position ≤ stop := by
  induction h with
  | here => exact Nat.le_refl _
  | behind leads mem nonempty ih => exact Nat.le_trans ih (Nat.le_add_right ..)

/-- More fragments lead at least as far. -/
theorem LeadsTo.mono (h : LeadsTo rest position stop) (h_subset : rest ⊆ entries) :
    LeadsTo entries position stop := by
  induction h with
  | here => exact .here
  | behind leads mem nonempty ih => exact .behind ih (h_subset mem) nonempty

/-- A fragment that starts before the position does not matter. -/
theorem leadsTo_cons_of_lt (h : start.toNat < position) :
    LeadsTo ((start, data) :: rest) position stop ↔ LeadsTo rest position stop := by
  refine ⟨fun h_leads => ?_, fun h_leads => h_leads.mono (List.subset_cons_self ..)⟩
  induction h_leads with
  | here => exact .here
  | @behind fragment leads mem nonempty ih =>
    rcases List.mem_cons.mp mem with rfl | mem
    · exact absurd leads.le (Nat.not_le.mpr h)
    · exact .behind ih mem nonempty

/-- A fragment with bytes in it that starts at the position leads on to its end. -/
theorem leadsTo_cons_of_eq (h_behind : ∀ fragment ∈ rest, start.toNat < fragment.1.toNat)
    (h_data : data ≠ []) : LeadsTo ((start, data) :: rest) start.toNat stop ↔
      stop = start.toNat ∨ LeadsTo rest (start.toNat + data.length) stop := by
  constructor
  · intro h_leads
    induction h_leads with
    | here => exact .inl rfl
    | @behind fragment leads mem nonempty ih =>
      rcases List.mem_cons.mp mem with rfl | mem
      · exact .inr .here
      -- behind the first fragment all others start later, so they lead on from its end
      · exact .inr (.behind (ih.resolve_left (Nat.ne_of_gt (h_behind fragment mem))) mem nonempty)
  · rintro (rfl | h_leads)
    · exact .here
    · have h_head : LeadsTo ((start, data) :: rest) start.toNat (start, data).1.toNat := .here
      induction h_leads with
      | here => exact h_head.behind (List.mem_cons_self ..) h_data
      | behind leads mem nonempty ih => exact .behind ih (List.mem_cons_of_mem _ mem) nonempty

/-- A fragment that starts before the position does not open a dead end, nor make one. -/
theorem deadEnd_cons_of_lt (h : start.toNat < position) :
    DeadEnd ((start, data) :: rest) position stop ↔ DeadEnd rest position stop := by
  constructor
  · rintro ⟨leads, closed⟩
    refine ⟨(leadsTo_cons_of_lt h).mp leads, fun fragment mem => ?_⟩
    exact closed fragment (List.mem_cons_of_mem _ mem)
  · rintro ⟨leads, closed⟩
    refine ⟨(leadsTo_cons_of_lt h).mpr leads, fun fragment mem h_start => ?_⟩
    rcases List.mem_cons.mp mem with rfl | mem
    · exact absurd leads.le (Nat.not_le.mpr (h_start ▸ h))
    · exact closed fragment mem h_start

/-- Where a fragment with bytes in it starts, the dead ends are those behind it. -/
theorem deadEnd_cons_of_eq (h_behind : ∀ fragment ∈ rest, start.toNat < fragment.1.toNat)
    (h_data : data ≠ []) : DeadEnd ((start, data) :: rest) start.toNat stop ↔
      DeadEnd rest (start.toNat + data.length) stop := by
  constructor
  · rintro ⟨leads, closed⟩
    -- the fragment leads on from its start, so that is not where the end is
    have h_open : stop ≠ start.toNat :=
      fun h_stop => h_data (closed (start, data) (List.mem_cons_self ..) h_stop.symm)
    refine ⟨((leadsTo_cons_of_eq h_behind h_data).mp leads).resolve_left h_open, ?_⟩
    exact fun fragment mem => closed fragment (List.mem_cons_of_mem _ mem)
  · rintro ⟨leads, closed⟩
    refine ⟨(leadsTo_cons_of_eq h_behind h_data).mpr (.inr leads), fun fragment mem h_start => ?_⟩
    rcases List.mem_cons.mp mem with rfl | mem
    · have h_lt : start.toNat < start.toNat + data.length :=
        Nat.lt_add_of_pos_right (List.length_pos_iff.mpr h_data)
      exact absurd leads.le (Nat.not_le.mpr (h_start ▸ h_lt))
    · exact closed fragment mem h_start

end DeadEnd

namespace FragmentMap

variable {m : FragmentMap} {entries : List (UInt64 × Bytes)} {position remaining length : Nat}
  {offset start : UInt64} {data bytes tail : Bytes} {first fragment hider : UInt64 × Bytes}

/-- A walk finds nothing exactly if it is led to a dead end in its range. -/
theorem walk_eq_none_iff (sorted : entries.Pairwise fun a b => a.1.toNat < b.1.toNat) :
    walk entries position remaining = none ↔
      ∃ stop, DeadEnd entries position stop ∧ stop < position + remaining := by
  -- by the six cases of the walk: done, no more fragments, passed, enough, not enough, gap
  fun_induction walk entries position remaining with
  | case1 entries position =>
    refine iff_of_false (Option.some_ne_none _) ?_
    rintro ⟨stop, ⟨leads, -⟩, h_lt⟩
    exact absurd leads.le (Nat.not_le.mpr h_lt)
  | case2 position remaining =>
    exact iff_of_true rfl
      ⟨position, ⟨.here, List.forall_mem_nil _⟩, Nat.lt_add_of_pos_right (Nat.succ_pos _)⟩
  | case3 start data rest position remaining h_passed ih =>
    simp only [ih sorted.of_cons, deadEnd_cons_of_lt h_passed]
  | case4 start data rest position remaining h_passed h_here h_fits =>
    obtain ⟨rfl, h_data⟩ := h_here
    refine iff_of_false (Option.some_ne_none _) ?_
    rintro ⟨stop, h_end, h_lt⟩
    have h_behind : ∀ fragment ∈ rest, start.toNat < fragment.1.toNat :=
      (List.pairwise_cons.mp sorted).1
    -- all that is asked for lies in the fragment, so no end in the range is behind it
    have h_le := ((deadEnd_cons_of_eq h_behind h_data).mp h_end).leads.le
    omega
  | case5 start data rest position remaining h_passed h_here h_short ih =>
    obtain ⟨rfl, h_data⟩ := h_here
    have h_range : start.toNat + data.length + (remaining + 1 - data.length) =
        start.toNat + (remaining + 1) := by omega
    simp only [Option.map_eq_none_iff, ih sorted.of_cons,
      deadEnd_cons_of_eq (List.pairwise_cons.mp sorted).1 h_data, h_range]
  | case6 start data rest position remaining h_passed h_gap =>
    refine iff_of_true rfl ⟨position, ⟨.here, ?_⟩, Nat.lt_add_of_pos_right (Nat.succ_pos _)⟩
    intro fragment mem h_start
    rcases List.mem_cons.mp mem with rfl | mem
    · exact of_not_not fun h_data => h_gap ⟨h_start, h_data⟩
    -- no later fragment starts at the position, since this one starts there or behind it
    · have h_behind : start.toNat < fragment.1.toNat := List.rel_of_pairwise_cons sorted mem
      omega

/-! ### A reading from its first fragment -/

/-- Fragments that a walk has passed may be left out. -/
theorem walk_filter (h_lt : offset.toNat < position) :
    walk (entries.filter fun fragment => rank offset < rank fragment.1) position remaining =
      walk entries position remaining := by
  induction entries generalizing position remaining with
  | nil => rfl
  | cons head rest ih =>
    obtain ⟨start, data⟩ := head
    cases remaining with
    | zero => rw [walk, walk]
    | succ remaining =>
      rw [List.filter_cons]
      -- a fragment at or below the offset has been passed by any walk from behind it
      by_cases h_keep : rank offset < rank start
      · rw [if_pos (decide_eq_true h_keep), walk, walk, ih h_lt, ih (Nat.lt_add_right _ h_lt)]
      · have h_passed : start.toNat < position := Nat.lt_of_le_of_lt (Nat.le_of_not_lt h_keep) h_lt
        rw [if_neg (mt of_decide_eq_true h_keep), walk, if_pos h_passed, ih h_lt]

/-- What a reading begins with is enough, or all fragments are walked through behind it. -/
theorem read_of_tail (h : m.tailFrom? offset = some tail) (length : Nat) :
    m.read offset length = if length ≤ tail.length then some (tail.take length) else
      (walk m.fragments.entries (offset.toNat + tail.length) (length - tail.length)).map
        (tail ++ ·) := by
  -- what a reading begins with is never empty
  have h_tail : tail ≠ [] := by
    obtain ⟨start, data, -, h_spans, -, rfl⟩ := tailFrom?_eq_some_iff.mp h
    exact drop_ne_nil h_spans
  rw [read, h, Option.bind_eq_bind, Option.bind_some]
  cases length with
  | zero => rw [walk, if_pos (Nat.zero_le _), List.take_zero]
  | succ length =>
    have h_lt : offset.toNat < offset.toNat + tail.length :=
      Nat.lt_add_of_pos_right (List.length_pos_iff.mpr h_tail)
    rw [walk, if_neg (Nat.lt_irrefl _), if_pos ⟨rfl, h_tail⟩, Table.above, walk_filter h_lt]

/-- Why a reading finds nothing, by the fragment that starts last at or before its offset. -/
inductive Misses (m : FragmentMap) (first : UInt64 × Bytes) (offset : UInt64) (length : Nat) : Prop
  -- The fragment ends at the offset or before it.
  | short (ends : first.1.toNat + first.2.length ≤ offset.toNat)
  -- It reaches past the last offset.
  | long (reaches : offsetLimit ≤ first.1.toNat + first.2.length)
  -- From its end on, fragments lead to a dead end in the range.
  | broken {stop : Nat} (isEnd : DeadEnd m.fragments.entries (first.1.toNat + first.2.length) stop)
      (inside : stop < offset.toNat + length)

/-- A reading finds nothing for one of three reasons, all seen from the fragment it begins with. -/
theorem read_eq_none_iff (h_floor : m.fragments.floor? offset = some first) :
    m.read offset length = none ↔ m.Misses first offset length := by
  cases h_tail : m.tailFrom? offset with
  | none =>
    refine iff_of_true (by rw [read, h_tail]; rfl) ?_
    -- without a tail, the fragment ends too early or too late
    by_contra h_not
    have h_end : offset.toNat < first.1.toNat + first.2.length :=
      Nat.lt_of_not_le fun h => h_not (.short h)
    have h_room : first.1.toNat + first.2.length < offsetLimit :=
      Nat.lt_of_not_le fun h => h_not (.long h)
    have h_spans : Spans first offset.toNat := ⟨(Table.floor?_spec h_floor).1.2, h_end⟩
    rw [tailFrom?_eq_some_iff.mpr ⟨_, _, h_floor, h_spans, h_room, rfl⟩] at h_tail
    cases h_tail
  | some tail =>
    obtain ⟨start, data, h_first, h_spans, h_room, rfl⟩ := tailFrom?_eq_some_iff.mp h_tail
    obtain rfl := Option.some.inj (h_floor.symm.trans h_first)
    have h_end := add_length_drop h_spans
    -- what there is of the first fragment excludes the first two reasons
    have h_misses : m.Misses (start, data) offset length ↔ ∃ stop,
        DeadEnd m.fragments.entries (start.toNat + data.length) stop ∧
        stop < offset.toNat + length := by
      constructor
      · rintro (ends | reaches | ⟨isEnd, inside⟩)
        · exact absurd h_spans.2 (Nat.not_lt.mpr ends)
        · exact absurd h_room (Nat.not_lt.mpr reaches)
        · exact ⟨_, isEnd, inside⟩
      · rintro ⟨stop, isEnd, inside⟩
        exact .broken isEnd inside
    rw [read_of_tail h_tail, h_misses]
    split
    · next h_fits =>
      refine iff_of_false (Option.some_ne_none _) ?_
      rintro ⟨stop, ⟨leads, -⟩, inside⟩
      -- a dead end lies behind the first fragment, and so behind the range
      have h_le := leads.le
      omega
    · next h_short =>
      have h_range : start.toNat + data.length +
          (length - (data.drop (offset.toNat - start.toNat)).length) = offset.toNat + length := by
        omega
      rw [Option.map_eq_none_iff, h_end, walk_eq_none_iff m.fragments.sorted, h_range]

/-! ### Ranges that one fragment holds -/

/-- A fragment hides a range of another one: it starts in the other one, last of all fragments that
start at or before the range, and a reading that begins with it finds nothing. -/
structure Hides (m : FragmentMap) (hider fragment : UInt64 × Bytes) (offset : UInt64)
    (length : Nat) : Prop where
  mem : hider ∈ m.fragments.entries
  inside : fragment.1.toNat < hider.1.toNat
  begins : hider.1.toNat ≤ offset.toNat
  last : ∀ other ∈ m.fragments.entries, other.1.toNat ≤ offset.toNat →
    other.1.toNat ≤ hider.1.toNat
  misses : m.Misses hider offset length

/-- A range that a fragment holds is read, unless another fragment hides it. -/
theorem read_eq_none_iff_hidden (h_mem : fragment ∈ m.fragments.entries)
    (h_begin : fragment.1.toNat ≤ offset.toNat)
    (h_end : offset.toNat + length ≤ fragment.1.toNat + fragment.2.length)
    (h_room : fragment.1.toNat + fragment.2.length < offsetLimit) (h_length : 1 ≤ length) :
    m.read offset length = none ↔ ∃ hider, m.Hides hider fragment offset length := by
  constructor
  · intro h_none
    cases h_floor : m.fragments.floor? offset with
    | none =>
      exact absurd h_begin (Nat.not_le.mpr (Table.floor?_eq_none_iff.mp h_floor fragment h_mem))
    | some hider =>
      -- the reading began with the last fragment that starts at or before the offset
      obtain ⟨⟨h_hider, h_le⟩, h_last⟩ := Table.floor?_spec h_floor
      have h_misses : m.Misses hider offset length := (read_eq_none_iff h_floor).mp h_none
      refine ⟨hider, h_hider, ?_, h_le, h_last, h_misses⟩
      apply Nat.lt_of_le_of_ne (h_last fragment h_mem h_begin)
      -- were it the fragment itself, the reading would be over before its end
      intro h_eq
      obtain rfl := Table.eq_of_rank_eq h_mem h_hider h_eq
      rcases h_misses with ends | reaches | ⟨isEnd, inside⟩
      · omega
      · omega
      · have h_le := isEnd.leads.le
        omega
  · rintro ⟨hider, h⟩
    have h_floor : m.fragments.floor? offset = some hider :=
      Table.floor?_eq_some_iff.mpr ⟨⟨h.mem, h.begins⟩, h.last⟩
    exact (read_eq_none_iff h_floor).mpr h.misses

/-- A long fragment with two short ones in it, which meet. -/
def nested : FragmentMap :=
  ofInserts [(0, [0, 1, 2, 3, 4, 5, 6, 7, 8, 9]), (5, [50, 51]), (2, [20, 21, 22])]

/-- The short fragments are read one after the other, and then nothing leads on. -/
theorem nested_hides : (0, [0, 1, 2, 3, 4, 5, 6, 7, 8, 9]) ∈ nested.fragments.entries ∧
    nested.read 3 4 = some [21, 22, 50, 51] ∧ nested.read 3 5 = none ∧
    ∃ hider, nested.Hides hider (0, [0, 1, 2, 3, 4, 5, 6, 7, 8, 9]) 3 5 := by
  have h_mem : (0, [0, 1, 2, 3, 4, 5, 6, 7, 8, 9]) ∈ nested.fragments.entries := by decide
  have h_none : nested.read 3 5 = none := by decide
  refine ⟨h_mem, by decide, h_none, ?_⟩
  exact (read_eq_none_iff_hidden h_mem (by decide) (by decide) (by decide) (by decide)).mp h_none

/-- Behind both of them the long fragment is not read, although it holds the range. -/
theorem nested_hidden_range : ∃ fragment ∈ nested.fragments.entries,
    fragment.1.toNat ≤ (8 : UInt64).toNat ∧
    (8 : UInt64).toNat + 1 ≤ fragment.1.toNat + fragment.2.length ∧
    fragment.1.toNat + fragment.2.length < offsetLimit ∧ nested.read 8 1 = none := by
  decide

/-! ### Recording in a gap -/

/-- What a walk has found at its first fragment: the fragment starts before the position and is
passed, or it starts there and has the bytes, or the first of them. -/
theorem walk_cons_eq_some_iff {rest : List (UInt64 × Bytes)} : walk ((start, data) :: rest) position
      (remaining + 1) = some bytes ↔
    start.toNat < position ∧ walk rest position (remaining + 1) = some bytes ∨
      (start.toNat = position ∧ data ≠ []) ∧ (remaining + 1 ≤ data.length ∧
        data.take (remaining + 1) = bytes ∨ ¬ remaining + 1 ≤ data.length ∧
        ∃ tail, walk rest (position + data.length) (remaining + 1 - data.length) = some tail ∧
          data ++ tail = bytes) := by
  rw [walk]
  split
  · next h_passed =>
    -- passed, so the fragment does not start at the position
    have h_not : ¬ (start.toNat = position ∧ data ≠ []) := fun h => Nat.ne_of_lt h_passed h.1
    rw [or_iff_left fun h => h_not h.1, and_iff_right h_passed]
  · next h_passed =>
    rw [or_iff_right fun h => h_passed h.1]
    split
    · next h_here =>
      rw [and_iff_right h_here]
      split
      · next h_fits => simp [h_fits]
      · next h_short => simp [h_short]
    · next h_gap => simp [h_gap]

/-- A walk goes on as it did if a fragment is put where there are no bytes. -/
theorem walk_insertEntry (h_gap : ∀ fragment ∈ entries, ¬ Spans fragment start.toNat) (data : Bytes)
    (h : walk entries position remaining = some bytes) :
    walk (Table.insertEntry start data entries) position remaining = some bytes := by
  induction entries generalizing position remaining bytes with
  | nil =>
    cases remaining with
    | zero => rwa [walk] at h ⊢
    | succ remaining => cases h
  | cons head rest ih =>
    obtain ⟨other, held⟩ := head
    have h_rest : ∀ fragment ∈ rest, ¬ Spans fragment start.toNat :=
      fun fragment h_mem => h_gap fragment (List.mem_cons_of_mem _ h_mem)
    cases remaining with
    | zero => rwa [walk] at h ⊢
    | succ remaining =>
      rcases Nat.lt_trichotomy (rank start) (rank other) with h_lt | h_eq | h_gt
      · -- the walk has come to the next fragment, so it passes the new one
        have h_le : other.toNat ≤ position := by
          rcases walk_cons_eq_some_iff.mp h with ⟨h_passed, -⟩ | ⟨⟨h_here, -⟩, -⟩
          · exact Nat.le_of_lt h_passed
          · exact Nat.le_of_eq h_here
        rw [Table.insertEntry, if_pos h_lt]
        exact walk_cons_eq_some_iff.mpr (.inl ⟨Nat.lt_of_lt_of_le h_lt h_le, h⟩)
      · -- the fragment that is replaced was empty, so the walk has passed it
        obtain rfl := rank_inj.mp h_eq
        rw [Table.insertEntry, if_neg (Nat.lt_irrefl _), if_pos rfl]
        rcases walk_cons_eq_some_iff.mp h with h_passed | ⟨⟨-, h_held⟩, -⟩
        · exact walk_cons_eq_some_iff.mpr (.inl h_passed)
        · exact absurd (spans_start h_held) (h_gap (start, held) (List.mem_cons_self ..))
      -- the new fragment comes further on: the first one is passed or taken as before
      · rw [Table.insertEntry, if_neg (Nat.lt_asymm h_gt), if_neg (Nat.ne_of_gt h_gt)]
        apply walk_cons_eq_some_iff.mpr
        rcases walk_cons_eq_some_iff.mp h with ⟨h_passed, h_walk⟩ | ⟨h_here, h_fits | h_short⟩
        · exact .inl ⟨h_passed, ih h_rest h_walk⟩
        · exact .inr ⟨h_here, .inl h_fits⟩
        · obtain ⟨h_length, tail, h_walk, h_bytes⟩ := h_short
          exact .inr ⟨h_here, .inr ⟨h_length, tail, ih h_rest h_walk, h_bytes⟩⟩

/-- A reading begins as it did if a fragment is put where there are no bytes. -/
theorem tailFrom?_insert_of_gap (h_gap : ¬ m.Covers start.toNat) (data : Bytes)
    (h : m.tailFrom? offset = some tail) : (m.insert start data).tailFrom? offset = some tail := by
  obtain ⟨begin, held, h_floor, h_spans, h_room, rfl⟩ := tailFrom?_eq_some_iff.mp h
  refine tailFrom?_eq_some_iff.mpr ⟨begin, held, ?_, h_spans, h_room, rfl⟩
  obtain ⟨⟨h_mem, h_le⟩, h_last⟩ := Table.floor?_spec h_floor
  refine Table.floor?_eq_some_iff.mpr ⟨⟨mem_insert.mpr (.inr ⟨?_, h_mem⟩), h_le⟩, ?_⟩
  · -- the first fragment has bytes in it
    rintro rfl
    exact h_gap ⟨_, h_mem, Nat.le_refl _, Nat.lt_of_le_of_lt h_le h_spans.2⟩
  · intro other h_other h_other_le
    rcases mem_insert.mp h_other with rfl | ⟨-, h_there⟩
    · -- behind the start of the first fragment the new one would lie in it
      apply Nat.le_of_not_lt
      intro h_lt
      exact h_gap ⟨_, h_mem, Nat.le_of_lt h_lt, Nat.lt_of_le_of_lt h_other_le h_spans.2⟩
    · exact h_last other h_there h_other_le

/-- Whatever is recorded at an offset at which there are no bytes: what was read before is read
after it. -/
theorem read_insert_of_gap (h_gap : ¬ m.Covers start.toNat) (data : Bytes)
    (h : m.read offset length = some bytes) :
    (m.insert start data).read offset length = some bytes := by
  obtain ⟨tail, h_tail, -⟩ := read_eq_some_iff.mp h
  rw [read_of_tail h_tail] at h
  -- it begins with the same tail, and walks on from the same position
  rw [read_of_tail (tailFrom?_insert_of_gap h_gap data h_tail)]
  split
  · next h_fits => rwa [if_pos h_fits] at h
  · next h_short =>
    rw [if_neg h_short] at h
    obtain ⟨rest, h_walk, h_bytes⟩ := Option.map_eq_some_iff.mp h
    have h_none : ∀ fragment ∈ m.fragments.entries, ¬ Spans fragment start.toNat :=
      fun fragment h_mem h_spans => h_gap ⟨fragment, h_mem, h_spans⟩
    exact Option.map_eq_some_iff.mpr ⟨rest, walk_insertEntry h_none data h_walk, h_bytes⟩

/-- Fragments that overlap, an empty one, and two that meet. -/
def uneven : FragmentMap :=
  ofInserts [(0, [1, 2, 3, 4]), (1, [9]), (4, []), (8, [5]), (9, [6, 7])]

/-- A long fragment in place of the empty one runs over the fragments behind it. -/
theorem uneven_read_insert : ¬ uneven.Covers (4 : UInt64).toNat ∧
    uneven.read 8 3 = some [5, 6, 7] ∧
    (uneven.insert 4 [40, 41, 42, 43, 44, 45]).read 8 3 = some [5, 6, 7] := by
  have h_gap : ¬ uneven.Covers (4 : UInt64).toNat := by decide
  have h_read : uneven.read 8 3 = some [5, 6, 7] := by decide
  exact ⟨h_gap, h_read, read_insert_of_gap h_gap _ h_read⟩

end FragmentMap

end OperationFeed
