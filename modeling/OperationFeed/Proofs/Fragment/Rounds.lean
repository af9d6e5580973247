import OperationFeed.Proofs.Fragment.Stored

/-!
# Reading in rounds

A range can be read in rounds, with look-ups of single offsets and in 64 bits. A reading holds the
fragment at the offset at which it has arrived, if there is one (`Reading`). Each round takes a
slice of that fragment and looks up the offset behind it (`FragmentMap.round`), and in the end the
slices are joined, unless there is only one. A reading in rounds has no list of the fragments to go
through, and it may run past the last offset.

* `FragmentMap.exists_playsOut` says that the rounds come to what the walk gives, and that there are
  no more of them than fragments, but for a last one that finds nothing;
* `FragmentMap.exists_readInRounds` says this of a whole reading, whatever the fragments.
-/

namespace OperationFeed

/-! ### Rounds -/

/-- The offset that lies a number of bytes after another one, unless it is past the last one. -/
def offsetAfter? (offset : UInt64) (count : Nat) : Option UInt64 :=
  if offset.toNat + count < offsetLimit then some (offset + UInt64.ofNat count) else none

/-- How a reading in rounds has ended. -/
inductive ReadEnding where
  -- All the bytes are there.
  | found (bytes : Bytes)
  -- A byte is missing.
  | missed
  -- The next offset would be past the last one.
  | overflowed
deriving DecidableEq

/-- The bytes that were found. -/
def ReadEnding.answer? : ReadEnding → Option Bytes
  | found bytes => some bytes
  | missed => none
  | overflowed => none

/-- A reading on its way. -/
structure Reading where
  /-- The offset at which it has arrived. -/
  current : UInt64
  /-- The fragment there, from that offset on. -/
  fragment? : Option Bytes
  /-- How many bytes are still to be read. -/
  remaining : Nat
  /-- What was taken so far, piece by piece. -/
  slices : List Bytes

/-- What a round comes to. -/
inductive Round where
  | goesOn (reading : Reading)
  | ends (ending : ReadEnding)

/-- Slices put together; a single one is given as it is. -/
def joined : List Bytes → Bytes
  | [slice] => slice
  | slices => slices.flatten

/-- One slice or many, they are put together in their order. -/
theorem joined_eq_flatten (slices : List Bytes) : joined slices = slices.flatten := by
  unfold joined
  split
  · rw [List.flatten_singleton]
  · rfl

namespace FragmentMap

/-- One round: take what the fragment has of the remaining bytes, and look up the offset behind. -/
def round (m : FragmentMap) (reading : Reading) : Round :=
  if reading.remaining = 0 then
    .ends (.found (joined reading.slices))
  else
    match reading.fragment? with
    | none => .ends .missed
    | some [] => .ends .missed
    | some data =>
      let count := min reading.remaining data.length
      let slices := reading.slices ++ [data.take count]
      let remaining := reading.remaining - count
      if remaining = 0 then
        .ends (.found (joined slices))
      else
        match offsetAfter? reading.current count with
        | none => .ends .overflowed
        | some current => .goesOn ⟨current, m.fragments.get? current, remaining, slices⟩

/-- The ending of a reading, if it ends within a number of rounds. -/
def play (m : FragmentMap) : Nat → Reading → Option ReadEnding
  | 0, _ => none
  | rounds + 1, reading =>
    match m.round reading with
    | .goesOn next => m.play rounds next
    | .ends ending => some ending

/-- What there is to a reading before its first round. -/
def startReading (m : FragmentMap) (offset : UInt64) (length : Nat) : Round :=
  match m.fragments.floor? offset with
  | none => .ends .missed
  | some (start, data) =>
    match offsetAfter? start data.length with
    | none => .ends .overflowed
    | some stop =>
      if stop ≤ offset then
        .ends .missed
      else
        .goesOn ⟨offset, some (data.drop (offset - start).toNat), length, []⟩

/-- Read `length` bytes from `offset` on, in a number of rounds at most. -/
def readInRounds (m : FragmentMap) (rounds : Nat) (offset : UInt64) (length : Nat) :
    Option ReadEnding :=
  match m.startReading offset length with
  | .goesOn reading => m.play rounds reading
  | .ends ending => some ending

end FragmentMap

variable {m : FragmentMap} {entries rest : List (UInt64 × Bytes)} {offset start current : UInt64}
  {count length remaining : Nat} {data : Bytes} {slices : List Bytes}

/-- There is no such offset exactly if it would be past the last one. -/
theorem offsetAfter?_eq_none_iff : offsetAfter? offset count = none ↔
    offsetLimit ≤ offset.toNat + count := by
  rw [offsetAfter?]
  split
  · next h => exact iff_of_false (Option.some_ne_none _) (Nat.not_le.mpr h)
  · next h => exact iff_of_true rfl (Nat.le_of_not_lt h)

/-- Where there is such an offset, nothing has wrapped around. -/
theorem toNat_of_offsetAfter? (h : offsetAfter? offset count = some current) :
    current.toNat = offset.toNat + count := by
  rw [offsetAfter?] at h
  split at h
  · next h_room =>
    obtain rfl := Option.some.inj h
    have h_count : count < UInt64.size := Nat.lt_of_le_of_lt (Nat.le_add_left ..) h_room
    rw [UInt64.toNat_add, UInt64.toNat_ofNat_of_lt' h_count]
    exact Nat.mod_eq_of_lt h_room
  · cases h

namespace FragmentMap

/-! ### What a round comes to -/

/-- Nothing remains, so the slices are the answer. -/
theorem round_of_done :
    m.round ⟨current, fragment?, 0, slices⟩ = .ends (.found slices.flatten) := by
  rw [round, if_pos rfl, joined_eq_flatten]

/-- Something remains, and there is no fragment to take it from. -/
theorem round_of_none : m.round ⟨current, none, remaining + 1, slices⟩ = .ends .missed :=
  if_neg (Nat.succ_ne_zero _)

/-- An empty fragment is as good as none. -/
theorem round_of_nil : m.round ⟨current, some [], remaining + 1, slices⟩ = .ends .missed :=
  if_neg (Nat.succ_ne_zero _)

/-- The fragment has all that remains. -/
theorem round_of_fits (h_data : data ≠ []) (h_fits : remaining + 1 ≤ data.length) :
    m.round ⟨current, some data, remaining + 1, slices⟩ =
      .ends (.found (slices.flatten ++ data.take (remaining + 1))) := by
  obtain ⟨byte, data, rfl⟩ := List.exists_cons_of_ne_nil h_data
  simp only [round, Nat.min_eq_left h_fits, Nat.sub_self, if_neg (Nat.succ_ne_zero _), if_true,
    joined_eq_flatten, List.flatten_append, List.flatten_singleton]

/-- All of the fragment is taken. -/
theorem round_of_short (m : FragmentMap) (current : UInt64) (slices : List Bytes)
    (h_data : data ≠ []) (h_short : data.length ≤ remaining) :
    m.round ⟨current, some data, remaining + 1, slices⟩ =
      (offsetAfter? current data.length).elim (.ends .overflowed) fun next =>
        .goesOn ⟨next, m.fragments.get? next, remaining + 1 - data.length, slices ++ [data]⟩ := by
  -- more is needed than the fragment has
  have h_left : remaining + 1 - data.length ≠ 0 := by omega
  obtain ⟨byte, data, rfl⟩ := List.exists_cons_of_ne_nil h_data
  simp only [round, Nat.min_eq_right (Nat.le_succ_of_le h_short), if_neg (Nat.succ_ne_zero _),
    if_neg h_left, List.take_length]
  cases offsetAfter? current (byte :: data).length <;> rfl

/-! ### The rounds of a reading -/

/-- A reading has fragments before it: what it holds is the one at its offset, and those that the
look-ups can find further on are the ones behind it. -/
structure Faces (m : FragmentMap) (reading : Reading) (entries : List (UInt64 × Bytes)) :
    Prop where
  sorted : entries.Pairwise fun a b => a.1.toNat < b.1.toNat
  here : ∀ data, reading.fragment? = some data ↔ (reading.current, data) ∈ entries
  ahead : ∀ fragment, reading.current.toNat < fragment.1.toNat →
    (fragment ∈ m.fragments.entries ↔ fragment ∈ entries)

namespace Faces

variable {reading : Reading} {head : UInt64 × Bytes}

/-- A fragment that the reading has passed is not before it. -/
theorem pass (h : m.Faces reading (head :: rest))
    (h_passed : head.1.toNat < reading.current.toNat) : m.Faces reading rest where
  sorted := h.sorted.of_cons
  here data := by
    have h_ne : (reading.current, data) ≠ head := by
      rintro rfl
      exact Nat.lt_irrefl _ h_passed
    rw [h.here, List.mem_cons, or_iff_right h_ne]
  ahead fragment h_lt := by
    have h_ne : fragment ≠ head := by
      rintro rfl
      exact Nat.lt_asymm h_lt h_passed
    rw [h.ahead fragment h_lt, List.mem_cons, or_iff_right h_ne]

/-- A reading that looks up an offset behind the first fragment has the other ones before it. -/
theorem next (h : m.Faces reading (head :: rest)) (h_head : head.1.toNat ≤ reading.current.toNat)
    (h_lt : reading.current.toNat < offset.toNat) (remaining : Nat) (slices : List Bytes) :
    m.Faces ⟨offset, m.fragments.get? offset, remaining, slices⟩ rest := by
  have h_ahead : ∀ fragment : UInt64 × Bytes, offset.toNat ≤ fragment.1.toNat →
      (fragment ∈ m.fragments.entries ↔ fragment ∈ rest) := by
    intro fragment h_le
    have h_behind := Nat.lt_of_lt_of_le h_lt h_le
    have h_ne : fragment ≠ head := by
      rintro rfl
      exact Nat.not_le.mpr h_behind h_head
    rw [h.ahead fragment h_behind, List.mem_cons, or_iff_right h_ne]
  constructor
  case sorted => exact h.sorted.of_cons
  case here =>
    intro data
    rw [Table.get?_eq_some_iff]
    exact h_ahead _ (Nat.le_refl _)
  case ahead => exact fun fragment h_further => h_ahead fragment (Nat.le_of_lt h_further)

/-- Before a gap, the reading holds nothing. -/
theorem fragment?_eq_none (h : m.Faces reading (head :: rest))
    (h_gap : reading.current.toNat < head.1.toNat) : reading.fragment? = none := by
  rw [Option.eq_none_iff_forall_ne_some]
  intro data h_some
  rcases List.mem_cons.mp ((h.here data).mp h_some) with h_head | h_rest
  · rw [← h_head] at h_gap
    exact Nat.lt_irrefl _ h_gap
  · exact Nat.lt_asymm h_gap (List.rel_of_pairwise_cons h.sorted h_rest)

end Faces

/-- Behind all fragments there is nothing. -/
theorem walk_eq_none {position : Nat} (h : ∀ fragment ∈ entries, fragment.1.toNat < position)
    (h_remaining : remaining ≠ 0) : walk entries position remaining = none := by
  obtain ⟨remaining, rfl⟩ := Nat.exists_eq_succ_of_ne_zero h_remaining
  induction entries with
  | nil => rfl
  | cons head entries ih =>
    rw [walk, if_pos (h head (List.mem_cons_self ..))]
    exact ih fun fragment h_mem => h fragment (List.mem_cons_of_mem _ h_mem)

/-- A reading ends within a number of rounds, with an answer. It overflows only if one of the
fragments before it reaches past the last offset. -/
structure PlaysOut (m : FragmentMap) (reading : Reading) (entries : List (UInt64 × Bytes))
    (rounds : Nat) (ending : ReadEnding) (answer? : Option Bytes) : Prop where
  played : m.play rounds reading = some ending
  answer : ending.answer? = answer?
  overflow : ending = .overflowed →
    ∃ fragment ∈ entries, offsetLimit ≤ fragment.1.toNat + fragment.2.length

namespace PlaysOut

variable {reading next : Reading} {rounds : Nat} {ending : ReadEnding} {answer? : Option Bytes}
  {head : UInt64 × Bytes}

/-- A reading whose first round has all it needs. -/
theorem of_found {bytes : Bytes} (h_round : m.round reading = .ends (.found bytes)) :
    m.PlaysOut reading entries 1 (.found bytes) (some bytes) where
  played := by rw [play, h_round]
  answer := rfl
  overflow h_ending := by cases h_ending

/-- A reading whose first round misses a byte. -/
theorem of_missed (h_round : m.round reading = .ends .missed) :
    m.PlaysOut reading entries 1 .missed none where
  played := by rw [play, h_round]
  answer := rfl
  overflow h_ending := by cases h_ending

/-- Nothing remains to be read. -/
theorem of_done : m.PlaysOut ⟨current, fragment?, 0, slices⟩ entries 1 (.found slices.flatten)
    ((walk entries current.toNat 0).map (slices.flatten ++ ·)) := by
  rw [walk, Option.map_some, List.append_nil]
  exact .of_found round_of_done

/-- One more fragment before the reading changes nothing. -/
theorem cons (h : m.PlaysOut reading rest rounds ending answer?) (head : UInt64 × Bytes) :
    m.PlaysOut reading (head :: rest) rounds ending answer? where
  played := h.played
  answer := h.answer
  overflow h_ending := by
    obtain ⟨fragment, h_mem, h_reach⟩ := h.overflow h_ending
    exact ⟨fragment, List.mem_cons_of_mem _ h_mem, h_reach⟩

/-- A round that goes on leaves the ending to the rounds after it. -/
theorem of_goesOn (h_round : m.round reading = .goesOn next)
    (h : m.PlaysOut next rest rounds ending answer?) :
    m.PlaysOut reading (head :: rest) (rounds + 1) ending answer? where
  played := by
    rw [play, h_round]
    exact h.played
  answer := h.answer
  overflow := (h.cons head).overflow

/-- All of the fragment at the offset is taken, and more is needed: the reading goes on behind it,
unless that is past the last offset, where there is nothing. -/
theorem exists_of_short (h_data : data ≠ []) (h_short : data.length ≤ remaining)
    (h_next : ∀ next : UInt64, next.toNat = start.toNat + data.length →
      ∃ rounds ≤ rest.length + 1, ∃ ending, m.PlaysOut
        ⟨next, m.fragments.get? next, remaining + 1 - data.length, slices ++ [data]⟩ rest
          rounds ending
        ((walk rest next.toNat (remaining + 1 - data.length)).map
          ((slices ++ [data]).flatten ++ ·))) :
    ∃ rounds ≤ ((start, data) :: rest).length + 1, ∃ ending, m.PlaysOut
      ⟨start, some data, remaining + 1, slices⟩ ((start, data) :: rest) rounds ending
      (((walk rest (start.toNat + data.length) (remaining + 1 - data.length)).map (data ++ ·)).map
        (slices.flatten ++ ·)) := by
  have h_round := m.round_of_short start slices h_data h_short
  cases h_offset : offsetAfter? start data.length with
  | none =>
    rw [h_offset] at h_round
    have h_reach : offsetLimit ≤ start.toNat + data.length := offsetAfter?_eq_none_iff.mp h_offset
    -- past the last offset there is no fragment for the walk either
    have h_walk : walk rest (start.toNat + data.length) (remaining + 1 - data.length) = none :=
      walk_eq_none (fun fragment _ => Nat.lt_of_lt_of_le fragment.1.toNat_lt_size h_reach)
        (Nat.sub_ne_zero_of_lt (Nat.lt_succ_of_le h_short))
    refine ⟨1, Nat.le_add_left .., .overflowed, ⟨?_, ?_, fun _ => ?_⟩⟩
    · rw [play, h_round, Option.elim_none]
    · rw [h_walk]
      rfl
    · exact ⟨(start, data), List.mem_cons_self .., h_reach⟩
  | some next =>
    rw [h_offset] at h_round
    have h_offset := toNat_of_offsetAfter? h_offset
    obtain ⟨rounds, h_rounds, ending, h_plays⟩ := h_next next h_offset
    refine ⟨rounds + 1, Nat.succ_le_succ h_rounds, ending, ?_⟩
    -- the piece goes to the slices instead of before what comes later
    have h_slices : (slices.flatten ++ ·) ∘ (data ++ ·) = ((slices ++ [data]).flatten ++ ·) := by
      funext tail
      calc slices.flatten ++ (data ++ tail) = slices.flatten ++ data ++ tail :=
          (List.append_assoc ..).symm
        _ = (slices ++ [data]).flatten ++ tail := by
          rw [List.flatten_append, List.flatten_singleton]
    rw [Option.map_map, h_slices, ← h_offset]
    exact .of_goesOn h_round h_plays

end PlaysOut

/-- The rounds of a reading come to an end, with what it has and what the walk through the fragments
before it gives. -/
theorem exists_playsOut {reading : Reading} (h : m.Faces reading entries) :
    ∃ rounds ≤ entries.length + 1, ∃ ending, m.PlaysOut reading entries rounds ending
      ((walk entries reading.current.toNat reading.remaining).map
        (reading.slices.flatten ++ ·)) := by
  -- along the fragments before the reading; the rounds skip those that the walk passes
  induction entries generalizing reading with
  | nil =>
    obtain ⟨current, fragment?, remaining, slices⟩ := reading
    cases remaining with
    | zero => exact ⟨1, Nat.le_refl _, _, .of_done⟩
    | succ remaining =>
      obtain rfl : fragment? = none := by
        rw [Option.eq_none_iff_forall_ne_some]
        exact fun data h_some => absurd ((h.here data).mp h_some) List.not_mem_nil
      exact ⟨1, Nat.le_refl _, _, .of_missed round_of_none⟩
  | cons head rest ih =>
    obtain ⟨current, fragment?, remaining, slices⟩ := reading
    obtain ⟨start, data⟩ := head
    cases remaining with
    | zero => exact ⟨1, Nat.le_add_left .., _, .of_done⟩
    | succ remaining =>
      rcases Nat.lt_trichotomy start.toNat current.toNat with h_passed | h_here | h_gap
      · -- the fragment starts before the offset
        obtain ⟨rounds, h_rounds, ending, h_plays⟩ := ih (h.pass h_passed)
        refine ⟨rounds, Nat.le_succ_of_le h_rounds, ending, ?_⟩
        rw [walk, if_pos h_passed]
        exact h_plays.cons _
      · -- it is the one that the reading holds
        obtain rfl : start = current := UInt64.toNat_inj.mp h_here
        obtain rfl : fragment? = some data := (h.here data).mpr (List.mem_cons_self ..)
        rw [walk, if_neg (Nat.lt_irrefl _)]
        by_cases h_data : data = []
        · subst h_data
          rw [if_neg fun h_here => h_here.2 rfl]
          exact ⟨1, Nat.le_add_left .., _, .of_missed round_of_nil⟩
        rw [if_pos ⟨rfl, h_data⟩]
        by_cases h_fits : remaining + 1 ≤ data.length
        · rw [if_pos h_fits]
          exact ⟨1, Nat.le_add_left .., _, .of_found (round_of_fits h_data h_fits)⟩
        rw [if_neg h_fits]
        refine PlaysOut.exists_of_short h_data (Nat.le_of_lt_succ (Nat.lt_of_not_le h_fits)) ?_
        intro next h_next
        apply ih (h.next (Nat.le_refl _) _ _ _)
        rw [h_next]
        exact Nat.lt_add_of_pos_right (List.length_pos_iff.mpr h_data)
      · -- there is a gap
        obtain rfl := h.fragment?_eq_none h_gap
        rw [walk, if_neg (Nat.lt_asymm h_gap), if_neg fun h_here => Nat.ne_of_gt h_gap h_here.1]
        exact ⟨1, Nat.le_add_left .., _, .of_missed round_of_none⟩

/-! ### Whole readings -/

/-- With a tail of a fragment to begin with, the reading goes on. -/
theorem startReading_of_tail {tail : Bytes} (h : m.tailFrom? offset = some tail) (length : Nat) :
    m.startReading offset length = .goesOn ⟨offset, some tail, length, []⟩ := by
  obtain ⟨start, data, h_floor, h_spans, h_room, rfl⟩ := tailFrom?_eq_some_iff.mp h
  have h_start : start ≤ offset := UInt64.le_iff_toNat_le.mpr h_spans.1
  cases h_offset : offsetAfter? start data.length with
  | none => exact absurd (offsetAfter?_eq_none_iff.mp h_offset) (Nat.not_le.mpr h_room)
  | some stop =>
    have h_stop : ¬ stop ≤ offset := by
      rw [UInt64.le_iff_toNat_le, toNat_of_offsetAfter? h_offset]
      exact Nat.not_le.mpr h_spans.2
    simp only [startReading, h_floor, h_offset, if_neg h_stop, UInt64.toNat_sub_of_le _ _ h_start]

/-- Without one, it ends before the first round. -/
theorem startReading_of_no_tail (h : m.tailFrom? offset = none) (length : Nat) :
    m.startReading offset length = .ends .missed ∨
      m.startReading offset length = .ends .overflowed ∧ ∃ fragment ∈ m.fragments.entries,
        offsetLimit ≤ fragment.1.toNat + fragment.2.length := by
  rw [startReading]
  cases h_floor : m.fragments.floor? offset with
  | none => exact .inl rfl
  | some entry =>
    obtain ⟨start, data⟩ := entry
    obtain ⟨⟨h_mem, h_start⟩, -⟩ := Table.floor?_spec h_floor
    simp only
    cases h_offset : offsetAfter? start data.length with
    | none => exact .inr ⟨rfl, _, h_mem, offsetAfter?_eq_none_iff.mp h_offset⟩
    | some stop =>
      have h_stop := toNat_of_offsetAfter? h_offset
      refine .inl (if_pos ?_)
      -- a fragment that ends behind the offset would have a tail there
      by_contra h_not
      rw [UInt64.le_iff_toNat_le, h_stop] at h_not
      have h_room : start.toNat + data.length < offsetLimit := h_stop ▸ stop.toNat_lt_size
      have h_tail := tailFrom?_eq_some_iff.mpr
        ⟨start, data, h_floor, ⟨h_start, Nat.lt_of_not_le h_not⟩, h_room, rfl⟩
      rw [h] at h_tail
      cases h_tail

/-- The fragment that a reading begins with is not above the offset. -/
theorem length_above_lt {tail : Bytes} (h : m.tailFrom? offset = some tail) :
    (m.fragments.above offset).length < m.size := by
  obtain ⟨start, data, h_floor, -⟩ := tailFrom?_eq_some_iff.mp h
  obtain ⟨⟨h_mem, h_start⟩, -⟩ := Table.floor?_spec h_floor
  refine List.length_filter_lt_length_iff_exists.mpr ⟨_, h_mem, ?_⟩
  exact fun h_lt => Nat.not_lt.mpr h_start (of_decide_eq_true h_lt)

/-- A reading starts with the tail of the fragment at or below the offset before it, and the
fragments above the offset. -/
theorem faces_of_tail (m : FragmentMap) (offset : UInt64) (length : Nat) (tail : Bytes) :
    m.Faces ⟨offset, some tail, length, []⟩ ((offset, tail) :: m.fragments.above offset) := by
  have h_above : ∀ fragment ∈ m.fragments.above offset, offset.toNat < fragment.1.toNat :=
    fun fragment h_mem => of_decide_eq_true (List.mem_filter.mp h_mem).2
  constructor
  case sorted => exact .cons h_above (m.fragments.sorted.filter _)
  case here =>
    intro data
    -- above the offset nothing starts at it
    have h_not : (offset, data) ∉ m.fragments.above offset :=
      fun h_mem => Nat.lt_irrefl _ (h_above _ h_mem)
    rw [List.mem_cons, or_iff_left h_not, Option.some.injEq, Prod.mk.injEq, eq_comm]
    exact (and_iff_right rfl).symm
  case ahead =>
    intro fragment h_lt
    have h_ne : fragment ≠ (offset, tail) := by
      rintro rfl
      exact Nat.lt_irrefl _ h_lt
    rw [List.mem_cons, or_iff_right h_ne, Table.above, List.mem_filter, and_iff_left]
    exact decide_eq_true h_lt

/-- Reading in rounds comes to an end, with what is read in one walk, whatever the fragments: after
so many rounds as there are fragments, and one more, if not before. It overflows only if a fragment
reaches past the last offset. -/
theorem exists_readInRounds (m : FragmentMap) (offset : UInt64) (length : Nat) :
    ∃ rounds ≤ m.size + 1, ∃ ending, m.readInRounds rounds offset length = some ending ∧
      ending.answer? = m.read offset length ∧
      (ending = .overflowed → ∃ fragment ∈ m.fragments.entries,
        offsetLimit ≤ fragment.1.toNat + fragment.2.length) := by
  cases h_tail : m.tailFrom? offset with
  | none =>
    have h_read : m.read offset length = none := by
      rw [read, h_tail]
      rfl
    -- with nothing to begin with there are no rounds at all
    rcases startReading_of_no_tail h_tail length with h_start | ⟨h_start, h_reach⟩
    · refine ⟨0, Nat.zero_le _, .missed, by rw [readInRounds, h_start], h_read.symm, ?_⟩
      intro h_overflow
      cases h_overflow
    · refine ⟨0, Nat.zero_le _, .overflowed, by rw [readInRounds, h_start], h_read.symm, ?_⟩
      exact fun _ => h_reach
  | some tail =>
    obtain ⟨rounds, h_rounds, ending, h_plays⟩ :=
      exists_playsOut (m.faces_of_tail offset length tail)
    refine ⟨rounds, ?_, ending, ?_, ?_, fun h_overflow => ?_⟩
    · exact Nat.le_trans h_rounds (Nat.succ_le_succ (length_above_lt h_tail))
    · rw [readInRounds, startReading_of_tail h_tail]
      exact h_plays.played
    · rw [h_plays.answer, read, h_tail]
      exact Option.map_id'
    · obtain ⟨fragment, h_mem, h_reach⟩ := h_plays.overflow h_overflow
      rcases List.mem_cons.mp h_mem with rfl | h_above
      · -- the tail ends where its fragment does
        obtain ⟨start, data, -, h_spans, h_room, rfl⟩ := tailFrom?_eq_some_iff.mp h_tail
        rw [← add_length_drop h_spans] at h_room
        exact absurd h_reach (Nat.not_le.mpr h_room)
      · exact ⟨fragment, (List.mem_filter.mp h_above).1, h_reach⟩

end FragmentMap

end OperationFeed
