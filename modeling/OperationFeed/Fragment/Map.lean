import OperationFeed.Segment

/-!
# Fragments of one segment

A fragment is a run of bytes that starts at an offset of its segment. Fragments are kept by their
offsets, one at each, and may overlap, leave gaps or be empty. A range is read by walking from
fragment to fragment: the first is the one with the greatest offset at or below the range, and each
further one has to start exactly where the walk has arrived.

The walk goes up through the offsets, so it is one pass over the fragments after the first
(`FragmentMap.walk`), however long the range is.
-/

namespace OperationFeed

/-- The number of offsets: those of a segment are below it. -/
def offsetLimit : Nat := UInt64.size

/-- The fragments of one segment by starting offset. -/
structure FragmentMap where
  /-- The bytes of each fragment, under the offset of the first. -/
  fragments : Table UInt64 Bytes

namespace FragmentMap

/-- No fragments. -/
def empty : FragmentMap := ⟨∅⟩

instance : EmptyCollection FragmentMap := ⟨empty⟩
instance : Inhabited FragmentMap := ⟨empty⟩

/-- Put a fragment at an offset, in place of one that starts there. -/
def insert (m : FragmentMap) (offset : UInt64) (data : Bytes) : FragmentMap :=
  ⟨m.fragments.insert offset data⟩

/-- How many fragments there are. -/
def size (m : FragmentMap) : Nat := m.fragments.size

/-- Whether there are no fragments. -/
def isEmpty (m : FragmentMap) : Bool := m.fragments.isEmpty

/-- The `remaining` bytes from offset `current` on, taken from fragments in the order of their
offsets: one that starts before `current` is passed over, and one that starts there gives its
bytes. A gap, an empty fragment or the end of the list ends the walk without an answer. -/
def walk : List (UInt64 × Bytes) → Nat → Nat → Option Bytes
  | _, _, 0 => some []
  | [], _, _ + 1 => none
  | (start, data) :: rest, current, remaining + 1 =>
    if start.toNat < current then
      walk rest current (remaining + 1)
    else if start.toNat = current ∧ data ≠ [] then
      if remaining + 1 ≤ data.length then
        some (data.take (remaining + 1))
      else
        (walk rest (current + data.length) (remaining + 1 - data.length)).map (data ++ ·)
    else
      none

/-- The bytes of the fragment at or below `offset` from that offset on, unless they run past the
last offset or end before it. -/
def tailFrom? (m : FragmentMap) (offset : UInt64) : Option Bytes := do
  let (start, data) ← m.fragments.floor? offset
  let stop := start.toNat + data.length
  if offset.toNat < stop ∧ stop < offsetLimit then
    some (data.drop (offset.toNat - start.toNat))
  else
    none

/-- The `length` bytes from `offset` on, if fragments hold them. No bytes are asked for and some
are there: the answer is the empty run. -/
def read (m : FragmentMap) (offset : UInt64) (length : Nat) : Option Bytes := do
  let data ← m.tailFrom? offset
  walk ((offset, data) :: m.fragments.above offset) offset.toNat length

end FragmentMap

end OperationFeed
