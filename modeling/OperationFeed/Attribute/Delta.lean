import OperationFeed.Attribute.Id

/-!
# Attribute deltas

A segment's attributes map identifiers to 64-bit signed values. A *delta* says what happens to one
of them: it gets a value, or it goes. A list of deltas is applied from left to right, so the last
delta that names an identifier decides about it.
-/

namespace OperationFeed

/-- What happens to one attribute. -/
inductive AttributeChange where
  -- The attribute gets this value, whether or not it had one.
  | upsert (value : Int64)
  -- The attribute goes, if it was there.
  | delete
deriving DecidableEq

/-- A change of one attribute. -/
structure AttributeDelta where
  id : AttributeId
  change : AttributeChange
deriving DecidableEq

/-- The attributes of one segment. -/
abbrev AttributeMap : Type := Table AttributeId Int64

namespace AttributeMap

/-- The attributes after one delta. -/
def applyDelta (m : AttributeMap) (d : AttributeDelta) : AttributeMap :=
  match d.change with
  | .upsert value => m.insert d.id value
  | .delete => m.erase d.id

/-- The attributes after a list of deltas, applied from left to right. -/
def applyAll (m : AttributeMap) (ds : List AttributeDelta) : AttributeMap :=
  ds.foldl applyDelta m

end AttributeMap

end OperationFeed
