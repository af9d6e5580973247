import OperationFeed.Table

/-!
# Attribute identifiers

An attribute is named by 128 bits, written as a UUID and ordered as one unsigned number. A random
identifier fixes six of the bits, so that it is a version 4 UUID of the common variant.
-/

namespace OperationFeed

/-- The 128 bits that name an attribute, as a high and a low half. -/
structure AttributeId where
  high : UInt64
  low : UInt64
deriving DecidableEq

namespace AttributeId

/-- The two halves read as one number. -/
def toNat (a : AttributeId) : Nat := a.high.toNat * UInt64.size + a.low.toNat

theorem toNat_injective {a b : AttributeId} (h : a.toNat = b.toNat) : a = b := by
  have ha := a.low.toNat_lt
  have hb := b.low.toNat_lt
  obtain ⟨ah, al⟩ := a
  obtain ⟨bh, bl⟩ := b
  simp only [toNat, UInt64.size] at h ha hb
  simp only [mk.injEq, ← UInt64.toNat_inj]
  omega

instance : Ranked AttributeId where
  rank := toNat
  rank_injective h := toNat_injective h

/-! ### Text -/

/-- The `count` lowest hexadecimal digits of `n`, in lower case, least significant first. -/
def hexDigitsUp : (count n : Nat) → List Char
  | 0, _ => []
  | count + 1, n => (n % 16).digitChar :: hexDigitsUp count (n / 16)

/-- The `count` lowest hexadecimal digits of `n`, in lower case, most significant first. -/
def hexDigits (count n : Nat) : List Char := (hexDigitsUp count n).reverse

/-- The UUID text: groups of 8, 4, 4, 4 and 12 hexadecimal digits. -/
def text (a : AttributeId) : String :=
  let digits := hexDigits 32 a.toNat
  let group (start count : Nat) : List Char := (digits.drop start).take count
  String.ofList (group 0 8 ++ '-' :: group 8 4 ++ '-' :: group 12 4 ++ '-' :: group 16 4
    ++ '-' :: group 20 12)

instance : ToString AttributeId := ⟨text⟩

/-! ### Random identifiers -/

/-- The four bits that hold a UUID's version. -/
def version (a : AttributeId) : UInt64 := (a.high >>> 12) &&& 0xf

/-- Whether the two highest bits of the low half mark the common variant, binary `10`. -/
def isCommonVariant (a : AttributeId) : Bool := a.low >>> 62 == 2

/-- Whether this is a version 4 UUID of the common variant, the form of random identifiers. -/
def isVersion4 (a : AttributeId) : Bool := a.version == 4 && a.isCommonVariant

/-- The version 4 UUID whose other bits are those of `a`. -/
def stamp (a : AttributeId) : AttributeId where
  high := (a.high &&& 0xffffffffffff0fff) ||| 0x4000
  low := (a.low &&& 0x3fffffffffffffff) ||| 0x8000000000000000

/-- An identifier from a source of random numbers, and the source afterwards. -/
def random {γ : Type} [RandomGen γ] (g : γ) : AttributeId × γ :=
  let (high, g) := randNat g 0 (UInt64.size - 1)
  let (low, g) := randNat g 0 (UInt64.size - 1)
  (stamp ⟨.ofNat high, .ofNat low⟩, g)

/-- As many random identifiers as asked for. -/
def randoms {γ : Type} [RandomGen γ] : Nat → γ → List AttributeId
  | 0, _ => []
  | n + 1, g =>
    let (a, g) := random g
    a :: randoms n g

/-- The different identifiers of a list, in increasing order. -/
def sortedUnique (ids : List AttributeId) : List AttributeId :=
  (ids.foldl (fun t a => t.insert a ()) (∅ : Table AttributeId Unit)).entries.map (·.1)

end AttributeId

end OperationFeed
