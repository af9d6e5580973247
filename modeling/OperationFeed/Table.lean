/-!
# Tables in key order

A `Table κ ν` is a finite map from keys to values. Its keys carry a number, their *rank*, and the
entries are held in strictly increasing rank. A map has therefore exactly one table, so two tables
with the same look-ups are equal, and every question about the order of keys (the entry at or
below a key, the entries above it, the removal of a range) is read off the list of entries.

* `Table.get?` with `Table.get?_insert`, `Table.get?_erase`, `Table.get?_retain` describe each
  operation by what a look-up sees after it;
* `Table.ext_get?` says that look-ups determine a table;
* `Table.floor?` and `Table.above` cut the entries at a key.
-/

namespace OperationFeed

/-- A type whose values are told apart, and ordered, by a natural number. -/
class Ranked (κ : Type) where
  rank : κ → Nat
  rank_injective : ∀ {a b : κ}, rank a = rank b → a = b

export Ranked (rank)

instance : Ranked UInt64 where
  rank := UInt64.toNat
  rank_injective h := UInt64.toNat_inj.mp h

@[simp] theorem rank_uint64 (n : UInt64) : rank n = n.toNat := rfl

/-- The rank tells keys apart. -/
theorem rank_inj {κ : Type} [Ranked κ] {a b : κ} : rank a = rank b ↔ a = b :=
  ⟨Ranked.rank_injective, fun h => h ▸ rfl⟩

/-- A finite map from `κ` to `ν`: its entries, in strictly increasing order of their keys. -/
structure Table (κ ν : Type) [Ranked κ] where
  /-- Key and value pairs, smallest key first. -/
  entries : List (κ × ν)
  sorted : entries.Pairwise (fun a b => rank a.1 < rank b.1)

namespace Table

variable {κ ν : Type} [Ranked κ]

/-- A table is its entries: that they are sorted is a proposition. -/
@[ext] theorem ext {s t : Table κ ν} (h : s.entries = t.entries) : s = t := by
  obtain ⟨l, _⟩ := s
  obtain ⟨m, _⟩ := t
  obtain rfl : l = m := h
  rfl

/-- The table without entries. -/
def empty : Table κ ν := ⟨[], .nil⟩

instance : EmptyCollection (Table κ ν) := ⟨empty⟩
instance : Inhabited (Table κ ν) := ⟨empty⟩

/-- The number of entries. -/
def size (t : Table κ ν) : Nat := t.entries.length

/-- Whether there are no entries. -/
def isEmpty (t : Table κ ν) : Bool := t.entries.isEmpty

/-- The value stored under a key. -/
def get? (t : Table κ ν) (k : κ) : Option ν :=
  (t.entries.find? (fun e => rank e.1 == rank k)).map (·.2)

/-- Whether a key has a value. -/
def contains (t : Table κ ν) (k : κ) : Bool := (t.get? k).isSome

/-! ### Insertion -/

/-- Put an entry at its place, in place of one with the same key. -/
def insertEntry (k : κ) (v : ν) : List (κ × ν) → List (κ × ν)
  | [] => [(k, v)]
  | e :: rest =>
    if rank k < rank e.1 then (k, v) :: e :: rest
    else if rank k = rank e.1 then (k, v) :: rest
    else e :: insertEntry k v rest

/-- An insertion brings in one entry, and no other. -/
theorem mem_of_mem_insertEntry {k : κ} {v : ν} {e : κ × ν} {l : List (κ × ν)}
    (h : e ∈ insertEntry k v l) : e = (k, v) ∨ e ∈ l := by
  induction l with
  | nil => simpa [insertEntry] using h
  | cons a rest ih =>
    rw [insertEntry] at h
    split at h
    · exact List.mem_cons.mp h
    · split at h
      · rcases List.mem_cons.mp h with h_new | h_rest
        · exact .inl h_new
        · exact .inr (List.mem_cons_of_mem _ h_rest)
      · rcases List.mem_cons.mp h with rfl | h_rest
        · exact .inr List.mem_cons_self
        · exact (ih h_rest).imp id (List.mem_cons_of_mem _)

/-- An entry that is put at its place leaves the order of the others. -/
theorem sorted_insertEntry {k : κ} {v : ν} {l : List (κ × ν)}
    (h : l.Pairwise (fun a b => rank a.1 < rank b.1)) :
    (insertEntry k v l).Pairwise (fun a b => rank a.1 < rank b.1) := by
  induction l with
  | nil => exact List.pairwise_singleton _ _
  | cons a rest ih =>
    have h_rest : ∀ b ∈ rest, rank a.1 < rank b.1 := fun b h_b => List.rel_of_pairwise_cons h h_b
    rw [insertEntry]
    -- the new entry comes before the first one, in its place, or after it
    split
    · next h_lt =>
      refine h.cons fun b h_b => ?_
      rcases List.mem_cons.mp h_b with rfl | h_b
      · exact h_lt
      · exact Nat.lt_trans h_lt (h_rest b h_b)
    · next h_not_lt =>
      split
      · next h_eq => exact h.of_cons.cons fun b h_b => h_eq ▸ h_rest b h_b
      · next h_ne =>
        refine (ih h.of_cons).cons fun b h_b => ?_
        rcases mem_of_mem_insertEntry h_b with rfl | h_b
        · exact Nat.lt_of_le_of_ne (Nat.le_of_not_lt h_not_lt) (Ne.symm h_ne)
        · exact h_rest b h_b

/-- Store a value under a key, replacing the one stored there. -/
def insert (t : Table κ ν) (k : κ) (v : ν) : Table κ ν :=
  ⟨insertEntry k v t.entries, sorted_insertEntry t.sorted⟩

/-! ### Removal -/

/-- Keep the entries whose keys satisfy `p`. -/
def retain (t : Table κ ν) (p : κ → Bool) : Table κ ν :=
  ⟨t.entries.filter (fun e => p e.1), t.sorted.filter _⟩

/-- Remove the value stored under a key. -/
def erase (t : Table κ ν) (k : κ) : Table κ ν := t.retain (fun j => rank j != rank k)

/-! ### Order -/

/-- The entry with the greatest key at or below `k`. -/
def floor? (t : Table κ ν) (k : κ) : Option (κ × ν) :=
  (t.entries.filter (fun e => rank e.1 ≤ rank k)).getLast?

/-- The entries with keys above `k`, smallest key first. -/
def above (t : Table κ ν) (k : κ) : List (κ × ν) :=
  t.entries.filter (fun e => rank k < rank e.1)

/-! ### What a look-up sees -/

@[simp] theorem get?_empty (k : κ) : (∅ : Table κ ν).get? k = none := rfl

/-- An insertion is seen under its key alone. -/
theorem get?_insert (t : Table κ ν) (k j : κ) (v : ν) :
    (t.insert k v).get? j = if rank k = rank j then some v else t.get? j := by
  obtain ⟨l, h_sorted⟩ := t
  simp only [get?, insert]
  induction l with
  | nil => by_cases h : rank k = rank j <;> simp [insertEntry, h]
  | cons a rest ih =>
    have h_rest := ih h_sorted.of_cons
    rw [insertEntry]
    split
    -- the new entry is the first one now, and the list that it is put before is the old one
    · by_cases h : rank k = rank j <;> simp [h]
    · split
      · next h_eq =>
        by_cases h : rank k = rank j
        · simp [h]
        · have h_first : rank a.1 ≠ rank j := fun h_a => h (h_eq.trans h_a)
          simp [h, h_first]
      · next h_ne =>
        by_cases h_first : rank a.1 = rank j
        · have h : rank k ≠ rank j := fun h_k => h_ne (h_k.trans h_first.symm)
          simp [h_first, h]
        · -- the first entry is not looked for, so the look-up goes on in the rest
          simpa [List.find?_cons, h_first] using h_rest

/-- What is kept is found as before, and nothing else. -/
theorem get?_retain (t : Table κ ν) (p : κ → Bool) (j : κ) :
    (t.retain p).get? j = if p j then t.get? j else none := by
  obtain ⟨l, h_sorted⟩ := t
  simp only [get?, retain]
  induction l with
  | nil => simp
  | cons a rest ih =>
    have h_rest := ih h_sorted.of_cons
    by_cases h_first : rank a.1 = rank j
    · -- the first entry is the one that is looked for, and is kept if its key is to be
      obtain rfl : a.1 = j := rank_inj.mp h_first
      cases h_keep : p a.1 with
      | true => simp [h_keep]
      | false => simpa [h_keep] using h_rest
    · cases h_keep : p a.1 <;> simpa [h_keep, List.find?_cons, h_first] using h_rest

/-- The first entry is found under its own key. -/
theorem find?_first (e : κ × ν) (l : List (κ × ν)) :
    (e :: l).find? (fun other => rank other.1 == rank e.1) = some e :=
  List.find?_cons_of_pos (beq_self_eq_true _)

/-- A key below all that are there is not found. -/
theorem find?_eq_none_of_lt {l : List (κ × ν)} {k : κ} (h : ∀ e ∈ l, rank k < rank e.1) :
    l.find? (fun e => rank e.1 == rank k) = none := by
  refine List.find?_eq_none.mpr fun e h_e => ?_
  rw [beq_iff_eq]
  exact Nat.ne_of_gt (h e h_e)

/-- A key that is found in a sorted list is not below its first one. -/
theorem not_lt_of_find?_eq {a b : κ × ν} {l m : List (κ × ν)}
    (h_sorted : (b :: m).Pairwise (fun a b => rank a.1 < rank b.1))
    (h : ((a :: l).find? (fun e => rank e.1 == rank a.1)).map (·.2) =
      ((b :: m).find? (fun e => rank e.1 == rank a.1)).map (·.2)) : ¬ rank a.1 < rank b.1 := by
  intro h_lt
  have h_none : (b :: m).find? (fun e => rank e.1 == rank a.1) = none := by
    refine find?_eq_none_of_lt fun e h_e => ?_
    rcases List.mem_cons.mp h_e with rfl | h_e
    · exact h_lt
    · exact Nat.lt_trans h_lt (List.rel_of_pairwise_cons h_sorted h_e)
  rw [h_none, find?_first] at h
  cases h

/-- Two tables in which every look-up sees the same are one table. -/
theorem ext_get? {s t : Table κ ν} (h : ∀ k, s.get? k = t.get? k) : s = t := by
  obtain ⟨l, h_l⟩ := s
  obtain ⟨m, h_m⟩ := t
  simp only [get?] at h
  -- the lists are compared entry by entry, so the induction is on one and for every other one
  suffices l = m by subst this; rfl
  induction l generalizing m with
  | nil =>
    cases m with
    | nil => rfl
    | cons b m =>
      have h_b := h b.1
      rw [find?_first] at h_b
      cases h_b
  | cons a l ih =>
    cases m with
    | nil =>
      have h_a := h a.1
      rw [find?_first] at h_a
      cases h_a
    | cons b m =>
      -- a first key below all of the other table would be seen in one table only
      have h_rank : rank a.1 = rank b.1 :=
        Nat.le_antisymm (Nat.le_of_not_lt (not_lt_of_find?_eq h_l (h b.1).symm))
          (Nat.le_of_not_lt (not_lt_of_find?_eq h_m (h a.1)))
      have h_value : a.2 = b.2 := by simpa [h_rank] using h a.1
      obtain rfl : a = b := Prod.ext (rank_inj.mp h_rank) h_value
      refine congrArg (a :: ·) (ih h_l.of_cons m h_m.of_cons fun k => ?_)
      by_cases h_k : rank a.1 = rank k
      · -- the common first key is in neither rest
        have h_above : ∀ {rest : List (κ × ν)},
            (a :: rest).Pairwise (fun a b => rank a.1 < rank b.1) →
              rest.find? (fun e => rank e.1 == rank k) = none := by
          intro rest h_sorted
          exact find?_eq_none_of_lt fun e h_e => h_k ▸ List.rel_of_pairwise_cons h_sorted h_e
        rw [h_above h_l, h_above h_m]
      · simpa [List.find?_cons, h_k] using h k

/-- A removal is seen under its key alone. -/
theorem get?_erase (t : Table κ ν) (k j : κ) :
    (t.erase k).get? j = if rank j = rank k then none else t.get? j := by
  by_cases h : rank j = rank k <;> simp [erase, get?_retain, h]

end Table

end OperationFeed
