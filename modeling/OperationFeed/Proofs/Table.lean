import OperationFeed.Table

/-!
# Tables as sorted lists

A look-up finds exactly the entries of a table (`Table.get?_eq_some_iff`), so a table whose look-ups
are those of a sorted list has that list as its entries (`Table.entries_eq`). The entry at or below
a key is the greatest of those that do not exceed it (`Table.floor?_eq_some_iff`), so a table that
is split at a key has it right before the cut (`Table.floor?_of_split`, `Table.above_of_split`).
-/

namespace OperationFeed

namespace Table

variable {κ ν : Type} [Ranked κ] {t : Table κ ν} {k : κ} {v : ν}

/-! ### Look-ups -/

/-- A look-up finds what is among the entries, as no two entries have one key. -/
theorem get?_eq_some_iff : t.get? k = some v ↔ (k, v) ∈ t.entries := by
  obtain ⟨l, sorted⟩ := t
  simp only [get?]
  induction l with
  | nil => simp
  | cons a l ih =>
    obtain ⟨j, w⟩ := a
    by_cases h : rank j = rank k
    · -- the key is that of the head, and no other entry has it
      obtain rfl := rank_inj.mp h
      have h_not : (j, v) ∉ l := by
        intro h_mem
        have h_lt := List.rel_of_pairwise_cons sorted h_mem
        exact Nat.lt_irrefl _ h_lt
      simp [h_not, eq_comm]
    · have h_ne : k ≠ j := fun h_eq => h (by rw [h_eq])
      rw [List.find?_cons_of_neg (by simpa using h), ih sorted.of_cons, List.mem_cons,
        Prod.mk.injEq]
      simp [h_ne]

/-- What is kept by two conditions is kept by both, in either order. -/
theorem retain_comm (p q : κ → Bool) : (t.retain p).retain q = (t.retain q).retain p := by
  apply ext
  simp only [retain, List.filter_filter, Bool.and_comm]

/-- A key has a value if there is an entry for it. -/
theorem contains_iff : t.contains k = true ↔ ∃ v, (k, v) ∈ t.entries := by
  rw [contains, Option.isSome_iff_exists]
  simp only [get?_eq_some_iff]

/-- Look-ups determine the entries of a table. -/
theorem entries_eq {l : List (κ × ν)} (sorted : l.Pairwise (fun a b => rank a.1 < rank b.1))
    (h : ∀ k v, t.get? k = some v ↔ (k, v) ∈ l) : t.entries = l := by
  have h_table : t = ⟨l, sorted⟩ := by
    apply ext_get?
    intro k
    apply Option.ext
    intro v
    rw [h, get?_eq_some_iff]
  rw [h_table]

/-- A key has one entry at most. -/
theorem eq_of_rank_eq {a b : κ × ν} (ha : a ∈ t.entries) (hb : b ∈ t.entries)
    (h : rank a.1 = rank b.1) : a = b := by
  have h_key : a.1 = b.1 := rank_inj.mp h
  have h_a : t.get? a.1 = some a.2 := get?_eq_some_iff.mpr ha
  have h_b : t.get? b.1 = some b.2 := get?_eq_some_iff.mpr hb
  rw [h_key, h_b, Option.some.injEq] at h_a
  exact Prod.ext h_key h_a.symm

/-! ### The entry at or below a key -/

/-- Nothing is at or below a key exactly if all entries are above it. -/
theorem floor?_eq_none_iff : t.floor? k = none ↔ ∀ e ∈ t.entries, rank k < rank e.1 := by
  rw [floor?, List.getLast?_eq_none_iff, List.filter_eq_nil_iff]
  simp only [decide_eq_true_iff, Nat.not_le]

/-- The entry at or below a key does not exceed it, and is the greatest that does not. -/
theorem floor?_spec {e : κ × ν} (h : t.floor? k = some e) :
    (e ∈ t.entries ∧ rank e.1 ≤ rank k) ∧
      ∀ other ∈ t.entries, rank other.1 ≤ rank k → rank other.1 ≤ rank e.1 := by
  have sorted := t.sorted.filter (fun e => rank e.1 ≤ rank k)
  have h_mem : ∀ e, e ∈ t.entries.filter (fun e => rank e.1 ≤ rank k) ↔
      e ∈ t.entries ∧ rank e.1 ≤ rank k := by
    intro e
    rw [List.mem_filter, decide_eq_true_iff]
  obtain ⟨before, h_last⟩ := List.getLast?_eq_some_iff.mp h
  -- the entry is the last one of those that do not exceed the key, and these are sorted
  rw [h_last] at sorted
  constructor
  · rw [← h_mem, h_last]
    exact List.mem_concat_self
  · intro other h_other h_le
    have h_other := (h_mem other).mpr ⟨h_other, h_le⟩
    rw [h_last] at h_other
    rcases List.mem_append.mp h_other with h_other | h_other
    · have h_below := (List.pairwise_append.mp sorted).2.2 other h_other
      exact Nat.le_of_lt (h_below e (List.mem_singleton.mpr rfl))
    · obtain rfl := List.mem_singleton.mp h_other
      exact Nat.le_refl _

/-- The entry at or below a key is the greatest one that does not exceed it. -/
theorem floor?_eq_some_iff {e : κ × ν} :
    t.floor? k = some e ↔ (e ∈ t.entries ∧ rank e.1 ≤ rank k) ∧
      ∀ other ∈ t.entries, rank other.1 ≤ rank k → rank other.1 ≤ rank e.1 := by
  refine ⟨floor?_spec, ?_⟩
  rintro ⟨⟨h_mem, h_le⟩, h_greatest⟩
  cases h_floor : t.floor? k with
  | none => exact absurd h_le (Nat.not_le.mpr (floor?_eq_none_iff.mp h_floor e h_mem))
  | some other =>
    -- two greatest entries have one key
    obtain ⟨⟨h_mem', h_le'⟩, h_greatest'⟩ := floor?_spec h_floor
    have h_rank := Nat.le_antisymm (h_greatest other h_mem' h_le') (h_greatest' e h_mem h_le)
    rw [eq_of_rank_eq h_mem' h_mem h_rank]

/-! ### A table that is split at a key -/

section Split

variable {before after : List (κ × ν)} {e : κ × ν} (h_entries : t.entries = before ++ e :: after)

include h_entries

/-- What stands before an entry has a smaller key. -/
theorem lt_of_split {other : κ × ν} (h_mem : other ∈ before) : rank other.1 < rank e.1 := by
  have sorted := t.sorted
  rw [h_entries, List.pairwise_append] at sorted
  exact sorted.2.2 other h_mem e (List.mem_cons_self ..)

variable (h_le : rank e.1 ≤ rank k) (h_after : ∀ other ∈ after, rank k < rank other.1)

include h_le h_after

/-- A table that is cut at a key has the entry at or below the key right before the cut. -/
theorem floor?_of_split : t.floor? k = some e := by
  rw [floor?_eq_some_iff, h_entries]
  refine ⟨⟨List.mem_append_right _ (List.mem_cons_self ..), h_le⟩, ?_⟩
  intro other h_mem h_other
  rcases List.mem_append.mp h_mem with h_mem | h_mem
  · exact Nat.le_of_lt (lt_of_split h_entries h_mem)
  rcases List.mem_cons.mp h_mem with rfl | h_mem
  · exact Nat.le_refl _
  · exact absurd h_other (Nat.not_le.mpr (h_after other h_mem))

/-- A table that is cut at a key has the entries above the key behind the cut. -/
theorem above_of_split : t.above k = after := by
  -- all that stands before the cut is left out, and all that stands behind it is kept
  have h_none : before.filter (fun other => rank k < rank other.1) = [] := by
    apply List.filter_eq_nil_iff.mpr
    intro other h_mem h_lt
    have h_below := Nat.lt_of_lt_of_le (lt_of_split h_entries h_mem) h_le
    exact Nat.lt_asymm h_below (of_decide_eq_true h_lt)
  have h_all : after.filter (fun other => rank k < rank other.1) = after :=
    List.filter_eq_self.mpr fun other h_mem => decide_eq_true (h_after other h_mem)
  have h_not : ¬ decide (rank k < rank e.1) = true :=
    fun h_lt => Nat.not_le.mpr (of_decide_eq_true h_lt) h_le
  rw [above, h_entries, List.filter_append, h_none, List.nil_append, List.filter_cons,
    if_neg h_not, h_all]

end Split

end Table

end OperationFeed
