import Mathlib.Data.List.Induction

/-!
# What lasts in a history

An item of a history *lasts* if nothing behind it undoes it (`Lasts`): it is the last one of its
kind, or the last one since a reset. What undoes it is said by a predicate on items.

* `lasts_append` and `lasts_concat` say what lasts when a history goes on;
* `lasts_filter` says that items which cannot undo it may be left out;
* `lasts_iff_mem` says that every item lasts if none undoes another one.
-/

namespace OperationFeed

variable {α : Type} {undoes other : α → Prop} {item last : α} {history later : List α}

/-- An item is in a history, and nothing behind it undoes it. -/
def Lasts (undoes : α → Prop) (item : α) (history : List α) : Prop :=
  ∃ before after, history = before ++ item :: after ∧ ∀ later ∈ after, ¬ undoes later

theorem Lasts.mem (h : Lasts undoes item history) : item ∈ history := by
  obtain ⟨before, after, rfl, -⟩ := h
  exact List.mem_append_right _ (List.mem_cons_self ..)

/-- What lasts although more is undone lasts. -/
theorem Lasts.mono (h : Lasts other item history) (h_undoes : ∀ later, undoes later → other later) :
    Lasts undoes item history := by
  obtain ⟨before, after, h_history, h_after⟩ := h
  exact ⟨before, after, h_history, fun later h_mem => mt (h_undoes later) (h_after later h_mem)⟩

theorem not_lasts_nil : ¬ Lasts undoes item [] :=
  fun h => absurd h.mem List.not_mem_nil

/-- The last item lasts, whatever would undo it. -/
theorem lasts_singleton : Lasts undoes item [last] ↔ item = last := by
  constructor
  · exact fun h => List.mem_singleton.mp h.mem
  · rintro rfl
    exact ⟨[], [], rfl, List.forall_mem_nil _⟩

/-- In a history that goes on, what lasts comes from the later items, or none of these undoes it. -/
theorem lasts_append : Lasts undoes item (history ++ later) ↔
    Lasts undoes item later ∨ (∀ next ∈ later, ¬ undoes next) ∧ Lasts undoes item history := by
  constructor
  · rintro ⟨before, after, h_eq, h_after⟩
    -- the item stands in the later part, or before the cut: then all of the later part is behind it
    rcases List.append_eq_append_iff.mp h_eq with ⟨middle, -, h_later⟩ | ⟨middle, h_history, h_rest⟩
    · exact .inl ⟨middle, after, h_later, h_after⟩
    · cases middle with
      | nil => exact .inl ⟨[], after, h_rest.symm, h_after⟩
      | cons first middle =>
        obtain ⟨rfl, rfl⟩ := List.cons.inj h_rest
        refine .inr ⟨fun next h_mem => h_after next (List.mem_append_right _ h_mem), ?_⟩
        exact ⟨before, middle, h_history,
          fun next h_mem => h_after next (List.mem_append_left _ h_mem)⟩
  · rintro (⟨before, after, rfl, h_after⟩ | ⟨h_later, before, after, rfl, h_after⟩)
    · exact ⟨history ++ before, after, (List.append_assoc ..).symm, h_after⟩
    · refine ⟨before, after ++ later, List.append_assoc .., fun next h_mem => ?_⟩
      rcases List.mem_append.mp h_mem with h_mem | h_mem
      · exact h_after next h_mem
      · exact h_later next h_mem

/-- When one item more comes, it lasts, and what lasted before lasts unless the new
one undoes it. -/
theorem lasts_concat : Lasts undoes item (history ++ [last]) ↔
    item = last ∨ ¬ undoes last ∧ Lasts undoes item history := by
  rw [lasts_append, lasts_singleton, List.forall_mem_singleton]

/-- Items that cannot undo the one in question may be left out. -/
theorem lasts_filter {keep : α → Bool} (h_item : keep item = true)
    (h_undoes : ∀ next, undoes next → keep next = true) :
    Lasts undoes item (history.filter keep) ↔ Lasts undoes item history := by
  -- the history grows at its end, so the last item is kept or left out
  induction history using List.reverseRecOn with
  | nil => rfl
  | append_singleton history last ih =>
    rw [List.filter_append, lasts_concat]
    by_cases h_last : keep last = true
    · rw [List.filter_cons_of_pos h_last, List.filter_nil, lasts_concat, ih]
    · rw [List.filter_cons_of_neg h_last, List.filter_nil, List.append_nil, ih]
      -- an item that is left out is not the one in question, and does not undo it
      have h_ne : item ≠ last := fun h_eq => h_last (h_eq ▸ h_item)
      rw [or_iff_right h_ne, and_iff_right (mt (h_undoes last) h_last)]

/-- If none undoes another one, all of them last. -/
theorem lasts_iff_mem {r : α → α → Prop} (h : history.Pairwise r)
    (h_undoes : ∀ next, r item next → ¬ undoes next) :
    Lasts undoes item history ↔ item ∈ history := by
  refine ⟨Lasts.mem, fun h_mem => ?_⟩
  -- what stands behind the item is related to it, hence undoes nothing
  obtain ⟨before, after, rfl⟩ := List.append_of_mem h_mem
  refine ⟨before, after, rfl, fun next h_next => h_undoes next ?_⟩
  exact List.rel_of_pairwise_cons (List.pairwise_append.mp h).2.1 h_next

end OperationFeed
