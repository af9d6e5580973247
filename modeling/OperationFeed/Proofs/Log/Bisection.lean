import OperationFeed.Proofs.Log

/-!
# Cutting a log by bisection

A log need not be gone through from its front to be cut at a number. `bisect` halves the range in
which the cut lies until nothing is left of it, looking at one item each time. It finds the cut of
any list in which the items that satisfy a predicate come before all others (`bisect_append`), and a
log is such a list for every number, since its numbers increase.

`Log.truncate_eq_bisect` and `Log.read_eq_bisect` say that a log cut in this way is the log that
`Log.truncate` leaves and the one that `Log.read` reads from.
-/

namespace OperationFeed

variable {α : Type}

/-- The place at which a list goes over from items that satisfy `p` to items that do not, looked for
from `low` up to `high`. -/
def bisect (p : α → Bool) (l : List α) (low high : Nat) : Nat :=
  if h : low < high then
    let middle := (low + high) / 2
    if (l[middle]?).any p then bisect p l (middle + 1) high else bisect p l low middle
  else low
termination_by high - low

section Bisect

variable {p : α → Bool} {l before behind : List α} {cut : Nat}

/-- The cut never leaves the range. -/
theorem bisect_eq (h_before : ∀ i < cut, (l[i]?).any p = true)
    (h_behind : ∀ i, cut ≤ i → (l[i]?).any p = false) (low high : Nat) (h_low : low ≤ cut)
    (h_high : cut ≤ high) : bisect p l low high = cut := by
  -- the range is halved, and the cut stays in it
  induction low, high using bisect.induct p l with
  | case1 low high h_lt middle h_middle ih =>
    -- the item in the middle is before the cut
    have h_cut : middle < cut := by
      apply Nat.lt_of_not_le
      intro h_le
      exact Bool.false_ne_true ((h_behind middle h_le).symm.trans h_middle)
    rw [bisect, dif_pos h_lt, if_pos h_middle]
    exact ih h_cut h_high
  | case2 low high h_lt middle h_middle ih =>
    -- the item in the middle is behind the cut, or missing
    have h_cut : cut ≤ middle := Nat.le_of_not_lt fun h_lt => h_middle (h_before middle h_lt)
    rw [bisect, dif_pos h_lt, if_neg h_middle]
    exact ih h_low h_cut
  | case3 low high h_ge =>
    rw [bisect, dif_neg h_ge]
    omega

/-- Where a list is made of two parts that the predicate tells apart, the cut is between them. -/
theorem bisect_append (h_before : ∀ a ∈ before, p a = true) (h_behind : ∀ a ∈ behind, p a = false) :
    bisect p (before ++ behind) 0 (before ++ behind).length = before.length := by
  apply bisect_eq
  · intro i h_lt
    rw [List.getElem?_append_left h_lt, List.getElem?_eq_getElem h_lt, Option.any_some]
    exact h_before _ (List.getElem_mem h_lt)
  · intro i h_le
    rw [List.getElem?_append_right h_le]
    cases h_item : behind[i - before.length]? with
    | none => rfl
    | some a => exact h_behind a (List.mem_of_getElem? h_item)
  · exact Nat.zero_le _
  · exact List.length_append ▸ Nat.le_add_right ..

end Bisect

namespace Log

variable (log : Log α)

/-- The place of the first entry above a number. -/
def cutPlace (number : SequenceNumber) : Nat :=
  bisect (fun e => e.number ≤ number) log.entries 0 log.entries.length

/-- The entries before the place of the cut are those up to the number. -/
theorem cutPlace_eq (number : SequenceNumber) :
    log.cutPlace number = (log.entries.takeWhile (fun e => e.number ≤ number)).length := by
  have h_before : ∀ e ∈ log.entries.takeWhile (fun e => e.number ≤ number),
      decide (e.number ≤ number) = true := List.all_eq_true.mp List.all_takeWhile
  have h_behind : ∀ e ∈ log.entries.dropWhile (fun e => e.number ≤ number),
      decide (e.number ≤ number) = false := by
    intro e h_mem
    rw [dropWhile_le_eq_filter log.sorted, List.mem_filter, decide_eq_true_iff] at h_mem
    exact decide_eq_false (UInt64.not_le.mpr h_mem.2)
  have h_cut := bisect_append h_before h_behind
  rw [List.takeWhile_append_dropWhile] at h_cut
  exact h_cut

/-- What is dropped at the place of the cut is what is dropped entry by entry. -/
theorem drop_cutPlace (number : SequenceNumber) : log.entries.drop (log.cutPlace number) =
    log.entries.dropWhile (fun e => e.number ≤ number) := by
  calc log.entries.drop (log.cutPlace number)
      = (log.entries.takeWhile (fun e => e.number ≤ number) ++
          log.entries.dropWhile (fun e => e.number ≤ number)).drop
            (log.entries.takeWhile (fun e => e.number ≤ number)).length := by
        rw [List.takeWhile_append_dropWhile, cutPlace_eq]
    _ = log.entries.dropWhile (fun e => e.number ≤ number) := List.drop_left

/-- Truncation removes the entries before the place of the cut. -/
theorem truncate_eq_bisect (upTo : SequenceNumber) :
    (log.truncate upTo).1 = log.cutPlace upTo ∧
      (log.truncate upTo).2.entries = log.entries.drop (log.cutPlace upTo) := by
  rw [drop_cutPlace, cutPlace_eq]
  exact ⟨rfl, rfl⟩

/-- A read takes its items from the place of the cut on. -/
theorem read_eq_bisect (after : SequenceNumber) (max : Nat) :
    log.read after max = ((log.entries.drop (log.cutPlace after)).take max).map (·.item) := by
  rw [drop_cutPlace]
  rfl

end Log

end OperationFeed
