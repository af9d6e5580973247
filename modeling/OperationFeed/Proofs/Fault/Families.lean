import Mathlib.Algebra.Order.Interval.Finset.SuccPred
import Mathlib.Data.Nat.Factorization.Basic
import OperationFeed.Proofs.Feed.Faults

/-!
# Families of injectors

An injector and all its copies are a *family*. They share their counters, wherever they are: in
hand, or installed at points of sets of fault points, which are copied in turn. What is installed
where is not shared.

What was done with injectors and sets is a history (`FaultHistory`), and two functions of the
history alone say what is to be expected:

* `FaultHistory.familyAt` follows the copies, and finds the family of the injector at a place;
* `FaultHistory.checks` counts the checks of a family, whether they were made of a member in hand or
  at a point where one was installed then.

`FaultBench` carries the acts out, and `FaultBench.Fits` ties it to the history.
`FaultBench.accounts` says what each injector has counted, and what it answers when it
is checked next.
-/

namespace OperationFeed

/-! ### One injector -/

namespace Injector

/-- How many calls fail, of those with the numbers from one up to the given one. -/
def strikes (fires : UInt64 → Bool) (calls : Nat) : Nat :=
  ((Finset.Ioc 0 calls).filter fun count => fires (.ofNat count) = true).card

/-- One call more is one failure more, or none. -/
theorem strikes_succ (fires : UInt64 → Bool) (calls : Nat) : strikes fires (calls + 1) =
    strikes fires calls + if fires (.ofNat (calls + 1)) = true then 1 else 0 := by
  have h_range : Finset.Ioc 0 (calls + 1) = insert (calls + 1) (Finset.Ioc 0 calls) :=
    (Finset.insert_Ioc_right_eq_Ioc_add_one (Nat.zero_le calls)).symm
  have h_new :
      calls + 1 ∉ (Finset.Ioc 0 calls).filter fun count => fires (.ofNat count) = true := by
    simp
  rw [strikes, h_range, Finset.filter_insert]
  split
  · exact Finset.card_insert_of_notMem h_new
  · rfl

/-- No more calls fail than are made. -/
theorem strikes_le (fires : UInt64 → Bool) (calls : Nat) : strikes fires calls ≤ calls := by
  calc strikes fires calls
    _ ≤ (Finset.Ioc 0 calls).card := Finset.card_filter_le ..
    _ = calls := by rw [Nat.card_Ioc, Nat.sub_zero]

/-- Every `n`-th call fails. -/
theorem strikes_every (n : UInt64) {calls : Nat} (h : calls < 2 ^ 64) :
    strikes (every n).fires calls = if n = 0 then 0 else calls / n.toNat := by
  split
  · next h_zero =>
    subst h_zero
    exact Finset.card_eq_zero.mpr (Finset.filter_false_of_mem fun _ _ => Bool.false_ne_true)
  · next h_pos =>
    rw [← Nat.Ioc_filter_dvd_card_eq_div, strikes]
    refine congrArg Finset.card (Finset.filter_congr fun count h_count => ?_)
    have h_lt : count < 2 ^ 64 := Nat.lt_of_le_of_lt (Finset.mem_Ioc.mp h_count).2 h
    -- the counter has not wrapped round, so a remainder of its words is one of numbers
    have h_mod : UInt64.ofNat count % n = 0 ↔ count % n.toNat = 0 := by
      rw [← UInt64.toNat_inj, UInt64.toNat_mod, UInt64.toNat_ofNat_of_lt' h_lt]
      rfl
    simp [every, fresh, h_pos, h_mod, Nat.dvd_iff_mod_eq_zero]

/-- An injector that was new counts its calls, and those that failed. -/
theorem called_fresh (fires : UInt64 → Bool) (error : FeedError) (times : Nat) :
    (fresh fires error).called times =
      ⟨fires, error, .ofNat times, .ofNat (strikes fires times)⟩ := by
  induction times with
  | zero => rfl
  | succ times ih =>
    rw [called, ih, strikes_succ, check]
    simp only [UInt64.ofNat_add]
    -- the call with the next number fails or does not, and is counted either way
    change (if fires (.ofNat times + .ofNat 1) = true then _ else _ :
      Option FeedError × Injector).2 = _
    split
    · rfl
    · exact congrArg (mk fires error _) (UInt64.add_zero _).symm

/-- A check fails with the injector's error if the call that it counts is to fail. -/
theorem check_fst (i : Injector) :
    i.check.1 = if i.fires (i.calls + 1) = true then some i.error else none := by
  unfold check
  dsimp only
  split <;> rfl

end Injector

/-- A check at a point is a check of what is installed there. -/
theorem FaultPoints.effect_check (points : FaultPoints) (point : FaultPoint) (bank : InjectorBank) :
    (points.check point).effect bank =
      match points.get? point with
      | none => (none, bank)
      | some id => bank.check id := by
  rw [check]
  cases points.get? point with
  | none => rfl
  | some id =>
    simp only [Act.effect_bind, Act.effect_modifyGet]
    generalize bank.check id = struck
    obtain ⟨_ | error, bank'⟩ := struck <;> rfl

/-- What is installed at a point is found there, and nowhere else. -/
theorem FaultPoints.get?_put (points : FaultPoints) (point other : FaultPoint)
    (id : Option InjectorId) :
    (points.put point id).get? other = if other = point then id else points.get? other := by
  cases id with
  | none =>
    rw [put, get?, Table.get?_erase, get?]
    simp only [rank_inj]
  | some id =>
    rw [put, get?, Table.get?_insert, get?]
    simp only [rank_inj, eq_comm]

/-! ### Acts -/

/-- Where an injector can be. -/
inductive InjectorPlace where
  -- In hand, under a name.
  | hand (name : Nat)
  -- Installed at a point of the set of fault points that has a name.
  | point (set : Nat) (point : FaultPoint)
deriving DecidableEq

/-- Something that is done with injectors and sets of fault points. -/
inductive FaultAct where
  -- Put a new injector at a place.
  | make (place : InjectorPlace) (fires : UInt64 → Bool) (error : FeedError)
  -- Put a copy of what is at one place at another one.
  | copy (source place : InjectorPlace)
  -- Take away what is at a place.
  | remove (place : InjectorPlace)
  -- Give a name to a set without injectors.
  | newSet (set : Nat)
  -- Give a name to a copy of a set.
  | copySet (source set : Nat)
  -- Check the injector at a place, if there is one.
  | check (place : InjectorPlace)

namespace FaultAct

/-- The one place that is filled or emptied. -/
def place? : FaultAct → Option InjectorPlace
  | make place .. | copy _ place | remove place => some place
  | newSet _ | copySet .. | check _ => none

/-- What is made: which calls of it fail, and with what. -/
def made? : FaultAct → Option ((UInt64 → Bool) × FeedError)
  | make _ fires error => some (fires, error)
  | copy .. | remove _ | newSet _ | copySet .. | check _ => none

/-- The place that is checked. -/
def checked? : FaultAct → Option InjectorPlace
  | check place => some place
  | make .. | copy .. | remove _ | newSet _ | copySet .. => none

end FaultAct

/-- What was done, latest act first. -/
abbrev FaultHistory : Type := List FaultAct

namespace FaultHistory

/-- The injectors that were made, first one first. Their places in this list are the names of the
families. -/
def made : FaultHistory → List ((UInt64 → Bool) × FeedError)
  | [] => []
  | act :: earlier => made earlier ++ act.made?.toList

/-- The family of the injector that is at a place in the end. -/
def familyAt : FaultHistory → InjectorPlace → Option Nat
  | [], _ => none
  | act :: earlier, place =>
    match act, place with
    | .make target _ _, place =>
      if place = target then some (made earlier).length else familyAt earlier place
    | .copy source target, place =>
      if place = target then familyAt earlier source else familyAt earlier place
    | .remove target, place => if place = target then none else familyAt earlier place
    | .newSet target, .point set point =>
      if set = target then none else familyAt earlier (.point set point)
    | .copySet source target, .point set point =>
      familyAt earlier (.point (if set = target then source else set) point)
    | .newSet _, .hand name | .copySet _ _, .hand name => familyAt earlier (.hand name)
    | .check _, place => familyAt earlier place

/-- How many checks were made of a family: of any member in hand, or in any set at a point where one
was installed at that time. -/
def checks : FaultHistory → (family : Nat) → Nat
  | [], _ => 0
  | act :: earlier, family =>
    checks earlier family + if act.checked?.bind (familyAt earlier) = some family then 1 else 0

/-- How many checks were made of anything. -/
def allChecks (history : FaultHistory) : Nat := history.countP (·.checked?.isSome)

variable {history : FaultHistory} {place : InjectorPlace} {family : Nat}

/-- A family that is somewhere was made. -/
theorem lt_length_made (h : familyAt history place = some family) :
    family < (made history).length := by
  induction history generalizing place with
  | nil => cases h
  | cons act earlier ih =>
    rw [made, List.length_append]
    have h_earlier : ∀ place, familyAt earlier place = some family →
        family < (made earlier).length + act.made?.toList.length :=
      fun place h_place => Nat.lt_add_right _ (ih h_place)
    -- one case per act: a family that is at a place comes from the act itself or was somewhere
    -- before
    unfold familyAt at h
    split at h
    · -- a new injector
      split at h
      · rw [← Option.some.inj h]
        exact Nat.lt_succ_self _
      · exact h_earlier _ h
    · split at h <;> exact h_earlier _ h
    · split at h
      · cases h
      · exact h_earlier _ h
    · split at h
      · cases h
      · exact h_earlier _ h
    all_goals exact h_earlier _ h

/-- Before a family is made there are no checks of it. -/
theorem checks_eq_zero (h : (made history).length ≤ family) : checks history family = 0 := by
  induction history with
  | nil => rfl
  | cons act earlier ih =>
    rw [made, List.length_append] at h
    have h_earlier : (made earlier).length ≤ family := Nat.le_of_add_right_le h
    have h_not : act.checked?.bind (familyAt earlier) ≠ some family := by
      intro h_there
      obtain ⟨place, -, h_place⟩ := Option.bind_eq_some_iff.mp h_there
      exact Nat.not_lt.mpr h_earlier (lt_length_made h_place)
    rw [checks, if_neg h_not, ih h_earlier]

/-- No family was checked more often than all of them together. -/
theorem checks_le_allChecks (history : FaultHistory) (family : Nat) :
    checks history family ≤ allChecks history := by
  induction history with
  | nil => exact Nat.le_refl _
  | cons act earlier ih =>
    rw [checks, allChecks, List.countP_cons]
    refine Nat.add_le_add ih ?_
    cases act.checked? with
    | none => exact Nat.zero_le _
    | some place =>
      split
      · exact Nat.le_refl _
      · exact Nat.zero_le _

end FaultHistory

/-! ### The bench -/

/-- Injectors and sets of fault points in use. A name stands for nothing, or a set without
injectors, until it is given to something. -/
structure FaultBench where
  /-- All injectors. -/
  bank : InjectorBank
  /-- The injectors in hand. -/
  hands : Nat → Option InjectorId
  /-- The sets of fault points. -/
  sets : Nat → FaultPoints

namespace FaultBench

/-- Nothing is in use. -/
def fresh : FaultBench := ⟨∅, fun _ => none, fun _ => ∅⟩

/-- Which injector is at a place. -/
def at? (bench : FaultBench) : InjectorPlace → Option InjectorId
  | .hand name => bench.hands name
  | .point set point => (bench.sets set).get? point

/-- The injector at a place, with its counters. -/
def injector? (bench : FaultBench) (place : InjectorPlace) : Option Injector :=
  (bench.at? place).bind bench.bank.get?

/-- Give a name to a set. -/
def putSet (bench : FaultBench) (set : Nat) (points : FaultPoints) : FaultBench :=
  { bench with sets := Function.update bench.sets set points }

/-- Put an injector at a place, or take away the one there. -/
def put (bench : FaultBench) (place : InjectorPlace) (id : Option InjectorId) : FaultBench :=
  match place with
  | .hand name => { bench with hands := Function.update bench.hands name id }
  | .point set point => bench.putSet set ((bench.sets set).put point id)

/-- Check the injector at a place: the error it fails with, if there is one and it does. -/
def check (bench : FaultBench) : InjectorPlace → Option FeedError × FaultBench
  | .hand name =>
    match bench.hands name with
    | none => (none, bench)
    | some id =>
      let (struck, bank) := bench.bank.check id
      (struck, { bench with bank })
  | .point set point =>
    let (struck, bank) := ((bench.sets set).check point).effect bench.bank
    (struck, { bench with bank })

/-- Do something. -/
def perform (bench : FaultBench) : FaultAct → FaultBench
  | .make place fires error =>
    let (id, bank) := bench.bank.register (.fresh fires error)
    { bench with bank }.put place (some id)
  | .copy source place => bench.put place (bench.at? source)
  | .remove place => bench.put place none
  | .newSet set => bench.putSet set ∅
  | .copySet source set => bench.putSet set (bench.sets source)
  | .check place => (bench.check place).2

/-- The bench after what was done. -/
def after : FaultHistory → FaultBench
  | [] => fresh
  | act :: earlier => (after earlier).perform act

variable {bench : FaultBench} {history : FaultHistory}

/-- A set is found under the name that it was given, and the other names stand for what they did. -/
theorem at?_putSet (bench : FaultBench) (set set' : Nat) (points : FaultPoints)
    (point : FaultPoint) : (bench.putSet set points).at? (.point set' point) =
      if set' = set then points.get? point else bench.at? (.point set' point) := by
  simp only [putSet, at?, Function.update_apply]
  split <;> rfl

/-- An injector is found where it was put, and the other places are as they were. -/
theorem at?_put (bench : FaultBench) (place other : InjectorPlace) (id : Option InjectorId) :
    (bench.put place id).at? other = if other = place then id else bench.at? other := by
  cases place with
  | hand name =>
    cases other with
    | hand name' => simp [put, at?, Function.update_apply]
    | point set point => simp [put, at?]
  | point set point =>
    cases other with
    | hand name => simp [put, putSet, at?]
    | point set' point' =>
      rw [put, at?_putSet, FaultPoints.get?_put]
      by_cases h : set' = set
      · subst h
        simp [at?]
      · simp [h]

@[simp] theorem bank_put (bench : FaultBench) (place : InjectorPlace) (id : Option InjectorId) :
    (bench.put place id).bank = bench.bank := by
  cases place <;> rfl

/-- In hand or installed: a check counts for the injector at the place. -/
theorem check_eq (bench : FaultBench) (place : InjectorPlace) :
    bench.check place =
      match bench.at? place with
      | none => (none, bench)
      | some id => ((bench.bank.check id).1, { bench with bank := (bench.bank.check id).2 }) := by
  cases place with
  | hand name => rfl
  | point set point =>
    rw [check, FaultPoints.effect_check, at?]
    cases (bench.sets set).get? point <;> rfl

/-- The injector at the place is asked, if there is one. -/
theorem check_fst (bench : FaultBench) (place : InjectorPlace) :
    (bench.check place).1 = (bench.injector? place).bind fun i => i.check.1 := by
  rw [check_eq, injector?]
  cases bench.at? place with
  | none => rfl
  | some id => exact bench.bank.check_eq id

/-! ### A bench and its history -/

/-- A bench is as its history says: each place has an injector of the right family, and the injector
of each family was called once for every check. -/
structure Fits (bench : FaultBench) (history : FaultHistory) : Prop where
  at? : ∀ place, bench.at? place = (FaultHistory.familyAt history place).map InjectorId.mk
  length : bench.bank.injectors.length = (FaultHistory.made history).length
  get? : ∀ family, bench.bank.get? ⟨family⟩ = (FaultHistory.made history)[family]?.map
    fun made => (Injector.fresh made.1 made.2).called (FaultHistory.checks history family)

namespace Fits

theorem fresh : FaultBench.fresh.Fits [] := ⟨fun place => by cases place <;> rfl, rfl, fun _ => rfl⟩

variable (fits : bench.Fits history)

include fits

/-- An act that neither makes nor checks anything only changes what is where. -/
theorem moved {bench' : FaultBench} {act : FaultAct} (h_made : act.made? = none)
    (h_checked : act.checked? = none) (h_bank : bench'.bank = bench.bank)
    (h_at : ∀ place, bench'.at? place =
      (FaultHistory.familyAt (act :: history) place).map InjectorId.mk) :
    bench'.Fits (act :: history) where
  at? := h_at
  length := by
    rw [h_bank, FaultHistory.made, h_made, fits.length]
    exact congrArg List.length (List.append_nil _).symm
  get? family := by
    rw [h_bank, FaultHistory.made, h_made, FaultHistory.checks, h_checked, fits.get?]
    exact congrArg (fun made => made[family]?.map _) (List.append_nil _).symm

/-- A new injector is of a new family, of which nothing was checked. -/
theorem make (place : InjectorPlace) (fires : UInt64 → Bool) (error : FeedError) :
    (bench.perform (.make place fires error)).Fits (.make place fires error :: history) where
  at? other := by
    rw [perform, InjectorBank.register]
    dsimp only
    rw [at?_put, FaultHistory.familyAt, fits.length]
    split
    · rfl
    · exact fits.at? other
  length := by
    rw [perform, InjectorBank.register]
    dsimp only
    rw [bank_put, FaultHistory.made, List.length_append, List.length_append, fits.length]
    rfl
  get? family := by
    rw [perform, InjectorBank.register]
    dsimp only
    rw [bank_put, InjectorBank.get?, FaultHistory.made, FaultHistory.checks, FaultAct.made?,
      FaultAct.checked?, Option.bind_none, if_neg nofun, Option.toList_some, Nat.add_zero]
    -- a family is an old one, the new one, or was not made yet
    rcases Nat.lt_trichotomy family (FaultHistory.made history).length with h_lt | rfl | h_gt
    · rw [List.getElem?_append_left (fits.length ▸ h_lt), List.getElem?_append_left h_lt]
      exact fits.get? family
    · have h_unchecked :=
        FaultHistory.checks_eq_zero (Nat.le_refl (FaultHistory.made history).length)
      rw [List.getElem?_concat_length, h_unchecked, ← fits.length, List.getElem?_concat_length]
      rfl
    · rw [List.getElem?_eq_none, List.getElem?_eq_none]
      · rfl
      · simpa using h_gt
      · simpa [fits.length] using h_gt

/-- A check counts for the family of the injector at the place. -/
theorem check (place : InjectorPlace) : (bench.check place).2.Fits (.check place :: history) := by
  have h_made : FaultHistory.made (.check place :: history) = FaultHistory.made history :=
    List.append_nil _
  rw [check_eq, fits.at?]
  cases h_family : FaultHistory.familyAt history place with
  | none =>
    refine ⟨fits.at?, h_made ▸ fits.length, fun family => ?_⟩
    rw [h_made, FaultHistory.checks, FaultAct.checked?, Option.bind_some, h_family, if_neg nofun]
    exact fits.get? family
  | some checked =>
    refine ⟨fits.at?, ?_, fun family => ?_⟩
    · rw [h_made, ← fits.length]
      dsimp only [Option.map_some]
      rw [InjectorBank.check]
      split
      · rfl
      · exact List.length_set
    · dsimp only [Option.map_some]
      rw [InjectorBank.get?_check, h_made, FaultHistory.checks, FaultAct.checked?, Option.bind_some,
        h_family, fits.get?]
      -- the family that is checked counts one call more, and the others count none
      by_cases h_eq : checked = family
      · rw [if_pos (congrArg InjectorId.mk h_eq), if_pos (congrArg some h_eq), Option.map_map]
        rfl
      · rw [if_neg (mt InjectorId.mk.inj h_eq), if_neg (mt Option.some.inj h_eq)]
        rfl

/-- One act more: something is made, something is checked, or only the places change. -/
theorem perform (act : FaultAct) : (bench.perform act).Fits (act :: history) := by
  cases act with
  | make place fires error => exact fits.make place fires error
  | copy source place =>
    refine fits.moved rfl rfl (bank_put ..) fun other => ?_
    rw [FaultBench.perform, at?_put, FaultHistory.familyAt, fits.at?, fits.at?]
    split <;> rfl
  | remove place =>
    refine fits.moved rfl rfl (bank_put ..) fun other => ?_
    rw [FaultBench.perform, at?_put, FaultHistory.familyAt, fits.at?]
    split <;> rfl
  | newSet set =>
    refine fits.moved rfl rfl rfl ?_
    rintro (name | ⟨set', point⟩)
    · exact fits.at? (.hand name)
    · rw [FaultBench.perform, at?_putSet, FaultHistory.familyAt, fits.at?]
      split <;> rfl
  -- the copy has at every point what the other set has there
  | copySet source set =>
    refine fits.moved rfl rfl rfl ?_
    rintro (name | ⟨set', point⟩)
    · exact fits.at? (.hand name)
    · rw [FaultBench.perform, at?_putSet, FaultHistory.familyAt, ← fits.at?]
      split <;> rfl
  | check place => exact fits.check place

end Fits

/-- Whatever was done, the bench is as its history says. -/
theorem fits_after (history : FaultHistory) : (after history).Fits history := by
  induction history with
  | nil => exact Fits.fresh
  | cons act earlier ih => exact ih.perform act

/-- The injector at a place, of a family that fails the calls that `fires` says, after some checks
of the family. -/
structure Counts (bench : FaultBench) (place : InjectorPlace) (fires : UInt64 → Bool)
    (error : FeedError) (checks : Nat) : Prop where
  /-- It has counted the checks of the family, and those of them that failed. -/
  counted : ∃ i, bench.injector? place = some i ∧ i.calls.toNat = checks ∧
    i.injected.toNat = Injector.strikes fires checks
  /-- The next check fails exactly if `fires` says so of its number. -/
  next : (bench.check place).1 = if fires (.ofNat (checks + 1)) = true then some error else none
  /-- If every `n`-th call fails, then the failures are the checks divided by `n`, and there are
  none for zero. -/
  every : ∀ n, fires = (Injector.every n).fires → ∀ i, bench.injector? place = some i →
    i.injected.toNat = if n = 0 then 0 else checks / n.toNat

/-- A bench has counted what its history says. -/
structure Accounts (bench : FaultBench) (history : FaultHistory) : Prop where
  /-- Where the history leaves nothing there is no injector, and a check neither
  fails nor counts. -/
  nothing : ∀ place, FaultHistory.familyAt history place = none →
    bench.injector? place = none ∧ bench.check place = (none, bench)
  /-- Where the history leaves a member of a family there is an injector that counts
  for the family. -/
  counts : ∀ place family, FaultHistory.familyAt history place = some family →
    ∃ fires error, (FaultHistory.made history)[family]? = some (fires, error) ∧
      bench.Counts place fires error (FaultHistory.checks history family)
  /-- A copy of a set has at first what the set has. -/
  copied : ∀ source set point,
    (bench.perform (.copySet source set)).at? (.point set point) = bench.at? (.point source point)
  /-- What is installed or taken away at one place changes nothing elsewhere, not in
  a copy either. -/
  apart : ∀ act place, act.place? = some place → ∀ other, other ≠ place →
    (bench.perform act).at? other = bench.at? other

/-- An act that fills or empties one place leaves all other places as they are. -/
theorem at?_perform_of_ne {act : FaultAct} {place other : InjectorPlace}
    (h_place : act.place? = some place) (h_ne : other ≠ place) :
    (bench.perform act).at? other = bench.at? other := by
  cases act with
  | make target fires error =>
    obtain rfl := Option.some.inj h_place
    rw [perform, InjectorBank.register]
    dsimp only
    rw [at?_put, if_neg h_ne]
    cases other <;> rfl
  | copy source target =>
    obtain rfl := Option.some.inj h_place
    rw [perform, at?_put, if_neg h_ne]
  | remove target =>
    obtain rfl := Option.some.inj h_place
    rw [perform, at?_put, if_neg h_ne]
  | _ => cases h_place

/-- The injector of a family has the counters that the history calls for. -/
theorem Fits.injector? (fits : bench.Fits history) {place : InjectorPlace} {family : Nat}
    (h_family : FaultHistory.familyAt history place = some family) :
    ∃ fires error, (FaultHistory.made history)[family]? = some (fires, error) ∧
      bench.injector? place = some ⟨fires, error, .ofNat (FaultHistory.checks history family),
        .ofNat (Injector.strikes fires (FaultHistory.checks history family))⟩ := by
  have h_lt := FaultHistory.lt_length_made h_family
  obtain ⟨⟨fires, error⟩, h_made⟩ : ∃ made, (FaultHistory.made history)[family]? = some made :=
    ⟨_, List.getElem?_eq_getElem h_lt⟩
  refine ⟨fires, error, h_made, ?_⟩
  rw [FaultBench.injector?, fits.at?, h_family, Option.map_some, Option.bind_some,
    fits.get?, h_made, Option.map_some, Injector.called_fresh]

/-- It has counted the checks of the family, as long as the counters can hold their number. -/
theorem Fits.counts (fits : bench.Fits history) (h_few : FaultHistory.allChecks history < 2 ^ 64)
    {place : InjectorPlace} {family : Nat}
    (h_family : FaultHistory.familyAt history place = some family) :
    ∃ fires error, (FaultHistory.made history)[family]? = some (fires, error) ∧
      bench.Counts place fires error (FaultHistory.checks history family) := by
  obtain ⟨fires, error, h_made, h_injector⟩ := fits.injector? h_family
  have h_checks : FaultHistory.checks history family < 2 ^ 64 :=
    Nat.lt_of_le_of_lt (FaultHistory.checks_le_allChecks history family) h_few
  generalize FaultHistory.checks history family = checks at h_injector h_checks
  -- failures are no more than checks, so their counter has not wrapped round either
  have h_injected :
      (UInt64.ofNat (Injector.strikes fires checks)).toNat = Injector.strikes fires checks :=
    UInt64.toNat_ofNat_of_lt' (Nat.lt_of_le_of_lt (Injector.strikes_le fires checks) h_checks)
  refine ⟨fires, error, h_made, ?_⟩
  constructor
  case counted => exact ⟨_, h_injector, UInt64.toNat_ofNat_of_lt' h_checks, h_injected⟩
  case next =>
    rw [check_fst, h_injector, Option.bind_some, Injector.check_fst, UInt64.ofNat_add]
    rfl
  case every =>
    rintro n rfl i h_i
    obtain rfl := Option.some.inj (h_injector.symm.trans h_i)
    rw [h_injected, Injector.strikes_every n h_checks]

/-- All checks count for their families, however they are made, and nothing else does. -/
theorem accounts (history : FaultHistory) (h_few : FaultHistory.allChecks history < 2 ^ 64) :
    (after history).Accounts history := by
  have fits := fits_after history
  generalize after history = bench at fits
  constructor
  case nothing =>
    intro place h_none
    have h_at : bench.at? place = none := by rw [fits.at?, h_none, Option.map_none]
    constructor
    · rw [injector?, h_at, Option.bind_none]
    · rw [check_eq, h_at]
  case counts => exact fun place family => fits.counts h_few
  case copied =>
    intro source set point
    rw [perform, at?_putSet, if_pos rfl, at?]
  case apart => exact fun act place h_place other => at?_perform_of_ne h_place

/-- Every second call fails. A copy of the injector is in hand, and others are installed in a set
and in a copy of the set; in the first set the injector is then taken away, and the check there
counts for nothing. -/
def sharedInjector : FaultHistory :=
  [.check (.hand 0), .check (.point 1 .readSync), .check (.point 0 .add), .check (.point 1 .add),
    .check (.hand 1), .remove (.point 0 .add), .copy (.hand 0) (.point 1 .readSync), .copySet 0 1,
    .copy (.hand 1) (.point 0 .add), .copy (.hand 0) (.hand 1),
    .make (.hand 0) (Injector.every 2).fires (.injected "intentional failure")]

/-- A check of any member counts for all of them, and one at an empty point for none. -/
theorem accounts_of_sharedInjector : FaultHistory.allChecks sharedInjector < 2 ^ 64 ∧
    (after sharedInjector).Accounts sharedInjector ∧
    FaultHistory.familyAt sharedInjector (.point 1 .add) = some 0 ∧
    FaultHistory.checks sharedInjector 0 = 4 := by
  have h_few : FaultHistory.allChecks sharedInjector < 2 ^ 64 := by decide
  exact ⟨h_few, accounts sharedInjector h_few, by decide, by decide⟩

end FaultBench

end OperationFeed
