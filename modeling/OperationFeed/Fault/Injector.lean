import OperationFeed.Error

/-!
# Injectors

An *injector* counts the calls made to it and answers some of them with an error, chosen by the
number of the call alone. Copies of an injector share its counters, so an injector is held once, in
an `InjectorBank`, and copies are equal `InjectorId`s.
-/

namespace OperationFeed

/-- A counter of calls that turns some of them into errors. -/
structure Injector where
  /-- Whether the call with this number, counted from one, fails. -/
  fires : UInt64 → Bool
  error : FeedError
  calls : UInt64
  /-- How many of them failed. -/
  injected : UInt64

namespace Injector

/-- An injector that has not been called. -/
def fresh (fires : UInt64 → Bool) (error : FeedError) : Injector := ⟨fires, error, 0, 0⟩

/-- Fails every `n`-th call, and none at all if `n` is zero. -/
def every (n : UInt64) : Injector :=
  fresh (fun count => n != 0 && count % n == 0) (.injected "intentional failure")

/-- Fails every call. -/
def always : Injector := every 1

/-- Fails the calls with the listed numbers. -/
def atCalls (counts : List UInt64) (error : FeedError) : Injector :=
  fresh (fun count => counts.contains count) error

/-- Fails the call with number `first` and all later ones. -/
def fromCall (first : UInt64) (error : FeedError) : Injector :=
  fresh (fun count => first ≤ count) error

/-- Count a call: the error it fails with, if it does, and the injector afterwards. -/
def check (i : Injector) : Option FeedError × Injector :=
  let count := i.calls + 1
  if i.fires count then
    (some i.error, { i with calls := count, injected := i.injected + 1 })
  else
    (none, { i with calls := count })

/-- A line with the two counters. -/
def text (i : Injector) : String :=
  "ErrorInjector \x7b calls: " ++ toString i.calls.toNat ++ ", injected: "
    ++ toString i.injected.toNat ++ " \x7d"

end Injector

/-- The place of an injector in its bank. -/
structure InjectorId where
  /-- The position, counted from zero. -/
  index : Nat
deriving DecidableEq

/-- All injectors, each once. -/
structure InjectorBank where
  injectors : List Injector

namespace InjectorBank

/-- No injectors. -/
def empty : InjectorBank := ⟨[]⟩

instance : EmptyCollection InjectorBank := ⟨empty⟩
instance : Inhabited InjectorBank := ⟨empty⟩

/-- Take in an injector, and say where it is. -/
def register (bank : InjectorBank) (i : Injector) : InjectorId × InjectorBank :=
  (⟨bank.injectors.length⟩, ⟨bank.injectors ++ [i]⟩)

/-- The injector at a place. -/
def get? (bank : InjectorBank) (id : InjectorId) : Option Injector := bank.injectors[id.index]?

/-- Count a call on the injector at a place. -/
def check (bank : InjectorBank) (id : InjectorId) : Option FeedError × InjectorBank :=
  match bank.get? id with
  | none => (none, bank)
  | some i =>
    let (error, i) := i.check
    (error, ⟨bank.injectors.set id.index i⟩)

end InjectorBank

end OperationFeed
