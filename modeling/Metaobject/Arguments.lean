import Metaobject.ClassGraph.Basic
import Metaobject.Exception.Wording

/-!
# Arguments

The arguments of one call: positional values and, if there are any, the dict of keyword arguments.
An empty dict at the time of the call counts as no keywords. The binders here are for functions that
take positional arguments only; each gives the values in a fixed shape or the type error that says
what is wrong.
-/

set_option autoImplicit false
set_option relaxedAutoImplicit false

namespace Metaobject

/-- The arguments of a call. -/
structure Arguments where
  positional : List Value
  /-- The dict of keyword arguments. -/
  keywords : Option Address

namespace Arguments

/-- The arguments of a call whose keyword dict may be empty. -/
def of (heap : Heap) (positional : List Value) (keywords : Option Address) : Arguments :=
  ⟨positional, keywords.filter fun address => !(heap.entries address).isEmpty⟩

/-- Positional arguments alone. -/
def ofList (positional : List Value) : Arguments := ⟨positional, none⟩

/-- The number of positional arguments. -/
def count (arguments : Arguments) : Nat := arguments.positional.length

/-- The arguments after a first one. -/
def cons (first : Value) (arguments : Arguments) : Arguments :=
  { arguments with positional := first :: arguments.positional }

/-- The keyword arguments in order. -/
def keywordList (heap : Heap) (arguments : Arguments) : List (String × Value) :=
  match arguments.keywords with
  | some address => (heap.entries address).toList
  | none => []

/-! ### Positional binders -/

/-- Refuses keyword arguments. -/
def refuseKeywords (arguments : Arguments) (name : String) : Except Exception Unit :=
  if arguments.keywords.isSome then .error (.noKeywords name) else .ok ()

/-- Exactly `expected` positional arguments. -/
def exactly (arguments : Arguments) (name : String) (expected : Nat) :
    Except Exception (List Value) := do
  arguments.refuseKeywords name
  if arguments.count = expected then .ok arguments.positional
  else .error (.wrongCount name expected arguments.count)

/-- Between `least` and `most` positional arguments. -/
def between (arguments : Arguments) (name : String) (least most : Nat) :
    Except Exception (List Value) := do
  arguments.refuseKeywords name
  if least ≤ arguments.count ∧ arguments.count ≤ most then .ok arguments.positional
  else if least = most then .error (.wrongCount name most arguments.count)
  else if arguments.count < least then .error (.tooFew name least arguments.count)
  else .error (.tooMany name most arguments.count)

/-- The failure of a binder that got another number of values than it had made sure of. -/
def miscounted : Failure := .internal "required argument missing after count check"

/-- A binder's exception as a failure. -/
def orRaised {Result : Type} : Except Exception Result → Except Failure Result :=
  Except.mapError .raised

/-- One argument. -/
def one (arguments : Arguments) (name : String) : Except Failure Value := do
  match ← orRaised (arguments.exactly name 1) with
  | [first] => .ok first
  | _ => .error miscounted

/-- Two arguments. -/
def two (arguments : Arguments) (name : String) : Except Failure (Value × Value) := do
  match ← orRaised (arguments.exactly name 2) with
  | [first, second] => .ok (first, second)
  | _ => .error miscounted

/-- Three arguments. -/
def three (arguments : Arguments) (name : String) : Except Failure (Value × Value × Value) := do
  match ← orRaised (arguments.exactly name 3) with
  | [first, second, third] => .ok (first, second, third)
  | _ => .error miscounted

/-- One argument and an optional second one. -/
def oneOrTwo (arguments : Arguments) (name : String) : Except Failure (Value × Option Value) := do
  match ← orRaised (arguments.between name 1 2) with
  | [first] => .ok (first, none)
  | [first, second] => .ok (first, some second)
  | _ => .error miscounted

/-- Two arguments and an optional third one. -/
def twoOrThree (arguments : Arguments) (name : String) :
    Except Failure (Value × Value × Option Value) := do
  match ← orRaised (arguments.between name 2 3) with
  | [first, second] => .ok (first, second, none)
  | [first, second, third] => .ok (first, second, some third)
  | _ => .error miscounted

/-- At least `least` arguments, with `defaults` in the place of those left out. The first `least`
defaults only stand for places that must be filled. -/
def withDefaults (arguments : Arguments) (name : String) (least : Nat) (defaults : List Value) :
    Except Exception (List Value) :=
  (arguments.between name least defaults.length).map fun supplied =>
    supplied ++ defaults.drop supplied.length

/-- One argument that may be left out. -/
def optional (arguments : Arguments) (name : String) (default : Value) :
    Except Failure Value := do
  match ← orRaised (arguments.withDefaults name 0 [default]) with
  | [value] => .ok value
  | _ => .error miscounted

end Arguments

end Metaobject
