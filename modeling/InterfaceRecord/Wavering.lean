/-
  Types that may change their mind about being void: asked often enough, they say that they are.
-/
import InterfaceRecord.Table

namespace InterfaceRecord

/-- A type that is shown as one text and compared by another. With a counter it turns void once
the counter has run down. -/
structure WaveringType where
  shown : String
  key : String
  counter : Option Nat
deriving DecidableEq, Repr, Inhabited

/-- How often each counter still answers that its type is not void. -/
abbrev Countdown := List Nat

namespace WaveringType

/-- Asks whether a type is void; a running counter says no and goes down by one. -/
def isVoid (t : WaveringType) (left : Countdown) : Bool × Countdown :=
  match t.counter with
  | none => (false, left)
  | some c =>
    match left[c]? with
    | some (n + 1) => (false, left.set c n)
    | some 0 => (true, left)
    | none => (false, left)

def view : TypeView WaveringType Countdown where
  text t := t.shown
  same a b := a.key = b.key
  isVoid := isVoid

end WaveringType

end InterfaceRecord
