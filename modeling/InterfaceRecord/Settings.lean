/-
  The settings of a derivation.
-/
namespace InterfaceRecord

/-- What happens when a component's name shows up again with another type. -/
inductive ConflictPolicy
  /-- The declaration that was seen first stays, and later ones are dropped. -/
  | firstWins
  /-- A later declaration of another type is a fault. -/
  | reject
deriving DecidableEq, Repr

structure Settings where
  /-- Whether the record gets a builder. -/
  addBuilder : Bool := true
  /-- The record's package; without one it goes into the interface's package. -/
  package : Option String := none
  /-- What the record's name adds to the interface's name. -/
  recordSuffix : String := "Record"
  /-- What the builder's name adds to the record's name. -/
  builderSuffix : String := "Builder"
  conflicts : ConflictPolicy := .firstWins
deriving DecidableEq, Repr

namespace Settings

def setBuilder (s : Settings) (addBuilder : Bool) : Settings :=
  { s with addBuilder := addBuilder }

def setPackage (s : Settings) (package : String) : Settings :=
  { s with package := some package }

def setConflicts (s : Settings) (conflicts : ConflictPolicy) : Settings :=
  { s with conflicts := conflicts }

end Settings

end InterfaceRecord
