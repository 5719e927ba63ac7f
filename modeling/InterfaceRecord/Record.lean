/-
  The record that a derivation describes.
-/
import InterfaceRecord.Traversal.Basic

namespace InterfaceRecord

/-- A record: its names, its type parameters and its components in order. -/
structure Record (M T : Type) where
  name : String
  package : String
  typeParameters : List T
  components : List (Component M T)
  addBuilder : Bool
  /-- The builder's name, if there is to be one. -/
  builderName : Option String
deriving DecidableEq, Repr

/-- A component without reference to the interfaces it comes from. -/
structure ComponentOutline where
  name : String
  type : String
  initializer : Option Initializer
deriving DecidableEq, Repr

/-- A record without reference to the interfaces it comes from. -/
structure RecordOutline where
  name : String
  package : String
  typeParameters : List String
  components : List ComponentOutline
  builderName : Option String
deriving DecidableEq, Repr

namespace Record

variable {M T : Type}

def names (r : Record M T) : List String :=
  r.components.map (·.name)

/-- The component of that name. -/
def component? (r : Record M T) (name : String) : Option (Component M T) :=
  r.components.find? (·.name == name)

def outline (r : Record M T) (typeText : T → String) : RecordOutline where
  name := r.name
  package := r.package
  typeParameters := r.typeParameters.map typeText
  components := r.components.map fun c => ⟨c.name, typeText c.type, c.initializer⟩
  builderName := r.builderName

end Record

end InterfaceRecord
