/-
  What a derivation tells about itself while it runs.
-/
import InterfaceRecord.Catalog

namespace InterfaceRecord

inductive Level
  | debug
  | trace
deriving DecidableEq, Repr

/-- A field of an event: a text or a count. -/
inductive FieldValue
  | text (value : String)
  | count (value : Nat)
deriving DecidableEq, Repr

/-- One event. -/
inductive Event
  | revisited (interface : String)
  | entered (interface : String)
  | skipped (method : String)
  | repeated (component interface : String)
  | accepted (component type interface : String)
  | diagnosed (fault : Fault)
  | failed (interface : String) (errors : Nat)
  | derived (interface record : String) (components : Nat)
  | unlinked (interface bound : String)
  | loaded (traits : Nat)
deriving DecidableEq, Repr

namespace Event

def level : Event → Level
  | entered _ | diagnosed _ | failed _ _ | derived _ _ _ | loaded _ => .debug
  | revisited _ | skipped _ | repeated _ _ | accepted _ _ _ | unlinked _ _ => .trace

def message : Event → String
  | revisited _ => "interface already visited"
  | entered _ => "visiting interface"
  | skipped _ => "method skipped"
  | repeated _ _ => "component already declared"
  | accepted _ _ _ => "component accepted"
  | diagnosed _ => "diagnostic recorded"
  | failed _ _ => "derivation failed"
  | derived _ _ _ => "record shape derived"
  | unlinked _ _ => "supertrait is not a declared trait"
  | loaded _ => "loaded trait declarations"

def fields : Event → List (String × FieldValue)
  | revisited i => [("interface", .text i)]
  | entered i => [("interface", .text i)]
  | skipped m => [("method", .text m)]
  | repeated c i => [("component", .text c), ("interface", .text i)]
  | accepted c t i => [("component", .text c), ("ty", .text t), ("interface", .text i)]
  | diagnosed f => [("severity", .text f.severity.text), ("error", .text f.message)]
  | failed i n => [("interface", .text i), ("errors", .count n)]
  | derived i r n => [("interface", .text i), ("record", .text r), ("components", .count n)]
  | unlinked i b => [("interface", .text i), ("bound", .text b)]
  | loaded n => [("traits", .count n)]

end Event

/-- One step of a traversal, with the interface and the method it is about. -/
inductive Step (I M : Type)
  /-- The interface's name was met before. -/
  | revisited (i : I)
  | entered (i : I)
  | skipped (i : I) (m : M)
  /-- A component of that name exists, and nothing is wrong with that. -/
  | repeated (i : I) (m : M)
  | accepted (i : I) (m : M)
  | diagnosed (i : I) (m : M) (fault : Fault)
  /-- The supertypes of the interface were asked for. -/
  | expanded (i : I)
deriving DecidableEq, Repr

/-- The event a step is told by. -/
def Step.event? {I M T S V : Type} (g : Catalog I M T S V) : Step I M → Option Event
  | revisited i => some (.revisited (g.qualifiedName i))
  | entered i => some (.entered (g.qualifiedName i))
  | skipped _ m => some (.skipped (g.methodName m))
  | repeated i m => some (.repeated (g.methodName m) (g.simpleName i))
  | accepted i m =>
    some (.accepted (g.methodName m) (g.typeText (g.returnType m)) (g.simpleName i))
  | diagnosed _ _ fault => some (.diagnosed fault)
  | expanded _ => none

end InterfaceRecord
