/-
  The traversal of an interface and its supertypes, depth first and in pre-order. Every qualified
  name is entered once. A component is kept where its name is first seen.
-/
import InterfaceRecord.Settings
import InterfaceRecord.Traversal.Event

namespace InterfaceRecord

/-- A component of a record. -/
structure Component (M T : Type) where
  name : String
  type : T
  /-- The method it was derived from. -/
  origin : M
  initializer : Option Initializer
deriving DecidableEq, Repr

/-- The declaration that a component's name stands for. -/
structure Precedent (T : Type) where
  type : T
  /-- The simple name of the interface that declares it. -/
  interface : String
deriving DecidableEq, Repr

/-- What a traversal has gathered so far. -/
structure Traversal (I M T S V : Type) where
  /-- The qualified names that were entered. -/
  visited : List String := []
  used : List (String × Precedent T) := []
  components : List (Component M T) := []
  diagnostics : Diagnostics S := []
  steps : List (Step I M) := []
  /-- What the answers on void types depend on. -/
  void : V

namespace Traversal

variable {I M T S V : Type}

def failed (w : Traversal I M T S V) : Bool := w.diagnostics.failed

def hasInternal (w : Traversal I M T S V) : Bool := w.diagnostics.hasInternal

def note (w : Traversal I M T S V) (s : Step I M) : Traversal I M T S V :=
  { w with steps := w.steps ++ [s] }

/-- Enters an interface of that name. -/
def enter (w : Traversal I M T S V) (i : I) (name : String) : Traversal I M T S V :=
  note { w with visited := w.visited ++ [name] } (.entered i)

/-- Pins a fault to a method. -/
def diagnose (w : Traversal I M T S V) (i : I) (m : M) (fault : Fault) (site : S) :
    Traversal I M T S V :=
  note { w with diagnostics := w.diagnostics.add fault site } (.diagnosed i m fault)

/-- Keeps a component and the declaration it comes from. -/
def keep (w : Traversal I M T S V) (i : I) (interface : String) (c : Component M T) :
    Traversal I M T S V :=
  note { w with
    used := w.used ++ [(c.name, Precedent.mk c.type interface)]
    components := w.components ++ [c] } (.accepted i c.origin)

end Traversal

namespace Catalog

variable {I M T S V : Type} (g : Catalog I M T S V)

/-- The first value of a component, if its method asks for one. -/
def firstValue (i : I) (m : M) (type : T) (w : Traversal I M T S V) :
    Option Initializer × Traversal I M T S V :=
  match g.initializerName m with
  | none => (none, w)
  | some target =>
    match g.initializer? i target type with
    | some found => (some found, w)
    | none => (none, w.diagnose i m (.missingInitializer target) (g.methodSite m))

/-- A component candidate whose name was not seen before. -/
def considerFresh (i : I) (m : M) (name : String) (type : T) (w : Traversal I M T S V) :
    Traversal I M T S V :=
  let (void, v) := g.isVoid type w.void
  let w := { w with void := v }
  if void then
    w.diagnose i m
      (.internal ("component " ++ g.simpleName i ++ "." ++ name ++
        "() was accepted with a void type"))
      (g.methodSite m)
  else
    let (initializer, w) := g.firstValue i m type w
    w.keep i (g.simpleName i) ⟨name, type, m, initializer⟩

/-- A component candidate. -/
def consider (policy : ConflictPolicy) (i : I) (m : M) (name : String) (type : T)
    (w : Traversal I M T S V) : Traversal I M T S V :=
  match w.used.lookup name with
  | some seen =>
    if policy = .reject ∧ g.sameType seen.type type = false then
      w.diagnose i m
        (.conflict name (g.typeText seen.type) seen.interface (g.typeText type) (g.simpleName i))
        (g.methodSite m)
    else w.note (.repeated i m)
  | none => g.considerFresh i m name type w

/-- One method of an interface. -/
def examine (policy : ConflictPolicy) (i : I) (w : Traversal I M T S V) (m : M) :
    Traversal I M T S V :=
  let (ruling, v) := g.ruling i m w.void
  let w := { w with void := v }
  match ruling with
  | .accept name type => g.consider policy i m name type w
  | .skip => w.note (.skipped i m)
  | .reject fault => w.diagnose i m fault (g.methodSite m)

/-- The methods of an interface in turn: faults do not keep the later ones from being examined,
but an internal error does. -/
def examineAll (policy : ConflictPolicy) (i : I) :
    List M → Traversal I M T S V → Traversal I M T S V
  | [], w => w
  | m :: ms, w =>
    let w := g.examine policy i w m
    if w.hasInternal then w else examineAll policy i ms w

/-- An interface, then its supertypes in turn until something is wrong. Names that were entered
before are passed over. At most `depth` interfaces are entered one inside another. -/
def descend (policy : ConflictPolicy) : Nat → I → Traversal I M T S V → Traversal I M T S V
  | 0, _, w => w
  | depth + 1, i, w =>
    if w.visited.contains (g.qualifiedName i) then w.note (.revisited i)
    else
      let w := g.examineAll policy i (g.methods i) (w.enter i (g.qualifiedName i))
      if w.hasInternal then w
      else (g.supertypes i).foldl
        (fun w p => if w.failed then w else descend policy depth p w) (w.note (.expanded i))

/-- The traversal from an interface on. One level more than there are names is enough for it to end
by itself. -/
def traverse (policy : ConflictPolicy) (root : I) (v : V) : Traversal I M T S V :=
  g.descend policy ((g.names root).length + 1) root { void := v }

/-- The events of a traversal. -/
def events (w : Traversal I M T S V) : List Event :=
  w.steps.filterMap (Step.event? g)

end Catalog

end InterfaceRecord
