/-
  From an interface to a record: the traversal, the faults that end it, and the names.
-/
import InterfaceRecord.NameScheme
import InterfaceRecord.Record

namespace InterfaceRecord

/-- What a derivation comes to: a record or the reasons why there is none, the events on the way,
and what later answers on void types depend on. -/
structure Derivation (M T S V : Type) where
  record : Option (Record M T)
  diagnostics : Diagnostics S
  events : List Event
  void : V

namespace Catalog

variable {I M T S V : Type} (g : Catalog I M T S V)

/-- The record of an interface with these components. -/
def recordOf (settings : Settings) (scheme : NameScheme) (root : I)
    (components : List (Component M T)) : Record M T :=
  let interface : QualifiedName := ⟨g.qualifiedName root, g.separator⟩
  let parameters := g.typeParameters root
  let name := scheme.record interface (parameters.map g.typeText) settings
  { name := name
    package := settings.package.getD interface.package
    typeParameters := parameters
    components := components
    addBuilder := settings.addBuilder
    builderName := if settings.addBuilder then some (scheme.builder name settings) else none }

/-- Derives the record of an interface. Any diagnostic of the traversal ends the derivation, and so
does a traversal that finds no component. -/
def derive (settings : Settings) (scheme : NameScheme) (root : I) (v : V) :
    Derivation M T S V :=
  let w := g.traverse settings.conflicts root v
  let events := g.events w
  let name := g.qualifiedName root
  if w.failed then
    ⟨none, w.diagnostics, events ++ [.failed name w.diagnostics.length], w.void⟩
  else if w.components.isEmpty then
    ⟨none, w.diagnostics.add .noComponents (g.interfaceSite root),
      events ++ [.diagnosed .noComponents], w.void⟩
  else
    let record := g.recordOf settings scheme root w.components
    ⟨some record, w.diagnostics,
      events ++ [.derived name record.name w.components.length], w.void⟩

end Catalog

end InterfaceRecord
