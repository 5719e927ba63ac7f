/-
  Which trait a supertrait's path means.
-/
import InterfaceRecord.Trait.Entry

namespace InterfaceRecord.Trait

open InterfaceRecord.Source

/-- The last trait of that qualified name. -/
def lastNamed? (traits : List TraitEntry) (name : String) : Option Nat :=
  (traits.zipIdx.filter (·.1.qualifiedName == name)).getLast?.map (·.2)

/-- The trait of that simple name, if there is only one. -/
def onlyNamed? (traits : List TraitEntry) (name : String) : Option Nat :=
  match traits.zipIdx.filter (·.1.simpleName == name) with
  | [(_, i)] => some i
  | _ => none

/-- Goes up one module for each leading `super`. -/
def dropSupers (home : List Ident) : List Ident → List Ident × List Ident
  | [] => (home, [])
  | i :: path => if i.text == "super" then dropSupers home.dropLast path else (home, i :: path)

/-- The module a path starts from, and the path from there on. -/
def startOf (home : List Ident) : List Ident → List Ident × List Ident
  | [] => (home, [])
  | i :: path =>
    if i.text == "crate" then ([], path)
    else if i.text == "self" then (home, path)
    else dropSupers home (i :: path)

/-- The trait meant by a path that is written in the module `home`: the one it leads to from its
starting module, else the one it leads to from the root, else for a single name the only trait
of that name. -/
def link? (traits : List TraitEntry) (home path : List Ident) : Option Nat :=
  let (start, rest) := startOf home path
  let bySegments := (lastNamed? traits (joinPath (start ++ rest))).or
    (lastNamed? traits (joinPath rest))
  bySegments.or
    (match path with
      | [name] => onlyNamed? traits name.text
      | _ => none)

/-- The positions of a trait's direct supertypes; paths that mean no trait of the file are
dropped. -/
def supertypesOf (traits : List TraitEntry) (d : TraitEntry) : List Nat :=
  d.bounds.filterMap (link? traits d.home)

/-- The paths that mean no trait of the file. -/
def unlinkedOf (traits : List TraitEntry) (d : TraitEntry) : List (List Ident) :=
  d.bounds.filter fun b => (link? traits d.home b).isNone

/-- A trait as an interface. -/
def interfaceOf (traits : List TraitEntry) (d : TraitEntry) :
    InterfaceEntry TypeTokens SourcePlace where
  qualifiedName := d.qualifiedName
  simpleName := d.simpleName
  typeParameters := d.typeParameters
  supertypes := supertypesOf traits d
  methods := d.methods
  constants := d.constants
  site := ⟨d.qualifiedName, d.position⟩

/-- The interfaces of a file's traits. -/
def tableOf (traits : List TraitEntry) : Table TypeTokens SourcePlace :=
  traits.map (interfaceOf traits)

end InterfaceRecord.Trait
