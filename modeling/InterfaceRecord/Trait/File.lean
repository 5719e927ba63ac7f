/-
  The traits of one source file: loading them, finding them by name, and deriving records.
-/
import InterfaceRecord.Derivation
import InterfaceRecord.Source.Folder
import InterfaceRecord.Source.Grammar.File
import InterfaceRecord.Trait.Link
import InterfaceRecord.Trait.Survey

namespace InterfaceRecord.Trait

open InterfaceRecord.Source

/-- Why no traits were loaded. -/
inductive LoadError
  /-- The file cannot be read. -/
  | read (path : String) (reason : ReadFailure)
  /-- The text is no source file. -/
  | parse
deriving DecidableEq, Repr

def LoadError.message : LoadError → String
  | read path reason => "failed to read " ++ path ++ ": " ++ reason.message
  | parse => "failed to parse trait declarations: "

/-- The traits of a file in source order, the same as interfaces, and the diagnostics reported
so far. -/
structure TraitFile where
  traits : List TraitEntry
  interfaces : Table TypeTokens SourcePlace
  reported : Diagnostics SourcePlace := []

namespace TraitFile

def ofTraits (traits : List TraitEntry) : TraitFile where
  traits := traits
  interfaces := tableOf traits

def ofItems (items : List Item) : TraitFile := ofTraits (traitsOf items)

/-- Loads the traits of a source text. -/
def load (source : String) : Except LoadError TraitFile :=
  match Grammar.parseFile? source with
  | some items => .ok (ofItems items)
  | none => .error .parse

/-- Loads the traits of a file in a folder. -/
def loadPath (folder : Folder) (path : String) : Except LoadError TraitFile :=
  match folder.read path with
  | .ok source => load source
  | .error reason => .error (.read path reason)

/-- The events of loading: the paths that mean no trait, then the number of traits. -/
def loadEvents (f : TraitFile) : List Event :=
  (f.traits.flatMap fun d =>
    (unlinkedOf f.traits d).map fun b => .unlinked d.qualifiedName (joinPath b)) ++
    [.loaded f.traits.length]

/-- The first trait of that qualified name, else the only one of that simple name. -/
def find? (f : TraitFile) (name : String) : Option Nat :=
  (f.traits.findIdx? (·.qualifiedName == name)).or (onlyNamed? f.traits name)

def catalog (f : TraitFile) : Catalog Nat MethodHandle TypeTokens SourcePlace Unit :=
  f.interfaces.catalog TypeTokens.view "::"

/-- Derives the record of a trait and keeps what the derivation reports. -/
def derive (f : TraitFile) (settings : Settings) (scheme : NameScheme) (root : Nat) :
    Derivation MethodHandle TypeTokens SourcePlace Unit × TraitFile :=
  let d := f.catalog.derive settings scheme root ()
  (d, { f with reported := f.reported ++ d.diagnostics })

/-- Hands out the reported diagnostics and forgets them. -/
def drain (f : TraitFile) : Diagnostics SourcePlace × TraitFile :=
  (f.reported, { f with reported := [] })

/-- The reported diagnostics as they are shown on a terminal. -/
def reportedTexts (f : TraitFile) : List String :=
  f.reported.map fun d =>
    d.severity.text ++ ": " ++ d.message ++ "\n  --> " ++ d.site.text

end TraitFile

end InterfaceRecord.Trait
