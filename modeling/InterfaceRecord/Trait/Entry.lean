/-
  Traits as interfaces: what of a trait's declaration a derivation can see.
-/
import InterfaceRecord.Source.Item
import InterfaceRecord.Source.Printer
import InterfaceRecord.Table
import InterfaceRecord.Text.Quoted

namespace InterfaceRecord.Trait

open InterfaceRecord.Source

/-- A type by its tokens. Types are the same when they are shown the same. -/
structure TypeTokens where
  tokens : List Token
deriving DecidableEq, Inhabited

namespace TypeTokens

def text (t : TypeTokens) : String := render t.tokens

/-- The type without a value. -/
def unit : TypeTokens := ⟨[.opening .paren, .closing .paren]⟩

def isVoid (t : TypeTokens) : Bool := t.text == "()"

def view : TypeView TypeTokens Unit where
  text := text
  same a b := a.text == b.text
  isVoid t _ := (t.isVoid, ())

end TypeTokens

/-- Where an item stands in its source text. -/
structure SourcePlace where
  /-- The item's path. -/
  item : String
  position : Position
deriving DecidableEq, Repr

instance : Inhabited SourcePlace := ⟨⟨"", ⟨0, 0⟩⟩⟩

namespace SourcePlace

/-- The site as a reader is pointed to it. -/
def text (s : SourcePlace) : String :=
  s.item ++ " at " ++ toString s.position.line ++ ":" ++ toString s.position.column

/-- The text of a site in a diagnostic. -/
def fields (s : SourcePlace) : String :=
  "SourceSite \x7b item: " ++ Text.quote s.item ++ ", line: " ++ toString s.position.line
    ++ ", column: " ++ toString s.position.column ++ " \x7d"

end SourcePlace

/-- The identifiers of a path with double colons between them. -/
def joinPath (path : List Ident) : String :=
  String.intercalate "::" (path.map (·.text))

/-- A trait with the path of the module it stands in and the paths of its supertraits. -/
structure TraitEntry where
  home : List Ident
  name : Ident
  position : Position
  typeParameters : List TypeTokens
  bounds : List (List Ident)
  methods : List (MethodEntry TypeTokens SourcePlace)
  constants : List (Constant TypeTokens)
deriving DecidableEq

namespace TraitEntry

/-- The segments of a trait's path. -/
def path (d : TraitEntry) : List Ident := d.home ++ [d.name]

def qualifiedName (d : TraitEntry) : String := joinPath d.path

def simpleName (d : TraitEntry) : String := d.name.text

end TraitEntry

/-- Attributes that a derivation understands. -/
def ignoreMark : String := "ignore_default"

def initializerMark : String := "initializer"

/-- The type parameters of a function; lifetimes are none. -/
def typeParameters (params : List GenericParam) : List TypeTokens :=
  params.filterMap fun p =>
    match p with
    | .lifetime _ => none
    | p => some ⟨p.tokens⟩

/-- A trait's function as a method: without a receiver it is static, with a body it is a default
method, and its first initializer attribute names the initializer. -/
def methodOf (owner : String) (f : FnItem) : MethodEntry TypeTokens SourcePlace where
  name := f.name.text
  returnType := f.output.elim TypeTokens.unit (⟨·⟩)
  parameters := f.arguments.map (⟨·⟩)
  typeParameters := typeParameters f.generics
  ignoresDefault := f.attributes.any (·.isNamed ignoreMark)
  initializer := (f.attributes.find? (·.isNamed initializerMark)).bind (·.argument?)
  isStatic := f.receiver.isNone
  isDefault := f.hasBody
  site := ⟨owner ++ "::" ++ f.name.text, f.position⟩

/-- The methods among a trait's members. -/
def methodsOf (owner : String) (members : List Member) :
    List (MethodEntry TypeTokens SourcePlace) :=
  members.filterMap fun
    | .function f => some (methodOf owner f)
    | _ => none

/-- The constants among a trait's members. -/
def constantsOf (members : List Member) : List (Constant TypeTokens) :=
  members.filterMap fun
    | .const name type => some { name := name.text, type := ⟨type⟩ }
    | _ => none

/-- The type that a trait has inside itself. -/
def isOwnType (subject : List Token) : Bool :=
  match subject with
  | [.ident i] => i.text == "Self"
  | _ => false

/-- The bounds that a clause puts on the trait itself. -/
def selfBounds : Predicate → List Bound
  | .type subject bounds => if isOwnType subject then bounds else []
  | .lifetime => []

/-- The paths of the traits that a trait is bounded by: those of its supertrait list, then those
of clauses on `Self`. -/
def boundPaths (t : TraitItem) : List (List Ident) :=
  (t.supertraits ++ t.predicates.flatMap selfBounds).filterMap (·.path?)

/-- The declaration of a trait that stands in the module `home`. -/
def TraitEntry.ofItem (home : List Ident) (t : TraitItem) : TraitEntry where
  home := home
  name := t.name
  position := t.position
  typeParameters := t.generics.map (⟨·.tokens⟩)
  bounds := boundPaths t
  methods := methodsOf (joinPath (home ++ [t.name])) t.members
  constants := constantsOf t.members

end InterfaceRecord.Trait
