/-
  The items of a source file, as far as interfaces need them: traits and inline modules in full,
  all else by its presence.
-/
import InterfaceRecord.Source.Literal

namespace InterfaceRecord.Source

/-- What follows an attribute's path. -/
inductive AttributeArgs
  | absent
  | list (tokens : List Token)
  | value
deriving DecidableEq

/-- An attribute: its path, which may be an absolute one, and what follows. -/
structure Attribute where
  absolute : Bool
  path : List Ident
  args : AttributeArgs
deriving DecidableEq

/-- Whether the attribute's path is just this one identifier. -/
def Attribute.isNamed (a : Attribute) (name : String) : Bool :=
  !a.absolute && a.path.map (·.text) == [name]

/-- The words that are never taken for a name. -/
def reservedWords : List String :=
  ["_", "abstract", "as", "async", "await", "become", "box", "break", "const", "continue",
   "crate", "do", "dyn", "else", "enum", "extern", "false", "final", "fn", "for", "if", "impl",
   "in", "let", "loop", "macro", "match", "mod", "move", "mut", "override", "priv", "pub", "ref",
   "return", "Self", "self", "static", "struct", "super", "trait", "true", "try", "type",
   "typeof", "unsafe", "unsized", "use", "virtual", "where", "while", "yield"]

def Ident.isReserved (i : Ident) : Bool :=
  reservedWords.contains i.text

/-- The single string or name that an attribute's list holds. -/
def Attribute.argument? (a : Attribute) : Option String :=
  match a.args with
  | .list [.literal kind text] => stringValue? kind text
  | .list [.ident name] => if name.isReserved then none else some name.text
  | _ => none

/-- A bound on a type: a trait by the identifiers of its path, or a bound of another kind. -/
inductive Bound
  | trait (path : List Ident)
  | other
deriving DecidableEq

def Bound.path? : Bound → Option (List Ident)
  | .trait path => some path
  | .other => none

/-- A clause that bounds a type, given by its tokens, or one that bounds a lifetime. -/
inductive Predicate
  | type (subject : List Token) (bounds : List Bound)
  | lifetime
deriving DecidableEq

inductive GenericParam
  | type (name : Ident)
  | lifetime (name : Ident)
  | const (name : Ident)
deriving DecidableEq

/-- The tokens of a lifetime. -/
def lifetimeTokens (name : Ident) : List Token :=
  [.punct '\'' true, .ident name]

/-- A parameter's bare name. -/
def GenericParam.tokens : GenericParam → List Token
  | .type name => [.ident name]
  | .lifetime name => lifetimeTokens name
  | .const name => [.ident name]

/-- A function of a trait. -/
structure FnItem where
  /-- All attributes: those in front, then those inside the body. -/
  attributes : List Attribute
  /-- What stands between the attributes and the keyword. -/
  qualifiers : List Token
  name : Ident
  position : Position
  generics : List GenericParam
  predicates : List Predicate
  /-- The tokens of the receiver, if there is one. -/
  receiver : Option (List Token)
  /-- The types of the other arguments; an open argument list adds none. -/
  arguments : List (List Token)
  /-- The return type, if one is written. -/
  output : Option (List Token)
  hasBody : Bool
deriving DecidableEq

/-- A member of a trait; associated types, macros and members with a visibility or another mark
that belongs elsewhere are `other`. -/
inductive Member
  | function (item : FnItem)
  | const (name : Ident) (type : List Token)
  | other
deriving DecidableEq

structure TraitItem where
  name : Ident
  position : Position
  generics : List GenericParam
  supertraits : List Bound
  predicates : List Predicate
  members : List Member
deriving DecidableEq

/-- An item of a file or a module. -/
inductive Item
  | interface (item : TraitItem)
  | inlineModule (name : Ident) (items : List Item)
  | fileModule (name : Ident)
  | other

end InterfaceRecord.Source
