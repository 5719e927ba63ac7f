/-
  Interfaces that are put together step by step. Types are plain names, one of them void, and what
  derivations report is kept with the interfaces.
-/
import InterfaceRecord.Derivation
import InterfaceRecord.Table
import InterfaceRecord.Text.Quoted

namespace InterfaceRecord

/-- A type that is no more than its name. -/
structure NamedType where
  name : String
deriving DecidableEq, Repr, Inhabited

namespace NamedType

def void : NamedType := ⟨"void"⟩

def view : TypeView NamedType Unit where
  text t := t.name
  same a b := a = b
  isVoid t _ := (t = void, ())

end NamedType

/-- A place in a graph, by the names of what stands there. -/
inductive GraphSite
  | interface (interface : String)
  | method (interface method : String)
deriving DecidableEq, Repr, Inhabited

/-- The text of a site in a diagnostic. -/
def GraphSite.text : GraphSite → String
  | interface i => "Interface(" ++ Text.quote i ++ ")"
  | method i m =>
    "Method \x7b interface: " ++ Text.quote i ++ ", method: " ++ Text.quote m ++ " \x7d"

/-- Interfaces, and the diagnostics reported so far. -/
structure Graph where
  interfaces : Table NamedType GraphSite := []
  reported : Diagnostics GraphSite := []
deriving DecidableEq, Repr

namespace Graph

/-- The separator of qualified names. -/
def separator : String := "::"

/-- A new interface at the end. Its simple name is the part of its name behind the last
separator. -/
def declare (g : Graph) (name : String) : Graph × Nat :=
  ({ g with interfaces := g.interfaces ++ [{
      qualifiedName := name
      simpleName := QualifiedName.simple ⟨name, separator⟩
      site := .interface name }] },
    g.interfaces.length)

def addTypeParameter (g : Graph) (i : Nat) (type : NamedType) : Graph :=
  { g with interfaces := g.interfaces.modify i fun d =>
      { d with typeParameters := d.typeParameters ++ [type] } }

/-- `parent` becomes the last direct supertype of `i`. -/
def extend (g : Graph) (i parent : Nat) : Graph :=
  { g with interfaces := g.interfaces.modify i fun d =>
      { d with supertypes := d.supertypes ++ [parent] } }

def qualifiedName (g : Graph) (i : Nat) : String :=
  g.interfaces[i]?.elim "" (·.qualifiedName)

/-- A new method at the end of an interface; the site it names is that interface's. -/
def addMethod (g : Graph) (i : Nat) (m : MethodEntry NamedType Unit) : Graph × MethodHandle :=
  let decl : MethodEntry NamedType GraphSite :=
    { m with site := .method (g.qualifiedName i) m.name }
  ({ g with interfaces := g.interfaces.modify i fun d =>
      { d with methods := d.methods ++ [decl] } },
    ⟨i, g.interfaces[i]?.elim 0 (·.methods.length)⟩)

/-- A public abstract method without parameters. -/
def addAccessor (g : Graph) (i : Nat) (name : String) (type : NamedType) : Graph × MethodHandle :=
  g.addMethod i { name := name, returnType := type, site := () }

/-- A public static final constant. -/
def addConstant (g : Graph) (i : Nat) (name : String) (type : NamedType) : Graph :=
  { g with interfaces := g.interfaces.modify i fun d =>
      { d with constants := d.constants ++ [{ name := name, type := type }] } }

def catalog (g : Graph) : Catalog Nat MethodHandle NamedType GraphSite Unit :=
  g.interfaces.catalog NamedType.view separator

/-- Derives the record of an interface and keeps what the derivation reports. -/
def derive (g : Graph) (settings : Settings) (scheme : NameScheme) (root : Nat) :
    Derivation MethodHandle NamedType GraphSite Unit × Graph :=
  let d := g.catalog.derive settings scheme root ()
  (d, { g with reported := g.reported ++ d.diagnostics })

/-- Hands out the reported diagnostics and forgets them. -/
def drain (g : Graph) : Diagnostics GraphSite × Graph :=
  (g.reported, { g with reported := [] })

end Graph

end InterfaceRecord
