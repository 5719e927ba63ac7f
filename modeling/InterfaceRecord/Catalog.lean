/-
  Interfaces as a derivation sees them: through the questions it may ask about them. Interfaces,
  methods and types are opaque here; lists come in the order of declaration.
-/
import InterfaceRecord.Diagnostic

namespace InterfaceRecord

/-- A constant declared in an interface. -/
structure Constant (T : Type) where
  name : String
  type : T
  isPublic : Bool := true
  isStatic : Bool := true
  isFinal : Bool := true
deriving DecidableEq, Repr

/-- The answers to all questions about interfaces `I`, their methods `M`, types `T` and sites `S`.
All of them are fixed but one: whether a type is void may depend on what was asked before, which
a value of `V` remembers. With `Unit` for `V` that answer is fixed as well. -/
structure Catalog (I M T S V : Type) where
  /-- What divides the package from the simple name in a qualified name. -/
  separator : String := "::"
  qualifiedName : I → String
  simpleName : I → String
  typeParameters : I → List T
  supertypes : I → List I
  methods : I → List M
  constants : I → List (Constant T) := fun _ => []
  methodName : M → String
  isStatic : M → Bool
  isDefault : M → Bool
  isPublic : M → Bool := fun _ => true
  parameters : M → List T
  returnType : M → T
  methodTypeParameters : M → List T
  /-- Whether the method, if it is a default method, is not meant to be a component. -/
  ignoresDefault : M → Bool
  /-- The member that the method's annotation names as initializer. -/
  initializerName : M → Option String := fun _ => none
  interfaceSite : I → S
  methodSite : M → S
  typeText : T → String
  sameType : T → T → Bool
  isVoid : T → V → Bool × V
  /-- The qualified names that a traversal from an interface can meet. -/
  names : I → List String
  name_mem_names : ∀ i, qualifiedName i ∈ names i
  names_subset_names : ∀ i, ∀ p ∈ supertypes i, names p ⊆ names i

/-- What is decided about a method: it is a component of that name and type, it is left out on
purpose, or it breaks the rules. -/
inductive Ruling (T : Type)
  | accept (name : String) (type : T)
  | skip
  | reject (fault : Fault)
deriving DecidableEq, Repr

/-- A member of an interface that gives a component its first value. -/
inductive Initializer
  | method (name : String)
  | constant (name : String)
deriving DecidableEq, Repr

namespace Initializer

def name : Initializer → String
  | method n => n
  | constant n => n

/-- The expression for the first value, given the text of the type that owns the member. -/
def expression (owner : String) : Initializer → String
  | method n => owner ++ "::" ++ n ++ "()"
  | constant n => owner ++ "::" ++ n

end Initializer

namespace Catalog

variable {I M T S V : Type} (g : Catalog I M T S V)

/-- Static methods are left out, and default methods that say so. Any other method takes no
arguments, returns a value and has no type parameters; the first of these rules that it breaks is
its fault. -/
def ruling (i : I) (m : M) (v : V) : Ruling T × V :=
  if g.isStatic m || (g.isDefault m && g.ignoresDefault m) then (.skip, v)
  else
    let (void, v) := if (g.parameters m).isEmpty then g.isVoid (g.returnType m) v else (true, v)
    if void then (.reject (.signature (g.simpleName i) (g.methodName m)), v)
    else if (g.methodTypeParameters m).isEmpty then (.accept (g.methodName m) (g.returnType m), v)
    else (.reject (.genericMethod (g.simpleName i) (g.methodName m)), v)

/-- A public static method of that name and type. -/
def isInitializerMethod (target : String) (type : T) (m : M) : Bool :=
  g.isStatic m && g.isPublic m && g.methodName m == target && g.sameType (g.returnType m) type

/-- A public static final constant of that name and type. -/
def isInitializerConstant (target : String) (type : T) (c : Constant T) : Bool :=
  c.isPublic && c.isStatic && c.isFinal && c.name == target && g.sameType c.type type

/-- The member of `i` itself that fits the name and the type, methods before constants. -/
def initializer? (i : I) (target : String) (type : T) : Option Initializer :=
  if (g.methods i).any (g.isInitializerMethod target type) then some (.method target)
  else if (g.constants i).any (g.isInitializerConstant target type) then some (.constant target)
  else none

end Catalog

end InterfaceRecord
