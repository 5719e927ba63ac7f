/-
  Interfaces kept in a list, with their indices as handles.
-/
import InterfaceRecord.Catalog

namespace InterfaceRecord

/-- The handle of a method: its interface, and its position in that interface. -/
structure MethodHandle where
  interface : Nat
  index : Nat
deriving DecidableEq, Repr, Inhabited

/-- A method declaration. At first it is public and abstract and has no parameters. -/
structure MethodEntry (T S : Type) where
  name : String
  returnType : T
  parameters : List T := []
  typeParameters : List T := []
  ignoresDefault : Bool := false
  initializer : Option String := none
  isStatic : Bool := false
  isDefault : Bool := false
  isPublic : Bool := true
  site : S
deriving DecidableEq, Repr

/-- An interface declaration. -/
structure InterfaceEntry (T S : Type) where
  qualifiedName : String
  simpleName : String
  typeParameters : List T := []
  supertypes : List Nat := []
  methods : List (MethodEntry T S) := []
  constants : List (Constant T) := []
  site : S
deriving DecidableEq, Repr

/-- What is asked about types. -/
structure TypeView (T V : Type) where
  text : T → String
  same : T → T → Bool
  isVoid : T → V → Bool × V

/-- A list of interfaces; supertypes are positions in it. -/
abbrev Table (T S : Type) := List (InterfaceEntry T S)

namespace Table

variable {T S V : Type}

/-- The declaration behind a method's handle. -/
def method? (t : Table T S) (m : MethodHandle) : Option (MethodEntry T S) :=
  t[m.interface]?.bind (·.methods[m.index]?)

/-- The answers of a table. A handle that is out of range has a declaration without content. -/
def catalog [Inhabited T] [Inhabited S] (t : Table T S) (types : TypeView T V)
    (separator : String) : Catalog Nat MethodHandle T S V where
  separator := separator
  qualifiedName i := t[i]?.elim "" (·.qualifiedName)
  simpleName i := t[i]?.elim "" (·.simpleName)
  typeParameters i := t[i]?.elim [] (·.typeParameters)
  supertypes i := t[i]?.elim [] (·.supertypes)
  methods i := t[i]?.elim [] fun d => (List.range d.methods.length).map (⟨i, ·⟩)
  constants i := t[i]?.elim [] (·.constants)
  methodName m := (t.method? m).elim "" (·.name)
  isStatic m := (t.method? m).elim false (·.isStatic)
  isDefault m := (t.method? m).elim false (·.isDefault)
  isPublic m := (t.method? m).elim false (·.isPublic)
  parameters m := (t.method? m).elim [] (·.parameters)
  returnType m := (t.method? m).elim default (·.returnType)
  methodTypeParameters m := (t.method? m).elim [] (·.typeParameters)
  ignoresDefault m := (t.method? m).elim false (·.ignoresDefault)
  initializerName m := (t.method? m).bind (·.initializer)
  interfaceSite i := t[i]?.elim default (·.site)
  methodSite m := (t.method? m).elim default (·.site)
  typeText := types.text
  sameType := types.same
  isVoid := types.isVoid
  names _ := "" :: t.map (·.qualifiedName)
  name_mem_names i := by
    cases h : t[i]? with
    | none => simp
    | some d => exact List.mem_cons_of_mem _ (List.mem_map_of_mem (List.mem_of_getElem? h))
  names_subset_names _ _ _ := List.Subset.refl _

end Table

end InterfaceRecord
