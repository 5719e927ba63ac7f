/-
  Handles as positions. A position of a table cannot be out of range, so that the declaration behind
  it is looked up and not asked for (`Table.guarded`). In a table whose links stay in it, all
  answers about positions are those that the table gives about their numbers
  (`Table.guarded_sameAnswers`), and so is all that is made from them.
-/
import InterfaceRecord.Proofs.Relocation
import InterfaceRecord.Proofs.SameAnswers

namespace InterfaceRecord

variable {T S V : Type}

namespace Table

/-- All supertypes stand in the table. -/
def Closed (t : Table T S) : Prop := ∀ d ∈ t, ∀ p ∈ d.supertypes, p < t.length

/-- The position of a method: its interface, and its place there. -/
abbrev MethodPosition (t : Table T S) : Type := (i : Fin t.length) × Fin (t.get i).methods.length

variable {t : Table T S}

/-- The declaration at a position. -/
def methodAt (m : t.MethodPosition) : MethodEntry T S := (t.get m.1).methods.get m.2

variable (t) in
/-- The handles of positions. -/
def handles : Renaming (Fin t.length) t.MethodPosition Nat MethodHandle where
  interface i := i
  method m := ⟨m.1, m.2⟩

/-- The answers of a table about positions. Each one is read off a declaration that is there. -/
def guarded (t : Table T S) (h : t.Closed) (types : TypeView T V) (separator : String) :
    Catalog (Fin t.length) t.MethodPosition T S V where
  separator := separator
  qualifiedName i := (t.get i).qualifiedName
  simpleName i := (t.get i).simpleName
  typeParameters i := (t.get i).typeParameters
  supertypes i := (t.get i).supertypes.attach.map fun p =>
    ⟨p.1, h (t.get i) (List.get_mem t i) p.1 p.2⟩
  methods i := (List.finRange (t.get i).methods.length).map (Sigma.mk i)
  constants i := (t.get i).constants
  methodName m := (methodAt m).name
  isStatic m := (methodAt m).isStatic
  isDefault m := (methodAt m).isDefault
  isPublic m := (methodAt m).isPublic
  parameters m := (methodAt m).parameters
  returnType m := (methodAt m).returnType
  methodTypeParameters m := (methodAt m).typeParameters
  ignoresDefault m := (methodAt m).ignoresDefault
  initializerName m := (methodAt m).initializer
  interfaceSite i := (t.get i).site
  methodSite m := (methodAt m).site
  typeText := types.text
  sameType := types.same
  isVoid := types.isVoid
  names _ := "" :: t.map (·.qualifiedName)
  name_mem_names i := List.mem_cons_of_mem _ (List.mem_map_of_mem (List.get_mem t i))
  names_subset_names _ _ _ := List.Subset.refl _

theorem elim_handle {α : Type} (i : Fin t.length) (none : α) (answer : InterfaceEntry T S → α) :
    t[t.handles.interface i]?.elim none answer = answer (t.get i) := by
  have hi : t[t.handles.interface i]? = some (t.get i) := List.getElem?_eq_getElem i.isLt
  rw [hi, Option.elim_some]

theorem method?_handle (m : t.MethodPosition) :
    t.method? (t.handles.method m) = some (methodAt m) := by
  have hi : t[(t.handles.method m).interface]? = some (t.get m.1) :=
    List.getElem?_eq_getElem m.1.isLt
  rw [method?, hi, Option.bind_some]
  exact List.getElem?_eq_getElem m.2.isLt

theorem elim_methodHandle {α : Type} (m : t.MethodPosition) (none : α)
    (answer : MethodEntry T S → α) :
    (t.method? (t.handles.method m)).elim none answer = answer (methodAt m) := by
  rw [method?_handle, Option.elim_some]

variable [Inhabited T] [Inhabited S]

/-- No answer about a position needs a declaration that is not there. -/
theorem guarded_sameAnswers (h : t.Closed) (types : TypeView T V) (separator : String) :
    (t.guarded h types separator).SameAnswers (t.catalog types separator) t.handles where
  separator := rfl
  qualifiedName i := elim_handle i _ _
  simpleName i := elim_handle i _ _
  typeParameters i := elim_handle i _ _
  supertypes i := by
    have hread : (t.catalog types separator).supertypes (t.handles.interface i) =
        (t.get i).supertypes := elim_handle i _ _
    rw [hread, guarded, List.map_map]
    exact (List.attach_map_subtype_val _).symm
  methods i := by
    have hread : (t.catalog types separator).methods (t.handles.interface i) =
        (List.range (t.get i).methods.length).map (⟨i, ·⟩) := elim_handle i _ _
    rw [hread, guarded, List.map_map, ← List.map_coe_finRange_eq_range, List.map_map]
    rfl
  constants i := elim_handle i _ _
  methodName m := elim_methodHandle m _ _
  isStatic m := elim_methodHandle m _ _
  isDefault m := elim_methodHandle m _ _
  isPublic m := elim_methodHandle m _ _
  parameters m := elim_methodHandle m _ _
  returnType m := elim_methodHandle m _ _
  methodTypeParameters m := elim_methodHandle m _ _
  ignoresDefault m := elim_methodHandle m _ _
  initializerName m := by
    show (t.method? (t.handles.method m)).bind (·.initializer) = _
    rw [method?_handle]
    rfl
  interfaceSite i := elim_handle i _ _
  methodSite m := elim_methodHandle m _ _
  typeText := rfl
  sameType := rfl
  isVoid := rfl
  names _ := rfl

/-! ## Which handles are positions -/

omit [Inhabited T] [Inhabited S] in
theorem exists_position {i : Nat} (h : i < t.length) : ∃ p, t.handles.interface p = i :=
  ⟨⟨i, h⟩, rfl⟩

/-- The handle is one of a method that is declared in the table. -/
def HasMethod (t : Table T S) (m : MethodHandle) : Prop :=
  ∃ d, t[m.interface]? = some d ∧ m.index < d.methods.length

omit [Inhabited T] [Inhabited S] in
theorem hasMethod_iff_exists_position {m : MethodHandle} :
    t.HasMethod m ↔ ∃ p, t.handles.method p = m := by
  constructor
  · rintro ⟨d, hd, hindex⟩
    obtain ⟨hi, rfl⟩ := List.getElem?_eq_some_iff.mp hd
    exact ⟨⟨⟨m.interface, hi⟩, ⟨m.index, hindex⟩⟩, rfl⟩
  · rintro ⟨p, rfl⟩
    exact ⟨t.get p.1, List.getElem?_eq_getElem p.1.isLt, p.2.isLt⟩

end Table

end InterfaceRecord
