/-
  Interfaces of one table found at other positions of another, with the same content. Only those
  that matter need be found again, and these are closed under supertypes. Their supertypes are
  moved along, so the two tables correspond (`Relocated.corresponds`). Sites may differ, and types
  are compared by their texts.
-/
import InterfaceRecord.Proofs.Correspondence
import InterfaceRecord.Table

namespace InterfaceRecord

variable {T S S' : Type}

/-! ## Declarations without their sites -/

/-- A constant with its type as a text. -/
def Constant.shown (text : T → String) (c : Constant T) : Constant String where
  name := c.name
  type := text c.type
  isPublic := c.isPublic
  isStatic := c.isStatic
  isFinal := c.isFinal

/-- A public static final constant of that name and of the type with that text. -/
def Constant.fits (name type : String) (c : Constant String) : Bool :=
  c.isPublic && c.isStatic && c.isFinal && c.name == name && c.type == type

/-- A method with its types as texts and without its site. -/
def MethodEntry.shown (text : T → String) (m : MethodEntry T S) : MethodEntry String Unit where
  name := m.name
  returnType := text m.returnType
  parameters := m.parameters.map text
  typeParameters := m.typeParameters.map text
  ignoresDefault := m.ignoresDefault
  initializer := m.initializer
  isStatic := m.isStatic
  isDefault := m.isDefault
  isPublic := m.isPublic
  site := ()

/-- An interface with its types as texts, with its supertypes at new positions and without
sites. -/
def InterfaceEntry.shown (text : T → String) (move : Nat → Nat) (d : InterfaceEntry T S) :
    InterfaceEntry String Unit where
  qualifiedName := d.qualifiedName
  simpleName := d.simpleName
  typeParameters := d.typeParameters.map text
  supertypes := d.supertypes.map move
  methods := d.methods.map (MethodEntry.shown text)
  constants := d.constants.map (Constant.shown text)
  site := ()

/-- Types are the same when their texts are, and whether a type is void is up to its text. -/
structure TypeView.ByText (types : TypeView T Unit) : Prop where
  same : ∀ a b, types.same a b = (types.text a == types.text b)
  isVoid : ∀ a b, types.text a = types.text b → types.isVoid a () = types.isVoid b ()

namespace Table

variable {t : Table T S} {t' : Table T S'} {R : Nat → Prop} {move : Nat → Nat}

/-- The interfaces with `R` are found again, at their new positions and with the same content. -/
structure Relocated (t : Table T S) (t' : Table T S') (text : T → String) (R : Nat → Prop)
    (move : Nat → Nat) : Prop where
  closed : ∀ i d, R i → t[i]? = some d → ∀ p ∈ d.supertypes, R p
  entry : ∀ i, R i → ∃ d d', t[i]? = some d ∧ t'[move i]? = some d' ∧
    d'.shown text id = d.shown text move

/-- Methods keep their places in their interfaces. -/
def moved (move : Nat → Nat) : Renaming Nat MethodHandle Nat MethodHandle where
  interface := move
  method m := ⟨move m.interface, m.index⟩

variable {types : TypeView T Unit} {separator : String}

/-- An answer about an interface that is found again. -/
theorem Relocated.elim_eq {text : T → String} (h : t.Relocated t' text R move) {i : Nat}
    (hR : R i) {α : Type} {none : α} {answer : InterfaceEntry T S → α}
    {answer' : InterfaceEntry T S' → α}
    (hanswer : ∀ d d', d'.shown text id = d.shown text move → answer' d' = answer d) :
    t'[move i]?.elim none answer' = t[i]?.elim none answer := by
  obtain ⟨d, d', hd, hd', hshown⟩ := h.entry i hR
  rw [hd, hd']
  exact hanswer d d' hshown

/-- An answer about a method that is found again. -/
theorem elim_eq_of_method? {α : Type} {none : α} {m m' : MethodHandle} {e : MethodEntry T S}
    {e' : MethodEntry T S'} (he : t.method? m = some e) (he' : t'.method? m' = some e')
    {answer : MethodEntry T S → α} {answer' : MethodEntry T S' → α} (h : answer' e' = answer e) :
    (t'.method? m').elim none answer' = (t.method? m).elim none answer := by
  rw [he, he']
  exact h

variable [Inhabited T] [Inhabited S]

/-- The handles of an interface's methods are its positions. -/
theorem mem_catalog_methods {i : Nat} {m : MethodHandle} :
    m ∈ (t.catalog types separator).methods i ↔
      ∃ d, t[i]? = some d ∧ m.interface = i ∧ m.index < d.methods.length := by
  show m ∈ t[i]?.elim [] (fun d => (List.range d.methods.length).map (⟨i, ·⟩)) ↔ _
  cases hd : t[i]? with
  | none => simp
  | some d =>
    simp only [Option.elim_some, List.mem_map, List.mem_range, Option.some.injEq, exists_eq_left']
    constructor
    · rintro ⟨k, hk, rfl⟩
      exact ⟨rfl, hk⟩
    · rintro ⟨rfl, hk⟩
      exact ⟨m.index, hk, rfl⟩

/-- Each method is found again, with the same content. -/
theorem Relocated.method? (h : t.Relocated t' types.text R move) {d : Nat × MethodHandle}
    (hd : (t.catalog types separator).Declares R d) :
    ∃ e e', t.method? d.2 = some e ∧ t'.method? ((moved move).method d.2) = some e' ∧
      e'.shown types.text = e.shown types.text := by
  obtain ⟨hR, hm⟩ := hd
  obtain ⟨entry, hentry, hinterface, hindex⟩ := mem_catalog_methods.mp hm
  obtain ⟨entry₁, entry', hentry₁, hentry', hshown⟩ := h.entry d.1 hR
  obtain rfl : entry = entry₁ := Option.some.inj (hentry.symm.trans hentry₁)
  have hmethods : entry'.methods.map (MethodEntry.shown types.text) =
      entry.methods.map (MethodEntry.shown types.text) :=
    congrArg InterfaceEntry.methods hshown
  have hlen : d.2.index < entry'.methods.length := by
    have hlen := congrArg List.length hmethods
    rw [List.length_map, List.length_map] at hlen
    omega
  have hat := congrArg (·[d.2.index]?) hmethods
  simp only [List.getElem?_map, List.getElem?_eq_getElem hindex, List.getElem?_eq_getElem hlen,
    Option.map_some, Option.some.injEq] at hat
  refine ⟨entry.methods[d.2.index], entry'.methods[d.2.index], ?_, ?_, hat⟩
  · rw [Table.method?, hinterface, hentry]
    exact List.getElem?_eq_getElem hindex
  · show t'[move d.2.interface]?.bind (·.methods[d.2.index]?) = _
    rw [hinterface, hentry']
    exact List.getElem?_eq_getElem hlen

variable [Inhabited S']

/-- The text of the return type of a method that is found again. -/
theorem text_returnType_eq (separator : String) {m m' : MethodHandle} {e : MethodEntry T S} {e' : MethodEntry T S'}
    (he : t.method? m = some e) (he' : t'.method? m' = some e')
    (h : e'.shown types.text = e.shown types.text) :
    types.text ((t'.catalog types separator).returnType m') =
      types.text ((t.catalog types separator).returnType m) := by
  have hreturn : (t.catalog types separator).returnType m = e.returnType := by
    show (t.method? m).elim default (·.returnType) = _
    rw [he]
    rfl
  have hreturn' : (t'.catalog types separator).returnType m' = e'.returnType := by
    show (t'.method? m').elim default (·.returnType) = _
    rw [he']
    rfl
  rw [hreturn, hreturn']
  exact congrArg MethodEntry.returnType h

theorem sameMethod_of_shown (htypes : types.ByText) {m m' : MethodHandle} {e : MethodEntry T S}
    {e' : MethodEntry T S'} (he : t.method? m = some e) (he' : t'.method? m' = some e')
    (h : e'.shown types.text = e.shown types.text) :
    Catalog.SameMethod (t.catalog types separator) (t'.catalog types separator) m m' where
  name := elim_eq_of_method? he he' (congrArg MethodEntry.name h)
  isStatic := elim_eq_of_method? he he' (congrArg MethodEntry.isStatic h)
  isDefault := elim_eq_of_method? he he' (congrArg MethodEntry.isDefault h)
  isPublic := elim_eq_of_method? he he' (congrArg MethodEntry.isPublic h)
  parameters := by
    show ((t'.method? m').elim [] (·.parameters)).isEmpty =
      ((t.method? m).elim [] (·.parameters)).isEmpty
    rw [he, he']
    have hparameters := congrArg (fun e => e.parameters.isEmpty) h
    simpa [MethodEntry.shown] using hparameters
  typeParameters := by
    show ((t'.method? m').elim [] (·.typeParameters)).isEmpty =
      ((t.method? m).elim [] (·.typeParameters)).isEmpty
    rw [he, he']
    have hparameters := congrArg (fun e => e.typeParameters.isEmpty) h
    simpa [MethodEntry.shown] using hparameters
  ignoresDefault := elim_eq_of_method? he he' (congrArg MethodEntry.ignoresDefault h)
  initializerName := by
    show (t'.method? m').bind (·.initializer) = (t.method? m).bind (·.initializer)
    rw [he, he']
    exact congrArg MethodEntry.initializer h
  isVoid := htypes.isVoid _ _ (text_returnType_eq separator he he' h)
  typeText := fun _ => text_returnType_eq separator he he' h

/-- Whether a constant gives first values of a type can be seen when the types are shown. -/
theorem any_isInitializerConstant (htypes : types.ByText) (name : String) (type : T)
    (cs : List (Constant T)) :
    cs.any ((t.catalog types separator).isInitializerConstant name type) =
      (cs.map (Constant.shown types.text)).any (Constant.fits name (types.text type)) := by
  have htest : (t.catalog types separator).isInitializerConstant name type =
      Constant.fits name (types.text type) ∘ Constant.shown types.text := by
    funext c
    show (c.isPublic && c.isStatic && c.isFinal && c.name == name && types.same c.type type) = _
    rw [htypes.same]
    rfl
  rw [htest, List.any_map]

/-- Tables of which one holds the interfaces of the other at new positions correspond. -/
theorem Relocated.corresponds (h : t.Relocated t' types.text R move) (htypes : types.ByText)
    (separator : String) :
    (t.catalog types separator).Corresponds (t'.catalog types separator) R (moved move) where
  separator := rfl
  closed := by
    intro i hR p hp
    obtain ⟨d, -, hd, -, -⟩ := h.entry i hR
    rw [catalog_supertypes, hd] at hp
    exact h.closed i d hR hd p hp
  qualifiedName := fun _ hR =>
    h.elim_eq hR fun _ _ hshown => congrArg InterfaceEntry.qualifiedName hshown
  simpleName := fun _ hR =>
    h.elim_eq hR fun _ _ hshown => congrArg InterfaceEntry.simpleName hshown
  typeParameters := by
    intro i hR
    obtain ⟨d, d', hd, hd', hshown⟩ := h.entry i hR
    show (t'[move i]?.elim [] (·.typeParameters)).map types.text =
      (t[i]?.elim [] (·.typeParameters)).map types.text
    rw [hd, hd']
    exact congrArg InterfaceEntry.typeParameters hshown
  supertypes := by
    intro i hR
    obtain ⟨d, d', hd, hd', hshown⟩ := h.entry i hR
    have hsupertypes : d'.supertypes.map id = d.supertypes.map move :=
      congrArg InterfaceEntry.supertypes hshown
    show t'[move i]?.elim [] (·.supertypes) = (t[i]?.elim [] (·.supertypes)).map move
    rw [hd, hd']
    rwa [List.map_id] at hsupertypes
  methods := by
    intro i hR
    obtain ⟨d, d', hd, hd', hshown⟩ := h.entry i hR
    have hlen : d'.methods.length = d.methods.length := by
      have hmethods := congrArg (fun d => d.methods.length) hshown
      simpa [InterfaceEntry.shown] using hmethods
    show t'[move i]?.elim [] (fun d => (List.range d.methods.length).map (⟨move i, ·⟩)) =
      (t[i]?.elim [] fun d => (List.range d.methods.length).map (⟨i, ·⟩)).map
        (moved move).method
    rw [hd, hd', Option.elim_some, Option.elim_some, hlen, List.map_map]
    rfl
  method := by
    intro d hd
    obtain ⟨e, e', he, he', hshown⟩ := h.method? hd
    exact sameMethod_of_shown htypes he he' hshown
  sameType := by
    intro d d' hd hd'
    obtain ⟨e, e₁, he, he₁, hshown⟩ := h.method? hd
    obtain ⟨e', e₁', he', he₁', hshown'⟩ := h.method? hd'
    have htext := text_returnType_eq separator he he₁ hshown
    have htext' := text_returnType_eq separator he' he₁' hshown'
    show types.same _ _ = types.same _ _
    rw [htypes.same, htypes.same, htext, htext']
  constants := by
    intro d hd name
    obtain ⟨e, e', he, he', hshown⟩ := h.method? hd
    obtain ⟨entry, entry', hentry, hentry', hentries⟩ := h.entry d.1 hd.1
    have htext := text_returnType_eq separator he he' hshown
    have hconstants : entry'.constants.map (Constant.shown types.text) =
        entry.constants.map (Constant.shown types.text) :=
      congrArg InterfaceEntry.constants hentries
    have hread : (t.catalog types separator).constants d.1 = entry.constants := by
      show t[d.1]?.elim [] (·.constants) = _
      rw [hentry]
      rfl
    have hread' : (t'.catalog types separator).constants (move d.1) = entry'.constants := by
      show t'[move d.1]?.elim [] (·.constants) = _
      rw [hentry']
      rfl
    show ((t'.catalog types separator).constants (move d.1)).any _ = _
    rw [hread, hread', any_isInitializerConstant htypes, any_isInitializerConstant htypes,
      hconstants]
    exact congrArg (fun text => (entry.constants.map _).any (Constant.fits name text)) htext

end Table

end InterfaceRecord
