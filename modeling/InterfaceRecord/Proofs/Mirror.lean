/-
  The traits of a file, put together once more as interfaces with plain names for types. Putting
  them together step by step comes to a declaration for each trait (`interfaces_mirror`), and from
  such a mirror the same records are derived, with the same complaints (`derive_mirror`).
-/
import InterfaceRecord.Graph
import InterfaceRecord.Proofs.JoinedPath
import InterfaceRecord.Proofs.Likeness
import InterfaceRecord.Proofs.Surveying

namespace InterfaceRecord

open InterfaceRecord.Trait

/-! ## The mirror of a file -/

namespace Trait

/-- A type by its text, the unit type by the void type. -/
def TypeTokens.named (t : TypeTokens) : NamedType :=
  if t.isVoid then NamedType.void else ⟨t.text⟩

/-- A method with plain names for its types. -/
def mirrorMethod (m : MethodEntry TypeTokens SourcePlace) : MethodEntry NamedType Unit where
  name := m.name
  returnType := m.returnType.named
  parameters := m.parameters.map (·.named)
  typeParameters := m.typeParameters.map (·.named)
  ignoresDefault := m.ignoresDefault
  initializer := m.initializer
  isStatic := m.isStatic
  isDefault := m.isDefault
  site := ()

/-- A constant with a plain name for its type. -/
def mirrorConstant (c : Constant TypeTokens) : Constant NamedType where
  name := c.name
  type := c.type.named

end Trait

namespace Graph

/-- Gives the interface `i` all that `d` declares, in the order of declaration. -/
def fill (g : Graph) (i : Nat) (d : InterfaceEntry TypeTokens SourcePlace) : Graph :=
  let g := d.typeParameters.foldl (fun g t => g.addTypeParameter i ⟨t.text⟩) g
  let g := d.supertypes.foldl (fun g p => g.extend i p) g
  let g := d.methods.foldl (fun g m => (g.addMethod i (mirrorMethod m)).1) g
  d.constants.foldl (fun g c => g.addConstant i c.name c.type.named) g

end Graph

namespace Trait

/-- The same interfaces put together step by step: first one for each trait, then what each of
them declares. -/
def TraitFile.mirror (f : TraitFile) : Graph :=
  let g := f.interfaces.foldl (fun g d => (g.declare d.qualifiedName).1) ({} : Graph)
  f.interfaces.zipIdx.foldl (fun g (d, i) => g.fill i d) g

/-- No method returns and no constant has a type that is shown the way the void type is named. -/
def TraitFile.AvoidsVoid (f : TraitFile) : Prop :=
  ∀ d ∈ f.interfaces, (∀ m ∈ d.methods, m.returnType.text ≠ NamedType.void.name) ∧
    ∀ c ∈ d.constants, c.type.text ≠ NamedType.void.name

instance (f : TraitFile) : Decidable f.AvoidsVoid :=
  inferInstanceAs (Decidable (∀ d ∈ f.interfaces, _ ∧ _))

end Trait

/-! ## Putting a graph together -/

namespace Graph

/-- A declaration in a graph. -/
abbrev Entry := InterfaceEntry NamedType GraphSite

namespace Entry

def addTypeParameters (e : Entry) (types : List NamedType) : Entry :=
  { e with typeParameters := e.typeParameters ++ types }

def addSupertypes (e : Entry) (parents : List Nat) : Entry :=
  { e with supertypes := e.supertypes ++ parents }

/-- A method with the site it has in the interface of that name. -/
def sited (owner : String) (m : MethodEntry NamedType Unit) : MethodEntry NamedType GraphSite :=
  { m with site := .method owner m.name }

def addMethods (e : Entry) (ms : List (MethodEntry NamedType Unit)) : Entry :=
  { e with methods := e.methods ++ ms.map (sited e.qualifiedName) }

def addConstants (e : Entry) (cs : List (Constant NamedType)) : Entry :=
  { e with constants := e.constants ++ cs }

end Entry

/-- A change to the declaration of one interface. -/
def update (g : Graph) (i : Nat) (h : Entry → Entry) : Graph :=
  { g with interfaces := g.interfaces.modify i h }

theorem update_update (g : Graph) (i : Nat) (h h' : Entry → Entry) :
    (g.update i h).update i h' = g.update i (h' ∘ h) := by
  simp only [update, List.modify_modify_eq]

theorem update_id (g : Graph) (i : Nat) : g.update i id = g := by
  rw [update, List.modify_id]

/-- Of a change only counts what it does to the declaration that stands there. -/
theorem update_congr {g : Graph} {i : Nat} {h h' : Entry → Entry}
    (heq : ∀ e, g.interfaces[i]? = some e → h e = h' e) : g.update i h = g.update i h' := by
  have hmodify : g.interfaces.modify i h = g.interfaces.modify i h' := by
    apply List.ext_getElem?
    intro j
    rw [List.getElem?_modify, List.getElem?_modify]
    cases he : g.interfaces[j]? with
    | none => rfl
    | some e =>
      by_cases hij : i = j
      · subst hij
        simp [heq e he]
      · simp [hij]
  rw [update, update, hmodify]

/-- A change to the declaration that stands behind `front`. -/
theorem interfaces_update {g : Graph} {front back : List Entry} {e : Entry}
    (hg : g.interfaces = front ++ e :: back) (h : Entry → Entry) :
    (g.update front.length h).interfaces = front ++ h e :: back := by
  have hmodify : (front ++ e :: back).modify front.length h = front ++ h e :: back := by
    clear hg
    induction front with
    | nil => rfl
    | cons d front ih =>
      rw [List.cons_append, List.length_cons, List.modify_succ_cons, ih, List.cons_append]
  rw [update, hg, hmodify]

/-- Members that are added one by one are added together. -/
theorem foldl_update {α β : Type} (add : Entry → List β → Entry) (hnil : ∀ e, add e [] = e)
    (happend : ∀ e ys zs, add (add e ys) zs = add e (ys ++ zs)) (member : α → β) (g : Graph)
    (i : Nat) (xs : List α) :
    xs.foldl (fun g x => g.update i (add · [member x])) g =
      g.update i (add · (xs.map member)) := by
  induction xs generalizing g with
  | nil =>
    have hid : (add · []) = id := funext hnil
    rw [List.foldl_nil, List.map_nil, hid, update_id]
  | cons x xs ih =>
    have hadd : (add · (xs.map member)) ∘ (add · [member x]) =
        (add · ((x :: xs).map member)) := by
      funext e
      exact happend e [member x] (xs.map member)
    rw [List.foldl_cons, ih, update_update, hadd]

/-- A method gets the name of the interface that it is added to. -/
theorem addMethod_eq_update (g : Graph) (i : Nat) (m : MethodEntry NamedType Unit) :
    (g.addMethod i m).1 = g.update i (·.addMethods [m]) := by
  apply update_congr
  intro e he
  rw [qualifiedName, he]
  rfl

/-- All that `d` declares, added to a declaration. -/
def Entry.filled (d : InterfaceEntry TypeTokens SourcePlace) (e : Entry) : Entry :=
  let e := e.addTypeParameters (d.typeParameters.map fun t => ⟨t.text⟩)
  let e := e.addSupertypes d.supertypes
  let e := e.addMethods (d.methods.map mirrorMethod)
  e.addConstants (d.constants.map mirrorConstant)

theorem fill_eq_update (g : Graph) (i : Nat) (d : InterfaceEntry TypeTokens SourcePlace) :
    g.fill i d = g.update i (Entry.filled d) := by
  have htypes (g : Graph) :
      d.typeParameters.foldl (fun g t => g.addTypeParameter i ⟨t.text⟩) g =
        g.update i (·.addTypeParameters (d.typeParameters.map fun t => ⟨t.text⟩)) :=
    foldl_update Entry.addTypeParameters (by simp [Entry.addTypeParameters])
      (by simp [Entry.addTypeParameters]) _ g i d.typeParameters
  have hparents (g : Graph) :
      d.supertypes.foldl (fun g p => g.extend i p) g =
        g.update i (·.addSupertypes (d.supertypes.map id)) :=
    foldl_update Entry.addSupertypes (by simp [Entry.addSupertypes])
      (by simp [Entry.addSupertypes]) id g i d.supertypes
  have hmethods (g : Graph) :
      d.methods.foldl (fun g m => (g.addMethod i (mirrorMethod m)).1) g =
        g.update i (·.addMethods (d.methods.map mirrorMethod)) := by
    simp only [addMethod_eq_update]
    exact foldl_update Entry.addMethods (by simp [Entry.addMethods])
      (by simp [Entry.addMethods]) mirrorMethod g i d.methods
  have hconstants (g : Graph) :
      d.constants.foldl (fun g c => g.addConstant i c.name c.type.named) g =
        g.update i (·.addConstants (d.constants.map mirrorConstant)) :=
    foldl_update Entry.addConstants (by simp [Entry.addConstants])
      (by simp [Entry.addConstants]) mirrorConstant g i d.constants
  rw [fill]
  rw [htypes, hparents, hmethods, hconstants, update_update, update_update, update_update,
    List.map_id]
  rfl

/-- A declaration as it starts. -/
def Entry.bare (name : String) : Entry where
  qualifiedName := name
  simpleName := QualifiedName.simple ⟨name, separator⟩
  site := .interface name

theorem interfaces_foldl_declare (g : Graph) (ds : List (InterfaceEntry TypeTokens SourcePlace)) :
    (ds.foldl (fun g d => (g.declare d.qualifiedName).1) g).interfaces =
      g.interfaces ++ ds.map (Entry.bare ·.qualifiedName) := by
  induction ds generalizing g with
  | nil => exact (List.append_nil _).symm
  | cons d ds ih =>
    rw [List.foldl_cons, ih, declare, List.map_cons, List.append_assoc]
    rfl

/-- The declarations are filled one after another, those in `front` are already. -/
theorem interfaces_foldl_fill (g : Graph) (front : List Entry)
    (ds : List (InterfaceEntry TypeTokens SourcePlace))
    (hg : g.interfaces = front ++ ds.map (Entry.bare ·.qualifiedName)) :
    ((ds.zipIdx front.length).foldl (fun g (d, i) => g.fill i d) g).interfaces =
      front ++ ds.map fun d => Entry.filled d (Entry.bare d.qualifiedName) := by
  -- the index of the next declaration is the number of those in `front`, which grows by one
  induction ds generalizing g front with
  | nil => exact hg
  | cons d ds ih =>
    have hfill : (g.fill front.length d).interfaces =
        (front ++ [Entry.filled d (Entry.bare d.qualifiedName)]) ++
          ds.map (Entry.bare ·.qualifiedName) := by
      rw [fill_eq_update, interfaces_update hg, List.append_assoc]
      rfl
    have hrest := ih (g.fill front.length d) _ hfill
    rw [List.length_append, List.length_singleton] at hrest
    rw [List.zipIdx_cons, List.foldl_cons, hrest, List.append_assoc]
    rfl

end Graph

namespace Trait

open InterfaceRecord.Graph
open InterfaceRecord.Source

/-- A trait's interface with plain names for its types. -/
def mirrorEntry (d : InterfaceEntry TypeTokens SourcePlace) : Entry where
  qualifiedName := d.qualifiedName
  simpleName := QualifiedName.simple ⟨d.qualifiedName, separator⟩
  typeParameters := d.typeParameters.map fun t => ⟨t.text⟩
  supertypes := d.supertypes
  methods := d.methods.map fun m => Entry.sited d.qualifiedName (mirrorMethod m)
  constants := d.constants.map mirrorConstant
  site := .interface d.qualifiedName

theorem filled_bare (d : InterfaceEntry TypeTokens SourcePlace) :
    Entry.filled d (Entry.bare d.qualifiedName) = mirrorEntry d := by
  simp [Entry.filled, Entry.bare, mirrorEntry, Entry.addTypeParameters, Entry.addSupertypes,
    Entry.addMethods, Entry.addConstants]

/-- The mirror of a file has a declaration for each of its interfaces. -/
theorem interfaces_mirror (f : TraitFile) : f.mirror.interfaces = f.interfaces.map mirrorEntry := by
  have hfill := interfaces_foldl_fill _ [] f.interfaces
    (interfaces_foldl_declare ({} : Graph) f.interfaces)
  rw [TraitFile.mirror]
  dsimp only
  rw [← List.length_nil (α := Entry), hfill, List.nil_append]
  exact List.map_congr_left fun d _ => filled_bare d

/-! ## Types and their names -/

theorem TypeTokens.isVoid_iff {t : TypeTokens} : t.isVoid = true ↔ t.text = "()" := by
  rw [TypeTokens.isVoid, beq_iff_eq]

theorem TypeTokens.name_named {t : TypeTokens} (h : t.isVoid = false) : t.named.name = t.text := by
  rw [TypeTokens.named, h]
  rfl

theorem TypeTokens.named_eq_void_iff {t : TypeTokens} (ht : t.text ≠ NamedType.void.name) :
    t.named = NamedType.void ↔ t.isVoid = true := by
  constructor
  · intro h
    by_contra hvoid
    have hname := TypeTokens.name_named (Bool.eq_false_iff.mpr hvoid)
    rw [h] at hname
    exact ht hname.symm
  · intro h
    rw [TypeTokens.named, if_pos h]

/-- Types are the same by their names if they are the same by their texts. -/
theorem TypeTokens.named_eq_named_iff {t u : TypeTokens} (ht : t.text ≠ NamedType.void.name)
    (hu : u.text ≠ NamedType.void.name) : t.named = u.named ↔ t.text = u.text := by
  by_cases hvoid : u.isVoid = true
  · rw [(TypeTokens.named_eq_void_iff hu).mpr hvoid, TypeTokens.named_eq_void_iff ht,
      TypeTokens.isVoid_iff, TypeTokens.isVoid_iff.mp hvoid]
  · constructor
    · intro h
      have hvoid' : ¬ t.isVoid = true := by
        rwa [← TypeTokens.named_eq_void_iff ht, h, TypeTokens.named_eq_void_iff hu]
      have hname := TypeTokens.name_named (Bool.eq_false_iff.mpr hvoid')
      rw [← hname, h, TypeTokens.name_named (Bool.eq_false_iff.mpr hvoid)]
    · intro h
      rw [TypeTokens.named, TypeTokens.named, TypeTokens.isVoid, TypeTokens.isVoid, h]

/-- Types and their names are compared with the same outcome. -/
theorem same_named {t u : TypeTokens} (ht : t.text ≠ NamedType.void.name)
    (hu : u.text ≠ NamedType.void.name) :
    NamedType.view.same t.named u.named = TypeTokens.view.same t u := by
  rw [Bool.eq_iff_iff]
  change decide (t.named = u.named) = true ↔ (t.text == u.text) = true
  rw [decide_eq_true_iff, beq_iff_eq]
  exact TypeTokens.named_eq_named_iff ht hu

/-! ## Interfaces of traits -/

/-- An interface as traits declare them: its simple name ends its qualified name, and its members
are open to all. -/
structure IsOpen (d : InterfaceEntry TypeTokens SourcePlace) : Prop where
  simpleName : d.simpleName = QualifiedName.simple ⟨d.qualifiedName, separator⟩
  methods : ∀ m ∈ d.methods, m.isPublic = true
  constants : ∀ c ∈ d.constants, c.isPublic = true ∧ c.isStatic = true ∧ c.isFinal = true

theorem isPublic_of_mem_methodsOf {owner : String} {members : List Member}
    {m : MethodEntry TypeTokens SourcePlace} (h : m ∈ methodsOf owner members) :
    m.isPublic = true := by
  obtain ⟨member, -, hm⟩ := List.mem_filterMap.mp h
  cases member with
  | function f =>
    obtain rfl := Option.some.inj hm
    rfl
  | const name type => cases hm
  | other => cases hm

theorem isPublic_of_mem_constantsOf {members : List Member} {c : Constant TypeTokens}
    (h : c ∈ constantsOf members) :
    c.isPublic = true ∧ c.isStatic = true ∧ c.isFinal = true := by
  obtain ⟨member, -, hc⟩ := List.mem_filterMap.mp h
  cases member with
  | function f => cases hc
  | const name type =>
    obtain rfl := Option.some.inj hc
    exact ⟨rfl, rfl, rfl⟩
  | other => cases hc

theorem isOpen_of_load {source : String} {f : TraitFile} (h : TraitFile.load source = .ok f) :
    ∀ d ∈ f.interfaces, IsOpen d := by
  obtain ⟨items, -, rfl⟩ := load_eq_ok_iff.mp h
  intro d hd
  obtain ⟨entry, hentry, rfl⟩ := List.mem_map.mp hd
  obtain ⟨home, t, rfl⟩ := exists_ofItem_of_mem hentry
  constructor
  · exact (simple_joinPath home t.name).symm
  · intro m hm
    exact isPublic_of_mem_methodsOf hm
  · intro c hc
    exact isPublic_of_mem_constantsOf hc

/-! ## Mirrors answer alike -/

variable {f : TraitFile}

/-- An answer about an interface carries over from the interface itself to its mirror. -/
theorem elim_interfaces_mirror {α β : Type} (carry : α → β) (none : α) {answer' : Entry → β}
    {answer : InterfaceEntry TypeTokens SourcePlace → α} (i : Nat)
    (h : ∀ d ∈ f.interfaces, answer' (mirrorEntry d) = carry (answer d)) :
    f.mirror.interfaces[i]?.elim (carry none) answer' =
      carry (f.interfaces[i]?.elim none answer) := by
  rw [interfaces_mirror, List.getElem?_map]
  cases hd : f.interfaces[i]? with
  | none => rfl
  | some d => exact h d (List.mem_of_getElem? hd)

theorem exists_mem_of_method? {m : MethodHandle} {e : MethodEntry TypeTokens SourcePlace}
    (h : f.interfaces.method? m = some e) : ∃ d ∈ f.interfaces, e ∈ d.methods := by
  obtain ⟨d, hd, he⟩ := Option.bind_eq_some_iff.mp h
  exact ⟨d, List.mem_of_getElem? hd, List.mem_of_getElem? he⟩

/-- The declaration behind a handle is that of the method with plain names for its types. -/
theorem method?_mirror (m : MethodHandle) :
    f.mirror.interfaces.method? m = (f.interfaces.method? m).map fun e =>
      Entry.sited (f.interfaces[m.interface]?.elim "" (·.qualifiedName)) (mirrorMethod e) := by
  rw [interfaces_mirror, Table.method?, Table.method?, List.getElem?_map]
  cases f.interfaces[m.interface]? with
  | none => rfl
  | some d =>
    rw [Option.map_some, Option.bind_some, Option.bind_some, mirrorEntry, List.getElem?_map]
    rfl

/-- An answer about a method carries over from the method itself to its mirror. -/
theorem elim_method?_mirror {α β : Type} (carry : α → β) (none : α)
    {answer' : MethodEntry NamedType GraphSite → β}
    {answer : MethodEntry TypeTokens SourcePlace → α} (m : MethodHandle)
    (h : ∀ owner, ∀ d ∈ f.interfaces, ∀ e ∈ d.methods,
      answer' (Entry.sited owner (mirrorMethod e)) = carry (answer e)) :
    (f.mirror.interfaces.method? m).elim (carry none) answer' =
      carry ((f.interfaces.method? m).elim none answer) := by
  rw [method?_mirror]
  cases he : f.interfaces.method? m with
  | none => rfl
  | some e =>
    obtain ⟨d, hd, hmem⟩ := exists_mem_of_method? he
    exact h _ d hd e hmem

theorem returnType_mirror (m : MethodHandle) :
    f.mirror.catalog.returnType m = (f.catalog.returnType m).named :=
  elim_method?_mirror TypeTokens.named default m fun _ _ _ _ _ => rfl

theorem text_returnType_ne_void (h : f.AvoidsVoid) (m : MethodHandle) :
    (f.catalog.returnType m).text ≠ NamedType.void.name := by
  simp only [Table.catalog, TraitFile.catalog]
  cases he : f.interfaces.method? m with
  | none => decide
  | some e =>
    obtain ⟨d, hd, hmem⟩ := exists_mem_of_method? he
    exact (h d hd).1 e hmem

/-- The same constants fit in a file and in its mirror. -/
theorem any_constants_mirror (hopen : ∀ d ∈ f.interfaces, IsOpen d) (hvoid : f.AvoidsVoid)
    (i : Nat) (name : String) (m : MethodHandle) :
    (f.mirror.catalog.constants i).any
        (f.mirror.catalog.isInitializerConstant name (f.mirror.catalog.returnType m)) =
      (f.catalog.constants i).any
        (f.catalog.isInitializerConstant name (f.catalog.returnType m)) := by
  have hconstants : f.mirror.catalog.constants i =
      (f.catalog.constants i).map mirrorConstant :=
    elim_interfaces_mirror (List.map mirrorConstant) [] i fun _ _ => rfl
  have hmem : ∀ c ∈ f.catalog.constants i, ∃ d ∈ f.interfaces, c ∈ d.constants := by
    intro c hc
    simp only [TraitFile.catalog, Table.catalog] at hc
    cases hd : f.interfaces[i]? with
    | none => rw [hd] at hc; cases hc
    | some d =>
      rw [hd] at hc
      exact ⟨d, List.mem_of_getElem? hd, hc⟩
  have hsame (c : Constant TypeTokens) (hc : c ∈ f.catalog.constants i) :
      f.mirror.catalog.isInitializerConstant name (f.mirror.catalog.returnType m)
          (mirrorConstant c) =
        f.catalog.isInitializerConstant name (f.catalog.returnType m) c := by
    obtain ⟨d, hd, hcd⟩ := hmem c hc
    obtain ⟨hpublic, hstatic, hfinal⟩ := (hopen d hd).constants c hcd
    have htype : f.mirror.catalog.sameType c.type.named (f.catalog.returnType m).named =
        f.catalog.sameType c.type (f.catalog.returnType m) :=
      same_named ((hvoid d hd).2 c hcd) (text_returnType_ne_void hvoid m)
    rw [Catalog.isInitializerConstant, Catalog.isInitializerConstant, returnType_mirror,
      hpublic, hstatic, hfinal, mirrorConstant]
    dsimp only
    rw [htype]
  rw [hconstants, List.any_map, Bool.eq_iff_iff, List.any_eq_true, List.any_eq_true]
  refine exists_congr fun c => and_congr_right fun hc => ?_
  rw [Function.comp_apply, hsame c hc]

/-- The types of methods answer alike. -/
theorem isVoid_returnType_mirror (hvoid : f.AvoidsVoid) (m : MethodHandle) :
    f.mirror.catalog.isVoid (f.mirror.catalog.returnType m) () =
      f.catalog.isVoid (f.catalog.returnType m) () := by
  have hiff := TypeTokens.named_eq_void_iff (text_returnType_ne_void hvoid m)
  rw [returnType_mirror]
  have h : decide ((f.catalog.returnType m).named = NamedType.void) =
      (f.catalog.returnType m).isVoid := by
    rw [Bool.eq_iff_iff, decide_eq_true_iff, hiff]
  exact congrArg (·, ()) h

/-- A file and its mirror answer alike. -/
theorem alike_mirror (hopen : ∀ d ∈ f.interfaces, IsOpen d) (hvoid : f.AvoidsVoid) :
    f.catalog.Alike f.mirror.catalog where
  separator := rfl
  qualifiedName := funext fun i => elim_interfaces_mirror id "" i fun _ _ => rfl
  simpleName := funext fun i =>
    elim_interfaces_mirror id "" i fun d hd => (hopen d hd).simpleName.symm
  typeParameters i := by
    have htypes : f.mirror.catalog.typeParameters i =
        (f.catalog.typeParameters i).map fun t => ⟨t.text⟩ :=
      elim_interfaces_mirror (List.map fun t : TypeTokens => (⟨t.text⟩ : NamedType)) [] i
        fun _ _ => rfl
    rw [htypes, List.map_map]
    rfl
  supertypes := funext fun i => elim_interfaces_mirror id [] i fun _ _ => rfl
  methods := funext fun i => elim_interfaces_mirror id [] i fun d _ => by
    rw [mirrorEntry, List.length_map]
    rfl
  methodName := funext fun m => elim_method?_mirror id "" m fun _ _ _ _ _ => rfl
  isStatic := funext fun m => elim_method?_mirror id false m fun _ _ _ _ _ => rfl
  isDefault := funext fun m => elim_method?_mirror id false m fun _ _ _ _ _ => rfl
  isPublic := funext fun m => elim_method?_mirror id false m fun _ d hd e he =>
    ((hopen d hd).methods e he).symm
  parameters m := by
    have hparameters : f.mirror.catalog.parameters m =
        (f.catalog.parameters m).map TypeTokens.named :=
      elim_method?_mirror (List.map TypeTokens.named) [] m fun _ _ _ _ _ => rfl
    rw [hparameters, List.isEmpty_map]
  methodTypeParameters m := by
    have htypes : f.mirror.catalog.methodTypeParameters m =
        (f.catalog.methodTypeParameters m).map TypeTokens.named :=
      elim_method?_mirror (List.map TypeTokens.named) [] m fun _ _ _ _ _ => rfl
    rw [htypes, List.isEmpty_map]
  ignoresDefault := funext fun m => elim_method?_mirror id false m fun _ _ _ _ _ => rfl
  initializerName := by
    funext m
    change (f.mirror.interfaces.method? m).bind (·.initializer) =
      (f.interfaces.method? m).bind (·.initializer)
    rw [method?_mirror]
    cases f.interfaces.method? m <;> rfl
  isVoid := isVoid_returnType_mirror hvoid
  typeText m h := by
    rw [returnType_mirror]
    exact TypeTokens.name_named (congrArg Prod.fst h)
  sameType m m' := by
    rw [returnType_mirror, returnType_mirror]
    exact same_named (text_returnType_ne_void hvoid m) (text_returnType_ne_void hvoid m')
  constants := any_constants_mirror hopen hvoid

/-- From a loaded file and from its mirror the same records are derived: the outlines are equal, or
there is none on either side, and the same complaints are made in the same order. -/
theorem derive_mirror {source : String} {f : TraitFile} (h : TraitFile.load source = .ok f)
    (hvoid : f.AvoidsVoid) (settings : Settings) (scheme : NameScheme) (root : Nat) :
    (f.mirror.derive settings scheme root).1.record.map (·.outline NamedType.view.text) =
        (f.derive settings scheme root).1.record.map (·.outline TypeTokens.view.text) ∧
      (f.mirror.derive settings scheme root).1.diagnostics.map (fun d => (d.severity, d.message)) =
        (f.derive settings scheme root).1.diagnostics.map (fun d => (d.severity, d.message)) := by
  obtain ⟨hrecord, hfaults⟩ :=
    (alike_mirror (isOpen_of_load h) hvoid).derive settings scheme root
  refine ⟨hrecord, ?_⟩
  have hshown := congrArg (List.map fun fault : Fault => (fault.severity, fault.message)) hfaults
  rw [List.map_map, List.map_map] at hshown
  exact hshown

/-- A trait with a method that returns nothing, and one with a component of its own, which a static
method gives its first value, and one that it inherits from a third trait. -/
def mirroredSource : String :=
  "trait E { fn log(&self); }
  mod m { trait P: super::Q { fn o() -> u8; #[initializer(o)] fn x(&self) -> u8; } }
  trait Q { fn y(&self) -> u8; }"

def mirroredOutline : RecordOutline where
  name := "PRecord"
  package := "m"
  typeParameters := []
  components := [⟨"x", "u8", some (.method "o")⟩, ⟨"y", "u8", none⟩]
  builderName := some "PRecordBuilder"

/-- The mirror gives the record of the second trait, and says what is wrong with the first. -/
theorem derive_mirroredSource :
    ∃ f, TraitFile.load mirroredSource = .ok f ∧ f.AvoidsVoid ∧
      (f.mirror.derive {} .suffixes 1).1.record.map (·.outline NamedType.view.text) =
        some mirroredOutline ∧
      (f.mirror.derive {} .suffixes 0).1.diagnostics.map (fun d => (d.severity, d.message)) =
        [(.error, Fault.message (.signature "E" "log"))] := by
  obtain ⟨f, hf, h⟩ := exists_load_of_any mirroredSource (fun f => decide (f.AvoidsVoid ∧
      (f.derive {} .suffixes 1).1.record.map (·.outline TypeTokens.view.text) =
        some mirroredOutline ∧
      (f.derive {} .suffixes 0).1.diagnostics.map (fun d => (d.severity, d.message)) =
        [(.error, Fault.message (.signature "E" "log"))])) (by decide +kernel)
  obtain ⟨hvoid, hrecord, hreported⟩ := of_decide_eq_true h
  refine ⟨f, hf, hvoid, ?_, ?_⟩
  · rw [(derive_mirror hf hvoid {} .suffixes 1).1, hrecord]
  · rw [(derive_mirror hf hvoid {} .suffixes 0).2, hreported]

end Trait

end InterfaceRecord
