/-
  Which functions of a trait become components. What is decided about a function follows from a few
  features of its syntax (`ruling_eq_verdict`): its receiver, its body together with one attribute,
  its other arguments, its return type, and its type and constant parameters. All else in its
  declaration makes no difference (`ruling_of_function`).
-/
import InterfaceRecord.Proofs.SourceOrder
import InterfaceRecord.Proofs.UnitType

namespace InterfaceRecord

open InterfaceRecord.Source

/-- What is decided about a method of a table, by its declaration. -/
theorem Table.ruling_of_method? {T S : Type} [Inhabited T] [Inhabited S] {t : Table T S}
    {m : MethodHandle} {e : MethodEntry T S} (h : t.method? m = some e) (types : TypeView T Unit)
    (separator : String) (i : Nat) :
    ((t.catalog types separator).ruling i m ()).1 =
      if (e.isStatic || (e.isDefault && e.ignoresDefault)) = true then .skip
      else if (!e.parameters.isEmpty || (types.isVoid e.returnType ()).1) = true then
        .reject (.signature ((t.catalog types separator).simpleName i) e.name)
      else if (!e.typeParameters.isEmpty) = true then
        .reject (.genericMethod ((t.catalog types separator).simpleName i) e.name)
      else .accept e.name e.returnType := by
  simp only [Catalog.ruling, Table.catalog, h, Option.elim_some]
  cases e.isStatic || (e.isDefault && e.ignoresDefault) with
  | true => rfl
  | false =>
    cases e.parameters.isEmpty with
    | false => rfl
    | true =>
      cases hvoid : (types.isVoid e.returnType ()).1 with
      | true => simp [hvoid]
      | false => cases e.typeParameters.isEmpty <;> simp [hvoid]

/-! ## Functions by their syntax -/

namespace Source

/-- The functions among a trait's members. -/
def functionsOf (members : List Member) : List FnItem :=
  members.filterMap fun
    | .function f => some f
    | _ => none

namespace FnItem

/-- The function is not called on a value, or it has a body and an attribute whose path is the one
identifier that says to ignore it. -/
def IsLeftOut (f : FnItem) : Prop :=
  f.receiver = none ∨
    f.hasBody = true ∧ ∃ a ∈ f.attributes, a.absolute = false ∧
      a.path.map (·.text) = ["ignore_default"]

/-- It has an argument besides the receiver, or no return type, or the unit type for one. -/
def IsNoAccessor (f : FnItem) : Prop :=
  f.arguments ≠ [] ∨ f.output = none ∨ f.output = some [.opening .paren, .closing .paren]

/-- It declares a type parameter or a constant one. -/
def IsGeneric (f : FnItem) : Prop :=
  ∃ p ∈ f.generics, ∃ name, p = .type name ∨ p = .const name

instance (f : FnItem) : Decidable f.IsLeftOut :=
  inferInstanceAs (Decidable (_ ∨ _))

instance (f : FnItem) : Decidable f.IsNoAccessor :=
  inferInstanceAs (Decidable (_ ∨ _))

end FnItem

/-! ## Return types as they are read -/

namespace Grammar

open InterfaceRecord.Trait

/-- If the member is a function with a return type, that is not mistaken for the unit type. -/
def IsFaithful : Member → Prop
  | .function f => ∀ ts ∈ f.output, Unmistakable ts
  | _ => True

variable {depth : Nat}

theorem gives_arrowType (plus : Bool) :
    Gives (arrowType (Nested.ofDepth depth) plus) fun ts => ts = [] ∨ Unmistakable (ts.drop 2) := by
  refine Gives.ifLook ?_ (gives_pure (Or.inl rfl))
  have harrow : Gives (op "->") fun ts => ts.length = 2 := by
    intro ts us rest h
    rw [op] at h
    split at h
    · cases h
      rfl
    · cases h
  have htype : Gives ((Nested.ofDepth depth).typeTokens plus) Unmistakable :=
    (gives_type_ofDepth depth plus).bind fun _ h => gives_pure h
  have hbehind : Gives (seq [(Nested.ofDepth depth).typeTokens plus]) Unmistakable := by
    refine htype.bind fun ts hts => Gives.bind (P := (· = [])) (gives_pure rfl) fun us hus => ?_
    rw [hus, List.append_nil]
    exact gives_pure hts
  refine harrow.bind fun arrow hlength => hbehind.bind fun ts hts => gives_pure (Or.inr ?_)
  rwa [List.drop_left' hlength]

theorem gives_signature (safe : Bool) :
    Gives (signature (Nested.ofDepth depth) safe) fun f => ∀ ts ∈ f.output, Unmistakable ts := by
  refine Gives.after _ fun _ => Gives.after _ fun _ => Gives.after _ fun _ => Gives.after _ fun _ =>
    (gives_arrowType true).bind fun output houtput => Gives.after _ fun _ => gives_pure ?_
  intro ts hts
  rcases houtput with rfl | houtput
  · cases hts
  · dsimp only at hts
    split at hts
    · cases hts
    · cases hts
      exact houtput

theorem gives_traitFunction (attributes : List Attribute) :
    Gives (traitFunction (Nested.ofDepth depth) attributes) IsFaithful := by
  refine (gives_signature false).bind fun f hf => Gives.ifLook ?_ ?_
  · exact Gives.after _ fun _ => gives_pure hf
  · exact Gives.after _ fun _ => gives_pure hf

theorem gives_traitMember : Gives (traitMember (Nested.ofDepth depth)) IsFaithful := by
  have hchoice (l : Look) (attributes : List Attribute) :
      Gives (choose [
        (startsFunction false, traitFunction (Nested.ofDepth depth) attributes),
        (Look.word "const", traitConst (Nested.ofDepth depth)),
        (Look.word "type", do
          typeItem (Nested.ofDepth depth) false true
          pure .other),
        (l, do
          macroItem false
          pure .other)]) IsFaithful := by
    apply gives_choose
    simp only [List.forall_mem_cons]
    refine ⟨gives_traitFunction _, ?_, ?_, ?_, fun _ hb => absurd hb List.not_mem_nil⟩
    · refine Gives.after _ fun found => gives_pure ?_
      split <;> trivial
    · exact Gives.after _ fun _ => gives_pure trivial
    · exact Gives.after _ fun _ => gives_pure trivial
  refine Gives.after _ fun attributes => Gives.after _ fun _ => Gives.after _ fun _ =>
    (hchoice _ _).bind fun found hfound => gives_pure ?_
  split
  · exact hfound
  · trivial

/-- The functions of all traits in an item have return types that are not mistaken. -/
theorem inherited_isFaithful : Inherited fun i => ∀ home, ∀ p ∈ placed home i,
    ∀ member ∈ p.2.members, IsFaithful member where
  interface depth name position params hname := by
    refine Gives.after _ fun _ => Gives.after _ fun _ => Gives.bind (Gives.group .brace
      (Gives.after _ fun _ => gives_traitMember.untilDone)) fun members hmembers => gives_pure ?_
    intro home p hp
    rw [placed, List.mem_singleton] at hp
    rw [hp]
    exact hmembers
  inlineModule := by
    intro name its _ hits home p hp
    rw [placed] at hp
    obtain ⟨i, hi, hpi⟩ := mem_placedAll.mp hp
    exact hits i hi _ p hpi
  fileModule name home p hp := absurd hp List.not_mem_nil
  others home p hp := absurd hp List.not_mem_nil

end Grammar

end Source

namespace Trait

variable {f f' : FnItem}

theorem isLeftOut_iff :
    (f.receiver.isNone || (f.hasBody && f.attributes.any (·.isNamed ignoreMark))) = true ↔
      f.IsLeftOut := by
  simp [FnItem.IsLeftOut, Attribute.isNamed, ignoreMark]

/-- Lifetimes do not count. -/
theorem isGeneric_iff : (typeParameters f.generics).isEmpty = false ↔ f.IsGeneric := by
  rw [List.isEmpty_eq_false_iff_exists_mem, FnItem.IsGeneric]
  simp only [typeParameters, List.mem_filterMap]
  constructor
  · rintro ⟨type, p, hp, htype⟩
    refine ⟨p, hp, ?_⟩
    cases p with
    | type name => exact ⟨name, Or.inl rfl⟩
    | lifetime name => cases htype
    | const name => exact ⟨name, Or.inr rfl⟩
  · rintro ⟨p, hp, name, rfl | rfl⟩
    · exact ⟨_, _, hp, rfl⟩
    · exact ⟨_, _, hp, rfl⟩

instance (f : FnItem) : Decidable f.IsGeneric :=
  decidable_of_iff _ isGeneric_iff

/-- What is decided about a function in a trait of that name, by its syntax. -/
def verdict (owner : Ident) (f : FnItem) : Ruling TypeTokens :=
  if f.IsLeftOut then .skip
  else if f.IsNoAccessor then .reject (.signature owner.text f.name.text)
  else if f.IsGeneric then .reject (.genericMethod owner.text f.name.text)
  else .accept f.name.text ⟨f.output.getD []⟩

/-- The features of a function that a decision depends on. -/
structure Features where
  name : Ident
  isLeftOut : Bool
  isNullary : Bool
  output : Option (List Token)
  isGeneric : Bool
deriving DecidableEq

def features (f : FnItem) : Features where
  name := f.name
  isLeftOut := decide f.IsLeftOut
  isNullary := f.arguments.isEmpty
  output := f.output
  isGeneric := decide f.IsGeneric

theorem isLeftOut_iff_features : f.IsLeftOut ↔ (features f).isLeftOut = true :=
  decide_eq_true_iff.symm

theorem isNoAccessor_iff_features :
    f.IsNoAccessor ↔ (features f).isNullary = false ∨ (features f).output = none ∨
      (features f).output = some [.opening .paren, .closing .paren] := by
  rw [FnItem.IsNoAccessor, features, List.isEmpty_eq_false_iff]

theorem isGeneric_iff_features : f.IsGeneric ↔ (features f).isGeneric = true :=
  decide_eq_true_iff.symm

theorem verdict_eq_of_features_eq (owner : Ident) (h : features f' = features f) :
    verdict owner f' = verdict owner f := by
  have hname : f'.name = f.name := congrArg Features.name h
  have houtput : f'.output = f.output := congrArg Features.output h
  simp only [verdict, isLeftOut_iff_features, isNoAccessor_iff_features, isGeneric_iff_features,
    h, hname, houtput]

/-! ## Functions as methods -/

theorem methodsOf_eq_map (owner : String) (members : List Member) :
    methodsOf owner members = (functionsOf members).map (methodOf owner) := by
  rw [methodsOf, functionsOf, List.map_filterMap]
  refine List.filterMap_congr fun m _ => ?_
  cases m <;> rfl

namespace TraitFile

/-- The file was loaded from a text that consists of these items. -/
inductive LoadedAs (file : TraitFile) (items : List Item) : Prop
  | parsed (source : String) (hitems : Grammar.parseFile? source = some items)
    (h : file = ofItems items)
  | source (source : String) (hitems : Grammar.parseFile? source = some items)
    (h : load source = .ok file)
  | path (folder : Folder) (path source : String) (hread : folder.read path = .ok source)
    (hitems : Grammar.parseFile? source = some items) (h : loadPath folder path = .ok file)

/-- The function that stands behind a handle of a loaded file, and the name of its trait. -/
inductive Declares (file : TraitFile) (m : MethodHandle) : Ident → FnItem → Prop
  | intro {items : List Item} {home : List Ident} {t : TraitItem} {f : FnItem}
    (hfile : file.LoadedAs items) (ht : (placedAll [] items)[m.interface]? = some (home, t))
    (hf : (functionsOf t.members)[m.index]? = some f) : Declares file m t.name f

variable {file : TraitFile} {m : MethodHandle} {owner : Ident}

theorem LoadedAs.exists_parse {items : List Item} (h : file.LoadedAs items) :
    ∃ source, Grammar.parseFile? source = some items ∧ file = ofItems items := by
  have hload {source : String} (hitems : Grammar.parseFile? source = some items)
      (h : load source = .ok file) : file = ofItems items := by
    obtain ⟨items', hitems', rfl⟩ := load_eq_ok_iff.mp h
    rw [Option.some.inj (hitems'.symm.trans hitems)]
  cases h with
  | parsed source hitems h => exact ⟨source, hitems, h⟩
  | source source hitems h => exact ⟨source, hitems, hload hitems h⟩
  | path folder path source hread hitems h =>
    rw [loadPath, hread] at h
    exact ⟨source, hitems, hload hitems h⟩

/-- The declaration behind the handle is that of the function. -/
theorem Declares.answers (h : file.Declares m owner f) :
    file.catalog.simpleName m.interface = owner.text ∧
      ∃ path, file.interfaces.method? m = some (methodOf path f) := by
  obtain ⟨hfile, ht, hf⟩ := h
  rename_i items home t
  obtain ⟨-, -, rfl⟩ := hfile.exists_parse
  have hd : (traitsOf items)[m.interface]? = some (.ofItem home t) := by
    rw [traitsOf_eq_map_placed, List.getElem?_map, ht]
    rfl
  have hentry := getElem?_tableOf hd
  constructor
  · show (tableOf (traitsOf items))[m.interface]?.elim "" (·.simpleName) = _
    rw [hentry]
    rfl
  · refine ⟨joinPath (home ++ [t.name]), ?_⟩
    show (tableOf (traitsOf items))[m.interface]?.bind (·.methods[m.index]?) = _
    rw [hentry]
    show (methodsOf (joinPath (home ++ [t.name])) t.members)[m.index]? = _
    rw [methodsOf_eq_map, List.getElem?_map, hf]
    rfl

/-- The return type of a function in a loaded file is not mistaken for the unit type. -/
theorem Declares.unmistakable (h : file.Declares m owner f) : ∀ ts ∈ f.output, Unmistakable ts := by
  obtain ⟨hfile, ht, hf⟩ := h
  rename_i items home t
  obtain ⟨source, hitems, -⟩ := hfile.exists_parse
  obtain ⟨i, hi, hp⟩ := mem_placedAll.mp (List.mem_of_getElem? ht)
  have hmembers := Grammar.inherited_isFaithful.forall_of_parseFile? hitems i hi [] _ hp
  obtain ⟨member, hmember, hfunction⟩ := List.mem_filterMap.mp (List.mem_of_getElem? hf)
  cases member with
  | function f' =>
    cases hfunction
    exact hmembers _ hmember
  | const name type => cases hfunction
  | other => cases hfunction

/-- So its method is void exactly if no return type is written or the unit type is. -/
theorem Declares.isVoid_iff (h : file.Declares m owner f) (path : String) :
    (methodOf path f).returnType.isVoid = true ↔
      f.output = none ∨ f.output = some [.opening .paren, .closing .paren] := by
  cases houtput : f.output with
  | none =>
    rw [methodOf, houtput]
    exact iff_of_true rfl (Or.inl rfl)
  | some ts =>
    rw [methodOf, houtput]
    simpa using isVoid_iff_of_unmistakable (h.unmistakable ts houtput)

/-- What is decided about a function is its verdict by syntax. -/
theorem ruling_eq_verdict (h : file.Declares m owner f) :
    (file.catalog.ruling m.interface m ()).1 = verdict owner f := by
  obtain ⟨howner, path, hmethod⟩ := h.answers
  have hskip : ((methodOf path f).isStatic ||
      ((methodOf path f).isDefault && (methodOf path f).ignoresDefault)) = true ↔ f.IsLeftOut :=
    isLeftOut_iff
  have hsignature : (!(methodOf path f).parameters.isEmpty ||
      (TypeTokens.view.isVoid (methodOf path f).returnType ()).1) = true ↔ f.IsNoAccessor := by
    rw [Bool.or_eq_true, FnItem.IsNoAccessor, ← h.isVoid_iff path]
    simp [methodOf, TypeTokens.view]
  have hgeneric : (!(methodOf path f).typeParameters.isEmpty) = true ↔ f.IsGeneric := by
    rw [Bool.not_eq_true', ← isGeneric_iff]
    rfl
  have hruling : (file.catalog.ruling m.interface m ()).1 = _ :=
    Table.ruling_of_method? hmethod TypeTokens.view "::" m.interface
  have howner' : (file.interfaces.catalog TypeTokens.view "::").simpleName m.interface =
      owner.text := howner
  rw [hruling, howner', verdict]
  simp only [hskip, hsignature, hgeneric]
  by_cases haccessor : f.IsNoAccessor
  · simp only [if_pos haccessor]
    rfl
  · have hreturn : (methodOf path f).returnType = ⟨f.output.getD []⟩ := by
      cases houtput : f.output with
      | none => exact absurd (Or.inr (Or.inl houtput)) haccessor
      | some ts => rw [methodOf, houtput]; rfl
    rw [hreturn]
    rfl

/-- Which functions become components. Of any function of any trait in a loaded file it is decided by
its syntax: it is skipped exactly if it has no receiver, or a body and the attribute that says to
ignore it. Otherwise it breaks the rule on signatures exactly if it takes an argument besides the
receiver, or returns nothing, which is to write no return type or the two tokens of the unit type.
Otherwise it breaks the rule on parameters exactly if it declares a type or a constant parameter.
Otherwise it is accepted under its name, with its return type as that is shown. Nothing else
matters: functions that agree in these features meet with the same decision, wherever they are
declared, as long as their traits have the same name. -/
theorem ruling_of_function (h : file.Declares m owner f) :
    let ruling := (file.catalog.ruling m.interface m ()).1
    (ruling = .skip ↔ f.IsLeftOut) ∧
    (ruling = .reject (.signature owner.text f.name.text) ↔ ¬ f.IsLeftOut ∧ f.IsNoAccessor) ∧
    (ruling = .reject (.genericMethod owner.text f.name.text) ↔
      ¬ f.IsLeftOut ∧ ¬ f.IsNoAccessor ∧ f.IsGeneric) ∧
    (¬ f.IsLeftOut → ¬ f.IsNoAccessor → ¬ f.IsGeneric →
      ∃ ts, f.output = some ts ∧ ruling = .accept f.name.text ⟨ts⟩ ∧
        file.catalog.typeText ⟨ts⟩ = render ts) ∧
    ∀ file' m' f', Declares file' m' owner f' → features f' = features f →
      (file'.catalog.ruling m'.interface m' ()).1 = ruling := by
  intro ruling
  have hverdict : ruling = verdict owner f := ruling_eq_verdict h
  refine ⟨?_, ?_, ?_, fun hleft haccessor hgeneric => ?_, fun file' m' f' h' hfeatures => ?_⟩
  · rw [hverdict, verdict]
    split_ifs <;> simp_all
  · rw [hverdict, verdict]
    split_ifs <;> simp_all
  · rw [hverdict, verdict]
    split_ifs <;> simp_all
  · cases houtput : f.output with
    | none => exact absurd (Or.inr (Or.inl houtput)) haccessor
    | some ts =>
      refine ⟨ts, rfl, ?_, rfl⟩
      rw [hverdict, verdict, if_neg hleft, if_neg haccessor, if_neg hgeneric, houtput]
      rfl
  · rw [hverdict, ruling_eq_verdict h', verdict_eq_of_features_eq owner hfeatures]

/-- Functions of all kinds, one of which comes twice with a different look. -/
def formsSource : String :=
  "trait P \x7b fn new() -> u8; #[ignore_default] fn tag(&self) -> u8 \x7b\x7d
  fn put(&self) -> ( ); fn map<T>(&self) -> u8; fn id(&self) -> u8; \x7d
  mod m \x7b trait P \x7b unsafe fn id<'a>(&'a self) -> u8; fn nest(&self) -> (()); \x7d \x7d"

/-- A function stands where the features of all functions have its own. -/
theorem exists_declares {items : List Item} (hfile : file.LoadedAs items)
    {table : List (Ident × List Features)}
    (htable : ((placedAll [] items).map fun p => (p.2.name, (functionsOf p.2.members).map features)) =
      table)
    {row : List Features} {x : Features} (hrow : table[m.interface]? = some (owner, row))
    (hx : row[m.index]? = some x) : ∃ f, file.Declares m owner f ∧ features f = x := by
  rw [← htable, List.getElem?_map, Option.map_eq_some_iff] at hrow
  obtain ⟨⟨home, t⟩, ht, heq⟩ := hrow
  cases heq
  rw [List.getElem?_map, Option.map_eq_some_iff] at hx
  obtain ⟨f, hf, rfl⟩ := hx
  exact ⟨f, .intro hfile ht hf, rfl⟩

theorem isIdentText_formsName : Text.isIdentText "P".toList = true := by decide

theorem isIdentText_byte : Text.isIdentText "u8".toList = true := by decide

def formsName : Ident := ⟨"P", isIdentText_formsName⟩

/-- The type of a byte. -/
def byteTokens : List Token := [.ident ⟨"u8", isIdentText_byte⟩]

/-- The unit type in parentheses. -/
def nestedTokens : List Token :=
  [.opening .paren, .opening .paren, .closing .paren, .closing .paren]

def formsFeatures : List (Ident × List Features) := [
  (formsName, [
    ⟨⟨"new", by decide⟩, true, true, some byteTokens, false⟩,
    ⟨⟨"tag", by decide⟩, true, true, some byteTokens, false⟩,
    ⟨⟨"put", by decide⟩, false, true, some [.opening .paren, .closing .paren], false⟩,
    ⟨⟨"map", by decide⟩, false, true, some byteTokens, true⟩,
    ⟨⟨"id", by decide⟩, false, true, some byteTokens, false⟩]),
  (formsName, [
    ⟨⟨"id", by decide⟩, false, true, some byteTokens, false⟩,
    ⟨⟨"nest", by decide⟩, false, true, some nestedTokens, false⟩])]

theorem ruling_of_function_forms :
    ∃ file, load formsSource = .ok file ∧
      (file.catalog.ruling 0 ⟨0, 0⟩ ()).1 = .skip ∧
      (file.catalog.ruling 0 ⟨0, 1⟩ ()).1 = .skip ∧
      (file.catalog.ruling 0 ⟨0, 2⟩ ()).1 = .reject (.signature "P" "put") ∧
      (file.catalog.ruling 0 ⟨0, 3⟩ ()).1 = .reject (.genericMethod "P" "map") ∧
      (file.catalog.ruling 0 ⟨0, 4⟩ ()).1 = .accept "id" ⟨byteTokens⟩ ∧
      (file.catalog.ruling 1 ⟨1, 0⟩ ()).1 = (file.catalog.ruling 0 ⟨0, 4⟩ ()).1 ∧
      (file.catalog.ruling 1 ⟨1, 1⟩ ()).1 = .accept "nest" ⟨nestedTokens⟩ := by
  have htest : (Grammar.parseFile? formsSource).any (fun items => decide
      (((placedAll [] items).map fun p => (p.2.name, (functionsOf p.2.members).map features)) =
        formsFeatures)) = true := by decide +kernel
  obtain ⟨items, hitems, htable⟩ := (Option.any_eq_true _ _).mp htest
  have hload : load formsSource = .ok (ofItems items) := load_eq_ok_iff.mpr ⟨items, hitems, rfl⟩
  have hfile : (ofItems items).LoadedAs items := .source _ hitems hload
  have hat (k j : Nat) {row : List Features} {x : Features}
      (hrow : formsFeatures[k]? = some (formsName, row)) (hx : row[j]? = some x) :
      ∃ f, (ofItems items).Declares ⟨k, j⟩ formsName f ∧ features f = x :=
    exists_declares hfile (of_decide_eq_true htable) hrow hx
  obtain ⟨new, hnew, hnew'⟩ := hat 0 0 rfl rfl
  obtain ⟨tag, htag, htag'⟩ := hat 0 1 rfl rfl
  obtain ⟨put, hput, hput'⟩ := hat 0 2 rfl rfl
  obtain ⟨map, hmap, hmap'⟩ := hat 0 3 rfl rfl
  obtain ⟨id, hid, hid'⟩ := hat 0 4 rfl rfl
  obtain ⟨dressed, hdressed, hdressed'⟩ := hat 1 0 rfl rfl
  obtain ⟨nest, hnest, hnest'⟩ := hat 1 1 rfl rfl
  have haccept {m : MethodHandle} {f : FnItem} {name : Ident} {ts : List Token}
      (hf : (ofItems items).Declares m formsName f)
      (hx : features f = ⟨name, false, true, some ts, false⟩)
      (hts : ts ≠ [.opening .paren, .closing .paren]) :
      ((ofItems items).catalog.ruling m.interface m ()).1 = .accept name.text ⟨ts⟩ := by
    obtain ⟨us, hus, hruling, -⟩ := (ruling_of_function hf).2.2.2.1
      (by simp [isLeftOut_iff_features, hx]) (by simp [isNoAccessor_iff_features, hx, hts])
      (by simp [isGeneric_iff_features, hx])
    obtain rfl : ts = us := Option.some.inj ((congrArg Features.output hx).symm.trans hus)
    rw [hruling, show f.name = name from congrArg Features.name hx]
  refine ⟨ofItems items, hload, (ruling_of_function hnew).1.mpr ?_,
    (ruling_of_function htag).1.mpr ?_, ?_, ?_, haccept hid hid' (by decide), ?_,
    haccept hnest hnest' (by decide)⟩
  · rw [isLeftOut_iff_features, hnew']
  · rw [isLeftOut_iff_features, htag']
  · have hruling := (ruling_of_function hput).2.1
    rw [isLeftOut_iff_features, isNoAccessor_iff_features,
      show put.name = _ from congrArg Features.name hput', hput'] at hruling
    exact hruling.mpr (by decide)
  · have hruling := (ruling_of_function hmap).2.2.1
    rw [isLeftOut_iff_features, isNoAccessor_iff_features, isGeneric_iff_features,
      show map.name = _ from congrArg Features.name hmap', hmap'] at hruling
    exact hruling.mpr (by decide)
  · exact (ruling_of_function hid).2.2.2.2 _ _ _ hdressed (hdressed'.trans hid'.symm)

end TraitFile

end Trait

end InterfaceRecord
