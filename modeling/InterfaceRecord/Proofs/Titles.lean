/-
  Names and findings do not meet. What a derivation finds is decided by the traversal, which of all
  settings asks only for the conflict policy and for no name (`body_derive`); the names of a record
  are made of the interface's name, the texts of its type parameters, the settings and the scheme
  (`titles_of_record_derive`). So neither of the two tells anything about the other
  (`derive_noninterference`).
-/
import InterfaceRecord.Proofs.Derivability

namespace InterfaceRecord

variable {I M T S V I' M' T' S' V' : Type}

/-! ## A record in two parts -/

/-- What a record is called, and whether it is to have a builder. -/
structure Titles where
  name : String
  package : String
  addBuilder : Bool
  builderName : Option String

/-- What a record consists of. -/
structure Body (M T : Type) where
  typeParameters : List T
  components : List (Component M T)

namespace Record

def titles (r : Record M T) : Titles := ⟨r.name, r.package, r.addBuilder, r.builderName⟩

def body (r : Record M T) : Body M T := ⟨r.typeParameters, r.components⟩

end Record

/-- The titles for an interface of this name with type parameters of these texts. -/
def Titles.of (interface : QualifiedName) (parameters : List String) (settings : Settings)
    (scheme : NameScheme) : Titles where
  name := scheme.record interface parameters settings
  package := settings.package.getD interface.package
  addBuilder := settings.addBuilder
  builderName :=
    if settings.addBuilder then
      some (scheme.builder (scheme.record interface parameters settings) settings)
    else none

/-- There is a name for a builder exactly if there is to be a builder. -/
theorem Titles.isSome_builderName_of (interface : QualifiedName) (parameters : List String)
    (settings : Settings) (scheme : NameScheme) :
    (Titles.of interface parameters settings scheme).builderName.isSome = settings.addBuilder := by
  cases h : settings.addBuilder <;> simp [Titles.of, h]

namespace Catalog

variable (g : Catalog I M T S V)

@[simp] theorem titles_recordOf (settings : Settings) (scheme : NameScheme) (root : I)
    (components : List (Component M T)) :
    (g.recordOf settings scheme root components).titles =
      Titles.of ⟨g.qualifiedName root, g.separator⟩ ((g.typeParameters root).map g.typeText)
        settings scheme := rfl

@[simp] theorem body_recordOf (settings : Settings) (scheme : NameScheme) (root : I)
    (components : List (Component M T)) :
    (g.recordOf settings scheme root components).body = ⟨g.typeParameters root, components⟩ := rfl

/-! ## What each part comes from -/

theorem titles_of_record_derive {settings : Settings} {scheme : NameScheme} {root : I} {v : V}
    {r : Record M T} (h : (g.derive settings scheme root v).record = some r) :
    r.titles = Titles.of ⟨g.qualifiedName root, g.separator⟩
      ((g.typeParameters root).map g.typeText) settings scheme := by
  obtain ⟨-, -, rfl⟩ := g.record_derive_eq_some_iff.mp h
  exact g.titles_recordOf settings scheme root _

/-- The body of the record that a traversal gives, if it gives one. -/
def bodyOf? (root : I) (w : Traversal I M T S V) : Option (Body M T) :=
  if w.failed || w.components.isEmpty then none else some ⟨g.typeParameters root, w.components⟩

theorem body_derive (settings : Settings) (scheme : NameScheme) (root : I) (v : V) :
    (g.derive settings scheme root v).record.map Record.body =
      g.bodyOf? root (g.traverse settings.conflicts root v) := by
  rw [derive, bodyOf?]
  dsimp only
  cases (g.traverse settings.conflicts root v).failed with
  | true => rfl
  | false => cases (g.traverse settings.conflicts root v).components.isEmpty <;> rfl

theorem void_derive (settings : Settings) (scheme : NameScheme) (root : I) (v : V) :
    (g.derive settings scheme root v).void = (g.traverse settings.conflicts root v).void := by
  rw [derive]
  dsimp only
  split
  · rfl
  · split <;> rfl

/-- How records and builders are named has no influence on what is derived, and what is derived has
none on the names. Two derivations from one interface that share the conflict policy, with whatever
other settings and name schemes, both come to a record or both do not, with the same components and
type parameters, report the same and leave later answers as they are after the other. And two
records that are derived from any interfaces of the same qualified name, with type parameters of the
same texts, under the same settings and name scheme, have the same name, the same package, the same
mark for a builder and the same name for it, which there is exactly if the settings ask for a
builder. -/
theorem derive_noninterference (g : Catalog I M T S V) (g' : Catalog I' M' T' S' V') (root : I)
    (root' : I') (v : V) (v' : V') (settings settings' : Settings) (scheme scheme' : NameScheme) :
    (settings'.conflicts = settings.conflicts →
      let d := g.derive settings scheme root v
      let d' := g.derive settings' scheme' root v
      d'.record.isSome = d.record.isSome ∧
        d'.record.map (·.components) = d.record.map (·.components) ∧
        d'.record.map (·.typeParameters) = d.record.map (·.typeParameters) ∧
        d'.diagnostics = d.diagnostics ∧ d'.void = d.void) ∧
    (g'.separator = g.separator → g'.qualifiedName root' = g.qualifiedName root →
      (g'.typeParameters root').map g'.typeText = (g.typeParameters root).map g.typeText →
      ∀ r r', (g.derive settings scheme root v).record = some r →
        (g'.derive settings scheme root' v').record = some r' →
        r'.name = r.name ∧ r'.package = r.package ∧ r'.addBuilder = r.addBuilder ∧
          r'.builderName = r.builderName ∧ r.builderName.isSome = settings.addBuilder) := by
  constructor
  · intro hconflicts
    have hbody : (g.derive settings' scheme' root v).record.map Record.body =
        (g.derive settings scheme root v).record.map Record.body := by
      rw [body_derive, body_derive, hconflicts]
    refine ⟨?_, ?_, ?_, ?_, ?_⟩
    · have hsome := congrArg Option.isSome hbody
      simpa only [Option.isSome_map] using hsome
    · have hcomponents := congrArg (Option.map Body.components) hbody
      rwa [Option.map_map, Option.map_map] at hcomponents
    · have hparameters := congrArg (Option.map Body.typeParameters) hbody
      rwa [Option.map_map, Option.map_map] at hparameters
    · rw [diagnostics_derive, diagnostics_derive, hconflicts]
    · rw [void_derive, void_derive, hconflicts]
  · intro hseparator hname hparameters r r' hr hr'
    have htitles := g.titles_of_record_derive hr
    have htitles' : r'.titles = r.titles := by
      rw [g'.titles_of_record_derive hr', htitles, hseparator, hname, hparameters]
    refine ⟨congrArg Titles.name htitles', congrArg Titles.package htitles',
      congrArg Titles.addBuilder htitles', congrArg Titles.builderName htitles', ?_⟩
    calc r.builderName.isSome = r.titles.builderName.isSome := rfl
      _ = settings.addBuilder := by rw [htitles, Titles.isSome_builderName_of]

end Catalog

namespace Graph

/-- An interface that has its name in common with the one where `knot` starts. -/
def namesake : Graph where
  interfaces := [
    { qualifiedName := "k::Top", simpleName := "Top",
      methods := [{ name := "size", returnType := ⟨"long"⟩, site := .method "k::Top" "size" }],
      site := .interface "k::Top" }]

/-- A scheme that puts the number of type parameters into names. -/
def countingScheme : NameScheme where
  record interface parameters _ := interface.text ++ toString parameters.length
  builder record settings := settings.builderSuffix ++ record

end Graph

namespace Catalog

theorem derive_noninterference_knot :
    let settings : Settings := {}
    let settings' : Settings :=
      { addBuilder := false, package := some "p", recordSuffix := "Data", builderSuffix := "With" }
    settings'.conflicts = settings.conflicts ∧
      Graph.namesake.catalog.separator = Graph.knot.catalog.separator ∧
      Graph.namesake.catalog.qualifiedName 0 = Graph.knot.catalog.qualifiedName 0 ∧
      (Graph.namesake.catalog.typeParameters 0).map Graph.namesake.catalog.typeText =
        (Graph.knot.catalog.typeParameters 0).map Graph.knot.catalog.typeText ∧
      ((Graph.knot.catalog.derive settings' Graph.countingScheme 0 ()).record.map fun r =>
        r.components.map (·.name)) = some ["id", "tag"] ∧
      ∃ r r', (Graph.knot.catalog.derive settings .suffixes 0 ()).record = some r ∧
        (Graph.namesake.catalog.derive settings .suffixes 0 ()).record = some r' ∧
        r'.names = ["size"] ∧ r'.name = r.name ∧ r'.builderName = r.builderName := by
  intro settings settings'
  have h := derive_noninterference Graph.knot.catalog Graph.namesake.catalog 0 0 () () settings settings'
    .suffixes Graph.countingScheme
  refine ⟨rfl, rfl, rfl, rfl, ?_, ?_⟩
  · have hnames := congrArg (Option.map (List.map Component.name)) (h.1 rfl).2.1
    simp only [Option.map_map] at hnames
    refine hnames.trans ?_
    decide +kernel
  · have hr : (Graph.knot.catalog.derive settings .suffixes 0 ()).record.isSome = true := by
      decide +kernel
    have hr' : (Graph.namesake.catalog.derive settings .suffixes 0 ()).record.map Record.names =
        some ["size"] := by decide +kernel
    obtain ⟨r, hr⟩ := Option.isSome_iff_exists.mp hr
    obtain ⟨r', hr', hnames⟩ := Option.map_eq_some_iff.mp hr'
    obtain ⟨hname, -, -, hbuilder, -⟩ := h.2 rfl rfl rfl r r' hr hr'
    exact ⟨r, r', hr, hr', hnames, hname, hbuilder⟩

end Catalog

end InterfaceRecord
