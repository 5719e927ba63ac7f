/-
  What the record of an interface says about those it reaches. Where qualified names are distinct,
  the methods along the pre-order of such an interface are among those along the pre-order of the
  root, if in another order. As long as no method asks for a first value, there being no fault and
  the candidates agreeing are no matter of order (`Faultless.of_subset`). So from any of these
  interfaces nothing is found either, and its components have their names, and under the strict
  policy their types, from the root's record (`derive_ancestors`).
-/
import InterfaceRecord.Proofs.DeclarationOrder
import InterfaceRecord.Proofs.SourceOrder
import InterfaceRecord.Proofs.UsedNames

namespace InterfaceRecord

namespace Catalog

variable {I M T S : Type} {g : Catalog I M T S Unit} {root i j : I}

/-! ## Declarations of what is reached -/

theorem Reaches.trans (hi : g.Reaches root i) (hj : g.Reaches i j) : g.Reaches root j :=
  Relation.ReflTransGen.trans hi hj

theorem DistinctNames.of_reaches (hd : g.DistinctNames root) (hi : g.Reaches root i) :
    g.DistinctNames i :=
  fun j k hj hk => hd j k (hi.trans hj) (hi.trans hk)

/-- What can be met from `i` can be met from the root. -/
theorem declarations_preorder_subset (hd : g.DistinctNames root) (hi : g.Reaches root i) :
    ∀ d ∈ g.declarations (g.preorder i), d ∈ g.declarations (g.preorder root) := by
  intro d hdecl
  obtain ⟨hreach, hm⟩ := (mem_declarations_preorder_iff (hd.of_reaches hi)).mp hdecl
  exact (mem_declarations_preorder_iff hd).mpr ⟨hi.trans hreach, hm⟩

/-! ## Fewer declarations -/

variable {ds es : List (I × M)} {policy : ConflictPolicy}

theorem Consistent.of_subset (h : g.Consistent ds) (hsub : ∀ e ∈ es, e ∈ ds) :
    g.Consistent es :=
  fun d hd e he => h d (hsub d hd) e (hsub e he)

/-- Without first values, no order of some of the methods has a fault. -/
theorem Faultless.of_subset (h : g.Faultless policy ds)
    (heq : Equivalence fun a b => g.sameType a b = true) (hsub : ∀ e ∈ es, e ∈ ds)
    (hplain : ∀ d ∈ ds, g.initializerName d.2 = none) : g.Faultless policy es := by
  have hloose (hds : g.Faultless .firstWins ds) : g.Faultless .firstWins es := {
    unrejected := fun e he => hds.unrejected e (hsub e he)
    resolved := fun e he => Or.inl (hplain e (hsub e ((g.kept_sublist es).subset he)))
    agreeing := fun hp => by cases hp }
  cases policy with
  | firstWins => exact hloose h
  | reject =>
    obtain ⟨hfirst, hconsistent⟩ := (g.faultless_reject_iff heq).mp h
    exact (g.faultless_reject_iff heq).mpr ⟨hloose hfirst, hconsistent.of_subset hsub⟩

/-- Each candidate's name is kept, and where candidates agree, with the candidate's type. -/
theorem exists_mem_kept (hsub : ∀ e ∈ es, e ∈ ds) {e : I × M} (he : e ∈ g.kept es) :
    ∃ d ∈ g.kept ds, g.methodName d.2 = g.methodName e.2 ∧
      (g.Consistent ds → g.sameType (g.returnType d.2) (g.returnType e.2) = true) := by
  obtain ⟨hmem, ha⟩ := List.mem_filter.mp ((firsts_sublist _ _).subset he)
  have hname : g.methodName e.2 ∈ (g.kept ds).map (g.methodName ·.2) :=
    mem_map_firsts.mpr (List.mem_map_of_mem (List.mem_filter.mpr ⟨hsub e hmem, ha⟩))
  obtain ⟨d, hd, hde⟩ := List.mem_map.mp hname
  obtain ⟨hdmem, hda⟩ := List.mem_filter.mp ((firsts_sublist _ _).subset hd)
  exact ⟨d, hd, hde, fun hconsistent => hconsistent d hdmem e (hsub e hmem) hda ha hde⟩

/-! ## Derivations -/

/-- From `i` nothing is reported but perhaps that there are no components, and the names of its
components stand for components of `r`, under the strict policy of the same types. -/
structure Vouches (g : Catalog I M T S Unit) (settings : Settings) (scheme : NameScheme)
    (r : Record M T) (i : I) : Prop where
  diagnostics : (g.derive settings scheme i ()).diagnostics = [] ∨
    (g.derive settings scheme i ()).diagnostics = [⟨.noComponents, g.interfaceSite i⟩]
  components : ∀ s, (g.derive settings scheme i ()).record = some s → ∀ c ∈ s.components,
    ∃ d, r.component? c.name = some d ∧
      (settings.conflicts = .reject → g.sameType d.type c.type = true)

variable {settings : Settings} {scheme : NameScheme} {r : Record M T}

theorem derive_ancestors (heq : Equivalence fun a b => g.sameType a b = true)
    (hd : g.DistinctNames root)
    (hinit : ∀ d, g.Declares (g.Reaches root) d → g.initializerName d.2 = none)
    (hr : (g.derive settings scheme root ()).record = some r) (hi : g.Reaches root i) :
    g.Vouches settings scheme r i := by
  obtain ⟨⟨hclean, -⟩, -⟩ := (g.record_derive_iff_faultless settings scheme root r).mp hr
  have hsub := declarations_preorder_subset hd hi
  have hfound : (g.traverse settings.conflicts i ()).diagnostics = [] := by
    rw [diagnostics_traverse_eq_nil_iff, findings_eq_nil_iff]
    exact hclean.of_subset heq hsub fun d hmem =>
      hinit d ((mem_declarations_preorder_iff hd).mp hmem)
  constructor
  · rw [diagnostics_derive, hfound, List.nil_append]
    split
    · exact Or.inr rfl
    · exact Or.inl rfl
  · intro s hs c hc
    rw [components_of_record_eq_some hs] at hc
    obtain ⟨e, he, rfl⟩ := List.mem_map.mp hc
    obtain ⟨d, hkept, hname, hsame⟩ := exists_mem_kept hsub he
    have hnodup : r.names.Nodup := by
      rw [Record.names, components_of_record_eq_some hr, List.map_map]
      exact g.nodup_names_kept _
    refine ⟨g.component d, (Record.component?_eq_some_iff hnodup).mpr ⟨?_, hname⟩, ?_⟩
    · rw [components_of_record_eq_some hr]
      exact List.mem_map_of_mem hkept
    · intro hstrict
      rw [hstrict] at hclean
      exact hsame ((g.faultless_reject_iff heq).mp hclean).2

end Catalog

/-! ## Graphs and files -/

/-- Where types are the same by their texts, being the same is an equivalence. -/
theorem TypeView.ByText.equivalence {T : Type} {types : TypeView T Unit} (h : types.ByText) :
    Equivalence fun a b => types.same a b = true := by
  simp only [h.same, beq_iff_eq]
  exact ⟨fun _ => rfl, Eq.symm, Eq.trans⟩

theorem NamedType.eq_iff {a b : NamedType} : a = b ↔ a.name = b.name := by
  cases a
  cases b
  exact ⟨congrArg NamedType.name, congrArg NamedType.mk⟩

theorem NamedType.byText_view : NamedType.view.ByText where
  same a b := by
    show decide (a = b) = (a.name == b.name)
    rw [Bool.eq_iff_iff, decide_eq_true_iff, beq_iff_eq, NamedType.eq_iff]
  isVoid a b h := by
    have hab : a = b := NamedType.eq_iff.mpr h
    rw [hab]

/-- Where no method of a table asks for a first value, none that is declared does. -/
theorem Table.initializerName_eq_none {T S V : Type} [Inhabited T] [Inhabited S] {t : Table T S}
    {types : TypeView T V} {separator : String}
    (h : ∀ d ∈ t, ∀ m ∈ d.methods, m.initializer = none) (m : MethodHandle) :
    (t.catalog types separator).initializerName m = none := by
  show (t.method? m).bind (·.initializer) = none
  cases hm : t.method? m with
  | none => rfl
  | some e =>
    obtain ⟨d, hd, he⟩ := Option.bind_eq_some_iff.mp hm
    exact h d (List.mem_of_getElem? hd) e (List.mem_of_getElem? he)

open Catalog in
/-- An interface that has a record vouches for all it reaches. In a graph and in a file, where
the names of the interfaces that are reached are distinct and none of their methods asks for a
first value, each of these interfaces has, under the same settings, nothing to report but perhaps
that it has no components. The names of its components are in the record of the root, and under
the strict policy they have the same types there. -/
theorem vouches_of_reaches (settings : Settings) (scheme : NameScheme) (root : Nat) :
    (∀ g : Graph, g.catalog.DistinctNames root →
      (∀ d, g.catalog.Declares (g.catalog.Reaches root) d →
        g.catalog.initializerName d.2 = none) →
      ∀ r, (g.derive settings scheme root).1.record = some r →
        ∀ i, g.catalog.Reaches root i → g.catalog.Vouches settings scheme r i) ∧
    (∀ f : Trait.TraitFile, f.catalog.DistinctNames root →
      (∀ d, f.catalog.Declares (f.catalog.Reaches root) d →
        f.catalog.initializerName d.2 = none) →
      ∀ r, (f.derive settings scheme root).1.record = some r →
        ∀ i, f.catalog.Reaches root i → f.catalog.Vouches settings scheme r i) := by
  constructor
  · intro g hd hinit r hr i hi
    exact derive_ancestors NamedType.byText_view.equivalence hd hinit hr hi
  · intro f hd hinit r hr i hi
    exact derive_ancestors Trait.byText_view.equivalence hd hinit hr hi

/-- The trait at the top is among its own ancestors, two traits share one, and that one extends a
trait without methods. -/
def ancestralSource : String :=
  "trait Top: Left + Right { fn id(&self) -> u8; }
  trait Left: Shared { fn size(&self) -> u32; }
  trait Right: Shared + Top { fn hue(&self) -> u8; }
  trait Shared: Mark { fn id(&self) -> u8; fn size(&self) -> u32; }
  trait Mark {}"

open Catalog in
/-- A supertype from which the pre-order is another one, and an ancestor without components. -/
theorem vouches_kin :
    (∃ r, (Graph.kin.derive (({} : Settings).setConflicts .reject) .suffixes 0).1.record = some r ∧
      Graph.kin.catalog.Reaches 0 2 ∧
      Graph.kin.catalog.Vouches (({} : Settings).setConflicts .reject) .suffixes r 2) ∧
    ∃ f, Trait.TraitFile.load ancestralSource = .ok f ∧
      ∃ r, (f.derive (({} : Settings).setConflicts .reject) .suffixes 0).1.record = some r ∧
        f.catalog.Reaches 0 4 ∧
        f.catalog.Vouches (({} : Settings).setConflicts .reject) .suffixes r 4 := by
  constructor
  · have hd : Graph.kin.catalog.DistinctNames 0 :=
      Table.distinctNames (by decide) (by decide) (by decide)
    have hreach : Graph.kin.catalog.Reaches 0 2 := (reaches_self _ 0).supertype (by decide)
    obtain ⟨r, hr⟩ := Option.isSome_iff_exists.mp
      (show (Graph.kin.derive (({} : Settings).setConflicts .reject) .suffixes
        0).1.record.isSome = true by decide +kernel)
    exact ⟨r, hr, hreach, (vouches_of_reaches _ _ 0).1 Graph.kin hd
      (fun d _ => Table.initializerName_eq_none (by decide) d.2) r hr 2 hreach⟩
  · obtain ⟨f, hf, htest⟩ := Trait.exists_load_of_any ancestralSource (fun f => decide (
      ((∀ d ∈ f.interfaces, ∀ p ∈ d.supertypes, p < f.interfaces.length) ∧
        (f.interfaces.map InterfaceEntry.qualifiedName).Nodup ∧ 0 < f.interfaces.length) ∧
      (∀ d ∈ f.interfaces, ∀ m ∈ d.methods, m.initializer = none) ∧
      1 ∈ f.catalog.supertypes 0 ∧ 3 ∈ f.catalog.supertypes 1 ∧ 4 ∈ f.catalog.supertypes 3 ∧
      (f.derive (({} : Settings).setConflicts .reject) .suffixes 0).1.record.isSome = true))
      (by decide +kernel)
    obtain ⟨⟨hlinks, hnames, hroot⟩, hinit, h₁, h₃, h₄, hsome⟩ := of_decide_eq_true htest
    have hreach : f.catalog.Reaches 0 4 :=
      (((reaches_self _ 0).supertype h₁).supertype h₃).supertype h₄
    obtain ⟨r, hr⟩ := Option.isSome_iff_exists.mp hsome
    exact ⟨f, hf, r, hr, hreach, (vouches_of_reaches _ _ 0).2 f
      (Table.distinctNames hlinks hnames hroot)
      (fun d _ => Table.initializerName_eq_none hinit d.2) r hr 4 hreach⟩

end InterfaceRecord
