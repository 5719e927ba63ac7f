/-
  Names that are used and components that are kept. A traversal holds them apart, and at each
  moment they say the same: a name is used exactly if a component has it, for the type of that
  component and the interface that it was found on (`used_inStep`). The invariant is `Tallied`:
  both lists follow the methods that were kept. It needs no law of the answers.
-/
import InterfaceRecord.Proofs.Derivability
import InterfaceRecord.Proofs.Moments
import InterfaceRecord.Proofs.Outcome
import InterfaceRecord.Wavering

namespace InterfaceRecord

variable {I M T S V : Type}

/-- The method that is kept in a step, and the interface on which it was examined. -/
def Step.kept? : Step I M → Option (I × M)
  | accepted i m => some (i, m)
  | _ => none

/-- The methods that were kept, in order and each with its interface. -/
def Traversal.sources (w : Traversal I M T S V) : List (I × M) := w.steps.filterMap Step.kept?

theorem Traversal.sources_eq {w w' : Traversal I M T S V} {s : Step I M}
    (h : w'.steps = w.steps ++ [s]) : w'.sources = w.sources ++ s.kept?.toList := by
  rw [sources, h, List.filterMap_append, sources]
  cases hs : s.kept? <;> simp [hs]

theorem Traversal.mem_sources {w : Traversal I M T S V} {i : I} {m : M} :
    (i, m) ∈ w.sources ↔ .accepted i m ∈ w.steps := by
  rw [sources, List.mem_filterMap]
  constructor
  · rintro ⟨s, hs, hkept⟩
    cases s with
    | accepted i' m' =>
      cases hkept
      exact hs
    | _ => cases hkept
  · exact fun h => ⟨_, h, rfl⟩

namespace Catalog

open Traversal

/-- The diagnostic tells that the method `m` of `j` disagrees with the component `c`, which was
found on `i`. -/
structure Clash (g : Catalog I M T S V) (w : Traversal I M T S V) (e : Diagnostic S)
    (c : Component M T) (i j : I) (m : M) : Prop where
  kept : c ∈ w.components
  source : .accepted i c.origin ∈ w.steps
  diagnosed : .diagnosed j m e.fault ∈ w.steps
  fault : e.fault = .conflict c.name (g.typeText c.type) (g.simpleName i)
    (g.typeText (g.returnType m)) (g.simpleName j)
  site : e.site = g.methodSite m
  name : g.methodName m = c.name
  types : g.sameType c.type (g.returnType m) = false

/-- Each conflict that is told of is one between a component and a method of its name. -/
def Explained (g : Catalog I M T S V) (w : Traversal I M T S V) : Prop :=
  ∀ e ∈ w.diagnostics, (∃ name first firstInterface second secondInterface,
    e.fault = .conflict name first firstInterface second secondInterface) →
    ∃ c i j m, g.Clash w e c i j m

/-- Used names and components both follow the methods that were kept, which have different
names. -/
structure Tallied (g : Catalog I M T S V) (w : Traversal I M T S V) : Prop where
  used : w.used = w.sources.map fun d => (g.methodName d.2, ⟨g.returnType d.2, g.simpleName d.1⟩)
  components : w.components.map (fun c => (c.name, c.type, c.origin)) =
    w.sources.map fun d => (g.methodName d.2, g.returnType d.2, d.2)
  nodup : (w.sources.map (g.methodName ·.2)).Nodup
  explained : g.Explained w

/-- Used names and components say the same. -/
structure InStep (g : Catalog I M T S V) (w : Traversal I M T S V) : Prop where
  names : w.used.map (·.1) = w.components.map (·.name)
  nodup : (w.components.map (·.name)).Nodup
  /-- A used name stands for the type of its component and for the one interface on which the
  component's method was kept. -/
  precedents : ∀ c ∈ w.components, ∃ i, .accepted i c.origin ∈ w.steps ∧
    (∀ j, .accepted j c.origin ∈ w.steps → j = i) ∧
    w.used.lookup c.name = some ⟨c.type, g.simpleName i⟩
  conflicts : g.Explained w

variable {g : Catalog I M T S V} {supertypes : I → List I} {policy : ConflictPolicy}
  {w w' : Traversal I M T S V}

/-! ## Tallies -/

theorem Clash.mono {e : Diagnostic S} {c : Component M T} {i j : I} {m : M}
    (h : g.Clash w e c i j m) (hcomponents : w.components ⊆ w'.components)
    (hsteps : w.steps ⊆ w'.steps) : g.Clash w' e c i j m :=
  ⟨hcomponents h.kept, hsteps h.source, hsteps h.diagnosed, h.fault, h.site, h.name, h.types⟩

/-- A name is looked up among the methods that were kept. -/
theorem Tallied.lookup (h : g.Tallied w) (name : String) :
    w.used.lookup name = (w.sources.find? (g.methodName ·.2 == name)).map
      fun d => ⟨g.returnType d.2, g.simpleName d.1⟩ := by
  rw [h.used]
  exact lookup_map (fun d : I × M => g.methodName d.2) _ _ _

/-- What the answers on void types depend on does not matter. -/
theorem Tallied.void (h : g.Tallied w) (v : V) : g.Tallied { w with void := v } := by
  refine ⟨h.used, h.components, h.nodup, fun e he hconflict => ?_⟩
  obtain ⟨c, i, j, m, hclash⟩ := h.explained e he hconflict
  exact ⟨c, i, j, m, hclash.mono (List.Subset.refl _) (List.Subset.refl _)⟩

/-- Where nothing is kept and no conflict told of, the tallies stay as they are. -/
theorem Tallied.of_step (h : g.Tallied w) {s : Step I M} (hs : s.kept? = none)
    (hsteps : w'.steps = w.steps ++ [s]) (hused : w'.used = w.used)
    (hcomponents : w'.components = w.components)
    (hdiagnostics : ∀ e ∈ w'.diagnostics, e ∈ w.diagnostics ∨ (∃ c i j m, g.Clash w' e c i j m) ∨
      ∀ name first firstInterface second secondInterface,
        e.fault ≠ .conflict name first firstInterface second secondInterface) :
    g.Tallied w' := by
  have hsources : w'.sources = w.sources := by
    rw [sources_eq hsteps, hs]
    exact List.append_nil _
  refine ⟨by rw [hused, hsources, h.used], by rw [hcomponents, hsources, h.components],
    by rw [hsources]; exact h.nodup, ?_⟩
  rintro e he ⟨name, first, firstInterface, second, secondInterface, hconflict⟩
  rcases hdiagnostics e he with hold | hclash | hother
  · obtain ⟨c, i, j, m, hclash⟩ := h.explained e hold ⟨_, _, _, _, _, hconflict⟩
    refine ⟨c, i, j, m, hclash.mono ?_ ?_⟩
    · rw [hcomponents]
      exact List.Subset.refl _
    · rw [hsteps]
      exact List.subset_append_left _ _
  · exact hclash
  · exact absurd hconflict (hother _ _ _ _ _)

/-- One method more is kept, under a new name. -/
theorem Tallied.keep (h : g.Tallied w) {i : I} {c : Component M T}
    (hname : c.name = g.methodName c.origin) (htype : c.type = g.returnType c.origin)
    (hnew : w.used.lookup c.name = none) : g.Tallied (w.keep i (g.simpleName i) c) := by
  have hsources : (w.keep i (g.simpleName i) c).sources = w.sources ++ [(i, c.origin)] :=
    sources_eq (steps_keep w i (g.simpleName i) c)
  refine ⟨?_, ?_, ?_, ?_⟩
  · rw [hsources, used_keep, h.used, List.map_append, List.map_singleton, hname, htype]
  · rw [hsources, components_keep, List.map_append, h.components, List.map_append,
      List.map_singleton, List.map_singleton, hname, htype]
  · rw [hsources, List.map_append, List.map_singleton, ← List.concat_eq_append]
    refine h.nodup.concat fun hmem => ?_
    obtain ⟨d, hd, hdname⟩ := List.mem_map.mp hmem
    rw [h.lookup, Option.map_eq_none_iff, List.find?_eq_none] at hnew
    exact hnew d hd (beq_iff_eq.mpr (hdname.trans hname.symm))
  · intro e he hconflict
    obtain ⟨c', i', j, m, hclash⟩ := h.explained e he hconflict
    exact ⟨c', i', j, m,
      hclash.mono (List.subset_append_left _ _) (List.subset_append_left _ _)⟩

/-- What a used name stands for comes from a component. -/
theorem Tallied.exists_component (h : g.Tallied w) {name : String} {seen : Precedent T}
    (hseen : w.used.lookup name = some seen) :
    ∃ c ∈ w.components, ∃ i, .accepted i c.origin ∈ w.steps ∧ c.name = name ∧
      seen = ⟨c.type, g.simpleName i⟩ := by
  rw [h.lookup, Option.map_eq_some_iff] at hseen
  obtain ⟨d, hfind, rfl⟩ := hseen
  have hd := List.mem_of_find?_eq_some hfind
  have hname := List.find?_some hfind
  simp only [beq_iff_eq] at hname
  have hmem : (g.methodName d.2, g.returnType d.2, d.2) ∈
      w.components.map (fun c => (c.name, c.type, c.origin)) := by
    rw [h.components]
    exact List.mem_map_of_mem hd
  obtain ⟨c, hc, hcd⟩ := List.mem_map.mp hmem
  simp only [Prod.mk.injEq] at hcd
  obtain ⟨hcname, hctype, hcorigin⟩ := hcd
  refine ⟨c, hc, d.1, ?_, hcname.trans hname, by rw [hctype]⟩
  rw [hcorigin]
  exact mem_sources.mp hd

/-- However an examination ends, the tallies agree. -/
theorem Outcome.tallied {i : I} {m : M} (h : g.Outcome policy i m w w') (hw : g.Tallied w) :
    g.Tallied w' := by
  cases h with
  | skipped => exact hw.of_step rfl rfl rfl rfl fun e he => Or.inl he
  | repeated => exact hw.of_step rfl rfl rfl rfl fun e he => Or.inl he
  | rejected _ hfault =>
    refine hw.of_step rfl rfl rfl rfl fun e he => ?_
    rcases List.mem_append.mp he with he | he
    · exact Or.inl he
    · rw [List.mem_singleton.mp he]
      rcases hfault with rfl | rfl <;> exact Or.inr (Or.inr fun _ _ _ _ _ h => by cases h)
  | void =>
    refine hw.of_step rfl rfl rfl rfl fun e he => ?_
    rcases List.mem_append.mp he with he | he
    · exact Or.inl he
    · rw [List.mem_singleton.mp he]
      exact Or.inr (Or.inr fun _ _ _ _ _ h => by cases h)
  | @conflicting v seen _ hseen _ htype =>
    refine hw.of_step rfl rfl rfl rfl fun e he => ?_
    rcases List.mem_append.mp he with he | he
    · exact Or.inl he
    · obtain ⟨c, hc, j, hsource, hname, rfl⟩ := hw.exists_component hseen
      rw [List.mem_singleton.mp he]
      refine Or.inr (Or.inl ⟨c, j, i, m, hc, List.mem_append_left _ hsource,
        List.mem_append_right _ (List.mem_singleton_self _), ?_, rfl, hname.symm, htype⟩)
      rw [hname]
  | @kept v _ _ hnew => exact (hw.void v).keep rfl rfl hnew
  | @unresolved v target _ hnew =>
    have hdiagnosed : g.Tallied
        ({ w with void := v }.diagnose i m (.missingInitializer target) (g.methodSite m)) := by
      refine hw.of_step rfl rfl rfl rfl fun e he => ?_
      rcases List.mem_append.mp he with he | he
      · exact Or.inl he
      · rw [List.mem_singleton.mp he]
        exact Or.inr (Or.inr fun _ _ _ _ _ h => by cases h)
    exact hdiagnosed.keep rfl rfl hnew

theorem Moves.tallied {a b : Moment I M T S V} (h : g.Moves supertypes policy a b)
    (ha : g.Tallied a.state) : g.Tallied b.state := by
  cases h with
  | stop => exact ha
  | pass => exact ha.of_step rfl rfl rfl rfl fun e he => Or.inl he
  | enter => exact ha.of_step rfl rfl rfl rfl fun e he => Or.inl he
  | examine => exact (g.outcome_examine policy _ _ _).tallied ha
  | halt => exact (g.outcome_examine policy _ _ _).tallied ha
  | expand => exact ha.of_step rfl rfl rfl rfl fun e he => Or.inl he

theorem tallied_start (g : Catalog I M T S V) (v : V) :
    g.Tallied ({ void := v } : Traversal I M T S V) :=
  ⟨rfl, rfl, List.nodup_nil, fun _ he => absurd he List.not_mem_nil⟩

theorem Passes.tallied {root : I} {v : V} {a : Moment I M T S V}
    (h : g.Passes supertypes policy root v a) : g.Tallied a.state :=
  h.invariant (P := fun a => g.Tallied a.state) (g.tallied_start v) fun _ _ hab ha =>
    hab.tallied ha

/-! ## Names and components -/

theorem Tallied.inStep (h : g.Tallied w) : g.InStep w := by
  have hnames : w.components.map (·.name) = w.sources.map (g.methodName ·.2) := by
    have hcomponents := congrArg (List.map Prod.fst) h.components
    rw [List.map_map, List.map_map] at hcomponents
    exact hcomponents
  refine ⟨?_, by rw [hnames]; exact h.nodup, fun c hc => ?_, h.explained⟩
  · rw [h.used, List.map_map, hnames]
    rfl
  · have hmem : (c.name, c.type, c.origin) ∈
        w.sources.map fun d => (g.methodName d.2, g.returnType d.2, d.2) := by
      rw [← h.components]
      exact List.mem_map_of_mem hc
    obtain ⟨d, hd, hdc⟩ := List.mem_map.mp hmem
    simp only [Prod.mk.injEq] at hdc
    obtain ⟨hname, htype, horigin⟩ := hdc
    have hfind := find?_of_nodup_map (fun d : I × M => g.methodName d.2) h.nodup hd
    refine ⟨d.1, by rw [← horigin]; exact mem_sources.mp hd, fun j hj => ?_, ?_⟩
    · have hj' : (j, d.2) ∈ w.sources := by rw [horigin]; exact mem_sources.mpr hj
      exact congrArg Prod.fst (List.inj_on_of_nodup_map h.nodup hj' hd rfl)
    · rw [h.lookup, ← hname, hfind, Option.map_some, htype]

end Catalog

/-- Where the names differ, a component is found by its name. -/
theorem Record.component?_eq_some_iff {r : Record M T} (h : r.names.Nodup) {name : String}
    {c : Component M T} : r.component? name = some c ↔ c ∈ r.components ∧ c.name = name := by
  constructor
  · intro hfind
    have hname := List.find?_some hfind
    exact ⟨List.mem_of_find?_eq_some hfind, beq_iff_eq.mp hname⟩
  · rintro ⟨hc, rfl⟩
    exact find?_of_nodup_map Component.name h hc

theorem Record.component?_eq_none_iff {r : Record M T} {name : String} :
    r.component? name = none ↔ name ∉ r.names := by
  rw [Record.component?, List.find?_eq_none, Record.names, List.mem_map]
  simp

namespace Catalog

/-- Used names and components never drift apart. Whatever the answers, the declarations and the
policy, they say the same at each moment of a traversal, to its end, and each conflict that is told
of is one with a component. In a record each name stands for one component. -/
theorem used_inStep (g : Catalog I M T S V) (supertypes : I → List I) (policy : ConflictPolicy)
    (root : I) (v : V) :
    (∀ a, g.Passes supertypes policy root v a → g.InStep a.state) ∧
      g.Passes g.supertypes policy root v ⟨[], g.traverse policy root v⟩ ∧
      ∀ settings scheme r, (g.derive settings scheme root v).record = some r →
        r.names.Nodup ∧ ∀ name,
          (∀ c, r.component? name = some c ↔ c ∈ r.components ∧ c.name = name) ∧
          (r.component? name = none ↔ name ∉ r.names) := by
  refine ⟨fun a ha => ha.tallied.inStep, passes_traverse root v, ?_⟩
  intro settings scheme r hr
  obtain ⟨-, -, rfl⟩ := g.record_derive_eq_some_iff.mp hr
  have hnames : (g.recordOf settings scheme root
      (g.traverse settings.conflicts root v).components).names.Nodup :=
    (passes_traverse root v).tallied.inStep.nodup
  exact ⟨hnames, fun name => ⟨fun c => Record.component?_eq_some_iff hnames,
    Record.component?_eq_none_iff⟩⟩

end Catalog

/-- The root declares a name twice, and its first supertype declares it again with another type.
Two supertypes have one qualified name, and the root is among its own. One type would turn void if
it were asked about more often. -/
def Table.quarrel : Table WaveringType GraphSite := [
  { qualifiedName := "q::Root", simpleName := "Root", supertypes := [1, 2, 0],
    methods := [
      { name := "id", returnType := ⟨"int", "int", none⟩, site := .method "q::Root" "id" },
      { name := "id", returnType := ⟨"Int", "int", none⟩, site := .method "q::Root" "id" },
      { name := "go", returnType := ⟨"bool", "bool", some 0⟩, site := .method "q::Root" "go" }],
    site := .interface "q::Root" },
  { qualifiedName := "q::Shared", simpleName := "Shared",
    methods := [
      { name := "id", returnType := ⟨"long", "long", none⟩, site := .method "q::Shared" "id" },
      { name := "tag", returnType := ⟨"text", "text", none⟩, site := .method "q::Shared" "tag" }],
    site := .interface "q::Shared" },
  { qualifiedName := "q::Shared", simpleName := "Shared",
    methods := [
      { name := "late", returnType := ⟨"int", "int", none⟩, site := .method "q::Shared" "late" }],
    site := .interface "q::Shared" }]

namespace Catalog

/-- Under one policy the traversal fails, with a conflict with the first of the two declarations of
the root, and under the other there is a record. -/
theorem used_inStep_quarrel :
    (Table.quarrel.catalog WaveringType.view "::").InStep
        ((Table.quarrel.catalog WaveringType.view "::").traverse .reject 0 [2]) ∧
      ((Table.quarrel.catalog WaveringType.view "::").traverse .reject 0 [2]).diagnostics =
        [⟨.conflict "id" "int" "Root" "long" "Shared", .method "q::Shared" "id"⟩] ∧
      ((Table.quarrel.catalog WaveringType.view "::").traverse .reject 0 [2]).used =
        [("id", ⟨⟨"int", "int", none⟩, "Root"⟩), ("go", ⟨⟨"bool", "bool", some 0⟩, "Root"⟩),
          ("tag", ⟨⟨"text", "text", none⟩, "Shared"⟩)] ∧
      ∃ r, ((Table.quarrel.catalog WaveringType.view "::").derive {} .suffixes 0 [2]).record =
          some r ∧
        r.names.Nodup ∧ r.names = ["id", "go", "tag"] ∧
        (r.component? "late" = none ↔ "late" ∉ r.names) := by
  obtain ⟨hpasses, hend, hrecord⟩ := (Table.quarrel.catalog WaveringType.view "::").used_inStep
    (Table.quarrel.catalog WaveringType.view "::").supertypes .reject 0 [2]
  refine ⟨hpasses _ hend, by decide, by decide, ?_⟩
  have hr : ((Table.quarrel.catalog WaveringType.view "::").derive {} .suffixes 0 [2]).record =
      some ((Table.quarrel.catalog WaveringType.view "::").recordOf {} .suffixes 0
        ((Table.quarrel.catalog WaveringType.view "::").traverse .firstWins 0 [2]).components) :=
    (record_derive_eq_some_iff _).mpr ⟨by decide, by decide, rfl⟩
  obtain ⟨hnodup, hfind⟩ := hrecord _ _ _ hr
  exact ⟨_, hr, hnodup, by decide, (hfind "late").2⟩

end Catalog

end InterfaceRecord
