/-
  First values of components. `FirstValue` says, by the members that an interface declares itself
  and not by a search, which first value a method gets there and what is told if there is none.
  `firstValues_exact`: each component that is kept has that value, and the missing first values that
  are told of are those of the components that are kept, one for each.
-/
import InterfaceRecord.Graph
import InterfaceRecord.Proofs.UsedNames

namespace InterfaceRecord

variable {I M T S V : Type}

/-- The fault is a first value that is asked for and missing. -/
def Fault.isMissing : Fault → Bool
  | missingInitializer _ => true
  | _ => false

/-- The missing first values that were told of. -/
def Traversal.missing (w : Traversal I M T S V) : Diagnostics S :=
  w.diagnostics.filter (·.fault.isMissing)

namespace Catalog

open Traversal

section

variable (g : Catalog I M T S V)

/-- The interface itself declares a public static method of that name and type. -/
def OffersMethod (i : I) (target : String) (type : T) : Prop :=
  ∃ s ∈ g.methods i, g.isStatic s = true ∧ g.isPublic s = true ∧ g.methodName s = target ∧
    g.sameType (g.returnType s) type = true

/-- The interface itself declares a public static final constant of that name and type. -/
def OffersConstant (i : I) (target : String) (type : T) : Prop :=
  ∃ c ∈ g.constants i, c.isPublic = true ∧ c.isStatic = true ∧ c.isFinal = true ∧
    c.name = target ∧ g.sameType c.type type = true

/-- The first value that the method `m` gets on `i`, and what is told of it. -/
inductive FirstValue (i : I) (m : M) : Option Initializer → Diagnostics S → Prop
  /-- It asks for none. -/
  | unasked (hname : g.initializerName m = none) : FirstValue i m none []
  | method {target : String} (hname : g.initializerName m = some target)
    (hmethod : g.OffersMethod i target (g.returnType m)) :
    FirstValue i m (some (.method target)) []
  | constant {target : String} (hname : g.initializerName m = some target)
    (hmethod : ¬ g.OffersMethod i target (g.returnType m))
    (hconstant : g.OffersConstant i target (g.returnType m)) :
    FirstValue i m (some (.constant target)) []
  /-- There is none such as it asks for. -/
  | missing {target : String} (hname : g.initializerName m = some target)
    (hmethod : ¬ g.OffersMethod i target (g.returnType m))
    (hconstant : ¬ g.OffersConstant i target (g.returnType m)) :
    FirstValue i m none [⟨.missingInitializer target, g.methodSite m⟩]

/-- What is told of a component whose method asks for a first value that it does not have. -/
def lacking? (c : Component M T) : Option (Diagnostic S) :=
  match g.initializerName c.origin, c.initializer with
  | some target, none => some ⟨.missingInitializer target, g.methodSite c.origin⟩
  | _, _ => none

/-- The component `c` was kept when its method was examined on `i`, and `w` is the traversal before
that. Nothing but its first value was then told of. -/
structure KeptAt (supertypes : I → List I) (policy : ConflictPolicy) (root : I) (v : V)
    (c : Component M T) (i : I) (w : Traversal I M T S V) : Prop where
  passes : ∃ rest, g.Passes supertypes policy root v ⟨.examine i c.origin :: rest, w⟩
  reached : Relation.ReflTransGen (fun i p => p ∈ supertypes i) root i
  declared : c.origin ∈ g.methods i
  name : c.name = g.methodName c.origin
  type : c.type = g.returnType c.origin
  components : (g.examine policy i w c.origin).components = w.components ++ [c]
  firstValue : ∃ ds, g.FirstValue i c.origin c.initializer ds ∧
    (g.examine policy i w c.origin).diagnostics = w.diagnostics ++ ds
  /-- A method that makes a component does not give first values. -/
  notUsed : ∀ target type, g.isInitializerMethod target type c.origin = false

/-- All components have their first values, and each that is missing was told of once. -/
structure Initialized (supertypes : I → List I) (policy : ConflictPolicy) (root : I) (v : V)
    (w : Traversal I M T S V) : Prop where
  kept : ∀ c ∈ w.components, ∃ i w₀, g.KeptAt supertypes policy root v c i w₀
  missing : w.missing = w.components.filterMap g.lacking?

end

variable {g : Catalog I M T S V} {supertypes : I → List I} {policy : ConflictPolicy}
  {i : I} {m : M} {w w' : Traversal I M T S V} {target : String} {type : T}

/-! ## The search -/

theorem any_isInitializerMethod :
    (g.methods i).any (g.isInitializerMethod target type) = true ↔ g.OffersMethod i target type := by
  simp only [List.any_eq_true, isInitializerMethod, OffersMethod, Bool.and_eq_true, beq_iff_eq,
    and_assoc]

theorem any_isInitializerConstant :
    (g.constants i).any (g.isInitializerConstant target type) = true ↔
      g.OffersConstant i target type := by
  simp only [List.any_eq_true, isInitializerConstant, OffersConstant, Bool.and_eq_true, beq_iff_eq,
    and_assoc]

theorem initializer?_of_offersMethod (h : g.OffersMethod i target type) :
    g.initializer? i target type = some (.method target) := by
  rw [initializer?, if_pos (any_isInitializerMethod.mpr h)]

theorem initializer?_of_offersConstant (hmethod : ¬ g.OffersMethod i target type)
    (hconstant : g.OffersConstant i target type) :
    g.initializer? i target type = some (.constant target) := by
  rw [initializer?, if_neg (mt any_isInitializerMethod.mp hmethod),
    if_pos (any_isInitializerConstant.mpr hconstant)]

theorem initializer?_of_not_offers (hmethod : ¬ g.OffersMethod i target type)
    (hconstant : ¬ g.OffersConstant i target type) : g.initializer? i target type = none := by
  rw [initializer?, if_neg (mt any_isInitializerMethod.mp hmethod),
    if_neg (mt any_isInitializerConstant.mp hconstant)]

/-- Only whether there are such members matters, and neither their order nor their number. -/
theorem initializer?_congr {g' : Catalog I M T S V}
    (hmethod : g'.OffersMethod i target type ↔ g.OffersMethod i target type)
    (hconstant : g'.OffersConstant i target type ↔ g.OffersConstant i target type) :
    g'.initializer? i target type = g.initializer? i target type := by
  by_cases hm : g.OffersMethod i target type
  · rw [initializer?_of_offersMethod hm, initializer?_of_offersMethod (hmethod.mpr hm)]
  · have hm' := mt hmethod.mp hm
    by_cases hc : g.OffersConstant i target type
    · rw [initializer?_of_offersConstant hm hc,
        initializer?_of_offersConstant hm' (hconstant.mpr hc)]
    · rw [initializer?_of_not_offers hm hc,
        initializer?_of_not_offers hm' (mt hconstant.mp hc)]

theorem FirstValue.of_some {found : Initializer} (hname : g.initializerName m = some target)
    (hfound : g.initializer? i target (g.returnType m) = some found) :
    g.FirstValue i m (some found) [] := by
  by_cases hm : g.OffersMethod i target (g.returnType m)
  · rw [initializer?_of_offersMethod hm] at hfound
    cases hfound
    exact .method hname hm
  · by_cases hc : g.OffersConstant i target (g.returnType m)
    · rw [initializer?_of_offersConstant hm hc] at hfound
      cases hfound
      exact .constant hname hm hc
    · rw [initializer?_of_not_offers hm hc] at hfound
      cases hfound

theorem FirstValue.of_none (hname : g.initializerName m = some target)
    (hnone : g.initializer? i target (g.returnType m) = none) :
    g.FirstValue i m none [⟨.missingInitializer target, g.methodSite m⟩] := by
  refine .missing hname (fun hm => ?_) fun hc => ?_
  · rw [initializer?_of_offersMethod hm] at hnone
    cases hnone
  · by_cases hm : g.OffersMethod i target (g.returnType m)
    · rw [initializer?_of_offersMethod hm] at hnone
      cases hnone
    · rw [initializer?_of_offersConstant hm hc] at hnone
      cases hnone

/-- What is told of a component depends on the component alone. -/
theorem FirstValue.toList_lacking? {c : Component M T} {ds : Diagnostics S}
    (h : g.FirstValue i c.origin c.initializer ds) : (g.lacking? c).toList = ds := by
  obtain ⟨name, type, origin, initializer⟩ := c
  cases h with
  | unasked hname => simp [lacking?, hname]
  | method hname => simp [lacking?, hname]
  | constant hname => simp [lacking?, hname]
  | missing hname => simp [lacking?, hname]

theorem FirstValue.filter_isMissing {initializer : Option Initializer} {ds : Diagnostics S}
    (h : g.FirstValue i m initializer ds) : ds.filter (·.fault.isMissing) = ds := by
  cases h <;> rfl

/-! ## One examination -/

/-- Static methods give first values, and a candidate is none of them. -/
theorem IsCandidate.isInitializerMethod {v : V} (h : g.IsCandidate i m v) (target : String)
    (type : T) : g.isInitializerMethod target type m = false := by
  rw [IsCandidate, ruling] at h
  cases hs : g.isStatic m with
  | false => rw [Catalog.isInitializerMethod, hs, Bool.false_and, Bool.false_and, Bool.false_and]
  | true =>
    rw [hs, Bool.true_or, if_pos rfl] at h
    cases h

/-- An examination keeps a candidate of a new name with its first value, or it keeps nothing and
tells of no missing first value. -/
theorem Outcome.keeps_or_not (h : g.Outcome policy i m w w') :
    (w'.components = w.components ∧ w'.missing = w.missing) ∨
      (g.IsCandidate i m w.void ∧ w.used.lookup (g.methodName m) = none) ∧
        ∃ initializer ds, g.FirstValue i m initializer ds ∧
          w'.components = w.components ++ [⟨g.methodName m, g.returnType m, m, initializer⟩] ∧
          w'.diagnostics = w.diagnostics ++ ds := by
  have htold {v : V} {fault : Fault} (hfault : fault.isMissing = false) :
      ({ w with void := v }.diagnose i m fault (g.methodSite m)).missing = w.missing := by
    rw [Traversal.missing, diagnostics_diagnose, List.filter_append, List.filter_singleton, hfault,
      cond_false, List.append_nil, Traversal.missing]
  cases h with
  | skipped => exact Or.inl ⟨rfl, rfl⟩
  | repeated => exact Or.inl ⟨rfl, rfl⟩
  | rejected _ hfault =>
    refine Or.inl ⟨rfl, htold ?_⟩
    rcases hfault with rfl | rfl <;> rfl
  | conflicting => exact Or.inl ⟨rfl, htold rfl⟩
  | void => exact Or.inl ⟨rfl, htold rfl⟩
  | kept hruling hnew hinitializer =>
    refine Or.inr ⟨⟨hruling, hnew⟩, _, [], ?_, rfl, (List.append_nil _).symm⟩
    rcases hinitializer with ⟨hname, rfl⟩ | ⟨target, found, hname, hfound, rfl⟩
    · exact .unasked hname
    · exact .of_some hname hfound
  | unresolved hruling hnew htarget hnone =>
    exact Or.inr ⟨⟨hruling, hnew⟩, _, _, .of_none htarget hnone, rfl, rfl⟩

/-- No first value is looked for where the method is left out or rejected or its name is taken. -/
theorem missing_examine_of_not_kept
    (h : ¬ g.IsCandidate i m w.void ∨ g.methodName m ∈ w.used.map (·.1)) :
    (g.examine policy i w m).components = w.components ∧
      (g.examine policy i w m).missing = w.missing := by
  rcases (g.outcome_examine policy i m w).keeps_or_not with hnone | ⟨⟨hruling, hnew⟩, -⟩
  · exact hnone
  · rcases h with hrejected | htaken
    · exact absurd hruling hrejected
    · obtain ⟨entry, hentry, hname⟩ := List.mem_map.mp htaken
      have hne := List.lookup_eq_none_iff.mp hnew entry hentry
      exact absurd hname.symm (by simpa using hne)

/-! ## A traversal -/

/-- What is kept in an examination has its first value. -/
theorem Initialized.examine {root : I} {v : V} {rest : List (Task I M)}
    (hpasses : g.Passes supertypes policy root v ⟨.examine i m :: rest, w⟩)
    (h : g.Initialized supertypes policy root v w) :
    g.Initialized supertypes policy root v (g.examine policy i w m) := by
  have hknown := hpasses.known _ List.mem_cons_self
  rcases (g.outcome_examine policy i m w).keeps_or_not with
    ⟨hcomponents, hmissing⟩ | ⟨⟨hruling, -⟩, initializer, ds, hfirst, hcomponents, hdiagnostics⟩
  · refine ⟨?_, ?_⟩
    · rw [hcomponents]
      exact h.kept
    · rw [hcomponents, hmissing, h.missing]
  · refine ⟨fun c hc => ?_, ?_⟩
    · rw [hcomponents] at hc
      rcases List.mem_append.mp hc with hc | hc
      · exact h.kept c hc
      · obtain rfl := List.mem_singleton.mp hc
        exact ⟨i, w, ⟨rest, hpasses⟩, hknown.reached, hknown.declared i m rfl, rfl, rfl,
          hcomponents, ⟨ds, hfirst, hdiagnostics⟩, hruling.isInitializerMethod⟩
    · have hlacking := FirstValue.toList_lacking?
        (c := ⟨g.methodName m, g.returnType m, m, initializer⟩) hfirst
      rw [Traversal.missing, hdiagnostics, List.filter_append, hfirst.filter_isMissing,
        ← Traversal.missing, h.missing, hcomponents, List.filterMap_append, ← hlacking]
      cases hc : g.lacking? ⟨g.methodName m, g.returnType m, m, initializer⟩ <;> simp [hc]

theorem Passes.initialized {root : I} {v : V} {a : Moment I M T S V}
    (h : g.Passes supertypes policy root v a) :
    g.Initialized supertypes policy root v a.state := by
  induction h with
  | refl => exact ⟨fun _ hc => absurd hc List.not_mem_nil, rfl⟩
  | @tail a b ha hab ih =>
    cases hab with
    | stop => exact ih
    | pass => exact ⟨ih.kept, ih.missing⟩
    | enter => exact ⟨ih.kept, ih.missing⟩
    | examine => exact ih.examine ha
    | halt => exact ih.examine ha
    | expand => exact ⟨ih.kept, ih.missing⟩

/-- First values are exact. At each moment of a traversal each component has the first value that
the members of the interface give on which it was kept, and those that are missing were told of, one
for each component that asks in vain. A method that is left out or rejected, or whose name is taken,
adds neither a component nor a missing first value. A traversal ends in such a moment. What is found
depends on nothing but whether there are members that fit. -/
theorem firstValues_exact (g : Catalog I M T S V) (supertypes : I → List I)
    (policy : ConflictPolicy) (root : I) (v : V) :
    (∀ a, g.Passes supertypes policy root v a →
      g.Initialized supertypes policy root v a.state ∧
      ∀ i m, a.agenda.head? = some (.examine i m) →
        ¬ g.IsCandidate i m a.state.void ∨ g.methodName m ∈ a.state.components.map (·.name) →
        (g.examine policy i a.state m).components = a.state.components ∧
          (g.examine policy i a.state m).missing = a.state.missing) ∧
      g.Passes g.supertypes policy root v ⟨[], g.traverse policy root v⟩ ∧
      ∀ (g' : Catalog I M T S V) i target type,
        (g'.OffersMethod i target type ↔ g.OffersMethod i target type) →
        (g'.OffersConstant i target type ↔ g.OffersConstant i target type) →
        g'.initializer? i target type = g.initializer? i target type := by
  refine ⟨fun a ha => ⟨ha.initialized, fun i m _ h => missing_examine_of_not_kept ?_⟩,
    passes_traverse root v, fun g' i target type => initializer?_congr⟩
  rw [ha.tallied.inStep.names]
  exact h

end Catalog

/-- The root has a method that its supertype has again, and there the annotation is in vain. Of the
other methods of the supertype one is annotated with a static method that is there twice, one with a
constant that a method of another type shares its name with, one with the name of a member of
another type, and the last returns nothing. -/
def Graph.defaults : Graph where
  interfaces := [
    { qualifiedName := "v::Root", simpleName := "Root", supertypes := [1],
      methods := [{ name := "id", returnType := ⟨"int"⟩, site := .method "v::Root" "id" }],
      constants := [{ name := "TAG", type := ⟨"String"⟩ }],
      site := .interface "v::Root" },
    { qualifiedName := "v::Base", simpleName := "Base",
      methods := [
        { name := "zero", returnType := ⟨"int"⟩, isStatic := true,
          site := .method "v::Base" "zero" },
        { name := "TAG", returnType := ⟨"int"⟩, isStatic := true,
          site := .method "v::Base" "TAG" },
        { name := "id", returnType := ⟨"int"⟩, initializer := some "nothing",
          site := .method "v::Base" "id" },
        { name := "count", returnType := ⟨"int"⟩, initializer := some "zero",
          site := .method "v::Base" "count" },
        { name := "tag", returnType := ⟨"String"⟩, initializer := some "TAG",
          site := .method "v::Base" "tag" },
        { name := "gap", returnType := ⟨"String"⟩, initializer := some "zero",
          site := .method "v::Base" "gap" },
        { name := "bad", returnType := .void, initializer := some "nothing",
          site := .method "v::Base" "bad" },
        { name := "zero", returnType := ⟨"int"⟩, isStatic := true,
          site := .method "v::Base" "zero" }],
      constants := [{ name := "zero", type := ⟨"int"⟩ }, { name := "TAG", type := ⟨"String"⟩ },
        { name := "TAG", type := ⟨"String"⟩ }],
      site := .interface "v::Base" }]

namespace Catalog

/-- All methods of the supertype are examined, and one of them lacks its first value. In the reverse
order of the methods the same are found. -/
theorem firstValues_exact_defaults :
    Graph.defaults.catalog.Initialized Graph.defaults.catalog.supertypes .reject 0 ()
        (Graph.defaults.catalog.traverse .reject 0 ()) ∧
      ((Graph.defaults.catalog.traverse .reject 0 ()).components.map fun c =>
        (c.name, c.initializer)) = [("id", none), ("count", some (.method "zero")),
          ("tag", some (.constant "TAG")), ("gap", none)] ∧
      (Graph.defaults.catalog.traverse .reject 0 ()).diagnostics =
        [⟨.missingInitializer "zero", .method "v::Base" "gap"⟩,
          ⟨.signature "Base" "bad", .method "v::Base" "bad"⟩] ∧
      ∀ target type, Catalog.initializer? { Graph.defaults.catalog with
          methods := fun i => (Graph.defaults.catalog.methods i).reverse } 1 target type =
        Graph.defaults.catalog.initializer? 1 target type := by
  obtain ⟨hmoments, hend, hmembers⟩ := Graph.defaults.catalog.firstValues_exact
    Graph.defaults.catalog.supertypes .reject 0 ()
  refine ⟨(hmoments _ hend).1, by decide, by decide, fun target type => hmembers _ 1 target type ?_
    Iff.rfl⟩
  simp only [OffersMethod, List.mem_reverse]

end Catalog

end InterfaceRecord
