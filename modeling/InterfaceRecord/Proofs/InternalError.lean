/-
  Internal errors. One arises where a method was taken for a candidate, since its type is not void,
  and the type is void after all when its component is to be kept. It ends the traversal on the
  spot, whatever is still to be done in all interfaces that are not finished
  (`hasInternal_traverse`). The invariant is `Untroubled`: one examination keeps it or ends with the
  error (`untroubled_or_endsAt_examine`), and so does a run. Where the answers on void types are
  fixed there is no such error.
-/
import InterfaceRecord.Graph
import InterfaceRecord.Proofs.Derivability
import InterfaceRecord.Proofs.Sweep
import InterfaceRecord.Trait.File
import InterfaceRecord.Wavering

namespace InterfaceRecord

variable {I M T S V : Type}

/-- The step tells of an internal error. -/
def Step.isInternal : Step I M → Bool
  | diagnosed _ _ fault => fault.severity = .internalError
  | _ => false

namespace Catalog

open Traversal

variable (g : Catalog I M T S V)

/-- No internal error was met, and the names of all components are taken. -/
structure Untroubled (w : Traversal I M T S V) : Prop where
  taken : ∀ c ∈ w.components, (w.used.lookup (g.methodName c.origin)).isSome
  diagnostics : ∀ e ∈ w.diagnostics, e.severity = .error
  steps : ∀ s ∈ w.steps, s.isInternal = false

/-- The traversal ends with an internal error, in the examination of the method `m` of `i`. -/
structure EndsAt (policy : ConflictPolicy) (i : I) (m : M) (text : String)
    (w : Traversal I M T S V) : Prop where
  /-- The error is the last diagnostic, and the only one of its kind. -/
  diagnostics : ∃ before, w.diagnostics = before ++ [⟨.internal text, g.methodSite m⟩] ∧
    ∀ e ∈ before, e.severity = .error
  /-- Nothing is done behind the error: no interface is entered, no method examined, and no
  supertypes are asked for. -/
  steps : ∃ before, w.steps = before ++ [.diagnosed i m (.internal text)] ∧
    ∀ s ∈ before, s.isInternal = false
  /-- All is left as the examination leaves it. -/
  examined : ∃ w₀, w₀.hasInternal = false ∧ w = g.examine policy i w₀ m
  notKept : ∀ c ∈ w.components, c.origin ≠ m
  /-- About the method's type two different answers were given. -/
  wavers : ∃ v v', (g.isVoid (g.returnType m) v).1 = false ∧
    (g.isVoid (g.returnType m) v').1 = true

variable {g} {policy : ConflictPolicy} {w : Traversal I M T S V} {i : I} {m : M}

theorem Untroubled.hasInternal (h : g.Untroubled w) : w.hasInternal = false := by
  rw [Traversal.hasInternal, Diagnostics.hasInternal, List.any_eq_false]
  intro e he
  rw [h.diagnostics e he]
  decide

theorem EndsAt.hasInternal {text : String} (h : g.EndsAt policy i m text w) :
    w.hasInternal = true := by
  obtain ⟨before, hd, -⟩ := h.diagnostics
  rw [Traversal.hasInternal, Diagnostics.hasInternal, hd, List.any_append]
  simp [Diagnostic.severity, Fault.severity]

/-! ## What keeps on -/

theorem untroubled_start (g : Catalog I M T S V) (v : V) :
    g.Untroubled ({ void := v } : Traversal I M T S V) where
  taken := fun _ h => absurd h List.not_mem_nil
  diagnostics := fun _ h => absurd h List.not_mem_nil
  steps := fun _ h => absurd h List.not_mem_nil

/-- What the answers on void types depend on does not matter. -/
theorem Untroubled.void (h : g.Untroubled w) (v : V) : g.Untroubled { w with void := v } :=
  ⟨h.taken, h.diagnostics, h.steps⟩

theorem forall_mem_concat {α : Type} {p : α → Prop} {xs : List α} {x : α}
    (hxs : ∀ y ∈ xs, p y) (hx : p x) : ∀ y ∈ xs ++ [x], p y :=
  List.forall_mem_append.mpr ⟨hxs, List.forall_mem_singleton.mpr hx⟩

theorem Untroubled.note (h : g.Untroubled w) {s : Step I M} (hs : s.isInternal = false) :
    g.Untroubled (w.note s) :=
  ⟨h.taken, h.diagnostics, forall_mem_concat h.steps hs⟩

theorem Untroubled.enter (h : g.Untroubled w) (i : I) (name : String) :
    g.Untroubled (w.enter i name) := by
  have hvisited : g.Untroubled { w with visited := w.visited ++ [name] } :=
    ⟨h.taken, h.diagnostics, h.steps⟩
  exact hvisited.note rfl

theorem Untroubled.diagnose (h : g.Untroubled w) {fault : Fault} (hf : fault.severity = .error)
    (site : S) : g.Untroubled (w.diagnose i m fault site) where
  taken := h.taken
  diagnostics := forall_mem_concat h.diagnostics hf
  steps := forall_mem_concat h.steps (by simp [Step.isInternal, hf])

theorem Untroubled.keep (h : g.Untroubled w) (interface : String) {c : Component M T}
    (hc : c.name = g.methodName c.origin) : g.Untroubled (w.keep i interface c) where
  taken := by
    show ∀ c' ∈ w.components ++ [c], ((w.used ++ [(c.name, Precedent.mk c.type interface)]).lookup
      (g.methodName c'.origin)).isSome
    apply forall_mem_concat
    · intro c' hc'
      rw [List.lookup_append, Option.isSome_or, h.taken c' hc', Bool.true_or]
    · rw [List.lookup_append, Option.isSome_or, hc, List.lookup_cons_self, Option.isSome_some,
        Bool.or_true]
  diagnostics := h.diagnostics
  steps := forall_mem_concat h.steps rfl

theorem Untroubled.firstValue (h : g.Untroubled w) (i : I) (m : M) (type : T) :
    g.Untroubled (g.firstValue i m type w).2 := by
  rw [Catalog.firstValue]
  split
  · exact h
  · split
    · exact h
    · exact h.diagnose rfl _

/-! ## One examination -/

/-- A new candidate is kept, unless its type has become void. -/
theorem Untroubled.considerFresh (h : g.Untroubled w) (i : I) (m : M) :
    g.Untroubled (g.considerFresh i m (g.methodName m) (g.returnType m) w) ∨
      ∃ text, (g.isVoid (g.returnType m) w.void).1 = true ∧
        g.considerFresh i m (g.methodName m) (g.returnType m) w =
          { w with void := (g.isVoid (g.returnType m) w.void).2 }.diagnose i m (.internal text)
            (g.methodSite m) := by
  rw [Catalog.considerFresh]
  cases hv : g.isVoid (g.returnType m) w.void with
  | mk void v =>
    cases void with
    | true => exact Or.inr ⟨_, rfl, rfl⟩
    | false => exact Or.inl (((h.void v).firstValue i m _).keep _ rfl)

/-- One examination goes on or ends with an internal error. -/
theorem untroubled_or_endsAt_examine (h : g.Untroubled w) (policy : ConflictPolicy) (i : I)
    (m : M) : g.Untroubled (g.examine policy i w m) ∨
      ∃ text, g.EndsAt policy i m text (g.examine policy i w m) := by
  have hvoid := h.void (g.ruling i m w.void).2
  rcases g.ruling_cases i m w.void with hr | hr | hr | ⟨hr, hfirst⟩
  · simp only [examine, hr]
    exact Or.inl (hvoid.note rfl)
  · simp only [examine, hr]
    exact Or.inl (hvoid.diagnose rfl _)
  · simp only [examine, hr]
    exact Or.inl (hvoid.diagnose rfl _)
  · have hexamine : g.examine policy i w m =
        g.consider policy i m (g.methodName m) (g.returnType m)
          { w with void := (g.ruling i m w.void).2 } := by
      simp only [examine, hr]
    rw [consider] at hexamine
    cases hused : w.used.lookup (g.methodName m) with
    | some seen =>
      simp only [hused] at hexamine
      rw [hexamine]
      split
      · exact Or.inl (hvoid.diagnose rfl _)
      · exact Or.inl (hvoid.note rfl)
    | none =>
      simp only [hused] at hexamine
      rcases hvoid.considerFresh i m with hkept | ⟨text, hsecond, hended⟩
      · rw [hexamine]
        exact Or.inl hkept
      · refine Or.inr ⟨text, ?_⟩
        have hend := hexamine.trans hended
        refine ⟨⟨w.diagnostics, ?_, h.diagnostics⟩, ⟨w.steps, ?_, h.steps⟩,
          ⟨w, h.hasInternal, rfl⟩, ?_, ⟨_, _, hfirst, hsecond⟩⟩
        · rw [hend]
          rfl
        · rw [hend]
          rfl
        · -- the name is still free, so no component is of this method
          intro c hc horigin
          rw [hend] at hc
          have htaken := h.taken c hc
          rw [horigin, hused] at htaken
          cases htaken

/-! ## A run -/

variable (g policy) in
/-- The traversal ends with an internal error. -/
def Ends (w : Traversal I M T S V) : Prop :=
  ∃ i m text, g.EndsAt policy i m text w

theorem Ends.hasInternal (h : g.Ends policy w) : w.hasInternal = true := by
  obtain ⟨i, m, text, h⟩ := h
  exact h.hasInternal

theorem untroubled_or_ends_examineAll (h : g.Untroubled w) (policy : ConflictPolicy) (i : I)
    (ms : List M) : g.Untroubled (g.examineAll policy i ms w) ∨
      g.Ends policy (g.examineAll policy i ms w) := by
  induction ms generalizing w with
  | nil => exact Or.inl h
  | cons m ms ih =>
    rw [examineAll]
    rcases untroubled_or_endsAt_examine h policy i m with hnext | ⟨text, hend⟩
    · rw [if_neg (Bool.eq_false_iff.mp hnext.hasInternal)]
      exact ih hnext
    · rw [if_pos hend.hasInternal]
      exact Or.inr ⟨i, m, text, hend⟩

theorem untroubled_or_ends_visit (h : g.Untroubled w) (policy : ConflictPolicy) (i : I) :
    g.Untroubled (g.visit policy i w) ∨ g.Ends policy (g.visit policy i w) :=
  untroubled_or_ends_examineAll (h.enter i _) policy i _

/-- The loop stands still once something is wrong, so an internal error stays the last thing. -/
theorem untroubled_or_ends_sweep (h : g.Untroubled w) (policy : ConflictPolicy) (todo : List I) :
    g.Untroubled (g.sweep policy todo w) ∨ g.Ends policy (g.sweep policy todo w) := by
  induction todo, w using sweep.induct g policy with
  | case1 w =>
    rw [sweep_nil]
    exact Or.inl h
  | case2 i todo w hf =>
    rw [sweep_of_failed g _ _ hf]
    exact Or.inl h
  | case3 i todo w hf hi ih =>
    rw [sweep_cons_of_mem g _ (Bool.eq_false_iff.mpr hf) hi]
    exact ih (h.note rfl)
  | case4 i todo w hf hi hint =>
    rw [sweep_cons_of_hasInternal g _ (Bool.eq_false_iff.mpr hf) hi hint]
    exact untroubled_or_ends_visit h policy i
  | case5 i todo w hf hi hint ih =>
    have hint' := Bool.eq_false_iff.mpr hint
    rw [sweep_cons_of_not_mem g _ (Bool.eq_false_iff.mpr hf) hi hint']
    rcases untroubled_or_ends_visit h policy i with hnext | hend
    · exact ih (hnext.note rfl)
    · exact absurd hend.hasInternal hint

theorem untroubled_or_ends_traverse (g : Catalog I M T S V) (policy : ConflictPolicy) (root : I)
    (v : V) : g.Untroubled (g.traverse policy root v) ∨ g.Ends policy (g.traverse policy root v) := by
  rw [traverse_eq_sweep]
  exact untroubled_or_ends_sweep (g.untroubled_start v) policy [root]

/-- A derivation has an internal error exactly if its traversal has one. -/
theorem hasInternal_diagnostics_derive (g : Catalog I M T S V) (settings : Settings)
    (scheme : NameScheme) (root : I) (v : V) :
    (g.derive settings scheme root v).diagnostics.hasInternal =
      (g.traverse settings.conflicts root v).hasInternal := by
  rw [diagnostics_derive, Diagnostics.hasInternal, List.any_append, Traversal.hasInternal,
    Diagnostics.hasInternal]
  split <;> simp [Diagnostic.severity, Fault.severity]

/-- Internal errors fail fast, and there are none where the answers on void types are fixed. If a
traversal meets an internal error, whatever the answers were, it ends with it: the error is the
last diagnostic and the only one of its kind, nothing is done any more in any interface that is
still open, no component comes from the method in question, and there is no record. If whether a
type is void depends on the type alone, neither a traversal nor a derivation meets one. -/
theorem hasInternal_traverse (g : Catalog I M T S V) (policy : ConflictPolicy) (root : I) (v : V) :
    ((g.traverse policy root v).hasInternal = true →
      (∃ i m text, g.EndsAt policy i m text (g.traverse policy root v)) ∧
        ∀ settings scheme, settings.conflicts = policy →
          (g.derive settings scheme root v).record = none) ∧
    ((∀ type v v', (g.isVoid type v).1 = (g.isVoid type v').1) →
      (g.traverse policy root v).hasInternal = false ∧
        ∀ settings scheme, (g.derive settings scheme root v).diagnostics.hasInternal = false) := by
  constructor
  · intro hint
    rcases untroubled_or_ends_traverse g policy root v with h | h
    · exact absurd (h.hasInternal.symm.trans hint) Bool.false_ne_true
    · refine ⟨h, ?_⟩
      rintro settings scheme rfl
      rw [record_derive_eq_none_iff]
      intro hnil
      have hderive := g.hasInternal_diagnostics_derive settings scheme root v
      rw [hnil, hint] at hderive
      cases hderive
  · intro hpure
    have hnone (policy : ConflictPolicy) : (g.traverse policy root v).hasInternal = false := by
      rcases untroubled_or_ends_traverse g policy root v with h | ⟨i, m, text, h⟩
      · exact h.hasInternal
      · obtain ⟨v₁, v₂, hfirst, hsecond⟩ := h.wavers
        rw [hpure _ v₁ v₂, hsecond] at hfirst
        cases hfirst
    refine ⟨hnone policy, fun settings scheme => ?_⟩
    rw [hasInternal_diagnostics_derive, hnone]

end Catalog

/-- The first of two supertypes has a method that takes an argument, then one whose type turns void
once it was asked about, then one more. -/
def Table.unsteady : Table WaveringType GraphSite := [
  { qualifiedName := "u::Root", simpleName := "Root", supertypes := [1, 2],
    methods := [{ name := "id", returnType := ⟨"int", "int", none⟩, site := .method "u::Root" "id" }],
    site := .interface "u::Root" },
  { qualifiedName := "u::Unsteady", simpleName := "Unsteady",
    methods := [
      { name := "bad", returnType := ⟨"int", "int", none⟩, parameters := [⟨"int", "int", none⟩],
        site := .method "u::Unsteady" "bad" },
      { name := "flips", returnType := ⟨"int", "int", some 0⟩,
        site := .method "u::Unsteady" "flips" },
      { name := "late", returnType := ⟨"int", "int", none⟩,
        site := .method "u::Unsteady" "late" }],
    site := .interface "u::Unsteady" },
  { qualifiedName := "u::Other", simpleName := "Other",
    methods := [{ name := "go", returnType := ⟨"int", "int", none⟩, site := .method "u::Other" "go" }],
    site := .interface "u::Other" }]

namespace Catalog

/-- The error comes after an ordinary one in a supertype, and neither the method behind it nor the
other supertype is looked at. Graphs and files of traits are always sure of their types. -/
theorem hasInternal_traverse_unsteady :
    (∃ i m text, (Table.unsteady.catalog WaveringType.view "::").EndsAt .firstWins i m text
        ((Table.unsteady.catalog WaveringType.view "::").traverse .firstWins 0 [1])) ∧
      ((Table.unsteady.catalog WaveringType.view "::").traverse .firstWins 0 [1]).steps =
        [.entered 0, .accepted 0 ⟨0, 0⟩, .expanded 0, .entered 1,
          .diagnosed 1 ⟨1, 0⟩ (.signature "Unsteady" "bad"),
          .diagnosed 1 ⟨1, 1⟩ (.internal
            "component Unsteady.flips() was accepted with a void type")] ∧
      ((Table.unsteady.catalog WaveringType.view "::").derive {} .suffixes 0 [1]).record = none ∧
      (∀ (g : Graph) policy root, (g.catalog.traverse policy root ()).hasInternal = false) ∧
      ∀ (f : Trait.TraitFile) policy root,
        (f.catalog.traverse policy root ()).hasInternal = false := by
  have h := ((Table.unsteady.catalog WaveringType.view "::").hasInternal_traverse .firstWins 0
    [1]).1 (by decide)
  refine ⟨h.1, by decide, h.2 {} .suffixes rfl, fun g policy root => ?_, fun f policy root => ?_⟩
  · exact ((g.catalog.hasInternal_traverse policy root ()).2 fun _ _ _ => rfl).1
  · exact ((f.catalog.hasInternal_traverse policy root ()).2 fun _ _ _ => rfl).1

end Catalog

end InterfaceRecord
