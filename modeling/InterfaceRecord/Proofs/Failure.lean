/-
  Where a traversal fails: at the first interface in the pre-order with a faulty method. Of that one
  it examines and reports everything, of what comes behind nothing (`traverse_firstFaulty`).
-/
import InterfaceRecord.Proofs.Course

namespace InterfaceRecord

namespace Catalog

variable {I M T S : Type} (g : Catalog I M T S Unit) {policy : ConflictPolicy}

/-! ## The first faulty interface -/

/-- The faults of the methods of `k` when the interfaces in `front` come before it. -/
def faultsAt (policy : ConflictPolicy) (front : List I) (k : I) : List ((I × M) × Fault) :=
  g.faults policy (g.declarations front) (g.declarations [k])

/-- In the pre-order from `root` the interfaces in `front` come first and have no faulty method,
and then comes `k`, which has one. -/
structure FirstFaulty (policy : ConflictPolicy) (root : I) (front : List I) (k : I) : Prop where
  inOrder : front ++ [k] <+: g.preorder root
  faulty : g.faultsAt policy front k ≠ []
  before : ∀ front' j, front' ++ [j] <+: front → g.faultsAt policy front' j = []

theorem findings_declarations_concat (is : List I) (i : I) :
    g.findings policy (g.declarations (is ++ [i])) =
      g.findings policy (g.declarations is) ++ (g.faultsAt policy is i).map g.diagnostic := by
  rw [declarations_append, findings_append, faultsAt]

/-- Nothing is wrong along interfaces exactly if none of them has a faulty method. -/
theorem findings_declarations_eq_nil_iff {is : List I} :
    g.findings policy (g.declarations is) = [] ↔
      ∀ front i, front ++ [i] <+: is → g.faultsAt policy front i = [] := by
  induction is using List.reverseRecOn with
  | nil =>
    refine ⟨fun _ front i h => ?_, fun _ => rfl⟩
    exact absurd (List.prefix_nil.mp h)
      (List.append_ne_nil_of_right_ne_nil front (List.cons_ne_nil i []))
  | append_singleton is j ih =>
    rw [findings_declarations_concat, List.append_eq_nil_iff, List.map_eq_nil_iff, ih]
    constructor
    · rintro ⟨h, hj⟩ front i hi
      rcases List.prefix_concat_iff.mp hi with heq | hi
      · obtain ⟨rfl, hij⟩ := List.append_inj' heq rfl
        cases hij
        exact hj
      · exact h front i hi
    · intro h
      exact ⟨fun front i hi => h front i (hi.trans (List.prefix_append is [j])),
        h is j (List.prefix_refl _)⟩

/-- Where something is wrong, there is a first interface with a faulty method. -/
theorem exists_first_faulty {is : List I}
    (h : g.findings policy (g.declarations is) ≠ []) :
    ∃ front k, front ++ [k] <+: is ∧ g.faultsAt policy front k ≠ [] ∧
      ∀ front' j, front' ++ [j] <+: front → g.faultsAt policy front' j = [] := by
  induction is using List.reverseRecOn with
  | nil => exact absurd rfl h
  | append_singleton is i ih =>
    by_cases his : g.findings policy (g.declarations is) = []
    · refine ⟨is, i, List.prefix_refl _, fun hi => h ?_,
        g.findings_declarations_eq_nil_iff.mp his⟩
      rw [findings_declarations_concat, his, hi]
      rfl
    · obtain ⟨front, k, horder, hfaulty, hbefore⟩ := ih his
      exact ⟨front, k, horder.trans (List.prefix_append is [i]), hfaulty, hbefore⟩

/-- A traversal ends with the first faulty interface. -/
theorem FirstFaulty.entered {root k : I} {front : List I}
    (h : g.FirstFaulty policy root front k) :
    (g.traverse policy root ()).entered = front ++ [k] := by
  obtain ⟨hpre, hcov, hall⟩ := g.covers_traverse policy root
  have hfront : g.findings policy (g.declarations front) = [] :=
    g.findings_declarations_eq_nil_iff.mpr h.before
  have hk : g.findings policy (g.declarations (front ++ [k])) ≠ [] := by
    rw [findings_declarations_concat, hfront, List.nil_append]
    exact mt List.map_eq_nil_iff.mp h.faulty
  -- Entering less leaves a failure out, entering more goes on after one.
  rcases List.prefix_or_prefix_of_prefix hpre h.inOrder with hle | hle
  · rcases List.prefix_concat_iff.mp hle with heq | hle
    · exact heq
    · have hclean := g.findings_eq_nil_of_prefix hle hfront
      have hent := hall (hcov.failed_eq_false_iff.mpr hclean)
      have hlen := (h.inOrder.length_le.trans (hent ▸ hle.length_le))
      rw [List.length_append, List.length_singleton] at hlen
      omega
  · by_contra hne
    exact hk (hcov.clean _ hle (Ne.symm hne))

/-- A traversal fails at the first interface with a faulty method, if there is one, and at no
other. It reports the faults of that interface's methods in the order of declaration, having
examined all of these, keeps the first candidates up to there, and enters no interface behind. -/
theorem traverse_firstFaulty (policy : ConflictPolicy) (root : I) :
    (∀ front k, g.FirstFaulty policy root front k →
      (g.traverse policy root ()).diagnostics = (g.faultsAt policy front k).map g.diagnostic ∧
      (g.traverse policy root ()).examined = g.declarations (front ++ [k]) ∧
      (g.traverse policy root ()).components =
        (g.kept (g.declarations (front ++ [k]))).map g.component ∧
      (g.traverse policy root ()).entered = front ++ [k]) ∧
    ((∀ front k, ¬ g.FirstFaulty policy root front k) →
      (g.traverse policy root ()).diagnostics = []) := by
  constructor
  · intro front k h
    obtain ⟨-, hcov, -⟩ := g.covers_traverse policy root
    have hent := FirstFaulty.entered g h
    have hfront : g.findings policy (g.declarations front) = [] :=
      g.findings_declarations_eq_nil_iff.mpr h.before
    refine ⟨?_, ?_, ?_, hent⟩
    · rw [hcov.accounts.diagnostics, hent, findings_declarations_concat, hfront, List.nil_append]
    · rw [hcov.accounts.examined, hent]
    · rw [hcov.accounts.components, hent]
  · intro h
    rw [diagnostics_traverse_eq_nil_iff]
    by_contra hne
    obtain ⟨front, k, horder, hfaulty, hbefore⟩ := g.exists_first_faulty hne
    exact h front k ⟨horder, hfaulty, hbefore⟩

end Catalog

/-- The second of two supertypes is never entered, since two of three methods of what the first one
extends are faulty: one returns nothing, one disagrees with the root. -/
def Graph.flawed : Graph where
  interfaces := [
    { qualifiedName := "f::Root", simpleName := "Root", supertypes := [1, 3],
      methods := [{ name := "id", returnType := ⟨"int"⟩, site := .method "f::Root" "id" }],
      site := .interface "f::Root" },
    { qualifiedName := "f::First", simpleName := "First", supertypes := [2],
      site := .interface "f::First" },
    { qualifiedName := "f::Flawed", simpleName := "Flawed",
      methods := [
        { name := "run", returnType := .void, site := .method "f::Flawed" "run" },
        { name := "tag", returnType := ⟨"String"⟩, site := .method "f::Flawed" "tag" },
        { name := "id", returnType := ⟨"String"⟩, site := .method "f::Flawed" "id" }],
      site := .interface "f::Flawed" },
    { qualifiedName := "f::Second", simpleName := "Second",
      methods := [{ name := "go", returnType := .void, site := .method "f::Second" "go" }],
      site := .interface "f::Second" }]

namespace Catalog

theorem traverse_flawed :
    Graph.flawed.catalog.FirstFaulty .reject 0 [0, 1] 2 ∧
      (Graph.flawed.catalog.traverse .reject 0 ()).diagnostics =
        [⟨.signature "Flawed" "run", .method "f::Flawed" "run"⟩,
          ⟨.conflict "id" "int" "Root" "String" "Flawed", .method "f::Flawed" "id"⟩] ∧
      (Graph.flawed.catalog.traverse .reject 0 ()).entered = [0, 1, 2] := by
  have hfirst : Graph.flawed.catalog.FirstFaulty .reject 0 [0, 1] 2 := {
    inOrder := by
      have hent : (Graph.flawed.catalog.traverse .reject 0 ()).entered = [0, 1, 2] := by decide
      rw [List.cons_append, List.cons_append, List.nil_append, ← hent]
      exact (Graph.flawed.catalog.covers_traverse .reject 0).1
    faulty := by decide
    before := Graph.flawed.catalog.findings_declarations_eq_nil_iff.mp (by decide) }
  have h := (Graph.flawed.catalog.traverse_firstFaulty .reject 0).1 [0, 1] 2 hfirst
  refine ⟨hfirst, ?_, h.2.2.2⟩
  rw [h.1]
  decide

end Catalog

end InterfaceRecord
