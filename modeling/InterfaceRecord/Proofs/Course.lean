/-
  The course of a traversal. It follows the pre-order and gathers what the declarations on the way
  come to (`covers_traverse`). If nothing is wrong it follows it in full, and so gets to whatever
  can be reached (`mem_entered_iff_reaches`).
-/
import InterfaceRecord.Graph
import InterfaceRecord.Proofs.Account
import InterfaceRecord.Proofs.Reach
import InterfaceRecord.Proofs.Sweep

namespace InterfaceRecord

namespace Catalog

open Traversal

variable {I M T S : Type} (g : Catalog I M T S Unit)

/-! ## What was covered -/

/-- The traversal has entered the interfaces `is` in this order and nothing else, has examined all
they declare, and has found nothing before the last of them. -/
structure Covers (policy : ConflictPolicy) (is : List I) (w : Traversal I M T S Unit) :
    Prop where
  visited : w.visited = is.map g.qualifiedName
  entered : w.entered = is
  accounts : g.Accounts policy (g.declarations is) w
  clean : ∀ front, front <+: is → front ≠ is → g.findings policy (g.declarations front) = []

theorem covers_start (policy : ConflictPolicy) :
    g.Covers policy [] ({ void := () } : Traversal I M T S Unit) where
  visited := rfl
  entered := rfl
  accounts := g.accounts_start policy
  clean := fun _ h hne => absurd (List.prefix_nil.mp h) hne

variable {g} {policy : ConflictPolicy}

theorem Covers.failed_eq_false_iff {is : List I} {w : Traversal I M T S Unit}
    (h : g.Covers policy is w) :
    w.failed = false ↔ g.findings policy (g.declarations is) = [] := by
  rw [Traversal.failed_eq_false_iff, h.accounts.diagnostics]

/-- Steps that neither enter an interface nor examine a method change nothing. -/
theorem Covers.note {is : List I} {w : Traversal I M T S Unit} (h : g.Covers policy is w)
    {s : Step I M} (he : s.entry? = none) (hm : s.method? = none) :
    g.Covers policy is (w.note s) where
  visited := h.visited
  entered := by rw [entered_note, he, h.entered]; exact List.append_nil is
  accounts := {
    used := h.accounts.used
    components := h.accounts.components
    diagnostics := h.accounts.diagnostics
    examined := by rw [examined_note, hm, h.accounts.examined]; exact List.append_nil _ }
  clean := h.clean

/-- An interface is visited only while nothing is wrong. -/
theorem Covers.visit {is : List I} {w : Traversal I M T S Unit} (h : g.Covers policy is w)
    (hf : w.failed = false) (i : I) : g.Covers policy (is ++ [i]) (g.visit policy i w) where
  visited := by rw [visited_visit, h.visited, List.map_append, List.map_singleton]
  entered := by rw [entered_visit, h.entered]
  accounts := by
    have henter : g.Accounts policy (g.declarations is) (w.enter i (g.qualifiedName i)) := {
      used := h.accounts.used
      components := h.accounts.components
      diagnostics := h.accounts.diagnostics
      examined := (examined_enter w i _).trans h.accounts.examined }
    rw [declarations_append, declarations_singleton]
    exact g.accounts_examineAll henter i (g.methods i)
  clean := by
    intro front hfront hne
    rcases List.prefix_concat_iff.mp hfront with heq | hfront
    · exact absurd heq hne
    · by_cases heq : front = is
      · rw [heq]
        exact h.failed_eq_false_iff.mp hf
      · exact h.clean front hfront heq

variable (g)

/-- What the loop covers is a part of the pre-order from its start on, and all of it if nothing
went wrong. -/
theorem covers_sweep (todo is : List I) {w : Traversal I M T S Unit}
    (h : g.Covers policy is w) :
    ∃ is', is' <+: g.preorderFrom todo is ∧ g.Covers policy is' (g.sweep policy todo w) ∧
      ((g.sweep policy todo w).failed = false → is' = g.preorderFrom todo is) := by
  -- After a failure the loop stands still.
  have hstop (todo is : List I) {w : Traversal I M T S Unit} (h : g.Covers policy is w)
      (hf : w.failed = true) :
      ∃ is', is' <+: g.preorderFrom todo is ∧ g.Covers policy is' (g.sweep policy todo w) ∧
        ((g.sweep policy todo w).failed = false → is' = g.preorderFrom todo is) := by
    rw [sweep_of_failed g policy _ hf]
    exact ⟨is, g.prefix_preorderFrom todo is, h,
      fun hf' => absurd (hf'.symm.trans hf) Bool.false_ne_true⟩
  induction todo, is using preorderFrom.induct g generalizing w with
  | case1 is =>
    rw [preorderFrom_nil, sweep_nil]
    exact ⟨is, List.prefix_refl is, h, fun _ => rfl⟩
  | case2 i todo is hi ih =>
    cases hf : w.failed with
    | true => exact hstop (i :: todo) is h hf
    | false =>
      have hv : g.qualifiedName i ∈ w.visited := by rwa [h.visited]
      rw [sweep_cons_of_mem g _ hf hv, preorderFrom_cons_of_mem g _ hi]
      exact ih (h.note rfl rfl)
  | case3 i todo is hi ih =>
    cases hf : w.failed with
    | true => exact hstop (i :: todo) is h hf
    | false =>
      have hv : g.qualifiedName i ∉ w.visited := by rwa [h.visited]
      have hcov := h.visit hf i
      rw [sweep_cons_of_not_mem g _ hf hv hcov.accounts.hasInternal,
        preorderFrom_cons_of_not_mem g _ hi]
      exact ih (hcov.note rfl rfl)

/-- A traversal covers a part of the pre-order from its root, and all of it if nothing went
wrong. -/
theorem covers_traverse (policy : ConflictPolicy) (root : I) :
    (g.traverse policy root ()).entered <+: g.preorder root ∧
      g.Covers policy (g.traverse policy root ()).entered (g.traverse policy root ()) ∧
      ((g.traverse policy root ()).failed = false →
        (g.traverse policy root ()).entered = g.preorder root) := by
  rw [traverse_eq_sweep]
  obtain ⟨is, hpre, hcov, hall⟩ := g.covers_sweep [root] [] (g.covers_start policy)
  rw [hcov.entered]
  exact ⟨hpre, hcov, hall⟩

theorem entered_traverse_of_clean {root : I}
    (h : (g.traverse policy root ()).diagnostics = []) :
    (g.traverse policy root ()).entered = g.preorder root :=
  (g.covers_traverse policy root).2.2 (Traversal.failed_eq_false_iff.mpr h)

/-- Where nothing is wrong, nothing is wrong up to any point. -/
theorem findings_eq_nil_of_prefix {front is : List I} (hp : front <+: is)
    (h : g.findings policy (g.declarations is) = []) :
    g.findings policy (g.declarations front) = [] := by
  have hfindings := g.findings_prefix policy (g.declarations_prefix hp)
  rw [h] at hfindings
  exact List.prefix_nil.mp hfindings

/-- A traversal finds nothing exactly if there is nothing wrong all along the pre-order. -/
theorem diagnostics_traverse_eq_nil_iff {root : I} :
    (g.traverse policy root ()).diagnostics = [] ↔
      g.findings policy (g.declarations (g.preorder root)) = [] := by
  obtain ⟨hpre, hcov, hall⟩ := g.covers_traverse policy root
  constructor
  · intro h
    rw [← hall (Traversal.failed_eq_false_iff.mpr h), ← hcov.accounts.diagnostics, h]
  · intro h
    rw [hcov.accounts.diagnostics, g.findings_eq_nil_of_prefix hpre h]

theorem components_traverse_of_clean {root : I}
    (h : (g.traverse policy root ()).diagnostics = []) :
    (g.traverse policy root ()).components =
      (g.kept (g.declarations (g.preorder root))).map g.component := by
  rw [(g.covers_traverse policy root).2.1.accounts.components, g.entered_traverse_of_clean h]

/-- Where qualified names tell apart what can be reached and nothing is wrong, the interfaces whose
methods a traversal examines are those that can be reached, each of them once. -/
theorem mem_entered_iff_reaches (policy : ConflictPolicy) (root : I)
    (hd : g.DistinctNames root) (hclean : (g.traverse policy root ()).diagnostics = []) :
    (∀ i, i ∈ (g.traverse policy root ()).entered ↔ g.Reaches root i) ∧
      (g.traverse policy root ()).entered.Nodup ∧
      (g.traverse policy root ()).examined =
        g.declarations (g.traverse policy root ()).entered := by
  refine ⟨fun i => ?_, ?_, (g.covers_traverse policy root).2.1.accounts.examined⟩
  · rw [g.entered_traverse_of_clean hclean, g.mem_preorder_iff hd]
  · rw [g.entered_traverse_of_clean hclean]
    exact g.nodup_preorder root

end Catalog

/-- A diamond whose bottom leads back to its top, with an interface that extends itself and an
edge that is there twice. -/
def Graph.knot : Graph where
  interfaces := [
    { qualifiedName := "k::Top", simpleName := "Top", supertypes := [1, 2, 1],
      methods := [{ name := "id", returnType := ⟨"int"⟩, site := .method "k::Top" "id" }],
      site := .interface "k::Top" },
    { qualifiedName := "k::Left", simpleName := "Left", supertypes := [3],
      methods := [{ name := "tag", returnType := ⟨"String"⟩, site := .method "k::Left" "tag" }],
      site := .interface "k::Left" },
    { qualifiedName := "k::Right", simpleName := "Right", supertypes := [2, 3],
      site := .interface "k::Right" },
    { qualifiedName := "k::Bottom", simpleName := "Bottom", supertypes := [0],
      methods := [{ name := "id", returnType := ⟨"int"⟩, site := .method "k::Bottom" "id" }],
      site := .interface "k::Bottom" }]

namespace Catalog

theorem mem_entered_knot :
    Graph.knot.catalog.DistinctNames 0 ∧
      (Graph.knot.catalog.traverse .reject 0 ()).diagnostics = [] ∧
      (∀ i, i ∈ (Graph.knot.catalog.traverse .reject 0 ()).entered ↔
        Graph.knot.catalog.Reaches 0 i) ∧
      (Graph.knot.catalog.traverse .reject 0 ()).entered.Nodup ∧
      (Graph.knot.catalog.traverse .reject 0 ()).examined =
        Graph.knot.catalog.declarations (Graph.knot.catalog.traverse .reject 0 ()).entered := by
  have hd : Graph.knot.catalog.DistinctNames 0 :=
    Table.distinctNames (by decide) (by decide) (by decide)
  have hclean : (Graph.knot.catalog.traverse .reject 0 ()).diagnostics = [] := by decide
  exact ⟨hd, hclean, Graph.knot.catalog.mem_entered_iff_reaches .reject 0 hd hclean⟩

end Catalog

end InterfaceRecord
