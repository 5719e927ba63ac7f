/-
  One more supertype of the root, behind all others. Wherever the walk comes back to the root, its
  name was entered, so only at the very end is there anything new to follow: the pre-order goes on
  where it ended before (`LastEdge.preorder`). A traversal gets at least as far as it did
  (`Relinked.entered_prefix`), and so what it finds only grows at the end (`traverse_extend`).
-/
import InterfaceRecord.Proofs.Relinking

namespace InterfaceRecord

namespace Catalog

section

variable {I M T S V : Type} {g g' : Catalog I M T S V} {root p : I}

/-! ## The pre-order -/

/-- `g'` is `g` with `p` as one more direct supertype of `root`, behind the others. -/
structure LastEdge (g g' : Catalog I M T S V) (root p : I) : Prop where
  relinked : g.Relinked g'
  here : g'.supertypes root = g.supertypes root ++ [p]
  elsewhere : ∀ i, i ≠ root → g'.supertypes i = g.supertypes i

/-- Once the name of the root is entered, nobody asks for its supertypes any more. -/
theorem LastEdge.preorderFrom (h : g.LastEdge g' root p) {todo entered : List I}
    (hroot : g.qualifiedName root ∈ entered.map g.qualifiedName) :
    g'.preorderFrom todo entered = g.preorderFrom todo entered := by
  have hname := h.relinked.qualifiedName
  induction todo, entered using preorderFrom.induct g with
  | case1 entered => rw [preorderFrom_nil, preorderFrom_nil]
  | case2 i todo entered hi ih =>
    rw [preorderFrom_cons_of_mem g _ hi, preorderFrom_cons_of_mem g' _ (by rwa [hname])]
    exact ih hroot
  | case3 i todo entered hi ih =>
    have hne : i ≠ root := by
      rintro rfl
      exact hi hroot
    have hroot' : g.qualifiedName root ∈ (entered ++ [i]).map g.qualifiedName := by
      rw [List.map_append]
      exact List.mem_append_left _ hroot
    rw [preorderFrom_cons_of_not_mem g _ hi, preorderFrom_cons_of_not_mem g' _ (by rwa [hname]),
      h.elsewhere i hne]
    exact ih hroot'

/-- What the new supertype leads to comes behind all that was in the pre-order. -/
theorem LastEdge.preorder (h : g.LastEdge g' root p) :
    g'.preorder root = g'.preorderFrom [p] (g.preorder root) := by
  have hroot : g.qualifiedName root ∈ [root].map g.qualifiedName := List.mem_singleton_self _
  calc g'.preorder root = g'.preorderFrom (g.supertypes root ++ [p]) [root] := by
        rw [preorder_eq, h.here]
    _ = g'.preorderFrom [p] (g'.preorderFrom (g.supertypes root) [root]) :=
        g'.preorderFrom_append _ _ _
    _ = g'.preorderFrom [p] (g.preorder root) := by
        rw [h.preorderFrom hroot, ← preorder_eq]

theorem LastEdge.preorder_prefix (h : g.LastEdge g' root p) :
    g.preorder root <+: g'.preorder root := by
  rw [h.preorder]
  exact g'.prefix_preorderFrom [p] _

end

/-! ## Traversals -/

section

variable {I M T S : Type} {g g' : Catalog I M T S Unit} {root : I}

/-- Along a pre-order that goes on, a traversal gets at least as far, and no further if it failed
before. -/
theorem Relinked.entered_prefix (h : g.Relinked g') (horder : g.preorder root <+: g'.preorder root)
    (policy : ConflictPolicy) :
    (g.traverse policy root ()).entered <+: (g'.traverse policy root ()).entered ∧
      ((g.traverse policy root ()).diagnostics ≠ [] →
        (g'.traverse policy root ()).entered = (g.traverse policy root ()).entered) := by
  obtain ⟨hpre, hcov, -⟩ := g.covers_traverse policy root
  obtain ⟨hpre', hcov', hall'⟩ := g'.covers_traverse policy root
  rw [hcov.accounts.diagnostics]
  generalize (g.traverse policy root ()).entered = is at *
  generalize (g'.traverse policy root ()).entered = is' at *
  rcases List.prefix_or_prefix_of_prefix (hpre.trans horder) hpre' with hle | hle
  · refine ⟨hle, fun hfaulty => ?_⟩
    by_contra hne
    have hclean := hcov'.clean is hle (Ne.symm hne)
    rw [h.findings] at hclean
    exact hfaulty hclean
  · -- a traversal that has found nothing wrong goes on to the end of its pre-order
    have heq : is' = is := by
      by_contra hne
      have hclean := hcov.clean is' hle hne
      rw [← h.findings, ← hcov'.failed_eq_false_iff] at hclean
      have hge : is <+: is' := hall' hclean ▸ hpre.trans horder
      exact hne (hle.eq_of_length_le hge.length_le)
    rw [heq]
    exact ⟨List.prefix_refl is, fun _ => rfl⟩

theorem Relinked.traverse_prefix (h : g.Relinked g')
    (horder : g.preorder root <+: g'.preorder root) (policy : ConflictPolicy) :
    (g.traverse policy root ()).components <+: (g'.traverse policy root ()).components ∧
      (g.traverse policy root ()).diagnostics <+: (g'.traverse policy root ()).diagnostics ∧
      ((g.traverse policy root ()).diagnostics ≠ [] →
        (g'.traverse policy root ()).components = (g.traverse policy root ()).components ∧
          (g'.traverse policy root ()).diagnostics = (g.traverse policy root ()).diagnostics) := by
  obtain ⟨hentered, hsame⟩ := h.entered_prefix horder policy
  have hcov := (g.covers_traverse policy root).2.1.accounts
  have hcov' := (g'.covers_traverse policy root).2.1.accounts
  have hcomponents' := hcov'.components.trans (h.components _)
  have hdiagnostics' := hcov'.diagnostics.trans (h.findings policy _)
  refine ⟨?_, ?_, fun hfaulty => ?_⟩
  · rw [hcov.components, hcomponents']
    exact (g.kept_prefix (g.declarations_prefix hentered)).map _
  · rw [hcov.diagnostics, hdiagnostics']
    exact g.findings_prefix policy (g.declarations_prefix hentered)
  · rw [hcomponents', hdiagnostics', hsame hfaulty, ← hcov.components, ← hcov.diagnostics]
    exact ⟨rfl, rfl⟩

end

end Catalog

/-! ## Graphs -/

namespace Graph

theorem extend_eq_extendAt (g : Graph) {x : Nat} (hx : x < g.interfaces.length) (p : Nat) :
    g.extend x p = g.extendAt x g.interfaces[x].supertypes.length p := by
  have hmodify : (g.extend x p).interfaces =
      (g.extendAt x g.interfaces[x].supertypes.length p).interfaces := by
    apply List.ext_getElem?
    intro i
    by_cases hi : x = i
    · subst hi
      simp [extend, extendAt, hx]
    · simp [extend, extendAt, hi]
  simp only [extend, extendAt] at hmodify ⊢
  rw [hmodify]

theorem lastEdge_extend (g : Graph) {x : Nat} (hx : x < g.interfaces.length) (p : Nat) :
    g.catalog.LastEdge (g.extend x p).catalog x p := by
  have hedge := g.extraEdge_extendAt hx g.interfaces[x].supertypes.length p
  rw [← extend_eq_extendAt] at hedge
  refine ⟨hedge.relinked, ?_, hedge.elsewhere⟩
  simp [catalog, Table.catalog_supertypes, extend, hx]

/-- A new supertype of the root only adds at the end. With `p` as its last direct supertype, a
traversal from `root` finds the components it found, in the same places and with the same types,
origins and first values, and then possibly more; and so it is with what it reports. If it had
reported anything, it finds and reports the same as before. -/
theorem traverse_extend (g : Graph) (policy : ConflictPolicy) (root p : Nat) :
    (g.catalog.traverse policy root ()).components <+:
        ((g.extend root p).catalog.traverse policy root ()).components ∧
      (g.catalog.traverse policy root ()).diagnostics <+:
        ((g.extend root p).catalog.traverse policy root ()).diagnostics ∧
      ((g.catalog.traverse policy root ()).diagnostics ≠ [] →
        ((g.extend root p).catalog.traverse policy root ()).components =
            (g.catalog.traverse policy root ()).components ∧
          ((g.extend root p).catalog.traverse policy root ()).diagnostics =
            (g.catalog.traverse policy root ()).diagnostics) := by
  by_cases hroot : root < g.interfaces.length
  · have hedge := g.lastEdge_extend hroot p
    exact hedge.relinked.traverse_prefix hedge.preorder_prefix policy
  · -- there is no such interface, so nothing was changed
    have hsame : g.extend root p = g := by
      rw [extend, List.modify_eq_self (Nat.le_of_not_lt hroot)]
    rw [hsame]
    exact ⟨List.prefix_refl _, List.prefix_refl _, fun _ => ⟨rfl, rfl⟩⟩

/-- The root of a cycle gets a supertype with a component of its own. -/
example :
    let g : Graph := (knot.declare "k::More").1
    let g := (g.addAccessor 4 "size" ⟨"long"⟩).1
    (g.catalog.traverse .reject 0 ()).components.map (·.name) = ["id", "tag"] ∧
      ((g.extend 0 4).catalog.traverse .reject 0 ()).components.map (·.name) =
        ["id", "tag", "size"] := by decide +kernel

end Graph

end InterfaceRecord
