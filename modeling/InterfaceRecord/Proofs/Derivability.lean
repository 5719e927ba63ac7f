/-
  When an interface has a record, and which. A derivation is decided by what its traversal comes to
  (`record_derive_eq_some_iff`), and that by the declarations along the pre-order
  (`record_derive_iff_faultless`).
-/
import InterfaceRecord.Derivation
import InterfaceRecord.Proofs.Course

namespace InterfaceRecord

namespace Catalog

section

variable {I M T S V : Type} (g : Catalog I M T S V)

/-- There is a record exactly if the traversal finds components and nothing wrong. It has these
components. -/
theorem record_derive_eq_some_iff {settings : Settings} {scheme : NameScheme} {root : I} {v : V}
    {r : Record M T} :
    (g.derive settings scheme root v).record = some r ↔
      (g.traverse settings.conflicts root v).diagnostics = [] ∧
      (g.traverse settings.conflicts root v).components ≠ [] ∧
      r = g.recordOf settings scheme root (g.traverse settings.conflicts root v).components := by
  rw [derive]
  dsimp only
  cases hf : (g.traverse settings.conflicts root v).failed with
  | true =>
    rw [if_pos rfl]
    refine ⟨fun h => absurd h.symm (Option.some_ne_none r), fun h => ?_⟩
    exact absurd (hf.symm.trans (Traversal.failed_eq_false_iff.mpr h.1)).symm Bool.false_ne_true
  | false =>
    rw [if_neg Bool.false_ne_true]
    have hd := Traversal.failed_eq_false_iff.mp hf
    split
    · rename_i hc
      exact ⟨fun h => absurd h.symm (Option.some_ne_none r),
        fun h => absurd (List.isEmpty_iff.mp hc) h.2.1⟩
    · rename_i hc
      constructor
      · intro h
        exact ⟨hd, fun h' => hc (List.isEmpty_iff.mpr h'), (Option.some.inj h).symm⟩
      · rintro ⟨-, -, rfl⟩
        rfl

/-- A derivation reports what its traversal finds, and that there are no components where the
traversal finds neither these nor anything else. -/
theorem diagnostics_derive (settings : Settings) (scheme : NameScheme) (root : I) (v : V) :
    (g.derive settings scheme root v).diagnostics =
      (g.traverse settings.conflicts root v).diagnostics ++
        if (g.traverse settings.conflicts root v).diagnostics = [] ∧
            (g.traverse settings.conflicts root v).components = [] then
          [⟨.noComponents, g.interfaceSite root⟩]
        else [] := by
  rw [derive]
  dsimp only
  cases hf : (g.traverse settings.conflicts root v).failed with
  | true =>
    have hd : (g.traverse settings.conflicts root v).diagnostics ≠ [] := fun hd =>
      Bool.false_ne_true ((Traversal.failed_eq_false_iff.mpr hd).symm.trans hf)
    rw [if_pos rfl, if_neg fun h => hd h.1, List.append_nil]
  | false =>
    have hd := Traversal.failed_eq_false_iff.mp hf
    rw [if_neg Bool.false_ne_true]
    split
    · rename_i hc
      rw [if_pos ⟨hd, List.isEmpty_iff.mp hc⟩, Diagnostics.add]
    · rename_i hc
      rw [if_neg fun h => hc (List.isEmpty_iff.mpr h.2), List.append_nil]

/-- There is a record exactly if nothing is reported. -/
theorem record_derive_eq_none_iff {settings : Settings} {scheme : NameScheme} {root : I} {v : V} :
    (g.derive settings scheme root v).record = none ↔
      (g.derive settings scheme root v).diagnostics ≠ [] := by
  rw [diagnostics_derive, Option.eq_none_iff_forall_ne_some]
  constructor
  · intro hnone hnil
    obtain ⟨hd, hc⟩ := List.append_eq_nil_iff.mp hnil
    have hne : (g.traverse settings.conflicts root v).components ≠ [] := by
      intro h
      rw [if_pos ⟨hd, h⟩] at hc
      cases hc
    exact hnone _ (g.record_derive_eq_some_iff.mpr ⟨hd, hne, rfl⟩)
  · intro hne r hr
    obtain ⟨hd, hc, -⟩ := g.record_derive_eq_some_iff.mp hr
    apply hne
    rw [hd, if_neg fun h => hc h.2, List.append_nil]

end

variable {I M T S : Type} (g : Catalog I M T S Unit)

/-- An interface has a record exactly if the methods along its pre-order are without fault and one
of them is a component candidate. The components of the record are then the first candidates of
their names. -/
theorem record_derive_iff_faultless (settings : Settings) (scheme : NameScheme) (root : I)
    (r : Record M T) :
    (g.derive settings scheme root ()).record = some r ↔
      (g.Faultless settings.conflicts (g.declarations (g.preorder root)) ∧
        g.accepted (g.declarations (g.preorder root)) ≠ []) ∧
      r = g.recordOf settings scheme root
        ((g.kept (g.declarations (g.preorder root))).map g.component) := by
  rw [record_derive_eq_some_iff]
  have hclean : (g.traverse settings.conflicts root ()).diagnostics = [] ↔ _ :=
    g.diagnostics_traverse_eq_nil_iff
  rw [findings_eq_nil_iff] at hclean
  have hsome {ds : List (I × M)} : (g.kept ds).map g.component ≠ [] ↔ g.accepted ds ≠ [] := by
    rw [ne_eq, List.map_eq_nil_iff, kept_eq_nil_iff]
  constructor
  · rintro ⟨hd, hc, hr⟩
    rw [g.components_traverse_of_clean hd] at hc hr
    exact ⟨⟨hclean.mp hd, hsome.mp hc⟩, hr⟩
  · rintro ⟨⟨hd, hc⟩, hr⟩
    rw [g.components_traverse_of_clean (hclean.mpr hd)]
    exact ⟨hclean.mpr hd, hsome.mpr hc, hr⟩

end Catalog

end InterfaceRecord
