/-
  Multiple inheritance. What a traversal comes to is what the methods of its root come to, merged
  with what a traversal of each direct supertype comes to on its own (`traverse_eq_foldl_merge`).
  The pre-order is merged in the same way (`Gathered.preorderFrom_eq_merge`): what an earlier
  supertype leads to is closed under supertypes, so a later one only misses what was entered.
-/
import InterfaceRecord.Proofs.Course

namespace InterfaceRecord

namespace Catalog

section

variable {I M T S V : Type} (g : Catalog I M T S V)

/-! ## Supertypes in turn -/

/-- Entered are interfaces that `root` reaches, and with each of them but `root` itself its direct
supertypes, up to names. -/
structure Gathered (root : I) (is : List I) : Prop where
  reached : ∀ i ∈ is, g.Reaches root i
  closed : ∀ i ∈ is, i ≠ root → ∀ p ∈ g.supertypes i,
    g.qualifiedName p ∈ is.map g.qualifiedName

theorem gathered_root (root : I) : g.Gathered root [root] where
  reached := by
    intro i hi
    rw [List.mem_singleton.mp hi]
    exact g.reaches_self root
  closed := fun i hi hne => absurd (List.mem_singleton.mp hi) hne

variable {g} {root p : I} {is : List I}

/-- One direct supertype more. -/
theorem Gathered.preorderFrom (h : g.Gathered root is) (hp : p ∈ g.supertypes root) :
    g.Gathered root (g.preorderFrom [p] is) where
  reached := by
    intro i hi
    rcases g.mem_or_reaches_of_mem_preorderFrom hi with hi | ⟨j, hj, hji⟩
    · exact h.reached i hi
    · rw [List.mem_singleton.mp hj] at hji
      exact hji.of_supertype hp
  closed := g.name_supertype_mem_preorderFrom
    fun i hi hne q hq => Or.inl (h.closed i hi hne q hq)

/-- What has the name of something entered is entered. -/
theorem Gathered.mem_of_name_mem (h : g.Gathered root is) (hd : g.DistinctNames root) {i : I}
    (hi : g.Reaches root i) (hn : g.qualifiedName i ∈ is.map g.qualifiedName) : i ∈ is := by
  obtain ⟨j, hj, hji⟩ := List.mem_map.mp hn
  rwa [← hd j i (h.reached j hj) hi hji]

/-- A direct supertype adds what it leads to on its own and was not entered. -/
theorem Gathered.preorderFrom_eq_merge (h : g.Gathered root is) (hd : g.DistinctNames root)
    (hp : p ∈ g.supertypes root) (hr : ¬ g.Reaches p root) :
    g.preorderFrom [p] is = merge g.qualifiedName is (g.preorder p) := by
  rw [preorder, ← g.preorderFrom_merge (R := g.Reaches p) []]
  · rw [merge_nil]
  · exact fun i hi q hq => hi.supertype hq
  · intro i hi hn
    -- The root is the one interface whose supertypes may be missing.
    have hne : i ≠ root := fun he => hr (he ▸ hi)
    exact h.closed i (h.mem_of_name_mem hd (hi.of_supertype hp) hn) hne
  · intro i hi
    rw [List.mem_singleton.mp hi]
    exact g.reaches_self p

end

variable {I M T S : Type} (g : Catalog I M T S Unit)

/-! ## Declarations in turn -/

/-- What interfaces that were entered declare changes nothing when it comes again. -/
theorem kept_declarations_merge {is js : List I}
    (h : ∀ j ∈ js, g.qualifiedName j ∈ is.map g.qualifiedName → j ∈ is) :
    g.kept (g.declarations (merge g.qualifiedName is js)) =
      merge (g.methodName ·.2) (g.kept (g.declarations is)) (g.kept (g.declarations js)) := by
  rw [← kept_append, ← declarations_append]
  induction js using List.reverseRecOn with
  | nil => rw [merge_nil, List.append_nil]
  | append_singleton js j ih =>
    have ih := ih fun i hi => h i (List.mem_append_left _ hi)
    rw [← List.append_assoc, g.declarations_append (is ++ js)]
    by_cases hj : g.qualifiedName j ∈ is.map g.qualifiedName
    · have hmem : j ∈ is := h j (List.mem_append_right _ (List.mem_singleton_self j)) hj
      rw [merge_concat_of_mem hj, ih, kept_append_of_subset]
      intro d hd
      rw [mem_declarations, List.mem_singleton] at hd
      rw [mem_declarations, hd.1]
      exact ⟨List.mem_append_left _ hmem, hd.1 ▸ hd.2⟩
    · rw [merge_concat_of_not_mem hj, declarations_append, kept_append, ih, ← kept_append]

/-- Where the first candidate of a name counts, declarations that are without fault on their own
are so together. -/
theorem Faultless.declarations_merge {is js : List I}
    (his : g.Faultless .firstWins (g.declarations is))
    (hjs : g.Faultless .firstWins (g.declarations js))
    (h : ∀ j ∈ js, g.qualifiedName j ∈ is.map g.qualifiedName → j ∈ is) :
    g.Faultless .firstWins (g.declarations (merge g.qualifiedName is js)) where
  unrejected := by
    intro d hd
    rw [mem_declarations] at hd
    rcases mem_merge.mp hd.1 with hi | ⟨hj, -⟩
    · exact his.unrejected d (g.mem_declarations.mpr ⟨hi, hd.2⟩)
    · exact hjs.unrejected d (g.mem_declarations.mpr ⟨hj, hd.2⟩)
  resolved := by
    intro d hd
    rw [kept_declarations_merge g h] at hd
    rcases mem_merge.mp hd with hd | ⟨hd, -⟩
    · exact his.resolved d hd
    · exact hjs.resolved d hd
  agreeing := fun hp => by cases hp

variable {g} {root : I}

/-- The direct supertypes in turn, each of which a traversal on its own finds nothing wrong with:
nothing is wrong with them together, and their components are merged. -/
theorem Gathered.foldl_merge {is : List I} (h : g.Gathered root is) (hd : g.DistinctNames root)
    (hf : g.Faultless .firstWins (g.declarations is)) (ps : List I)
    (hps : ∀ p ∈ ps, p ∈ g.supertypes root ∧ ¬ g.Reaches p root ∧
      (g.traverse .firstWins p ()).diagnostics = []) :
    g.Faultless .firstWins (g.declarations (g.preorderFrom ps is)) ∧
      (g.kept (g.declarations (g.preorderFrom ps is))).map g.component =
        ps.foldl (fun cs p => merge Component.name cs (g.traverse .firstWins p ()).components)
          ((g.kept (g.declarations is)).map g.component) := by
  induction ps generalizing is with
  | nil => rw [preorderFrom_nil]; exact ⟨hf, rfl⟩
  | cons p ps ih =>
    obtain ⟨hp, hr, hclean⟩ := hps p List.mem_cons_self
    have hpf : g.Faultless .firstWins (g.declarations (g.preorder p)) :=
      g.findings_eq_nil_iff.mp (g.diagnostics_traverse_eq_nil_iff.mp hclean)
    have hsame : ∀ j ∈ g.preorder p, g.qualifiedName j ∈ is.map g.qualifiedName → j ∈ is :=
      fun j hj => h.mem_of_name_mem hd ((g.reaches_of_mem_preorder hj).of_supertype hp)
    have heq := h.preorderFrom_eq_merge hd hp hr
    have hkept : (g.kept (g.declarations (g.preorderFrom [p] is))).map g.component =
        merge Component.name ((g.kept (g.declarations is)).map g.component)
          (g.traverse .firstWins p ()).components := by
      rw [heq, kept_declarations_merge g hsame, g.components_traverse_of_clean hclean]
      exact map_merge Component.name g.component _ _
    have hf' : g.Faultless .firstWins (g.declarations (g.preorderFrom [p] is)) := by
      rw [heq]
      exact Faultless.declarations_merge g hf hpf hsame
    rw [preorderFrom_cons, List.foldl_cons, ← hkept]
    exact ih (h.preorderFrom hp) hf' fun q hq => hps q (List.mem_cons_of_mem p hq)

variable (g)

/-- Multiple inheritance merges. Where qualified names are distinct, the first candidate of a name
counts, no direct supertype of the root leads back to it, and nothing is wrong with the root's own
methods nor with any direct supertype on its own, nothing is wrong with the root. Its components
are its own ones, then those of the direct supertypes in turn, each as far as its name is new. -/
theorem traverse_eq_foldl_merge (root : I) (hd : g.DistinctNames root)
    (hr : ∀ p ∈ g.supertypes root, ¬ g.Reaches p root)
    (hown : (g.visit .firstWins root { void := () }).diagnostics = [])
    (hclean : ∀ p ∈ g.supertypes root, (g.traverse .firstWins p ()).diagnostics = []) :
    (g.traverse .firstWins root ()).diagnostics = [] ∧
      (g.traverse .firstWins root ()).components =
        (g.supertypes root).foldl
          (fun cs p => merge Component.name cs (g.traverse .firstWins p ()).components)
          (g.visit .firstWins root { void := () }).components := by
  have hvisit := (g.covers_start .firstWins).visit rfl root
  rw [List.nil_append] at hvisit
  have hf : g.Faultless .firstWins (g.declarations [root]) := by
    rw [← findings_eq_nil_iff, ← hvisit.accounts.diagnostics]
    exact hown
  obtain ⟨hroot, hmerge⟩ := (g.gathered_root root).foldl_merge hd hf (g.supertypes root)
    fun p hp => ⟨hp, hr p hp, hclean p hp⟩
  rw [← preorder_eq] at hroot hmerge
  have hdiag := g.diagnostics_traverse_eq_nil_iff.mpr (g.findings_eq_nil_iff.mpr hroot)
  rw [hvisit.accounts.components, ← hmerge]
  exact ⟨hdiag, g.components_traverse_of_clean hdiag⟩

end Catalog

/-- The root extends one interface twice and another one that shares an ancestor with it. The
ancestor leads back to the first of the two, the other one to itself. -/
def Graph.heirs : Graph where
  interfaces := [
    { qualifiedName := "h::Root", simpleName := "Root", supertypes := [1, 2, 1],
      methods := [{ name := "id", returnType := ⟨"int"⟩, site := .method "h::Root" "id" }],
      site := .interface "h::Root" },
    { qualifiedName := "h::Left", simpleName := "Left", supertypes := [3],
      methods := [{ name := "tag", returnType := ⟨"String"⟩, site := .method "h::Left" "tag" }],
      site := .interface "h::Left" },
    { qualifiedName := "h::Right", simpleName := "Right", supertypes := [3, 2],
      methods := [
        { name := "tag", returnType := ⟨"int"⟩, site := .method "h::Right" "tag" },
        { name := "size", returnType := ⟨"int"⟩, site := .method "h::Right" "size" }],
      site := .interface "h::Right" },
    { qualifiedName := "h::Shared", simpleName := "Shared", supertypes := [1],
      methods := [
        { name := "id", returnType := ⟨"String"⟩, site := .method "h::Shared" "id" },
        { name := "size", returnType := ⟨"long"⟩, site := .method "h::Shared" "size" }],
      site := .interface "h::Shared" }]

namespace Catalog

theorem traverse_heirs :
    Graph.heirs.catalog.DistinctNames 0 ∧
      (∀ p ∈ Graph.heirs.catalog.supertypes 0, ¬ Graph.heirs.catalog.Reaches p 0) ∧
      (Graph.heirs.catalog.visit .firstWins 0 { void := () }).diagnostics = [] ∧
      (∀ p ∈ Graph.heirs.catalog.supertypes 0,
        (Graph.heirs.catalog.traverse .firstWins p ()).diagnostics = []) ∧
      (Graph.heirs.catalog.traverse .firstWins 0 ()).diagnostics = [] ∧
      (Graph.heirs.catalog.traverse .firstWins 0 ()).components.map (·.origin) =
        [⟨0, 0⟩, ⟨1, 0⟩, ⟨3, 1⟩] := by
  have hd : Graph.heirs.catalog.DistinctNames 0 :=
    Table.distinctNames (by decide) (by decide) (by decide)
  have hr : ∀ p ∈ Graph.heirs.catalog.supertypes 0, ¬ Graph.heirs.catalog.Reaches p 0 := by
    intro p hp h
    have hclosed : ∀ i, i ∈ [1, 2, 3] → ∀ q ∈ Graph.heirs.catalog.supertypes i,
        q ∈ [1, 2, 3] := by
      decide
    have hp' : p ∈ [1, 2, 3] := (by decide : [1, 2, 1] ⊆ [1, 2, 3]) hp
    exact absurd (h.of_closed hclosed hp') (by decide)
  have hown : (Graph.heirs.catalog.visit .firstWins 0 { void := () }).diagnostics = [] := by
    decide
  have hclean : ∀ p ∈ Graph.heirs.catalog.supertypes 0,
      (Graph.heirs.catalog.traverse .firstWins p ()).diagnostics = [] := by
    decide
  have h := Graph.heirs.catalog.traverse_eq_foldl_merge 0 hd hr hown hclean
  refine ⟨hd, hr, hown, hclean, h.1, ?_⟩
  rw [h.2]
  decide

end Catalog

end InterfaceRecord
