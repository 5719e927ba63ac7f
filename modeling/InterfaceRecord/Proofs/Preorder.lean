/-
  The depth-first pre-order of an interface and its supertypes, as a loop over what is still to be
  entered. `preorderFrom_singleton`: it is the recursion "an interface, then each direct supertype
  in turn, unless its qualified name was entered before". What was entered stays a prefix, and no
  qualified name comes twice.
-/
import InterfaceRecord.Catalog
import Mathlib.Data.Finset.Card
import Mathlib.Data.List.Nodup

namespace InterfaceRecord

namespace Catalog

variable {I M T S V : Type} (g : Catalog I M T S V)

/-! ## The names that are left -/

/-- The names that can be met from `todo` and are not among those met before. -/
def unmet (todo : List I) (met : List String) : Finset String :=
  (todo.flatMap g.names).toFinset \ met.toFinset

theorem mem_unmet {todo : List I} {met : List String} {name : String} :
    name ∈ g.unmet todo met ↔ (∃ i ∈ todo, name ∈ g.names i) ∧ name ∉ met := by
  rw [unmet, Finset.mem_sdiff, List.mem_toFinset, List.mem_toFinset, List.mem_flatMap]

theorem unmet_mono {todo todo' : List I} {met met' : List String}
    (ht : ∀ i ∈ todo, ∃ j ∈ todo', g.names i ⊆ g.names j) (hm : met' ⊆ met) :
    g.unmet todo met ⊆ g.unmet todo' met' := by
  intro name h
  rw [mem_unmet] at h ⊢
  obtain ⟨⟨i, hi, hn⟩, hmet⟩ := h
  obtain ⟨j, hj, hij⟩ := ht i hi
  exact ⟨⟨j, hj, hij hn⟩, fun h' => hmet (hm h')⟩

theorem unmet_tail_subset (i : I) (todo : List I) (met : List String) :
    g.unmet todo met ⊆ g.unmet (i :: todo) met :=
  g.unmet_mono (fun j hj => ⟨j, List.mem_cons_of_mem i hj, List.Subset.refl _⟩)
    (List.Subset.refl _)

/-- Entering an interface leaves fewer names, though its supertypes are to be entered now. -/
theorem unmet_enter_card_lt {i : I} {met : List String} (todo : List I)
    (h : g.qualifiedName i ∉ met) :
    (g.unmet (g.supertypes i ++ todo) (met ++ [g.qualifiedName i])).card <
      (g.unmet (i :: todo) met).card := by
  apply Finset.card_lt_card
  rw [Finset.ssubset_iff_of_subset]
  · refine ⟨g.qualifiedName i, ?_, ?_⟩
    · rw [mem_unmet]
      exact ⟨⟨i, List.mem_cons_self, g.name_mem_names i⟩, h⟩
    · rw [mem_unmet]
      exact fun h' => h'.2 (List.mem_append_right met (List.mem_singleton_self _))
  · apply g.unmet_mono _ (List.subset_append_left met _)
    intro j hj
    rcases List.mem_append.mp hj with hj | hj
    · exact ⟨i, List.mem_cons_self, g.names_subset_names i j hj⟩
    · exact ⟨j, List.mem_cons_of_mem i hj, List.Subset.refl _⟩

/-! ## The order -/

/-- Adds to `entered` what is entered when the interfaces in `todo` are met in turn. An interface
of a new name goes to the end, and its direct supertypes come before the rest of `todo`. -/
def preorderFrom : List I → List I → List I
  | [], entered => entered
  | i :: todo, entered =>
    if g.qualifiedName i ∈ entered.map g.qualifiedName then preorderFrom todo entered
    else preorderFrom (g.supertypes i ++ todo) (entered ++ [i])
termination_by todo entered =>
  ((g.unmet todo (entered.map g.qualifiedName)).card, todo.length)
decreasing_by
  · rw [Prod.lex_def]
    have hle := Finset.card_le_card
      (g.unmet_tail_subset i todo (entered.map g.qualifiedName))
    simp only [List.length_cons]
    omega
  · rename_i h
    apply Prod.Lex.left
    rw [List.map_append, List.map_singleton]
    exact g.unmet_enter_card_lt todo h

/-- The interfaces from `root` on, depth first and in pre-order, one for each qualified name. -/
def preorder (root : I) : List I := g.preorderFrom [root] []

@[simp] theorem preorderFrom_nil (entered : List I) : g.preorderFrom [] entered = entered := by
  rw [preorderFrom]

theorem preorderFrom_cons_of_mem {i : I} {entered : List I} (todo : List I)
    (h : g.qualifiedName i ∈ entered.map g.qualifiedName) :
    g.preorderFrom (i :: todo) entered = g.preorderFrom todo entered := by
  rw [preorderFrom, if_pos h]

theorem preorderFrom_cons_of_not_mem {i : I} {entered : List I} (todo : List I)
    (h : g.qualifiedName i ∉ entered.map g.qualifiedName) :
    g.preorderFrom (i :: todo) entered =
      g.preorderFrom (g.supertypes i ++ todo) (entered ++ [i]) := by
  rw [preorderFrom, if_neg h]

theorem preorderFrom_append (front back entered : List I) :
    g.preorderFrom (front ++ back) entered =
      g.preorderFrom back (g.preorderFrom front entered) := by
  induction front, entered using preorderFrom.induct g with
  | case1 entered => rw [preorderFrom_nil, List.nil_append]
  | case2 i todo entered h ih =>
    rw [List.cons_append, preorderFrom_cons_of_mem g _ h, preorderFrom_cons_of_mem g _ h, ih]
  | case3 i todo entered h ih =>
    rw [List.cons_append, preorderFrom_cons_of_not_mem g _ h, preorderFrom_cons_of_not_mem g _ h,
      ← List.append_assoc, ih]

theorem preorderFrom_cons (i : I) (todo entered : List I) :
    g.preorderFrom (i :: todo) entered = g.preorderFrom todo (g.preorderFrom [i] entered) :=
  g.preorderFrom_append [i] todo entered

theorem preorderFrom_eq_foldl (todo entered : List I) :
    g.preorderFrom todo entered =
      todo.foldl (fun entered i => g.preorderFrom [i] entered) entered := by
  induction todo generalizing entered with
  | nil => rw [preorderFrom_nil, List.foldl_nil]
  | cons i todo ih => rw [preorderFrom_cons, ih, List.foldl_cons]

/-- The recursion behind the order: an interface of a name that was entered is passed over, any
other one is entered, and then each of its direct supertypes in turn. -/
theorem preorderFrom_singleton (i : I) (entered : List I) :
    g.preorderFrom [i] entered =
      if g.qualifiedName i ∈ entered.map g.qualifiedName then entered
      else (g.supertypes i).foldl (fun entered p => g.preorderFrom [p] entered)
        (entered ++ [i]) := by
  split
  · rename_i h
    rw [preorderFrom_cons_of_mem g _ h, preorderFrom_nil]
  · rename_i h
    rw [preorderFrom_cons_of_not_mem g _ h, List.append_nil, preorderFrom_eq_foldl]

/-- The root comes first, then what its direct supertypes lead to. -/
theorem preorder_eq (root : I) :
    g.preorder root = g.preorderFrom (g.supertypes root) [root] := by
  rw [preorder, preorderFrom_cons_of_not_mem g _ List.not_mem_nil, List.append_nil,
    List.nil_append]

/-- Interfaces of names that were entered change nothing. -/
theorem preorderFrom_append_of_forall_mem {front entered : List I} (back : List I)
    (h : ∀ i ∈ front, g.qualifiedName i ∈ entered.map g.qualifiedName) :
    g.preorderFrom (front ++ back) entered = g.preorderFrom back entered := by
  induction front with
  | nil => rw [List.nil_append]
  | cons i front ih =>
    rw [List.cons_append, preorderFrom_cons_of_mem g _ (h i List.mem_cons_self),
      ih fun j hj => h j (List.mem_cons_of_mem i hj)]

/-! ## What is in it -/

theorem prefix_preorderFrom (todo entered : List I) :
    entered <+: g.preorderFrom todo entered := by
  induction todo, entered using preorderFrom.induct g with
  | case1 entered => rw [preorderFrom_nil]
  | case2 i todo entered h ih => rw [preorderFrom_cons_of_mem g _ h]; exact ih
  | case3 i todo entered h ih =>
    rw [preorderFrom_cons_of_not_mem g _ h]
    exact (List.prefix_append entered [i]).trans ih

theorem nodup_names_preorderFrom {todo entered : List I}
    (h : (entered.map g.qualifiedName).Nodup) :
    ((g.preorderFrom todo entered).map g.qualifiedName).Nodup := by
  induction todo, entered using preorderFrom.induct g with
  | case1 entered => rw [preorderFrom_nil]; exact h
  | case2 i todo entered hi ih => rw [preorderFrom_cons_of_mem g _ hi]; exact ih h
  | case3 i todo entered hi ih =>
    rw [preorderFrom_cons_of_not_mem g _ hi]
    apply ih
    rw [List.map_append, List.map_singleton]
    rw [← List.concat_eq_append]
    exact h.concat hi

/-- No qualified name comes twice. -/
theorem nodup_names_preorder (root : I) :
    ((g.preorder root).map g.qualifiedName).Nodup :=
  g.nodup_names_preorderFrom List.nodup_nil

theorem nodup_preorder (root : I) : (g.preorder root).Nodup :=
  List.Nodup.of_map g.qualifiedName (g.nodup_names_preorder root)

end Catalog

end InterfaceRecord
