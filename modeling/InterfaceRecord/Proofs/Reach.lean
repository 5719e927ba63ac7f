/-
  What the pre-order from an interface holds. `mem_preorder_iff`: where qualified names tell apart
  the interfaces that can be reached, it holds exactly these. `preorderFrom_merge`: after
  interfaces that are closed under supertypes it adds what it would add on its own, less them.
-/
import InterfaceRecord.Proofs.Firsts
import InterfaceRecord.Proofs.Preorder
import InterfaceRecord.Table
import Mathlib.Logic.Relation

namespace InterfaceRecord

namespace Catalog

variable {I M T S V : Type} (g : Catalog I M T S V)

/-! ## Reachability -/

/-- `i` is `root` or one of its direct or indirect supertypes. -/
def Reaches (root i : I) : Prop :=
  Relation.ReflTransGen (fun i p => p ∈ g.supertypes i) root i

/-- No two interfaces that `root` reaches share a qualified name. -/
def DistinctNames (root : I) : Prop :=
  ∀ i j, g.Reaches root i → g.Reaches root j → g.qualifiedName i = g.qualifiedName j → i = j

theorem reaches_self (i : I) : g.Reaches i i := Relation.ReflTransGen.refl

variable {g}

theorem Reaches.supertype {root i p : I} (h : g.Reaches root i) (hp : p ∈ g.supertypes i) :
    g.Reaches root p := Relation.ReflTransGen.tail h hp

theorem Reaches.of_supertype {root i p : I} (hp : p ∈ g.supertypes root) (h : g.Reaches p i) :
    g.Reaches root i := Relation.ReflTransGen.head hp h

/-- What holds of an interface and passes on to supertypes holds of all it reaches. -/
theorem Reaches.of_closed {P : I → Prop} (hP : ∀ i, P i → ∀ p ∈ g.supertypes i, P p)
    {root i : I} (h : g.Reaches root i) (hr : P root) : P i := by
  induction h with
  | refl => exact hr
  | tail _ hp ih => exact hP _ ih _ hp

theorem DistinctNames.of_supertype {root p : I} (h : g.DistinctNames root)
    (hp : p ∈ g.supertypes root) : g.DistinctNames p :=
  fun i j hi hj => h i j (hi.of_supertype hp) (hj.of_supertype hp)

variable (g)

/-! ## What is entered -/

/-- Only what can be reached is entered. -/
theorem mem_or_reaches_of_mem_preorderFrom {todo entered : List I} {j : I}
    (h : j ∈ g.preorderFrom todo entered) : j ∈ entered ∨ ∃ i ∈ todo, g.Reaches i j := by
  induction todo, entered using preorderFrom.induct g with
  | case1 entered => rw [preorderFrom_nil] at h; exact Or.inl h
  | case2 i todo entered hi ih =>
    rw [preorderFrom_cons_of_mem g _ hi] at h
    rcases ih h with h | ⟨k, hk, hkj⟩
    · exact Or.inl h
    · exact Or.inr ⟨k, List.mem_cons_of_mem i hk, hkj⟩
  | case3 i todo entered hi ih =>
    rw [preorderFrom_cons_of_not_mem g _ hi] at h
    rcases ih h with h | ⟨k, hk, hkj⟩
    · rcases List.mem_append.mp h with h | h
      · exact Or.inl h
      · rw [List.mem_singleton.mp h]
        exact Or.inr ⟨i, List.mem_cons_self, g.reaches_self i⟩
    · rcases List.mem_append.mp hk with hk | hk
      · exact Or.inr ⟨i, List.mem_cons_self, hkj.of_supertype hk⟩
      · exact Or.inr ⟨k, List.mem_cons_of_mem i hk, hkj⟩

theorem reaches_of_mem_preorder {root i : I} (h : i ∈ g.preorder root) : g.Reaches root i := by
  rcases g.mem_or_reaches_of_mem_preorderFrom h with h | ⟨j, hj, hji⟩
  · exact absurd h List.not_mem_nil
  · rwa [List.mem_singleton.mp hj] at hji

/-- Everything in `todo` is entered, itself or by its name. -/
theorem name_mem_preorderFrom {todo entered : List I} {i : I} (h : i ∈ todo) :
    g.qualifiedName i ∈ (g.preorderFrom todo entered).map g.qualifiedName := by
  have hsub (todo : List I) {entered : List I} {name : String}
      (hn : name ∈ entered.map g.qualifiedName) :
      name ∈ (g.preorderFrom todo entered).map g.qualifiedName :=
    ((g.prefix_preorderFrom todo entered).map _).subset hn
  induction todo, entered using preorderFrom.induct g with
  | case1 entered => exact absurd h List.not_mem_nil
  | case2 j todo entered hj ih =>
    rw [preorderFrom_cons_of_mem g _ hj]
    rcases List.mem_cons.mp h with rfl | h
    · exact hsub todo hj
    · exact ih h
  | case3 j todo entered hj ih =>
    rw [preorderFrom_cons_of_not_mem g _ hj]
    rcases List.mem_cons.mp h with rfl | h
    · exact hsub _ (List.mem_map_of_mem (List.mem_append_right _ (List.mem_singleton_self _)))
    · exact ih (List.mem_append_right _ h)

/-- The invariant of the loop: each supertype of an entered interface was entered by name or is
still in `todo`. It need only hold of the interfaces with `Q`. At the end nothing is in `todo`. -/
theorem name_supertype_mem_preorderFrom {Q : I → Prop} {todo entered : List I}
    (h : ∀ i ∈ entered, Q i → ∀ p ∈ g.supertypes i,
      g.qualifiedName p ∈ entered.map g.qualifiedName ∨ p ∈ todo) :
    ∀ i ∈ g.preorderFrom todo entered, Q i → ∀ p ∈ g.supertypes i,
      g.qualifiedName p ∈ (g.preorderFrom todo entered).map g.qualifiedName := by
  induction todo, entered using preorderFrom.induct g with
  | case1 entered =>
    rw [preorderFrom_nil]
    intro i hi hq p hp
    exact (h i hi hq p hp).resolve_right List.not_mem_nil
  | case2 j todo entered hj ih =>
    rw [preorderFrom_cons_of_mem g _ hj]
    apply ih
    intro i hi hq p hp
    rcases h i hi hq p hp with hn | ht
    · exact Or.inl hn
    · rcases List.mem_cons.mp ht with rfl | ht
      · exact Or.inl hj
      · exact Or.inr ht
  | case3 j todo entered hj ih =>
    rw [preorderFrom_cons_of_not_mem g _ hj]
    apply ih
    intro i hi hq p hp
    rw [List.map_append, List.mem_append, List.mem_append]
    rcases List.mem_append.mp hi with hi | hi
    · rcases h i hi hq p hp with hn | ht
      · exact Or.inl (Or.inl hn)
      · rcases List.mem_cons.mp ht with rfl | ht
        · exact Or.inl (Or.inr (List.mem_singleton_self _))
        · exact Or.inr (Or.inr ht)
    · rw [List.mem_singleton.mp hi] at hp
      exact Or.inr (Or.inl hp)

/-- The pre-order is closed under supertypes, up to names. -/
theorem name_supertype_mem_preorder {root i p : I} (hi : i ∈ g.preorder root)
    (hp : p ∈ g.supertypes i) :
    g.qualifiedName p ∈ (g.preorder root).map g.qualifiedName :=
  g.name_supertype_mem_preorderFrom (Q := fun _ => True)
    (fun _ h => absurd h List.not_mem_nil) i hi trivial p hp

/-- With distinct names the pre-order holds exactly what can be reached. -/
theorem mem_preorder_iff {root i : I} (hd : g.DistinctNames root) :
    i ∈ g.preorder root ↔ g.Reaches root i := by
  refine ⟨g.reaches_of_mem_preorder, fun h => ?_⟩
  have mem_of_name {j : I} (hj : g.Reaches root j)
      (hn : g.qualifiedName j ∈ (g.preorder root).map g.qualifiedName) :
      j ∈ g.preorder root := by
    obtain ⟨k, hk, hkj⟩ := List.mem_map.mp hn
    rwa [← hd k j (g.reaches_of_mem_preorder hk) hj hkj]
  induction h with
  | refl => exact mem_of_name (g.reaches_self root) (g.name_mem_preorderFrom List.mem_cons_self)
  | tail hj hp ih =>
    exact mem_of_name (Relation.ReflTransGen.tail hj hp) (g.name_supertype_mem_preorder ih hp)

/-! ## Entering after others -/

/-- Entered on top of `others`, interfaces of whose names are passed over and so, these being
closed, all that they lead to. `R` holds of whatever can come up. -/
theorem preorderFrom_merge {R : I → Prop} {others todo : List I} (entered : List I)
    (hR : ∀ i, R i → ∀ p ∈ g.supertypes i, R p)
    (hclosed : ∀ i, R i → g.qualifiedName i ∈ others.map g.qualifiedName →
      ∀ p ∈ g.supertypes i, g.qualifiedName p ∈ others.map g.qualifiedName)
    (ht : ∀ i ∈ todo, R i) :
    g.preorderFrom todo (merge g.qualifiedName others entered) =
      merge g.qualifiedName others (g.preorderFrom todo entered) := by
  induction todo, entered using preorderFrom.induct g with
  | case1 entered => rw [preorderFrom_nil, preorderFrom_nil]
  | case2 i todo entered hi ih =>
    rw [preorderFrom_cons_of_mem g _ hi,
      preorderFrom_cons_of_mem g _ (mem_map_merge.mpr (Or.inr hi))]
    exact ih fun j hj => ht j (List.mem_cons_of_mem i hj)
  | case3 i todo entered hi ih =>
    have hi' : R i := ht i List.mem_cons_self
    have ht' : ∀ j ∈ g.supertypes i ++ todo, R j := by
      intro j hj
      rcases List.mem_append.mp hj with hj | hj
      · exact hR i hi' j hj
      · exact ht j (List.mem_cons_of_mem i hj)
    rw [preorderFrom_cons_of_not_mem g _ hi, ← ih ht']
    by_cases ho : g.qualifiedName i ∈ others.map g.qualifiedName
    · rw [merge_concat_of_mem ho, preorderFrom_cons_of_mem g _ (mem_map_merge.mpr (Or.inl ho)),
        preorderFrom_append_of_forall_mem]
      exact fun p hp => mem_map_merge.mpr (Or.inl (hclosed i hi' ho p hp))
    · rw [merge_concat_of_not_mem ho, preorderFrom_cons_of_not_mem]
      exact fun h => (mem_map_merge.mp h).elim ho hi

end Catalog

/-! ## Tables -/

namespace Table

variable {T S V : Type} [Inhabited T] [Inhabited S] {t : Table T S} {types : TypeView T V}
  {separator : String}

theorem catalog_supertypes (i : Nat) :
    (t.catalog types separator).supertypes i = t[i]?.elim [] (·.supertypes) := rfl

theorem catalog_qualifiedName (i : Nat) :
    (t.catalog types separator).qualifiedName i = t[i]?.elim "" (·.qualifiedName) := rfl

/-- Where all links stay in the table, so does what can be reached. -/
theorem lt_length_of_reaches (hlinks : ∀ d ∈ t, ∀ p ∈ d.supertypes, p < t.length) {root i : Nat}
    (h : (t.catalog types separator).Reaches root i) (hr : root < t.length) : i < t.length := by
  apply h.of_closed (P := (· < t.length)) _ hr
  intro i hi p hp
  rw [catalog_supertypes, List.getElem?_eq_getElem hi, Option.elim_some] at hp
  exact hlinks t[i] (List.getElem_mem hi) p hp

/-- A table in which all links stay and no qualified name comes twice tells all interfaces
apart. -/
theorem distinctNames (hlinks : ∀ d ∈ t, ∀ p ∈ d.supertypes, p < t.length)
    (hnames : (t.map (·.qualifiedName)).Nodup) {root : Nat} (hr : root < t.length) :
    (t.catalog types separator).DistinctNames root := by
  intro i j hi hj hij
  have hi := lt_length_of_reaches hlinks hi hr
  have hj := lt_length_of_reaches hlinks hj hr
  rw [catalog_qualifiedName, catalog_qualifiedName, List.getElem?_eq_getElem hi,
    List.getElem?_eq_getElem hj, Option.elim_some, Option.elim_some] at hij
  have hi' : i < (t.map (·.qualifiedName)).length := by rwa [List.length_map]
  have hj' : j < (t.map (·.qualifiedName)).length := by rwa [List.length_map]
  have hij' : (t.map (·.qualifiedName))[i] = (t.map (·.qualifiedName))[j] := by
    rw [List.getElem_map, List.getElem_map, hij]
  exact hnames.getElem_inj_iff.mp hij'

end Table

end InterfaceRecord
