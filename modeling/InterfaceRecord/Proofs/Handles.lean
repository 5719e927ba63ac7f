/-
  Handles that are held. Whoever keeps interfaces hands out handles for them and for their methods,
  and is asked with handles that were handed out before (`Holding`). `Sound`: all handles are those
  of positions, and supertypes lead to positions. Questions keep it so (`Sound.query`), and so does a
  table that grows (`Sound.of_grows`). What is asked with such handles is answered from declarations
  that are there (`Usable`).
-/
import InterfaceRecord.Proofs.Positions
import InterfaceRecord.Proofs.Session

namespace InterfaceRecord

variable {T S : Type}

/-! ## Tables that grow -/

namespace Table

/-- Interfaces and methods stay where they are, and there may be more behind them. -/
def Grows (t t' : Table T S) : Prop :=
  ∀ (i : Nat) (d : InterfaceEntry T S), t[i]? = some d →
    ∃ d' : InterfaceEntry T S, t'[i]? = some d' ∧ d.methods.length ≤ d'.methods.length

variable {t t' : Table T S}

theorem grows_refl (t : Table T S) : t.Grows t := fun _ d hd => ⟨d, hd, Nat.le_refl _⟩

theorem Grows.lt_length (h : t.Grows t') {i : Nat} (hi : i < t.length) : i < t'.length := by
  obtain ⟨d', hd', -⟩ := h i t[i] (List.getElem?_eq_getElem hi)
  exact (List.getElem?_eq_some_iff.mp hd').1

theorem Grows.hasMethod (h : t.Grows t') {m : MethodHandle} (hm : t.HasMethod m) :
    t'.HasMethod m := by
  obtain ⟨d, hd, hindex⟩ := hm
  obtain ⟨d', hd', hle⟩ := h _ d hd
  exact ⟨d', hd', Nat.lt_of_lt_of_le hindex hle⟩

theorem grows_concat (t : Table T S) (d : InterfaceEntry T S) : t.Grows (t ++ [d]) := by
  intro i e he
  refine ⟨e, ?_, Nat.le_refl _⟩
  rw [List.getElem?_append_left (List.getElem?_eq_some_iff.mp he).1]
  exact he

theorem Closed.concat (h : t.Closed) {d : InterfaceEntry T S} (hd : d.supertypes = []) :
    Table.Closed (t ++ [d]) := by
  intro e he p hp
  rw [List.length_append]
  rcases List.mem_append.mp he with he | he
  · exact Nat.lt_add_right _ (h e he p hp)
  · rw [List.mem_singleton.mp he, hd] at hp
    exact absurd hp List.not_mem_nil

variable {i : Nat} {f : InterfaceEntry T S → InterfaceEntry T S}

theorem grows_modify (t : Table T S) (i : Nat)
    (hf : ∀ d, d.methods.length ≤ (f d).methods.length) : t.Grows (t.modify i f) := by
  intro j d hd
  refine ⟨if i = j then f d else d, ?_, ?_⟩
  · rw [List.getElem?_modify, hd]
    split <;> rfl
  · split
    · exact hf d
    · exact Nat.le_refl _

theorem Closed.modify (h : t.Closed)
    (hf : ∀ d, ∀ p ∈ (f d).supertypes, p ∈ d.supertypes ∨ p < t.length) :
    Table.Closed (t.modify i f) := by
  intro e he p hp
  rw [List.length_modify]
  obtain ⟨j, hj⟩ := List.mem_iff_getElem?.mp he
  rw [List.getElem?_modify, Option.map_eq_map, Option.map_eq_some_iff] at hj
  obtain ⟨d, hd, rfl⟩ := hj
  have hmem := List.mem_of_getElem? hd
  split at hp
  · exact (hf d p hp).elim (h d hmem p) id
  · exact h d hmem p hp

end Table

/-! ## What is handed out -/

/-- What is kept at some time, and the handles that were handed out until then. -/
structure Holding (K : Type) where
  kept : K
  interfaces : List Nat := []
  methods : List MethodHandle := []

/-- What was handed out before is still held. -/
structure Holding.Within {K : Type} (a b : Holding K) : Prop where
  interfaces : a.interfaces ⊆ b.interfaces
  methods : a.methods ⊆ b.methods

namespace Keeper

variable {K : Type}

/-- A question that hands out handles, asked with a handle that is held. -/
inductive Query (κ : Keeper K T S) : Holding K → Holding K → Prop
  | supertypes {a : Holding K} {i : Nat} (hi : i ∈ a.interfaces) :
    Query κ a { a with interfaces := a.interfaces ++ (κ.catalog a.kept).supertypes i }
  | methods {a : Holding K} {i : Nat} (hi : i ∈ a.interfaces) :
    Query κ a { a with methods := a.methods ++ (κ.catalog a.kept).methods i }
  /-- The interface that declares a method. -/
  | owner {a : Holding K} {m : MethodHandle} (hm : m ∈ a.methods) :
    Query κ a { a with interfaces := a.interfaces ++ [m.interface] }
  /-- A derivation hands out the methods that the components of its record come from. -/
  | derive {a : Holding K} {root : Nat} (settings : Settings) (scheme : NameScheme)
    (hroot : root ∈ a.interfaces) :
    Query κ a { a with
      kept := (κ.derive a.kept settings scheme root).2
      methods := a.methods ++ (κ.derive a.kept settings scheme root).1.record.elim [] fun r =>
        r.components.map (·.origin) }
  | drain {a : Holding K} : Query κ a { a with kept := (κ.drain a.kept).2 }

/-- The interfaces that are kept stand in a table, which is left as it is by derivations. -/
structure Tabled [Inhabited T] [Inhabited S] (κ : Keeper K T S) where
  table : K → Table T S
  types : TypeView T Unit
  separator : String
  catalog_eq : ∀ k, κ.catalog k = (table k).catalog types separator
  table_derive : ∀ k settings scheme root, table (κ.derive k settings scheme root).2 = table k
  table_drain : ∀ k, table (κ.drain k).2 = table k

namespace Tabled

variable [Inhabited T] [Inhabited S] {κ : Keeper K T S} (τ : κ.Tabled)

/-- The answers about positions. -/
def guarded (k : K) (h : (τ.table k).Closed) :
    Catalog (Fin (τ.table k).length) (τ.table k).MethodPosition T S Unit :=
  (τ.table k).guarded h τ.types τ.separator

/-- All handles that are held are those of positions, and supertypes lead to positions. -/
structure Sound (a : Holding K) : Prop where
  closed : (τ.table a.kept).Closed
  interfaces : ∀ i ∈ a.interfaces, i < (τ.table a.kept).length
  methods : ∀ m ∈ a.methods, (τ.table a.kept).HasMethod m

/-- The handles that are held at the time of `a` can be used at the time of `b`. -/
structure Usable (a b : Holding K) : Prop where
  closed : (τ.table b.kept).Closed
  interfaces : ∀ i ∈ a.interfaces, ∃ p, (τ.table b.kept).handles.interface p = i
  methods : ∀ m ∈ a.methods, ∃ p, (τ.table b.kept).handles.method p = m
  /-- Each question about the handle of a position is answered from what stands there. -/
  answers : (τ.guarded b.kept closed).SameAnswers (κ.catalog b.kept) (τ.table b.kept).handles
  /-- So is what is decided about a method, -/
  ruling : ∀ i m, (κ.catalog b.kept).ruling ((τ.table b.kept).handles.interface i)
    ((τ.table b.kept).handles.method m) () = (τ.guarded b.kept closed).ruling i m ()
  /-- a first value is found by what stands there, -/
  initializer : ∀ i target type,
    (κ.catalog b.kept).initializer? ((τ.table b.kept).handles.interface i) target type =
      (τ.guarded b.kept closed).initializer? i target type
  /-- and a traversal and a derivation go from position to position. -/
  traverse : ∀ policy root,
    (κ.catalog b.kept).traverse policy ((τ.table b.kept).handles.interface root) () =
      (τ.table b.kept).handles.traversal ((τ.guarded b.kept closed).traverse policy root ())
  derive : ∀ settings scheme root,
    (κ.derive b.kept settings scheme ((τ.table b.kept).handles.interface root)).1 =
      (τ.table b.kept).handles.derivation
        ((τ.guarded b.kept closed).derive settings scheme root ())

variable {τ} {a b : Holding K}

theorem sameAnswers (τ : κ.Tabled) {k : K} (h : (τ.table k).Closed) :
    (τ.guarded k h).SameAnswers (κ.catalog k) (τ.table k).handles := by
  rw [τ.catalog_eq]
  exact Table.guarded_sameAnswers h τ.types τ.separator

/-- A derivation from a position is made of what stands at positions. -/
theorem derive_eq (τ : κ.Tabled) {k : K} (h : (τ.table k).Closed) (settings : Settings)
    (scheme : NameScheme) (root : Fin (τ.table k).length) :
    (κ.derive k settings scheme ((τ.table k).handles.interface root)).1 =
      (τ.table k).handles.derivation ((τ.guarded k h).derive settings scheme root ()) := by
  rw [κ.derive_fst]
  exact (τ.sameAnswers h).derive settings scheme root ()

theorem Sound.usable (h : τ.Sound b) (hheld : a.Within b) : τ.Usable a b where
  closed := h.closed
  interfaces := fun i hi => Table.exists_position (h.interfaces i (hheld.interfaces hi))
  methods := fun m hm => Table.hasMethod_iff_exists_position.mp (h.methods m (hheld.methods hm))
  answers := τ.sameAnswers h.closed
  ruling := fun i m => (τ.sameAnswers h.closed).ruling i m ()
  initializer := (τ.sameAnswers h.closed).initializer?
  traverse := fun policy root => (τ.sameAnswers h.closed).traverse policy root ()
  derive := τ.derive_eq h.closed

/-- It is enough to look at what is handed out anew. -/
theorem Sound.of_grows (h : τ.Sound a) (hclosed : (τ.table b.kept).Closed)
    (hgrows : (τ.table a.kept).Grows (τ.table b.kept))
    (hinterfaces : ∀ i ∈ b.interfaces, i ∈ a.interfaces ∨ i < (τ.table b.kept).length)
    (hmethods : ∀ m ∈ b.methods, m ∈ a.methods ∨ (τ.table b.kept).HasMethod m) : τ.Sound b where
  closed := hclosed
  interfaces := fun i hi =>
    (hinterfaces i hi).elim (fun hold => hgrows.lt_length (h.interfaces i hold)) id
  methods := fun m hm =>
    (hmethods m hm).elim (fun hold => hgrows.hasMethod (h.methods m hold)) id

/-- The methods that a record comes from are declared in the table. -/
theorem hasMethod_of_derive (h : (τ.table a.kept).Closed) {settings : Settings}
    {scheme : NameScheme} {root : Nat} (hroot : root < (τ.table a.kept).length) {m : MethodHandle}
    (hm : m ∈ (κ.derive a.kept settings scheme root).1.record.elim [] fun r =>
      r.components.map (·.origin)) : (τ.table a.kept).HasMethod m := by
  obtain ⟨p, rfl⟩ := Table.exists_position hroot
  rw [τ.derive_eq h, Renaming.derivation] at hm
  cases hr : ((τ.guarded a.kept h).derive settings scheme p ()).record with
  | none =>
    rw [hr] at hm
    cases hm
  | some r =>
    rw [hr, Option.map_some, Option.elim_some, Renaming.record, List.map_map] at hm
    obtain ⟨c, -, rfl⟩ := List.mem_map.mp hm
    exact Table.hasMethod_iff_exists_position.mpr ⟨c.origin, rfl⟩

/-- A question hands out the handles of positions. -/
theorem Sound.query (ha : τ.Sound a) (h : κ.Query a b) : τ.Sound b := by
  have hanswers := τ.sameAnswers ha.closed
  cases h with
  | @supertypes i hi =>
    refine ha.of_grows ha.closed (Table.grows_refl _) (fun j hj => ?_) fun m hm => Or.inl hm
    refine (List.mem_append.mp hj).imp_right fun hj => ?_
    obtain ⟨p, rfl⟩ := Table.exists_position (ha.interfaces i hi)
    rw [hanswers.supertypes] at hj
    obtain ⟨q, -, rfl⟩ := List.mem_map.mp hj
    exact q.isLt
  | @methods i hi =>
    refine ha.of_grows ha.closed (Table.grows_refl _) (fun j hj => Or.inl hj) fun m hm => ?_
    refine (List.mem_append.mp hm).imp_right fun hm => ?_
    obtain ⟨p, rfl⟩ := Table.exists_position (ha.interfaces i hi)
    rw [hanswers.methods] at hm
    obtain ⟨q, -, rfl⟩ := List.mem_map.mp hm
    exact Table.hasMethod_iff_exists_position.mpr ⟨q, rfl⟩
  | @owner m hm =>
    refine ha.of_grows ha.closed (Table.grows_refl _) (fun j hj => ?_) fun m hm => Or.inl hm
    refine (List.mem_append.mp hj).imp_right fun hj => ?_
    obtain ⟨d, hd, -⟩ := ha.methods m hm
    rw [List.mem_singleton.mp hj]
    exact (List.getElem?_eq_some_iff.mp hd).1
  | @derive root settings scheme hroot =>
    have htable := τ.table_derive a.kept settings scheme root
    refine ha.of_grows ?_ ?_ (fun j hj => Or.inl hj) fun m hm => ?_
    · rw [htable]
      exact ha.closed
    · rw [htable]
      exact Table.grows_refl _
    · rw [htable]
      exact (List.mem_append.mp hm).imp_right
        (hasMethod_of_derive ha.closed (ha.interfaces root hroot))
  | drain =>
    have htable := τ.table_drain a.kept
    refine ha.of_grows ?_ ?_ (fun j hj => Or.inl hj) fun m hm => Or.inl hm
    · rw [htable]
      exact ha.closed
    · rw [htable]
      exact Table.grows_refl _

end Tabled

theorem Query.within {κ : Keeper K T S} {a b : Holding K} (h : κ.Query a b) : a.Within b := by
  cases h with
  | supertypes => exact ⟨List.subset_append_left _ _, List.Subset.refl _⟩
  | methods => exact ⟨List.Subset.refl _, List.subset_append_left _ _⟩
  | owner => exact ⟨List.subset_append_left _ _, List.Subset.refl _⟩
  | derive => exact ⟨List.Subset.refl _, List.subset_append_left _ _⟩
  | drain => exact ⟨List.Subset.refl _, List.Subset.refl _⟩

end Keeper

end InterfaceRecord
