/-
  The same interfaces with other supertypes. What is decided about methods does not depend on
  supertypes, so a traversal comes to the same as long as the pre-order is the same
  (`Relinked.entered`, `Relinked.derive`). An edge back to an interface that was entered before
  leaves the pre-order as it is (`ExtraEdge.preorder`), wherever it stands among the other edges,
  and so it changes neither what is found nor where a traversal fails
  (`derive_extendAt_of_idxOf_le`).
-/
import InterfaceRecord.Proofs.Correspondence
import InterfaceRecord.Proofs.Derivability
import InterfaceRecord.Proofs.Failure

namespace InterfaceRecord

namespace Catalog

section

variable {I M T S V : Type}

/-! ## Other supertypes -/

/-- The same interfaces with other supertypes and accordingly with other names to be met. -/
def relink (g : Catalog I M T S V) (supertypes : I → List I) (names : I → List String)
    (hmem : ∀ i, g.qualifiedName i ∈ names i)
    (hsub : ∀ i, ∀ p ∈ supertypes i, names p ⊆ names i) : Catalog I M T S V :=
  { g with
    supertypes := supertypes
    names := names
    name_mem_names := hmem
    names_subset_names := hsub }

/-- `g'` answers what `g` answers on everything but supertypes. -/
def Relinked (g g' : Catalog I M T S V) : Prop :=
  ∃ supertypes names hmem hsub, g' = g.relink supertypes names hmem hsub

/-- Interfaces of a name that was entered are passed over, wherever they stand. -/
theorem preorderFrom_insert_of_mem (g : Catalog I M T S V) {i : I} {entered : List I}
    (front back : List I) (hi : g.qualifiedName i ∈ entered.map g.qualifiedName) :
    g.preorderFrom (front ++ i :: back) entered = g.preorderFrom (front ++ back) entered := by
  have hfront : g.qualifiedName i ∈ (g.preorderFrom front entered).map g.qualifiedName :=
    ((g.prefix_preorderFrom front entered).map _).subset hi
  rw [preorderFrom_append, preorderFrom_append, preorderFrom_cons_of_mem g _ hfront]

/-- `g'` is `g` with `y` as one more direct supertype of `x`, somewhere among the others. -/
structure ExtraEdge (g g' : Catalog I M T S V) (x y : I) : Prop where
  relinked : g.Relinked g'
  here : ∃ front back, g.supertypes x = front ++ back ∧ g'.supertypes x = front ++ y :: back
  elsewhere : ∀ i, i ≠ x → g'.supertypes i = g.supertypes i

variable {g g' : Catalog I M T S V} {x y : I}

theorem Relinked.qualifiedName (h : g.Relinked g') : g'.qualifiedName = g.qualifiedName := by
  obtain ⟨supertypes, names, hmem, hsub, rfl⟩ := h
  rfl

/-- An edge back. By the time `x` is entered, so is all that comes no later, so `y` is passed
over among the supertypes of `x`. -/
theorem ExtraEdge.preorderFrom [DecidableEq I] (h : g.ExtraEdge g' x y) {todo entered order : List I}
    (horder : g.preorderFrom todo entered = order) (hy : order.idxOf y ≤ order.idxOf x) :
    g'.preorderFrom todo entered = order := by
  have hname := h.relinked.qualifiedName
  induction todo, entered using preorderFrom.induct g with
  | case1 entered =>
    rw [preorderFrom_nil] at horder ⊢
    exact horder
  | case2 i todo entered hi ih =>
    rw [preorderFrom_cons_of_mem g _ hi] at horder
    rw [preorderFrom_cons_of_mem g' _ (by rwa [hname])]
    exact ih horder
  | case3 i todo entered hi ih =>
    rw [preorderFrom_cons_of_not_mem g _ hi] at horder
    rw [preorderFrom_cons_of_not_mem g' _ (by rwa [hname]), ← ih horder]
    by_cases hix : i = x
    · subst hix
      have hstart : entered ++ [i] <+: order := horder ▸ g.prefix_preorderFrom _ _
      have hmem : y ∈ entered ++ [i] := by
        have hi := List.mem_append_right entered (List.mem_singleton_self i)
        rw [hstart.mem_iff_idxOf_lt_length] at hi ⊢
        omega
      obtain ⟨front, back, hold, hnew⟩ := h.here
      rw [hold, hnew, List.append_assoc, List.cons_append,
        g'.preorderFrom_insert_of_mem _ _ (List.mem_map_of_mem hmem), ← List.append_assoc]
    · rw [h.elsewhere i hix]

theorem ExtraEdge.preorder [DecidableEq I] (h : g.ExtraEdge g' x y) {root : I}
    (hy : (g.preorder root).idxOf y ≤ (g.preorder root).idxOf x) :
    g'.preorder root = g.preorder root :=
  h.preorderFrom rfl hy

end

/-! ## Derivations -/

section

variable {I M T S : Type} {g g' : Catalog I M T S Unit} {root : I}

theorem Relinked.faults (h : g.Relinked g') (policy : ConflictPolicy)
    (before ds : List (I × M)) : g'.faults policy before ds = g.faults policy before ds := by
  obtain ⟨supertypes, names, hmem, hsub, rfl⟩ := h
  induction ds generalizing before with
  | nil => rfl
  | cons d ds ih =>
    rw [Catalog.faults, Catalog.faults, ih]
    rfl

theorem Relinked.findings (h : g.Relinked g') (policy : ConflictPolicy) (is : List I) :
    g'.findings policy (g'.declarations is) = g.findings policy (g.declarations is) := by
  have hfaults := h.faults policy [] (g.declarations is)
  obtain ⟨supertypes, names, hmem, hsub, rfl⟩ := h
  exact congrArg (List.map g.diagnostic) hfaults

theorem Relinked.components (h : g.Relinked g') (is : List I) :
    (g'.kept (g'.declarations is)).map g'.component =
      (g.kept (g.declarations is)).map g.component := by
  obtain ⟨supertypes, names, hmem, hsub, rfl⟩ := h
  rfl

/-- Along the same pre-order a traversal enters the same interfaces. -/
theorem Relinked.entered (h : g.Relinked g') (horder : g'.preorder root = g.preorder root)
    (policy : ConflictPolicy) :
    (g'.traverse policy root ()).entered = (g.traverse policy root ()).entered := by
  rw [← List.map_id (g.traverse policy root ()).entered]
  apply entered_eq_map policy
  · rw [horder, List.map_id]
  · intro is _
    rw [List.map_id, h.findings]

theorem Relinked.traverse (h : g.Relinked g') (horder : g'.preorder root = g.preorder root)
    (policy : ConflictPolicy) :
    (g'.traverse policy root ()).components = (g.traverse policy root ()).components ∧
      (g'.traverse policy root ()).diagnostics = (g.traverse policy root ()).diagnostics := by
  have hcov := (g.covers_traverse policy root).2.1.accounts
  have hcov' := (g'.covers_traverse policy root).2.1.accounts
  rw [hcov.components, hcov.diagnostics, hcov'.components, hcov'.diagnostics,
    h.entered horder policy]
  exact ⟨h.components _, h.findings policy _⟩

/-- Along the same pre-order a derivation comes to the same record and reports the same. -/
theorem Relinked.derive (h : g.Relinked g') (horder : g'.preorder root = g.preorder root)
    (settings : Settings) (scheme : NameScheme) :
    (g'.derive settings scheme root ()).record = (g.derive settings scheme root ()).record ∧
      (g'.derive settings scheme root ()).diagnostics =
        (g.derive settings scheme root ()).diagnostics := by
  obtain ⟨hcomponents, hdiagnostics⟩ := h.traverse horder settings.conflicts
  obtain ⟨supertypes, names, hmem, hsub, rfl⟩ := h
  constructor
  · rw [Option.ext_iff]
    intro r
    rw [record_derive_eq_some_iff, record_derive_eq_some_iff, hcomponents, hdiagnostics]
    rfl
  · rw [diagnostics_derive, diagnostics_derive, hcomponents, hdiagnostics]
    rfl

end

end Catalog

/-! ## Graphs -/

section

variable {T S V : Type}

/-- A declaration without its supertypes. -/
def InterfaceEntry.unlinked (d : InterfaceEntry T S) : InterfaceEntry T S :=
  { d with supertypes := [] }

namespace Table

variable {t t' : Table T S}

/-- Whatever does not depend on supertypes is answered alike. -/
theorem elim_eq_of_unlinked
    (h : t'.map InterfaceEntry.unlinked = t.map InterfaceEntry.unlinked) {α : Type} {none : α}
    {answer : InterfaceEntry T S → α} (hanswer : ∀ d, answer d.unlinked = answer d) (i : Nat) :
    t'[i]?.elim none answer = t[i]?.elim none answer := by
  have hread (u : Table T S) :
      u[i]?.elim none answer = (u.map InterfaceEntry.unlinked)[i]?.elim none answer := by
    rw [List.getElem?_map]
    cases u[i]? with
    | none => rfl
    | some d => exact (hanswer d).symm
  rw [hread t', h, ← hread t]

theorem method?_eq_of_unlinked
    (h : t'.map InterfaceEntry.unlinked = t.map InterfaceEntry.unlinked) :
    t'.method? = t.method? := by
  funext m
  have hbind (u : Table T S) :
      u.method? m = u[m.interface]?.elim none (·.methods[m.index]?) := by
    rw [Table.method?]
    cases u[m.interface]? <;> rfl
  rw [hbind t', hbind t, elim_eq_of_unlinked h fun _ => rfl]

theorem relinked_of_unlinked [Inhabited T] [Inhabited S]
    (h : t'.map InterfaceEntry.unlinked = t.map InterfaceEntry.unlinked) (types : TypeView T V)
    (separator : String) :
    (t.catalog types separator).Relinked (t'.catalog types separator) := by
  have hname : (t'.catalog types separator).qualifiedName =
      (t.catalog types separator).qualifiedName :=
    funext (elim_eq_of_unlinked h fun _ => rfl)
  refine ⟨(t'.catalog types separator).supertypes, (t'.catalog types separator).names,
    fun i => hname ▸ (t'.catalog types separator).name_mem_names i,
    (t'.catalog types separator).names_subset_names, ?_⟩
  unfold Table.catalog Catalog.relink
  rw [method?_eq_of_unlinked h]
  simp only [Catalog.mk.injEq, true_and, and_true]
  refine ⟨?_, ?_, ?_, ?_, ?_, ?_⟩ <;> exact funext fun i => elim_eq_of_unlinked h (fun _ => rfl) i

end Table

end

namespace Graph

/-- `y` becomes a direct supertype of `x`, behind the first `k` that there are. -/
def extendAt (g : Graph) (x k y : Nat) : Graph :=
  { g with interfaces := g.interfaces.modify x fun d =>
      { d with supertypes := d.supertypes.take k ++ y :: d.supertypes.drop k } }

theorem extraEdge_extendAt (g : Graph) {x : Nat} (hx : x < g.interfaces.length) (k y : Nat) :
    g.catalog.ExtraEdge (g.extendAt x k y).catalog x y where
  relinked := by
    apply Table.relinked_of_unlinked
    apply List.ext_getElem?
    intro i
    simp only [extendAt, List.getElem?_map, List.getElem?_modify]
    split <;> cases g.interfaces[i]? <;> rfl
  here := by
    refine ⟨g.interfaces[x].supertypes.take k, g.interfaces[x].supertypes.drop k, ?_, ?_⟩
    · rw [List.take_append_drop, catalog, Table.catalog_supertypes, List.getElem?_eq_getElem hx,
        Option.elim_some]
    · simp [catalog, Table.catalog_supertypes, extendAt, hx]
  elsewhere := by
    intro i hi
    simp [catalog, Table.catalog_supertypes, extendAt, Ne.symm hi]

/-- Going back changes nothing. If `y` comes no later than `x` in the pre-order from `root`, or is
`x` itself, then with `y` as one more direct supertype of `x`, at any place among the others, a
traversal from `root` comes to the same components and the same diagnostics, and a derivation to
the same record, or to none, and the same reports. Names need not be distinct; where they are, any
two interfaces that `root` reaches are in the pre-order (`Catalog.mem_preorder_iff`). -/
theorem derive_extendAt_of_idxOf_le {g : Graph} {root x y : Nat}
    (hy : (g.catalog.preorder root).idxOf y ≤ (g.catalog.preorder root).idxOf x) (k : Nat) :
    (∀ policy, ((g.extendAt x k y).catalog.traverse policy root ()).components =
          (g.catalog.traverse policy root ()).components ∧
        ((g.extendAt x k y).catalog.traverse policy root ()).diagnostics =
          (g.catalog.traverse policy root ()).diagnostics) ∧
      ∀ settings scheme, ((g.extendAt x k y).derive settings scheme root).1.record =
          (g.derive settings scheme root).1.record ∧
        ((g.extendAt x k y).derive settings scheme root).2.reported =
          (g.derive settings scheme root).2.reported := by
  by_cases hx : x < g.interfaces.length
  · have hedge := g.extraEdge_extendAt hx k y
    have horder := hedge.preorder hy
    refine ⟨fun policy => hedge.relinked.traverse horder policy, fun settings scheme => ?_⟩
    obtain ⟨hrecord, hdiagnostics⟩ := hedge.relinked.derive horder settings scheme
    exact ⟨hrecord, congrArg (g.reported ++ ·) hdiagnostics⟩
  · -- there is no such interface, so nothing was changed
    have hsame : g.extendAt x k y = g := by
      rw [extendAt, List.modify_eq_self (Nat.le_of_not_lt hx)]
    rw [hsame]
    exact ⟨fun _ => ⟨rfl, rfl⟩, fun _ _ => ⟨rfl, rfl⟩⟩

/-- The first supertype of the root gets an edge back to it, in front of the one that leads on to
the failure. -/
theorem derive_extendAt_flawed :
    (flawed.catalog.preorder 0).idxOf 0 ≤ (flawed.catalog.preorder 0).idxOf 1 ∧
      (flawed.extendAt 1 0 0).catalog.supertypes 1 = [0, 2] ∧
      ((flawed.extendAt 1 0 0).catalog.traverse .reject 0 ()).diagnostics =
        (flawed.catalog.traverse .reject 0 ()).diagnostics ∧
      ((flawed.extendAt 1 0 0).catalog.traverse .reject 0 ()).diagnostics.length = 2 := by
  have hentered : (flawed.catalog.traverse .reject 0 ()).entered = [0, 1, 2] := by decide
  have hstart := (flawed.catalog.covers_traverse .reject 0).1
  rw [hentered] at hstart
  have hy : (flawed.catalog.preorder 0).idxOf 0 ≤ (flawed.catalog.preorder 0).idxOf 1 := by
    obtain ⟨rest, hrest⟩ := hstart
    rw [← hrest]
    simp
  have h := ((derive_extendAt_of_idxOf_le hy 0).1 .reject).2
  refine ⟨hy, by decide, h, ?_⟩
  rw [h]
  decide

end Graph

end InterfaceRecord
