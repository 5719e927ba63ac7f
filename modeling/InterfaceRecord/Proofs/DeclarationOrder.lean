/-
  What does not depend on the order of declaration. Where qualified names are distinct, all that is
  reached is entered, whatever the order; and where no method asks for a first value, nothing but
  the rulings on the methods of these interfaces decides whether there is a record, and which names
  and, under the strict policy, which types are in it (`isSome_record_iff_rules`,
  `mem_names_iff_rules`, `mem_components_iff_rules`). Other orders of supertypes and methods leave
  these rulings as they are (`derive_reordered`).
-/
import InterfaceRecord.Proofs.Relocation
import InterfaceRecord.Proofs.Strictness

namespace InterfaceRecord

namespace Catalog

variable {I M T S : Type}

/-- The ruling is made on a method of an interface that `root` reaches. -/
def Rules (g : Catalog I M T S Unit) (root : I) (r : Ruling T) : Prop :=
  ∃ d, g.Declares (g.Reaches root) d ∧ g.rulingOf d = r

/-- Candidates of one name have one type. -/
def Agreed (g : Catalog I M T S Unit) (root : I) : Prop :=
  ∀ name type type', g.Rules root (.accept name type) → g.Rules root (.accept name type') →
    type = type'

/-- Distinct names, no first values, and no two types that are taken for the same. -/
structure Plain (g : Catalog I M T S Unit) (root : I) : Prop where
  distinct : g.DistinctNames root
  initializerName : ∀ d, g.Declares (g.Reaches root) d → g.initializerName d.2 = none
  sameType : ∀ a b, g.sameType a b = true ↔ a = b

variable {g : Catalog I M T S Unit} {root : I} {settings : Settings} {scheme : NameScheme}

/-! ## Rulings without order -/

theorem isAccepted_iff {d : I × M} :
    g.isAccepted d = true ↔ g.rulingOf d = .accept (g.methodName d.2) (g.returnType d.2) := by
  rw [isAccepted]
  rcases g.rulingOf_cases d with h | h | h | ⟨h, -⟩ <;> simp [h]

theorem mem_declarations_preorder_iff (hd : g.DistinctNames root) {d : I × M} :
    d ∈ g.declarations (g.preorder root) ↔ g.Declares (g.Reaches root) d := by
  rw [mem_declarations, g.mem_preorder_iff hd, Declares]

/-- The candidates along the pre-order are those that are ruled to be. -/
theorem exists_mem_accepted_iff (hd : g.DistinctNames root) {name : String} {type : T} :
    (∃ d ∈ g.accepted (g.declarations (g.preorder root)),
        g.methodName d.2 = name ∧ g.returnType d.2 = type) ↔
      g.Rules root (.accept name type) := by
  constructor
  · rintro ⟨d, hmem, rfl, rfl⟩
    obtain ⟨hdecl, ha⟩ := List.mem_filter.mp hmem
    exact ⟨d, (mem_declarations_preorder_iff hd).mp hdecl, isAccepted_iff.mp ha⟩
  · rintro ⟨d, hdecl, hr⟩
    obtain ⟨rfl, rfl, -⟩ := g.of_rulingOf_accept hr
    have hmem := (mem_declarations_preorder_iff hd).mpr hdecl
    exact ⟨d, List.mem_filter.mpr ⟨hmem, isAccepted_iff.mpr hr⟩, rfl, rfl⟩

theorem accepted_ne_nil_iff_rules (hd : g.DistinctNames root) :
    g.accepted (g.declarations (g.preorder root)) ≠ [] ↔
      ∃ name type, g.Rules root (.accept name type) := by
  constructor
  · intro hne
    obtain ⟨d, hmem⟩ := List.exists_mem_of_ne_nil _ hne
    exact ⟨_, _, (exists_mem_accepted_iff hd).mp ⟨d, hmem, rfl, rfl⟩⟩
  · rintro ⟨name, type, hr⟩
    obtain ⟨d, hmem, -⟩ := (exists_mem_accepted_iff hd).mpr hr
    exact List.ne_nil_of_mem hmem

theorem Plain.consistent_iff (h : g.Plain root) :
    g.Consistent (g.declarations (g.preorder root)) ↔ g.Agreed root := by
  constructor
  · intro hconsistent name type type' hr hr'
    obtain ⟨d, hmem, rfl, rfl⟩ := (exists_mem_accepted_iff h.distinct).mpr hr
    obtain ⟨e, hmem', hname, rfl⟩ := (exists_mem_accepted_iff h.distinct).mpr hr'
    obtain ⟨hd, hda⟩ := List.mem_filter.mp hmem
    obtain ⟨he, hea⟩ := List.mem_filter.mp hmem'
    exact (h.sameType _ _).mp (hconsistent d hd e he hda hea hname.symm)
  · intro hall d hd e he hda hea hname
    apply (h.sameType _ _).mpr
    refine hall (g.methodName d.2) _ _ ⟨d, (mem_declarations_preorder_iff h.distinct).mp hd,
      isAccepted_iff.mp hda⟩ ⟨e, (mem_declarations_preorder_iff h.distinct).mp he, ?_⟩
    rw [hname]
    exact isAccepted_iff.mp hea

theorem Plain.faultless_firstWins_iff (h : g.Plain root) :
    g.Faultless .firstWins (g.declarations (g.preorder root)) ↔
      ∀ fault, ¬ g.Rules root (.reject fault) := by
  constructor
  · rintro hf fault ⟨d, hdecl, hr⟩
    exact hf.unrejected d ((mem_declarations_preorder_iff h.distinct).mpr hdecl) fault hr
  · intro hnone
    have hdecl {d : I × M} (hd : d ∈ g.declarations (g.preorder root)) :=
      (mem_declarations_preorder_iff h.distinct).mp hd
    refine ⟨fun d hd fault hr => hnone fault ⟨d, hdecl hd, hr⟩, fun d hd => ?_, fun hp => by cases hp⟩
    exact Or.inl (h.initializerName d (hdecl ((g.kept_sublist _).subset hd)))

theorem Plain.faultless_iff (h : g.Plain root) (policy : ConflictPolicy) :
    g.Faultless policy (g.declarations (g.preorder root)) ↔
      (∀ fault, ¬ g.Rules root (.reject fault)) ∧ (policy = .reject → g.Agreed root) := by
  cases policy with
  | firstWins => simp [h.faultless_firstWins_iff]
  | reject =>
    have heq : Equivalence fun a b => g.sameType a b = true := by
      simp only [h.sameType]
      exact eq_equivalence
    rw [g.faultless_reject_iff heq, h.faultless_firstWins_iff, h.consistent_iff]
    simp

/-! ## Records without order -/

/-- There is a record exactly if no method that is reached breaks the rules, one of them is a
candidate, and under the strict policy candidates of one name have one type. -/
theorem Plain.isSome_record_iff_rules (h : g.Plain root) :
    (g.derive settings scheme root ()).record.isSome ↔
      ((∀ fault, ¬ g.Rules root (.reject fault)) ∧
        (settings.conflicts = .reject → g.Agreed root)) ∧
      ∃ name type, g.Rules root (.accept name type) := by
  rw [← h.faultless_iff, ← accepted_ne_nil_iff_rules h.distinct, Option.isSome_iff_exists]
  simp only [g.record_derive_iff_faultless, exists_and_left, exists_eq, and_true]

variable {r : Record M T}

theorem components_of_record_eq_some
    (hr : (g.derive settings scheme root ()).record = some r) :
    r.components = (g.kept (g.declarations (g.preorder root))).map g.component := by
  obtain ⟨-, rfl⟩ := (g.record_derive_iff_faultless _ _ _ _).mp hr
  rfl

/-- The names in a record are those of the candidates. -/
theorem Plain.mem_names_iff_rules (h : g.Plain root)
    (hr : (g.derive settings scheme root ()).record = some r) {name : String} :
    name ∈ r.names ↔ ∃ type, g.Rules root (.accept name type) := by
  have hnames : r.names =
      (g.kept (g.declarations (g.preorder root))).map (g.methodName ·.2) := by
    rw [Record.names, components_of_record_eq_some hr, List.map_map]
    rfl
  rw [hnames, kept, mem_map_firsts, List.mem_map]
  simp only [← exists_mem_accepted_iff h.distinct]
  constructor
  · rintro ⟨d, hmem, hname⟩
    exact ⟨_, d, hmem, hname, rfl⟩
  · rintro ⟨type, d, hmem, hname, -⟩
    exact ⟨d, hmem, hname⟩

/-- Under the strict policy the names and types in a record are those of the candidates. -/
theorem Plain.mem_components_iff_rules (h : g.Plain root) (hstrict : settings.conflicts = .reject)
    (hr : (g.derive settings scheme root ()).record = some r) {name : String} {type : T} :
    (∃ c ∈ r.components, c.name = name ∧ c.type = type) ↔ g.Rules root (.accept name type) := by
  have hsome : (g.derive settings scheme root ()).record.isSome := by rw [hr]; rfl
  have hagree := (h.isSome_record_iff_rules.mp hsome).1.2 hstrict
  have hrules : ∀ c ∈ r.components, g.Rules root (.accept c.name c.type) := by
    intro c hc
    rw [components_of_record_eq_some hr] at hc
    obtain ⟨d, hd, rfl⟩ := List.mem_map.mp hc
    exact (exists_mem_accepted_iff h.distinct).mp
      ⟨d, (firsts_sublist _ _).subset hd, rfl, rfl⟩
  constructor
  · rintro ⟨c, hc, rfl, rfl⟩
    exact hrules c hc
  · intro hrule
    -- the first candidate of the name has the same type
    have hname : name ∈ r.names := (h.mem_names_iff_rules hr).mpr ⟨type, hrule⟩
    obtain ⟨c, hc, rfl⟩ := List.mem_map.mp hname
    exact ⟨c, hc, rfl, hagree c.name c.type type (hrules c hc) hrule⟩

end Catalog

/-! ## Other orders -/

section

variable {T S : Type}

/-- The same declaration with its supertypes and its methods in any order. -/
structure InterfaceEntry.Reordered (d d' : InterfaceEntry T S) : Prop where
  same : d' = { d with supertypes := d'.supertypes, methods := d'.methods }
  supertypes : d'.supertypes.Perm d.supertypes
  methods : d'.methods.Perm d.methods

theorem InterfaceEntry.Reordered.symm {d d' : InterfaceEntry T S} (h : d.Reordered d') :
    d'.Reordered d where
  same := by rw [h.same]
  supertypes := h.supertypes.symm
  methods := h.methods.symm

namespace Table

/-- Each interface declares the same in any order. -/
def Reordered (t t' : Table T S) : Prop := List.Forall₂ InterfaceEntry.Reordered t t'

variable {t t' : Table T S}

theorem Reordered.symm (h : t.Reordered t') : t'.Reordered t :=
  (List.Forall₂.imp (fun _ _ hd => hd.symm) h).flip

/-- An index is in range of both tables or of none. -/
theorem Reordered.getElem? (h : t.Reordered t') (i : Nat) :
    (t[i]? = none ∧ t'[i]? = none) ∨
      ∃ d d', t[i]? = some d ∧ t'[i]? = some d' ∧ d.Reordered d' := by
  induction h generalizing i with
  | nil => exact Or.inl ⟨rfl, rfl⟩
  | cons hd _ ih =>
    cases i with
    | zero => exact Or.inr ⟨_, _, rfl, rfl, hd⟩
    | succ i => exact ih i

/-- What the order does not matter to is answered alike. -/
theorem Reordered.elim_eq (h : t.Reordered t') {α : Type} {none : α}
    {answer : InterfaceEntry T S → α} (hanswer : ∀ d d', d.Reordered d' → answer d' = answer d)
    (i : Nat) : t'[i]?.elim none answer = t[i]?.elim none answer := by
  rcases h.getElem? i with ⟨hd, hd'⟩ | ⟨d, d', hd, hd', hreordered⟩
  · rw [hd, hd']
  · rw [hd, hd']
    exact hanswer d d' hreordered

variable [Inhabited T] [Inhabited S] {types : TypeView T Unit} {separator : String}

theorem Reordered.qualifiedName (h : t.Reordered t') (i : Nat) :
    (t'.catalog types separator).qualifiedName i = (t.catalog types separator).qualifiedName i :=
  h.elim_eq (fun _ _ hd => by rw [hd.same]) i

theorem Reordered.simpleName (h : t.Reordered t') (i : Nat) :
    (t'.catalog types separator).simpleName i = (t.catalog types separator).simpleName i :=
  h.elim_eq (fun _ _ hd => by rw [hd.same]) i

theorem Reordered.mem_supertypes (h : t.Reordered t') {i p : Nat}
    (hp : p ∈ (t.catalog types separator).supertypes i) :
    p ∈ (t'.catalog types separator).supertypes i := by
  rw [catalog_supertypes] at hp ⊢
  rcases h.getElem? i with ⟨hd, hd'⟩ | ⟨d, d', hd, hd', hreordered⟩
  · rw [hd] at hp
    exact absurd hp List.not_mem_nil
  · rw [hd] at hp
    rw [hd']
    exact hreordered.supertypes.mem_iff.mpr hp

theorem Reordered.reaches (h : t.Reordered t') {root i : Nat}
    (hi : (t.catalog types separator).Reaches root i) :
    (t'.catalog types separator).Reaches root i := by
  induction hi with
  | refl => exact Catalog.reaches_self _ root
  | tail _ hp ih => exact ih.supertype (h.mem_supertypes hp)

theorem Reordered.distinctNames (h : t.Reordered t') {root : Nat}
    (hd : (t.catalog types separator).DistinctNames root) :
    (t'.catalog types separator).DistinctNames root := by
  intro i j hi hj hij
  rw [h.qualifiedName, h.qualifiedName] at hij
  exact hd i j (h.symm.reaches hi) (h.symm.reaches hj) hij

/-- Each method is found again in its interface. -/
theorem Reordered.exists_declares (h : t.Reordered t') {root : Nat} {d : Nat × MethodHandle}
    (hd : (t.catalog types separator).Declares ((t.catalog types separator).Reaches root) d) :
    ∃ m, (t'.catalog types separator).Declares ((t'.catalog types separator).Reaches root)
      (d.1, m) ∧ t'.method? m = t.method? d.2 := by
  obtain ⟨hreach, hm⟩ := hd
  obtain ⟨e, he, hinterface, hindex⟩ := mem_catalog_methods.mp hm
  obtain ⟨hnone, -⟩ | ⟨e₁, e', he₁, he', hreordered⟩ := h.getElem? d.1
  · exact absurd (he.symm.trans hnone) (Option.some_ne_none e)
  obtain rfl : e = e₁ := Option.some.inj (he.symm.trans he₁)
  have hmem : e.methods[d.2.index] ∈ e'.methods :=
    hreordered.methods.mem_iff.mpr (List.getElem_mem hindex)
  obtain ⟨k, hk⟩ := List.mem_iff_getElem?.mp hmem
  refine ⟨⟨d.1, k⟩, ⟨h.reaches hreach, mem_catalog_methods.mpr ⟨e', he', rfl, ?_⟩⟩, ?_⟩
  · exact (List.getElem?_eq_some_iff.mp hk).1
  · rw [Table.method?, Table.method?, hinterface, he, he', Option.bind_some, Option.bind_some, hk,
      List.getElem?_eq_getElem hindex]

/-- Handles of the same declaration. -/
theorem sameMethod_of_method?_eq {m m' : MethodHandle} (h : t'.method? m' = t.method? m) :
    Catalog.SameMethod (t.catalog types separator) (t'.catalog types separator) m m' := by
  constructor <;> simp only [Table.catalog, h, implies_true]

theorem Reordered.rules (h : t.Reordered t') {root : Nat} {r : Ruling T}
    (hr : (t.catalog types separator).Rules root r) :
    (t'.catalog types separator).Rules root r := by
  obtain ⟨⟨i, m⟩, hd, rfl⟩ := hr
  obtain ⟨m', hm', hmethod⟩ := h.exists_declares hd
  have hsame : Catalog.SameMethod (t.catalog types separator) (t'.catalog types separator) m m' :=
    sameMethod_of_method?_eq hmethod
  have htype : (t'.catalog types separator).returnType m' =
      (t.catalog types separator).returnType m := by
    simp only [Table.catalog, hmethod]
  refine ⟨(i, m'), hm', ?_⟩
  rw [hsame.rulingOf (h.simpleName i), htype]
  rcases (t.catalog types separator).rulingOf_cases (i, m) with hr | hr | hr | ⟨hr, -⟩ <;>
    rw [hr, Ruling.withType]

theorem Reordered.plain (h : t.Reordered t') {root : Nat}
    (hp : (t.catalog types separator).Plain root) : (t'.catalog types separator).Plain root where
  distinct := h.distinctNames hp.distinct
  initializerName := by
    intro d hd
    obtain ⟨m, hm, hmethod⟩ := h.symm.exists_declares hd
    have hnone := hp.initializerName (d.1, m) hm
    simp only [Table.catalog] at hnone ⊢
    rwa [← hmethod]
  sameType := hp.sameType

end Table

end

/-! ## Graphs -/

namespace Graph

/-- A graph without first values is plain where names are distinct. -/
theorem plain {g : Graph} {root : Nat} (hnames : g.catalog.DistinctNames root)
    (hinit : ∀ d ∈ g.interfaces, ∀ m ∈ d.methods, m.initializer = none) :
    g.catalog.Plain root where
  distinct := hnames
  initializerName := by
    intro d _
    show (g.interfaces.method? d.2).bind (·.initializer) = none
    cases hm : g.interfaces.method? d.2 with
    | none => rfl
    | some m =>
      obtain ⟨e, he, hm⟩ := Option.bind_eq_some_iff.mp hm
      exact hinit e (List.mem_of_getElem? he) m (List.mem_of_getElem? hm)
  sameType := fun _ _ => decide_eq_true_iff

/-- The order of declaration decides no more than the order. If each interface of `g'` has the
supertypes and the methods of that of `g` in any order, no two interfaces that are reached share a
name, and no method asks for a first value, then from an interface there is a record in both graphs
or in none. The two records have the same names, and under the strict policy each name has the same
type in both. -/
theorem derive_reordered {g g' : Graph} {root : Nat}
    (h : Table.Reordered g.interfaces g'.interfaces) (hnames : g.catalog.DistinctNames root)
    (hinit : ∀ d ∈ g.interfaces, ∀ m ∈ d.methods, m.initializer = none) (settings : Settings)
    (scheme : NameScheme) :
    ((g'.derive settings scheme root).1.record.isSome ↔
        (g.derive settings scheme root).1.record.isSome) ∧
      ∀ r r', (g.derive settings scheme root).1.record = some r →
        (g'.derive settings scheme root).1.record = some r' →
          (∀ name, name ∈ r'.names ↔ name ∈ r.names) ∧
          (settings.conflicts = .reject → ∀ name type,
            (∃ c ∈ r'.components, c.name = name ∧ c.type = type) ↔
              ∃ c ∈ r.components, c.name = name ∧ c.type = type) := by
  have hplain : g.catalog.Plain root := plain hnames hinit
  have hplain' : g'.catalog.Plain root := h.plain hplain
  have hrules (r : Ruling NamedType) : g'.catalog.Rules root r ↔ g.catalog.Rules root r :=
    ⟨h.symm.rules, h.rules⟩
  constructor
  · have hsome : (g.derive settings scheme root).1.record.isSome ↔ _ :=
      hplain.isSome_record_iff_rules
    have hsome' : (g'.derive settings scheme root).1.record.isSome ↔ _ :=
      hplain'.isSome_record_iff_rules
    have hagreed : g'.catalog.Agreed root ↔ g.catalog.Agreed root := by
      simp only [Catalog.Agreed, hrules]
    simp only [hrules, hagreed] at hsome'
    exact hsome'.trans hsome.symm
  · intro r r' hr hr'
    constructor
    · intro name
      rw [hplain'.mem_names_iff_rules hr', hplain.mem_names_iff_rules hr]
      simp only [hrules]
    · intro hstrict name type
      rw [hplain'.mem_components_iff_rules hstrict hr', hplain.mem_components_iff_rules hstrict hr,
        hrules]

/-- All supertypes and methods the other way round. -/
def reversed (g : Graph) : Graph :=
  { g with interfaces := g.interfaces.map fun d =>
      { d with supertypes := d.supertypes.reverse, methods := d.methods.reverse } }

theorem reordered_reversed (g : Graph) :
    Table.Reordered g.interfaces g.reversed.interfaces := by
  rw [Table.Reordered, reversed, List.forall₂_map_right_iff]
  refine List.forall₂_same.mpr fun d _ => ?_
  exact ⟨rfl, d.supertypes.reverse_perm, d.methods.reverse_perm⟩

/-- Two supertypes share an ancestor, and one of them leads back to the root. -/
def kin : Graph where
  interfaces := [
    { qualifiedName := "k::Root", simpleName := "Root", supertypes := [1, 2],
      methods := [
        { name := "id", returnType := ⟨"int"⟩, site := .method "k::Root" "id" },
        { name := "tag", returnType := ⟨"String"⟩, site := .method "k::Root" "tag" }],
      site := .interface "k::Root" },
    { qualifiedName := "k::Left", simpleName := "Left", supertypes := [3],
      methods := [{ name := "size", returnType := ⟨"int"⟩, site := .method "k::Left" "size" }],
      site := .interface "k::Left" },
    { qualifiedName := "k::Right", simpleName := "Right", supertypes := [3, 0],
      methods := [
        { name := "tag", returnType := ⟨"String"⟩, site := .method "k::Right" "tag" },
        { name := "hue", returnType := ⟨"String"⟩, site := .method "k::Right" "hue" }],
      site := .interface "k::Right" },
    { qualifiedName := "k::Shared", simpleName := "Shared",
      methods := [
        { name := "id", returnType := ⟨"int"⟩, site := .method "k::Shared" "id" },
        { name := "age", returnType := ⟨"int"⟩, site := .method "k::Shared" "age" }],
      site := .interface "k::Shared" }]

/-- The components come in another order and are the same otherwise. -/
theorem derive_reordered_kin :
    ∃ r r', (kin.derive (({} : Settings).setConflicts .reject) .suffixes 0).1.record = some r ∧
      (kin.reversed.derive (({} : Settings).setConflicts .reject) .suffixes 0).1.record = some r' ∧
      r.names = ["id", "tag", "size", "age", "hue"] ∧
      r'.names = ["tag", "id", "hue", "age", "size"] ∧
      (∀ name, name ∈ r'.names ↔ name ∈ r.names) ∧
      ∀ name type, (∃ c ∈ r'.components, c.name = name ∧ c.type = type) ↔
        ∃ c ∈ r.components, c.name = name ∧ c.type = type := by
  have hnames : kin.catalog.DistinctNames 0 :=
    Table.distinctNames (by decide) (by decide) (by decide)
  obtain ⟨hsome, hsame⟩ := derive_reordered kin.reordered_reversed hnames (by decide)
    (({} : Settings).setConflicts .reject) .suffixes
  have hrecord : (kin.derive (({} : Settings).setConflicts .reject) .suffixes 0).1.record.map
      (·.names) = some ["id", "tag", "size", "age", "hue"] := by
    decide +kernel
  have hrecord' : (kin.reversed.derive (({} : Settings).setConflicts .reject) .suffixes
      0).1.record.map (·.names) = some ["tag", "id", "hue", "age", "size"] := by
    decide +kernel
  obtain ⟨r, hr, hrnames⟩ := Option.map_eq_some_iff.mp hrecord
  obtain ⟨r', hr', hrnames'⟩ := Option.map_eq_some_iff.mp hrecord'
  obtain ⟨hsamenames, htypes⟩ := hsame r r' hr hr'
  exact ⟨r, r', hr, hr', hrnames, hrnames', hsamenames, htypes rfl⟩

end Graph

end InterfaceRecord
