/-
  Catalogs that correspond when their handles are renamed. It is enough that they do on interfaces
  that are closed under supertypes, for a derivation asks about no others. The pre-order and the
  declarations along it are then renamed, with the same rulings, the same candidates kept and the
  same faults, so a derivation comes to the same outline and to the same faults
  (`Corresponds.derive`). Sites are not compared, and types only by their texts.
-/
import InterfaceRecord.Derivation
import InterfaceRecord.Proofs.Course

namespace InterfaceRecord

/-- The same ruling with another type. -/
def Ruling.withType {T T' : Type} (type : T') : Ruling T → Ruling T'
  | .accept name _ => .accept name type
  | .skip => .skip
  | .reject fault => .reject fault

/-- New handles for interfaces and methods. -/
structure Renaming (I M I' M' : Type) where
  interface : I → I'
  method : M → M'

namespace Renaming

variable {I M I' M' : Type}

/-- A method and its interface under their new handles. -/
def declaration (ρ : Renaming I M I' M') (d : I × M) : I' × M' :=
  (ρ.interface d.1, ρ.method d.2)

@[simp] theorem declaration_fst (ρ : Renaming I M I' M') (d : I × M) :
    (ρ.declaration d).1 = ρ.interface d.1 := rfl

@[simp] theorem declaration_snd (ρ : Renaming I M I' M') (d : I × M) :
    (ρ.declaration d).2 = ρ.method d.2 := rfl

end Renaming

namespace Catalog

variable {I M T S I' M' T' S' : Type}

/-- `d` is a method that an interface with `R` declares. -/
def Declares (g : Catalog I M T S Unit) (R : I → Prop) (d : I × M) : Prop :=
  R d.1 ∧ d.2 ∈ g.methods d.1

/-- Two methods answer alike as far as a derivation can tell. The text of a type is compared only
where the type is not void. -/
structure SameMethod (g : Catalog I M T S Unit) (g' : Catalog I' M' T' S' Unit) (m : M) (m' : M') :
    Prop where
  name : g'.methodName m' = g.methodName m
  isStatic : g'.isStatic m' = g.isStatic m
  isDefault : g'.isDefault m' = g.isDefault m
  isPublic : g'.isPublic m' = g.isPublic m
  parameters : (g'.parameters m').isEmpty = (g.parameters m).isEmpty
  typeParameters : (g'.methodTypeParameters m').isEmpty = (g.methodTypeParameters m).isEmpty
  ignoresDefault : g'.ignoresDefault m' = g.ignoresDefault m
  initializerName : g'.initializerName m' = g.initializerName m
  isVoid : g'.isVoid (g'.returnType m') () = g.isVoid (g.returnType m) ()
  typeText : g.isVoid (g.returnType m) () = (false, ()) →
    g'.typeText (g'.returnType m') = g.typeText (g.returnType m)

/-- On the interfaces with `R` and on their methods `g'` answers under new handles what `g`
answers, as far as a derivation can tell. -/
structure Corresponds (g : Catalog I M T S Unit) (g' : Catalog I' M' T' S' Unit) (R : I → Prop)
    (ρ : Renaming I M I' M') : Prop where
  separator : g'.separator = g.separator
  closed : ∀ i, R i → ∀ p ∈ g.supertypes i, R p
  qualifiedName : ∀ i, R i → g'.qualifiedName (ρ.interface i) = g.qualifiedName i
  simpleName : ∀ i, R i → g'.simpleName (ρ.interface i) = g.simpleName i
  typeParameters : ∀ i, R i →
    (g'.typeParameters (ρ.interface i)).map g'.typeText = (g.typeParameters i).map g.typeText
  supertypes : ∀ i, R i → g'.supertypes (ρ.interface i) = (g.supertypes i).map ρ.interface
  methods : ∀ i, R i → g'.methods (ρ.interface i) = (g.methods i).map ρ.method
  method : ∀ d, g.Declares R d → SameMethod g g' d.2 (ρ.method d.2)
  sameType : ∀ d e, g.Declares R d → g.Declares R e →
    g'.sameType (g'.returnType (ρ.method d.2)) (g'.returnType (ρ.method e.2)) =
      g.sameType (g.returnType d.2) (g.returnType e.2)
  constants : ∀ d, g.Declares R d → ∀ name,
    (g'.constants (ρ.interface d.1)).any
        (g'.isInitializerConstant name (g'.returnType (ρ.method d.2))) =
      (g.constants d.1).any (g.isInitializerConstant name (g.returnType d.2))

variable {g : Catalog I M T S Unit} {g' : Catalog I' M' T' S' Unit} {R : I → Prop}
  {ρ : Renaming I M I' M'}

/-! ## Order -/

/-- What is reached from an interface with `R` is one. -/
theorem Corresponds.of_reaches (h : g.Corresponds g' R ρ) {root i : I} (hr : R root)
    (hi : g.Reaches root i) : R i :=
  hi.of_closed h.closed hr

/-- Names are met again under new handles where they are met under old ones. -/
theorem Corresponds.map_qualifiedName (h : g.Corresponds g' R ρ) {is : List I}
    (his : ∀ i ∈ is, R i) :
    (is.map ρ.interface).map g'.qualifiedName = is.map g.qualifiedName := by
  rw [List.map_map]
  exact List.map_congr_left fun i hi => h.qualifiedName i (his i hi)

theorem Corresponds.preorderFrom (h : g.Corresponds g' R ρ) {todo entered : List I}
    (htodo : ∀ i ∈ todo, R i) (hentered : ∀ i ∈ entered, R i) :
    g'.preorderFrom (todo.map ρ.interface) (entered.map ρ.interface) =
      (g.preorderFrom todo entered).map ρ.interface := by
  induction todo, entered using preorderFrom.induct g with
  | case1 entered => rw [List.map_nil, preorderFrom_nil, preorderFrom_nil]
  | case2 i todo entered hi ih =>
    have hi' : g'.qualifiedName (ρ.interface i) ∈
        (entered.map ρ.interface).map g'.qualifiedName := by
      rwa [h.map_qualifiedName hentered, h.qualifiedName i (htodo i List.mem_cons_self)]
    rw [List.map_cons, preorderFrom_cons_of_mem g _ hi, preorderFrom_cons_of_mem g' _ hi']
    exact ih (fun j hj => htodo j (List.mem_cons_of_mem i hj)) hentered
  | case3 i todo entered hi ih =>
    have hRi : R i := htodo i List.mem_cons_self
    have hi' : g'.qualifiedName (ρ.interface i) ∉
        (entered.map ρ.interface).map g'.qualifiedName := by
      rwa [h.map_qualifiedName hentered, h.qualifiedName i hRi]
    rw [List.map_cons, preorderFrom_cons_of_not_mem g _ hi,
      preorderFrom_cons_of_not_mem g' _ hi', h.supertypes i hRi, ← List.map_append]
    have htodo' : ∀ j ∈ g.supertypes i ++ todo, R j := by
      intro j hj
      rcases List.mem_append.mp hj with hj | hj
      · exact h.closed i hRi j hj
      · exact htodo j (List.mem_cons_of_mem i hj)
    have hentered' : ∀ j ∈ entered ++ [i], R j := by
      intro j hj
      rcases List.mem_append.mp hj with hj | hj
      · exact hentered j hj
      · rwa [List.mem_singleton.mp hj]
    have hnext : (entered ++ [i]).map ρ.interface = entered.map ρ.interface ++ [ρ.interface i] := by
      rw [List.map_append, List.map_singleton]
    rw [← hnext]
    exact ih htodo' hentered'

theorem Corresponds.preorder (h : g.Corresponds g' R ρ) {root : I} (hr : R root) :
    g'.preorder (ρ.interface root) = (g.preorder root).map ρ.interface := by
  have htodo : ∀ i ∈ [root], R i := fun i hi => by rwa [List.mem_singleton.mp hi]
  have hentered : ∀ i ∈ ([] : List I), R i := fun i hi => absurd hi List.not_mem_nil
  exact h.preorderFrom htodo hentered

theorem Corresponds.declarations (h : g.Corresponds g' R ρ) {is : List I} (his : ∀ i ∈ is, R i) :
    g'.declarations (is.map ρ.interface) = (g.declarations is).map ρ.declaration := by
  induction is with
  | nil => rfl
  | cons i is ih =>
    have hfront : g'.declarations [ρ.interface i] = (g.declarations [i]).map ρ.declaration := by
      rw [declarations_singleton, declarations_singleton, h.methods i (his i List.mem_cons_self),
        List.map_map, List.map_map]
      rfl
    have hback := ih fun j hj => his j (List.mem_cons_of_mem i hj)
    rw [List.map_cons, ← List.singleton_append, ← List.singleton_append (l := is),
      declarations_append, declarations_append, List.map_append, hfront, hback]

theorem declares_of_mem_declarations {is : List I} (his : ∀ i ∈ is, R i) :
    ∀ d ∈ g.declarations is, g.Declares R d := by
  intro d hd
  obtain ⟨hi, hm⟩ := g.mem_declarations.mp hd
  exact ⟨his d.1 hi, hm⟩

/-! ## Single declarations -/

section

variable {d : I × M}

/-- Methods that answer alike are ruled alike, in interfaces of the same simple name. -/
theorem SameMethod.rulingOf {i : I} {i' : I'} {m : M} {m' : M'} (hm : SameMethod g g' m m')
    (hname : g'.simpleName i' = g.simpleName i) :
    g'.rulingOf (i', m') = (g.rulingOf (i, m)).withType (g'.returnType m') := by
  show (g'.ruling i' m' ()).1 = (g.ruling i m ()).1.withType _
  rw [ruling, ruling, hm.isStatic, hm.isDefault, hm.ignoresDefault, hm.parameters, hm.isVoid,
    hm.typeParameters, hm.name, hname]
  split
  · rfl
  · -- the same answer on the parameters and on void decides both
    split
    split
    · rfl
    · split <;> rfl

theorem Corresponds.rulingOf (h : g.Corresponds g' R ρ) (hd : g.Declares R d) :
    g'.rulingOf (ρ.declaration d) =
      (g.rulingOf d).withType (g'.returnType (ρ.method d.2)) :=
  (h.method d hd).rulingOf (h.simpleName d.1 hd.1)

theorem Corresponds.isAccepted (h : g.Corresponds g' R ρ) (hd : g.Declares R d) :
    g'.isAccepted (ρ.declaration d) = g.isAccepted d := by
  rw [Catalog.isAccepted, Catalog.isAccepted, h.rulingOf hd]
  cases g.rulingOf d <;> rfl

/-- The type of a candidate is not void. -/
theorem isVoid_of_isAccepted (h : g.isAccepted d = true) :
    g.isVoid (g.returnType d.2) () = (false, ()) := by
  rw [Catalog.isAccepted] at h
  cases hr : g.rulingOf d with
  | accept name type => exact (g.of_rulingOf_accept hr).2.2
  | skip => rw [hr] at h; cases h
  | reject fault => rw [hr] at h; cases h

/-- The types of candidates have the same texts. -/
theorem Corresponds.typeText (h : g.Corresponds g' R ρ) (hd : g.Declares R d)
    (ha : g.isAccepted d = true) :
    g'.typeText (g'.returnType (ρ.method d.2)) = g.typeText (g.returnType d.2) :=
  (h.method d hd).typeText (isVoid_of_isAccepted ha)

theorem Corresponds.initializer? (h : g.Corresponds g' R ρ) (hd : g.Declares R d)
    (target : String) :
    g'.initializer? (ρ.interface d.1) target (g'.returnType (ρ.method d.2)) =
      g.initializer? d.1 target (g.returnType d.2) := by
  have hmember : ∀ m ∈ g.methods d.1,
      g'.isInitializerMethod target (g'.returnType (ρ.method d.2)) (ρ.method m) =
        g.isInitializerMethod target (g.returnType d.2) m := by
    intro m hm
    have hdm : g.Declares R (d.1, m) := ⟨hd.1, hm⟩
    have hsame := h.method (d.1, m) hdm
    have htype := h.sameType (d.1, m) d hdm hd
    simp only at hsame htype
    rw [isInitializerMethod, isInitializerMethod, hsame.isStatic, hsame.isPublic, hsame.name,
      htype]
  have hmethods : (g'.methods (ρ.interface d.1)).any
        (g'.isInitializerMethod target (g'.returnType (ρ.method d.2))) =
      (g.methods d.1).any (g.isInitializerMethod target (g.returnType d.2)) := by
    rw [h.methods d.1 hd.1, List.any_map, Bool.eq_iff_iff, List.any_eq_true, List.any_eq_true]
    refine exists_congr fun m => and_congr_right fun hm => ?_
    rw [Function.comp_apply, hmember m hm]
  rw [Catalog.initializer?, Catalog.initializer?, hmethods, h.constants d hd]

theorem Corresponds.initializerOf (h : g.Corresponds g' R ρ) (hd : g.Declares R d) :
    g'.initializerOf (ρ.declaration d) = g.initializerOf d := by
  rw [Catalog.initializerOf, Catalog.initializerOf, Renaming.declaration_snd,
    (h.method d hd).initializerName]
  cases g.initializerName d.2 with
  | none => rfl
  | some target => exact h.initializer? hd target

theorem Corresponds.missing? (h : g.Corresponds g' R ρ) (hd : g.Declares R d) :
    g'.missing? (ρ.declaration d) = g.missing? d := by
  rw [Catalog.missing?, Catalog.missing?, Renaming.declaration_snd, Renaming.declaration_fst,
    (h.method d hd).initializerName]
  cases g.initializerName d.2 with
  | none => rfl
  | some target =>
    dsimp only
    rw [h.initializer? hd]

/-- Candidates are in conflict for the same reason, since their types are not void. -/
theorem Corresponds.conflict? (h : g.Corresponds g' R ρ) {first : I × M}
    (hfirst : g.Declares R first) (hd : g.Declares R d) (hfirstAccepted : g.isAccepted first = true)
    (hdAccepted : g.isAccepted d = true) :
    g'.conflict? (ρ.declaration first) (ρ.declaration d) = g.conflict? first d := by
  simp only [Catalog.conflict?, Renaming.declaration_fst, Renaming.declaration_snd,
    h.sameType first d hfirst hd, (h.method d hd).name, h.simpleName first.1 hfirst.1,
    h.simpleName d.1 hd.1, h.typeText hfirst hfirstAccepted, h.typeText hd hdAccepted]

end

/-! ## Declarations in order -/

section

variable {ds : List (I × M)}

theorem Corresponds.accepted (h : g.Corresponds g' R ρ) (hds : ∀ d ∈ ds, g.Declares R d) :
    g'.accepted (ds.map ρ.declaration) = (g.accepted ds).map ρ.declaration := by
  rw [Catalog.accepted, Catalog.accepted, List.filter_map]
  refine congrArg (List.map ρ.declaration) (List.filter_congr fun d hd => ?_)
  exact h.isAccepted (hds d hd)

theorem declares_of_mem_accepted (hds : ∀ d ∈ ds, g.Declares R d) :
    ∀ d ∈ g.accepted ds, g.Declares R d :=
  fun d hd => hds d (List.mem_filter.mp hd).1

theorem Corresponds.first? (h : g.Corresponds g' R ρ) (hds : ∀ d ∈ ds, g.Declares R d)
    (name : String) :
    g'.first? (ds.map ρ.declaration) name = (g.first? ds name).map ρ.declaration := by
  have hname : ∀ d ∈ g.accepted ds,
      (g'.methodName (ρ.declaration d).2 == name) = (g.methodName d.2 == name) := by
    intro d hd
    rw [Renaming.declaration_snd, (h.method d (declares_of_mem_accepted hds d hd)).name]
  rw [Catalog.first?, Catalog.first?, h.accepted hds, List.find?_map, ← List.head?_filter,
    ← List.head?_filter]
  exact congrArg (fun found => (List.head? found).map ρ.declaration) (List.filter_congr hname)

theorem Corresponds.kept (h : g.Corresponds g' R ρ) (hds : ∀ d ∈ ds, g.Declares R d) :
    g'.kept (ds.map ρ.declaration) = (g.kept ds).map ρ.declaration := by
  rw [Catalog.kept, Catalog.kept, h.accepted hds]
  exact firsts_map fun d hd => (h.method d (declares_of_mem_accepted hds d hd)).name

variable (policy : ConflictPolicy)

theorem Corresponds.fault? (h : g.Corresponds g' R ρ) (hds : ∀ d ∈ ds, g.Declares R d)
    {d : I × M} (hd : g.Declares R d) :
    g'.fault? policy (ds.map ρ.declaration) (ρ.declaration d) = g.fault? policy ds d := by
  rw [Catalog.fault?, Catalog.fault?, h.rulingOf hd]
  cases hr : g.rulingOf d with
  | skip => rfl
  | reject fault => rfl
  | accept name type =>
    have hdAccepted : g.isAccepted d = true := by rw [Catalog.isAccepted, hr]
    dsimp only [Ruling.withType]
    rw [h.first? hds]
    cases hf : g.first? ds name with
    | none => exact h.missing? hd
    | some first =>
      obtain ⟨hmem, hfirstAccepted, -⟩ := g.mem_of_first?_eq_some hf
      cases policy with
      | firstWins => rfl
      | reject => exact h.conflict? (hds first hmem) hd hfirstAccepted hdAccepted

/-- The same faults are found, in the renamed methods. -/
theorem Corresponds.faults (h : g.Corresponds g' R ρ) {before : List (I × M)}
    (hbefore : ∀ d ∈ before, g.Declares R d) (hds : ∀ d ∈ ds, g.Declares R d) :
    g'.faults policy (before.map ρ.declaration) (ds.map ρ.declaration) =
      (g.faults policy before ds).map fun f => (ρ.declaration f.1, f.2) := by
  induction ds generalizing before with
  | nil => rfl
  | cons d ds ih =>
    have hd : g.Declares R d := hds d List.mem_cons_self
    have hbefore' : ∀ e ∈ before ++ [d], g.Declares R e := by
      intro e he
      rcases List.mem_append.mp he with he | he
      · exact hbefore e he
      · rwa [List.mem_singleton.mp he]
    have hrest := ih hbefore' fun e he => hds e (List.mem_cons_of_mem d he)
    rw [List.map_append, List.map_singleton] at hrest
    rw [List.map_cons, Catalog.faults, Catalog.faults, h.fault? policy hbefore hd, hrest,
      List.map_append, List.map_map]
    rfl

theorem map_fault_findings (ds : List (I × M)) :
    (g.findings policy ds).map (·.fault) = (g.faults policy [] ds).map (·.2) := by
  rw [findings, List.map_map]
  rfl

theorem Corresponds.map_fault_findings (h : g.Corresponds g' R ρ)
    (hds : ∀ d ∈ ds, g.Declares R d) :
    (g'.findings policy (ds.map ρ.declaration)).map (·.fault) =
      (g.findings policy ds).map (·.fault) := by
  have hbefore : ∀ d ∈ ([] : List (I × M)), g.Declares R d :=
    fun d hd => absurd hd List.not_mem_nil
  have hfaults := h.faults policy hbefore hds
  rw [List.map_nil] at hfaults
  rw [Catalog.map_fault_findings, Catalog.map_fault_findings, hfaults, List.map_map]
  rfl

theorem Corresponds.findings_eq_nil_iff (h : g.Corresponds g' R ρ)
    (hds : ∀ d ∈ ds, g.Declares R d) :
    g'.findings policy (ds.map ρ.declaration) = [] ↔ g.findings policy ds = [] := by
  have hfaults := h.map_fault_findings policy hds
  constructor
  · intro hnil
    rw [hnil, List.map_nil] at hfaults
    exact List.map_eq_nil_iff.mp hfaults.symm
  · intro hnil
    rw [hnil, List.map_nil] at hfaults
    exact List.map_eq_nil_iff.mp hfaults

end

/-! ## Traversals -/

/-- Of the beginnings of a list there is at most one that is the whole list or bad, and of which
no shorter beginning is bad. -/
theorem prefix_unique {α : Type} (bad : List α → Prop) {all is js : List α} (his : is <+: all)
    (hjs : js <+: all) (hiBefore : ∀ front, front <+: is → front ≠ is → ¬ bad front)
    (hjBefore : ∀ front, front <+: js → front ≠ js → ¬ bad front)
    (hi : ¬ bad is → is = all) (hj : ¬ bad js → js = all) : is = js := by
  rcases List.prefix_or_prefix_of_prefix his hjs with hle | hle
  · by_contra hne
    have hall := hi (hjBefore is hle hne)
    exact hne (hle.eq_of_length_le (hall ▸ hjs.length_le))
  · by_contra hne
    have hall := hj (hiBefore js hle (Ne.symm hne))
    exact hne (hle.eq_of_length_le (hall ▸ his.length_le)).symm

section

variable {root : I}

variable (policy : ConflictPolicy)

/-- Two traversals along the same pre-order enter the same interfaces, up to new handles, if
something is wrong at the same places. -/
theorem entered_eq_map {root' : I'} {f : I → I'}
    (horder : g'.preorder root' = (g.preorder root).map f)
    (hiff : ∀ is, is <+: g.preorder root →
      (g'.findings policy (g'.declarations (is.map f)) = [] ↔
        g.findings policy (g.declarations is) = [])) :
    (g'.traverse policy root' ()).entered = (g.traverse policy root ()).entered.map f := by
  obtain ⟨hpre, hcov, hall⟩ := g.covers_traverse policy root
  obtain ⟨hpre', hcov', hall'⟩ := g'.covers_traverse policy root'
  rw [horder] at hpre' hall'
  -- both stop behind the first interface with which something is wrong
  apply prefix_unique (fun is => g'.findings policy (g'.declarations is) ≠ []) hpre' (hpre.map f)
  · exact fun front hf hne hbad => hbad (hcov'.clean front hf hne)
  · intro front hf hne hbad
    obtain ⟨is, his, rfl⟩ := List.prefix_map_iff.mp hf
    have hne' : is ≠ (g.traverse policy root ()).entered := fun he => hne (by rw [he])
    exact hbad ((hiff is (his.trans hpre)).mpr (hcov.clean is his hne'))
  · exact fun hgood => hall' (hcov'.failed_eq_false_iff.mpr (not_not.mp hgood))
  · intro hgood
    have hclean := (hiff _ hpre).mp (not_not.mp hgood)
    rw [hall (hcov.failed_eq_false_iff.mpr hclean)]

theorem Corresponds.of_mem_entered (h : g.Corresponds g' R ρ) (hr : R root) :
    ∀ i ∈ (g.traverse policy root ()).entered, R i := by
  intro i hi
  have hmem := (g.covers_traverse policy root).1.subset hi
  exact h.of_reaches hr (g.reaches_of_mem_preorder hmem)

/-- A traversal enters the renamed interfaces. -/
theorem Corresponds.entered (h : g.Corresponds g' R ρ) (hr : R root) :
    (g'.traverse policy (ρ.interface root) ()).entered =
      (g.traverse policy root ()).entered.map ρ.interface := by
  apply entered_eq_map policy (h.preorder hr)
  intro is his
  have hR : ∀ i ∈ is, R i :=
    fun i hi => h.of_reaches hr (g.reaches_of_mem_preorder (his.subset hi))
  rw [h.declarations hR, h.findings_eq_nil_iff policy (declares_of_mem_declarations hR)]

theorem Corresponds.map_fault_diagnostics (h : g.Corresponds g' R ρ) (hr : R root) :
    (g'.traverse policy (ρ.interface root) ()).diagnostics.map (·.fault) =
      (g.traverse policy root ()).diagnostics.map (·.fault) := by
  have hR := h.of_mem_entered policy hr
  rw [(g'.covers_traverse policy (ρ.interface root)).2.1.accounts.diagnostics,
    (g.covers_traverse policy root).2.1.accounts.diagnostics, h.entered policy hr, h.declarations hR,
    h.map_fault_findings policy (declares_of_mem_declarations hR)]

/-- A component without reference to the interfaces it comes from. -/
def outlineOf (g : Catalog I M T S Unit) (c : Component M T) : ComponentOutline :=
  ⟨c.name, g.typeText c.type, c.initializer⟩

theorem Corresponds.outlineOf_component (h : g.Corresponds g' R ρ) {d : I × M}
    (hd : g.Declares R d) (ha : g.isAccepted d = true) :
    g'.outlineOf (g'.component (ρ.declaration d)) = g.outlineOf (g.component d) := by
  rw [outlineOf, outlineOf, component, component, h.initializerOf hd]
  simp only [Renaming.declaration_snd, (h.method d hd).name, h.typeText hd ha]

theorem Corresponds.map_outlineOf_components (h : g.Corresponds g' R ρ) (hr : R root) :
    (g'.traverse policy (ρ.interface root) ()).components.map g'.outlineOf =
      (g.traverse policy root ()).components.map g.outlineOf := by
  have hR := h.of_mem_entered policy hr
  have hds := declares_of_mem_declarations (g := g) hR
  rw [(g'.covers_traverse policy (ρ.interface root)).2.1.accounts.components,
    (g.covers_traverse policy root).2.1.accounts.components, h.entered policy hr, h.declarations hR,
    h.kept hds, List.map_map, List.map_map, List.map_map]
  apply List.map_congr_left
  intro d hd
  obtain ⟨hmem, ha⟩ := List.mem_filter.mp ((firsts_sublist _ _).subset hd)
  exact h.outlineOf_component (hds d hmem) ha

/-! ## Derivations -/

theorem Corresponds.outline_recordOf (h : g.Corresponds g' R ρ) (settings : Settings)
    (scheme : NameScheme) (hr : R root) {cs : List (Component M T)}
    {cs' : List (Component M' T')} (hcs : cs'.map g'.outlineOf = cs.map g.outlineOf) :
    (g'.recordOf settings scheme (ρ.interface root) cs').outline g'.typeText =
      (g.recordOf settings scheme root cs).outline g.typeText := by
  have hcs' : cs'.map (fun c => (⟨c.name, g'.typeText c.type, c.initializer⟩ :
      ComponentOutline)) = cs.map fun c => ⟨c.name, g.typeText c.type, c.initializer⟩ := hcs
  rw [Record.outline, Record.outline, recordOf, recordOf]
  dsimp only
  rw [h.qualifiedName root hr, h.separator, h.typeParameters root hr, hcs']

/-- Derivations from catalogs that correspond come to the same outline, or both to none, and
report the same faults. -/
theorem Corresponds.derive (h : g.Corresponds g' R ρ) (settings : Settings) (scheme : NameScheme)
    {root : I} (hr : R root) :
    (g'.derive settings scheme (ρ.interface root) ()).record.map (·.outline g'.typeText) =
        (g.derive settings scheme root ()).record.map (·.outline g.typeText) ∧
      (g'.derive settings scheme (ρ.interface root) ()).diagnostics.map (·.fault) =
        (g.derive settings scheme root ()).diagnostics.map (·.fault) := by
  have hfaults := h.map_fault_diagnostics settings.conflicts hr
  have hcs := h.map_outlineOf_components settings.conflicts hr
  have hfailed : (g'.traverse settings.conflicts (ρ.interface root) ()).failed =
      (g.traverse settings.conflicts root ()).failed := by
    have hlen := congrArg List.isEmpty hfaults
    rw [List.isEmpty_map, List.isEmpty_map] at hlen
    rw [Traversal.failed, Traversal.failed, Diagnostics.failed, Diagnostics.failed, hlen]
  have hempty : (g'.traverse settings.conflicts (ρ.interface root) ()).components.isEmpty =
      (g.traverse settings.conflicts root ()).components.isEmpty := by
    have hlen := congrArg List.isEmpty hcs
    rwa [List.isEmpty_map, List.isEmpty_map] at hlen
  rw [Catalog.derive, Catalog.derive]
  dsimp only
  rw [hfailed, hempty]
  split
  · exact ⟨rfl, hfaults⟩
  · split
    · refine ⟨rfl, ?_⟩
      rw [Diagnostics.add, Diagnostics.add, List.map_append, List.map_append, hfaults]
      rfl
    · refine ⟨?_, hfaults⟩
      rw [Option.map_some, Option.map_some, h.outline_recordOf settings scheme hr hcs]

end

end Catalog

end InterfaceRecord
