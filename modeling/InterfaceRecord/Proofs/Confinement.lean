/-
  A derivation asks about what its root reaches and about nothing else. Where another catalog gives
  the same answers there (`AgreesFrom`), it makes the same moves (`Moves.agrees`), so a traversal and
  a derivation come to the same, events included (`AgreesFrom.derive`). Calls that put a graph
  together and spare what the root reaches leave that as it is, however many there are
  (`Spares.of_reflTransGen`), and with it all that is derived (`derive_beyond`).
-/
import InterfaceRecord.Derivation
import InterfaceRecord.Graph
import InterfaceRecord.Proofs.Moments
import InterfaceRecord.Proofs.Outcome
import InterfaceRecord.Proofs.Relocation

namespace InterfaceRecord

open Relation

variable {I M T S V : Type}

/-- The task in which a step is taken. -/
def Step.task : Step I M → Task I M
  | revisited i => .meet i
  | entered i => .meet i
  | skipped i m => .examine i m
  | repeated i m => .examine i m
  | accepted i m => .examine i m
  | diagnosed i m _ => .examine i m
  | expanded i => .expand i

namespace Catalog

/-! ## The same answers about what is reached -/

/-- All answers about a method at once. -/
def methodEntry (g : Catalog I M T S V) (m : M) : MethodEntry T S where
  name := g.methodName m
  returnType := g.returnType m
  parameters := g.parameters m
  typeParameters := g.methodTypeParameters m
  ignoresDefault := g.ignoresDefault m
  initializer := g.initializerName m
  isStatic := g.isStatic m
  isDefault := g.isDefault m
  isPublic := g.isPublic m
  site := g.methodSite m

/-- On the interfaces that `root` reaches, and on their methods, `g'` answers what `g` answers. -/
structure AgreesFrom (g g' : Catalog I M T S V) (root : I) : Prop where
  separator : g'.separator = g.separator
  qualifiedName : ∀ i, g.Reaches root i → g'.qualifiedName i = g.qualifiedName i
  simpleName : ∀ i, g.Reaches root i → g'.simpleName i = g.simpleName i
  typeParameters : ∀ i, g.Reaches root i → g'.typeParameters i = g.typeParameters i
  supertypes : ∀ i, g.Reaches root i → g'.supertypes i = g.supertypes i
  methods : ∀ i, g.Reaches root i → g'.methods i = g.methods i
  constants : ∀ i, g.Reaches root i → g'.constants i = g.constants i
  interfaceSite : ∀ i, g.Reaches root i → g'.interfaceSite i = g.interfaceSite i
  methodEntry : ∀ i, g.Reaches root i → ∀ m ∈ g.methods i, g'.methodEntry m = g.methodEntry m
  typeText : g'.typeText = g.typeText
  sameType : g'.sameType = g.sameType
  isVoid : g'.isVoid = g.isVoid

variable {g g' : Catalog I M T S V} {root : I}

/-- Both reach the same from there. -/
theorem AgreesFrom.reaches_iff (h : g.AgreesFrom g' root) {i : I} :
    g'.Reaches root i ↔ g.Reaches root i := by
  constructor
  · intro hi
    induction hi with
    | refl => exact g.reaches_self root
    | tail _ hp ih => exact ih.supertype (h.supertypes _ ih ▸ hp)
  · intro hi
    induction hi with
    | refl => exact g'.reaches_self root
    | tail hj hp ih => exact ih.supertype ((h.supertypes _ hj).symm ▸ hp)

/-! ## One method -/

section

variable {i : I} {m : M}

theorem AgreesFrom.methodName (h : g.AgreesFrom g' root) (hi : g.Reaches root i)
    (hm : m ∈ g.methods i) : g'.methodName m = g.methodName m :=
  congrArg MethodEntry.name (h.methodEntry i hi m hm)

theorem AgreesFrom.returnType (h : g.AgreesFrom g' root) (hi : g.Reaches root i)
    (hm : m ∈ g.methods i) : g'.returnType m = g.returnType m :=
  congrArg MethodEntry.returnType (h.methodEntry i hi m hm)

theorem AgreesFrom.isStatic (h : g.AgreesFrom g' root) (hi : g.Reaches root i)
    (hm : m ∈ g.methods i) : g'.isStatic m = g.isStatic m :=
  congrArg MethodEntry.isStatic (h.methodEntry i hi m hm)

theorem AgreesFrom.methodSite (h : g.AgreesFrom g' root) (hi : g.Reaches root i)
    (hm : m ∈ g.methods i) : g'.methodSite m = g.methodSite m :=
  congrArg MethodEntry.site (h.methodEntry i hi m hm)

theorem AgreesFrom.ruling (h : g.AgreesFrom g' root) (hi : g.Reaches root i) (hm : m ∈ g.methods i)
    (v : V) : g'.ruling i m v = g.ruling i m v := by
  have hentry := h.methodEntry i hi m hm
  have hparameters : g'.parameters m = g.parameters m := congrArg MethodEntry.parameters hentry
  have htypes : g'.methodTypeParameters m = g.methodTypeParameters m :=
    congrArg MethodEntry.typeParameters hentry
  have hignores : g'.ignoresDefault m = g.ignoresDefault m :=
    congrArg MethodEntry.ignoresDefault hentry
  have hdefault : g'.isDefault m = g.isDefault m := congrArg MethodEntry.isDefault hentry
  simp only [Catalog.ruling, h.simpleName i hi, h.methodName hi hm, h.returnType hi hm,
    h.isStatic hi hm, hparameters, htypes, hignores, hdefault, h.isVoid]

theorem AgreesFrom.isInitializerMethod (h : g.AgreesFrom g' root) (hi : g.Reaches root i)
    (hm : m ∈ g.methods i) (target : String) (type : T) :
    g'.isInitializerMethod target type m = g.isInitializerMethod target type m := by
  have hpublic : g'.isPublic m = g.isPublic m :=
    congrArg MethodEntry.isPublic (h.methodEntry i hi m hm)
  simp only [Catalog.isInitializerMethod, h.isStatic hi hm, hpublic, h.methodName hi hm,
    h.returnType hi hm, h.sameType]

/-- First values come from the interface itself, and so from one that is reached. -/
theorem AgreesFrom.initializer? (h : g.AgreesFrom g' root) (hi : g.Reaches root i)
    (target : String) (type : T) :
    g'.initializer? i target type = g.initializer? i target type := by
  have hmethods : (g'.methods i).any (g'.isInitializerMethod target type) =
      (g.methods i).any (g.isInitializerMethod target type) := by
    rw [h.methods i hi, Bool.eq_iff_iff, List.any_eq_true, List.any_eq_true]
    refine exists_congr fun m => and_congr_right fun hm => ?_
    rw [h.isInitializerMethod hi hm]
  have hconstant : g'.isInitializerConstant target type = g.isInitializerConstant target type := by
    funext c
    simp only [isInitializerConstant, h.sameType]
  rw [Catalog.initializer?, Catalog.initializer?, hmethods, h.constants i hi, hconstant]

theorem AgreesFrom.firstValue (h : g.AgreesFrom g' root) (hi : g.Reaches root i)
    (hm : m ∈ g.methods i) (type : T) (w : Traversal I M T S V) :
    g'.firstValue i m type w = g.firstValue i m type w := by
  have hinitializer : g'.initializerName m = g.initializerName m :=
    congrArg MethodEntry.initializer (h.methodEntry i hi m hm)
  simp only [Catalog.firstValue, hinitializer, h.initializer? hi, h.methodSite hi hm]

theorem AgreesFrom.considerFresh (h : g.AgreesFrom g' root) (hi : g.Reaches root i)
    (hm : m ∈ g.methods i) (name : String) (type : T) (w : Traversal I M T S V) :
    g'.considerFresh i m name type w = g.considerFresh i m name type w := by
  simp only [Catalog.considerFresh, h.isVoid, h.simpleName i hi, h.methodSite hi hm,
    h.firstValue hi hm]

theorem AgreesFrom.consider (h : g.AgreesFrom g' root) (hi : g.Reaches root i)
    (hm : m ∈ g.methods i) (policy : ConflictPolicy) (name : String) (type : T)
    (w : Traversal I M T S V) :
    g'.consider policy i m name type w = g.consider policy i m name type w := by
  simp only [Catalog.consider, h.sameType, h.typeText, h.simpleName i hi, h.methodSite hi hm,
    h.considerFresh hi hm]

theorem AgreesFrom.examine (h : g.AgreesFrom g' root) (hi : g.Reaches root i)
    (hm : m ∈ g.methods i) (policy : ConflictPolicy) (w : Traversal I M T S V) :
    g'.examine policy i w m = g.examine policy i w m := by
  simp only [Catalog.examine, h.ruling hi hm, h.consider hi hm, h.methodSite hi hm]

end

/-! ## One move -/

section

variable {policy : ConflictPolicy} {v : V} {a b : Moment I M T S V}

/-- A task that comes from what is reached is done alike. -/
theorem Moves.agrees (h : g.AgreesFrom g' root) (hab : g.Moves g.supertypes policy a b)
    (ha : ∀ task ∈ a.agenda, g.Known g.supertypes root task) :
    g'.Moves g'.supertypes policy a b := by
  cases hab with
  | stop hfailed => exact .stop hfailed
  | @pass i rest w hfailed hvisited =>
    have hi : g.Reaches root i := (ha _ List.mem_cons_self).reached
    exact .pass hfailed (h.qualifiedName i hi ▸ hvisited)
  | @enter i rest w hfailed hnew =>
    have hi : g.Reaches root i := (ha _ List.mem_cons_self).reached
    have hmove : g'.Moves g'.supertypes policy ⟨.meet i :: rest, w⟩ _ :=
      .enter hfailed ((h.qualifiedName i hi).symm ▸ hnew)
    rwa [h.qualifiedName i hi, h.methods i hi] at hmove
  | @examine i m rest w hinternal =>
    have htask := ha _ List.mem_cons_self
    have hexamine : g'.examine policy i w m = g.examine policy i w m :=
      h.examine htask.reached (htask.declared i m rfl) policy w
    rw [← hexamine] at hinternal ⊢
    exact .examine hinternal
  | @halt i m rest w hinternal =>
    have htask := ha _ List.mem_cons_self
    have hexamine : g'.examine policy i w m = g.examine policy i w m :=
      h.examine htask.reached (htask.declared i m rfl) policy w
    rw [← hexamine] at hinternal ⊢
    exact .halt hinternal
  | @expand i rest w =>
    have hi : g.Reaches root i := (ha _ List.mem_cons_self).reached
    rw [← h.supertypes i hi]
    exact .expand

/-- All that an examination tells is about the method. -/
theorem Outcome.task_of_mem {i : I} {m : M} {w w' : Traversal I M T S V}
    (h : g.Outcome policy i m w w') {s : Step I M} (hs : s ∈ w'.steps) :
    s ∈ w.steps ∨ s.task = .examine i m := by
  have hone {t : Step I M} (ht : t.task = .examine i m) (hs : s ∈ w.steps ++ [t]) :
      s ∈ w.steps ∨ s.task = .examine i m := by
    refine (List.mem_append.mp hs).imp_right fun hs => ?_
    rw [List.mem_singleton.mp hs, ht]
  cases h with
  | skipped => exact hone rfl hs
  | rejected => exact hone rfl hs
  | repeated => exact hone rfl hs
  | conflicting => exact hone rfl hs
  | void => exact hone rfl hs
  | kept => exact hone rfl hs
  | unresolved =>
    rw [Traversal.steps_keep, Traversal.steps_diagnose, List.mem_append] at hs
    rcases hs with hs | hs
    · exact hone rfl hs
    · rw [List.mem_singleton.mp hs]
      exact Or.inr rfl

/-- What is told of was a task. -/
theorem Moves.task_of_mem {supertypes : I → List I} (hab : g.Moves supertypes policy a b)
    {s : Step I M} (hs : s ∈ b.state.steps) : s ∈ a.state.steps ∨ s.task ∈ a.agenda := by
  have hone {t : Step I M} {task : Task I M} {rest : List (Task I M)} {w : Traversal I M T S V}
      (ht : t.task = task) (hs : s ∈ w.steps ++ [t]) : s ∈ w.steps ∨ s.task ∈ task :: rest := by
    refine (List.mem_append.mp hs).imp_right fun hs => ?_
    rw [List.mem_singleton.mp hs, ht]
    exact List.mem_cons_self
  cases hab with
  | stop => exact Or.inl hs
  | pass => exact hone rfl hs
  | enter => exact hone rfl hs
  | @examine i m =>
    refine ((g.outcome_examine policy i m _).task_of_mem hs).imp_right fun htask => ?_
    rw [htask]
    exact List.mem_cons_self
  | @halt i m =>
    refine ((g.outcome_examine policy i m _).task_of_mem hs).imp_right fun htask => ?_
    rw [htask]
    exact List.mem_cons_self
  | expand => exact hone rfl hs

/-! ## Traversals -/

theorem Passes.agrees (h : g.AgreesFrom g' root) (ha : g.Passes g.supertypes policy root v a) :
    g'.Passes g'.supertypes policy root v a := by
  induction ha with
  | refl => exact .refl
  | tail hab hbc ih => exact ih.tail (hbc.agrees h (Passes.known hab))

/-- All steps are about what is reached. -/
theorem Passes.known_of_mem {supertypes : I → List I} (ha : g.Passes supertypes policy root v a) :
    ∀ s ∈ a.state.steps, g.Known supertypes root s.task := by
  induction ha with
  | refl => exact fun _ hs => absurd hs List.not_mem_nil
  | tail hab hbc ih =>
    intro s hs
    rcases hbc.task_of_mem hs with hs | hs
    · exact ih s hs
    · exact Passes.known hab _ hs

theorem AgreesFrom.traverse (h : g.AgreesFrom g' root) (policy : ConflictPolicy) (v : V) :
    g'.traverse policy root v = g.traverse policy root v := by
  have hpasses : g.Passes g.supertypes policy root v ⟨[], g.traverse policy root v⟩ :=
    passes_traverse root v
  exact (passes_traverse root v).state_unique (hpasses.agrees h)

theorem AgreesFrom.event? (h : g.AgreesFrom g' root) {s : Step I M}
    (hs : g.Known g.supertypes root s.task) : s.event? g' = s.event? g := by
  obtain ⟨hi, hm⟩ := hs
  cases s with
  | revisited i => simp only [Step.event?, h.qualifiedName i hi]
  | entered i => simp only [Step.event?, h.qualifiedName i hi]
  | skipped i m => simp only [Step.event?, h.methodName hi (hm i m rfl)]
  | repeated i m => simp only [Step.event?, h.methodName hi (hm i m rfl), h.simpleName i hi]
  | accepted i m =>
    simp only [Step.event?, h.methodName hi (hm i m rfl), h.returnType hi (hm i m rfl), h.typeText,
      h.simpleName i hi]
  | diagnosed i m fault => rfl
  | expanded i => rfl

theorem AgreesFrom.events (h : g.AgreesFrom g' root) (policy : ConflictPolicy) (v : V) :
    g'.events (g.traverse policy root v) = g.events (g.traverse policy root v) := by
  have hpasses : g.Passes g.supertypes policy root v ⟨[], g.traverse policy root v⟩ :=
    passes_traverse root v
  exact List.filterMap_congr fun s hs => h.event? (hpasses.known_of_mem s hs)

/-- A derivation comes to the same wherever the root's interfaces answer the same. -/
theorem AgreesFrom.derive (h : g.AgreesFrom g' root) (settings : Settings) (scheme : NameScheme)
    (v : V) : g'.derive settings scheme root v = g.derive settings scheme root v := by
  have hroot : g.Reaches root root := g.reaches_self root
  have hrecord (cs : List (Component M T)) :
      g'.recordOf settings scheme root cs = g.recordOf settings scheme root cs := by
    simp only [recordOf, h.qualifiedName root hroot, h.separator, h.typeParameters root hroot,
      h.typeText]
  simp only [Catalog.derive, h.traverse, h.events, h.qualifiedName root hroot,
    h.interfaceSite root hroot, hrecord]

end

end Catalog

/-! ## Tables -/

namespace Table

variable [Inhabited T] [Inhabited S] {t t' : Table T S} {types : TypeView T Unit}
  {separator : String} {root : Nat}

/-- Where the declarations of what is reached are the same, all answers about them are. -/
theorem agreesFrom
    (h : ∀ i, (t.catalog types separator).Reaches root i → t'[i]? = t[i]?) :
    (t.catalog types separator).AgreesFrom (t'.catalog types separator) root := by
  have helim {α : Type} {none : α} {answer : InterfaceEntry T S → α} (i : Nat)
      (hi : (t.catalog types separator).Reaches root i) :
      t'[i]?.elim none answer = t[i]?.elim none answer := by
    rw [h i hi]
  refine ⟨rfl, helim, helim, helim, helim, fun i hi => helim i hi, helim, helim, ?_, rfl, rfl, rfl⟩
  intro i hi m hm
  obtain ⟨-, -, rfl, -⟩ := mem_catalog_methods.mp hm
  have hmethod : t'.method? m = t.method? m := by
    rw [Table.method?, Table.method?, h _ hi]
  simp only [Catalog.methodEntry, catalog, hmethod]

end Table

/-! ## Graphs -/

namespace Graph

/-- One more call that puts a graph together and spares what `root` reaches: it adds an interface of
any name, or it changes one that is not reached, where a new supertype may be any interface. -/
inductive Beyond (root : Nat) : Graph → Graph → Prop
  | declare {g : Graph} (name : String) : Beyond root g (g.declare name).1
  | addTypeParameter {g : Graph} {i : Nat} (hi : ¬ g.catalog.Reaches root i) (type : NamedType) :
    Beyond root g (g.addTypeParameter i type)
  | extend {g : Graph} {i : Nat} (hi : ¬ g.catalog.Reaches root i) (parent : Nat) :
    Beyond root g (g.extend i parent)
  | addMethod {g : Graph} {i : Nat} (hi : ¬ g.catalog.Reaches root i)
    (m : MethodEntry NamedType Unit) : Beyond root g (g.addMethod i m).1
  | addAccessor {g : Graph} {i : Nat} (hi : ¬ g.catalog.Reaches root i) (name : String)
    (type : NamedType) : Beyond root g (g.addAccessor i name type).1
  | addConstant {g : Graph} {i : Nat} (hi : ¬ g.catalog.Reaches root i) (name : String)
    (type : NamedType) : Beyond root g (g.addConstant i name type)

/-- What `root` reaches in `g` are interfaces of `g`, and in `g'` these are declared the same, with
nothing more reported. -/
structure Spares (root : Nat) (g g' : Graph) : Prop where
  live : ∀ i, g.catalog.Reaches root i → i < g.interfaces.length
  same : ∀ i, g.catalog.Reaches root i → g'.interfaces[i]? = g.interfaces[i]?
  reported : g'.reported = g.reported

variable {root : Nat} {g g' g'' : Graph}

theorem Spares.agreesFrom (h : Spares root g g') : g.catalog.AgreesFrom g'.catalog root :=
  Table.agreesFrom h.same

theorem Spares.trans (h : Spares root g g') (h' : Spares root g' g'') : Spares root g g'' where
  live := h.live
  same i hi := (h'.same i (h.agreesFrom.reaches_iff.mpr hi)).trans (h.same i hi)
  reported := h'.reported.trans h.reported

/-- What is reached is still there. -/
theorem Spares.lt_length (h : Spares root g g') :
    ∀ i, g'.catalog.Reaches root i → i < g'.interfaces.length := by
  intro i hi
  have hi' := h.agreesFrom.reaches_iff.mp hi
  have hlt := h.live i hi'
  have hd : g'.interfaces[i]? = some g.interfaces[i] :=
    (h.same i hi').trans (List.getElem?_eq_getElem hlt)
  exact (List.getElem?_eq_some_iff.mp hd).1

/-- One call. -/
theorem Beyond.spares (h : Beyond root g g')
    (hlive : ∀ i, g.catalog.Reaches root i → i < g.interfaces.length) : Spares root g g' := by
  -- a change of one interface leaves all others as they are
  have hmodify {j : Nat} (hj : ¬ g.catalog.Reaches root j)
      (f : InterfaceEntry NamedType GraphSite → InterfaceEntry NamedType GraphSite) :
      ∀ i, g.catalog.Reaches root i → (g.interfaces.modify j f)[i]? = g.interfaces[i]? := by
    intro i hi
    have hne : j ≠ i := by
      rintro rfl
      exact hj hi
    exact List.getElem?_modify_ne f _ hne
  cases h with
  | declare name => exact ⟨hlive, fun i hi => List.getElem?_append_left (hlive i hi), rfl⟩
  | addTypeParameter hj type => exact ⟨hlive, hmodify hj _, rfl⟩
  | extend hj parent => exact ⟨hlive, hmodify hj _, rfl⟩
  | addMethod hj m => exact ⟨hlive, hmodify hj _, rfl⟩
  | addAccessor hj name type => exact ⟨hlive, hmodify hj _, rfl⟩
  | addConstant hj name type => exact ⟨hlive, hmodify hj _, rfl⟩

/-- Any number of calls. -/
theorem Spares.of_reflTransGen (h : ReflTransGen (Beyond root) g g')
    (hlive : ∀ i, g.catalog.Reaches root i → i < g.interfaces.length) : Spares root g g' := by
  induction h with
  | refl => exact ⟨hlive, fun _ _ => rfl, rfl⟩
  | tail _ hbc ih => exact ih.trans (hbc.spares ih.lt_length)

/-- A derivation looks only at what its root reaches. Take a graph, a root that reaches only
interfaces of this graph, and any further calls that add interfaces or change such as the root does
not reach. New interfaces may have the names of old ones and extend them. The root then reaches what
it did, and under all settings and name schemes the derivation from it is the same as before, with
the same record, origins and first values, diagnostics and events, and leaves the same diagnostics
reported. -/
theorem derive_beyond (hlive : ∀ i, g.catalog.Reaches root i → i < g.interfaces.length)
    (h : ReflTransGen (Beyond root) g g') :
    (∀ i, g'.catalog.Reaches root i ↔ g.catalog.Reaches root i) ∧
      ∀ settings scheme,
        (g'.derive settings scheme root).1 = (g.derive settings scheme root).1 ∧
          (g'.derive settings scheme root).2.reported =
            (g.derive settings scheme root).2.reported := by
  have hspares := Spares.of_reflTransGen h hlive
  refine ⟨fun i => hspares.agreesFrom.reaches_iff, fun settings scheme => ?_⟩
  have hderive : (g'.derive settings scheme root).1 = (g.derive settings scheme root).1 :=
    hspares.agreesFrom.derive settings scheme ()
  refine ⟨hderive, ?_⟩
  calc (g'.derive settings scheme root).2.reported
      = g'.reported ++ (g'.derive settings scheme root).1.diagnostics := rfl
    _ = g.reported ++ (g.derive settings scheme root).1.diagnostics := by
      rw [hspares.reported, hderive]
    _ = (g.derive settings scheme root).2.reported := rfl

/-- A root with one supertype, and an interface that has the name of this supertype and extends the
root. -/
def secluded : Graph where
  interfaces := [
    { qualifiedName := "s::Root", simpleName := "Root", supertypes := [1],
      methods := [{ name := "id", returnType := ⟨"int"⟩, site := .method "s::Root" "id" }],
      site := .interface "s::Root" },
    { qualifiedName := "s::Part", simpleName := "Part",
      methods := [{ name := "tag", returnType := ⟨"String"⟩, site := .method "s::Part" "tag" }],
      site := .interface "s::Part" },
    { qualifiedName := "s::Part", simpleName := "Part", supertypes := [0],
      site := .interface "s::Part" }]

/-- The last interface gets a faulty method, and a new one that it extends takes the name of the
root and extends what the root does. -/
def secludedGrown : Graph :=
  let g := (secluded.addMethod 2 { name := "run", returnType := .void, site := () }).1
  let g := (g.declare "s::Root").1
  (g.extend 3 1).extend 2 3

theorem derive_beyond_secluded :
    (∀ i, secluded.catalog.Reaches 0 i → i < secluded.interfaces.length) ∧
      ReflTransGen (Beyond 0) secluded secludedGrown ∧
      secludedGrown.interfaces.map (fun d => (d.qualifiedName, d.supertypes)) =
        [("s::Root", [1]), ("s::Part", []), ("s::Part", [0, 3]), ("s::Root", [1])] ∧
      (secludedGrown.derive {} .suffixes 0).1.record.map Record.names = some ["id", "tag"] := by
  -- the root never gets beyond its supertype
  have hfar {g : Graph} (hlinks : ∀ i ∈ [0, 1], ∀ p ∈ g.catalog.supertypes i, p ∈ [0, 1]) {i : Nat}
      (hi : i ∉ [0, 1]) : ¬ g.catalog.Reaches 0 i :=
    fun h => hi (h.of_closed hlinks List.mem_cons_self)
  have hlive : ∀ i, secluded.catalog.Reaches 0 i → i < secluded.interfaces.length :=
    fun i hi => Table.lt_length_of_reaches (by decide) hi (by decide)
  have hcalls : ReflTransGen (Beyond 0) secluded secludedGrown :=
    ReflTransGen.refl
      |>.tail (.addMethod (hfar (by decide) (by decide)) _)
      |>.tail (.declare "s::Root")
      |>.tail (.extend (hfar (by decide) (by decide)) 1)
      |>.tail (.extend (hfar (by decide) (by decide)) 3)
  refine ⟨hlive, hcalls, by decide, ?_⟩
  rw [((derive_beyond hlive hcalls).2 {} .suffixes).1]
  decide +kernel

end Graph

end InterfaceRecord
