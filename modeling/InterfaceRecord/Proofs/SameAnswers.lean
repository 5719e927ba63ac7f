/-
  Catalogs that give exactly the same answers under new handles. All that is made from the answers
  is then the same as well, with the handles in it renamed: what is decided about a method, first
  values, a whole traversal (`SameAnswers.traverse`), and what a derivation comes to, its events and
  sites included (`SameAnswers.derive`). Nothing is asked of the declarations, and the answers on
  void types may change.
-/
import InterfaceRecord.Proofs.Correspondence

namespace InterfaceRecord

variable {I M I' M' T S V : Type}

/-! ## Renamed handles -/

namespace Renaming

variable (ρ : Renaming I M I' M')

def step : Step I M → Step I' M'
  | .revisited i => .revisited (ρ.interface i)
  | .entered i => .entered (ρ.interface i)
  | .skipped i m => .skipped (ρ.interface i) (ρ.method m)
  | .repeated i m => .repeated (ρ.interface i) (ρ.method m)
  | .accepted i m => .accepted (ρ.interface i) (ρ.method m)
  | .diagnosed i m fault => .diagnosed (ρ.interface i) (ρ.method m) fault
  | .expanded i => .expanded (ρ.interface i)

def component (c : Component M T) : Component M' T where
  name := c.name
  type := c.type
  origin := ρ.method c.origin
  initializer := c.initializer

def traversal (w : Traversal I M T S V) : Traversal I' M' T S V where
  visited := w.visited
  used := w.used
  components := w.components.map ρ.component
  diagnostics := w.diagnostics
  steps := w.steps.map ρ.step
  void := w.void

def record (r : Record M T) : Record M' T where
  name := r.name
  package := r.package
  typeParameters := r.typeParameters
  components := r.components.map ρ.component
  addBuilder := r.addBuilder
  builderName := r.builderName

def derivation (d : Derivation M T S V) : Derivation M' T S V where
  record := d.record.map ρ.record
  diagnostics := d.diagnostics
  events := d.events
  void := d.void

variable (w : Traversal I M T S V)

theorem traversal_note (s : Step I M) :
    ρ.traversal (w.note s) = (ρ.traversal w).note (ρ.step s) := by
  rw [Traversal.note, Traversal.note, traversal, traversal, List.map_append, List.map_singleton]

theorem traversal_enter (i : I) (name : String) :
    ρ.traversal (w.enter i name) = (ρ.traversal w).enter (ρ.interface i) name :=
  ρ.traversal_note { w with visited := w.visited ++ [name] } (.entered i)

theorem traversal_diagnose (i : I) (m : M) (fault : Fault) (site : S) :
    ρ.traversal (w.diagnose i m fault site) =
      (ρ.traversal w).diagnose (ρ.interface i) (ρ.method m) fault site :=
  ρ.traversal_note { w with diagnostics := w.diagnostics.add fault site } (.diagnosed i m fault)

theorem traversal_keep (i : I) (interface : String) (c : Component M T) :
    ρ.traversal (w.keep i interface c) =
      (ρ.traversal w).keep (ρ.interface i) interface (ρ.component c) := by
  rw [Traversal.keep, Traversal.keep, traversal_note, traversal, List.map_append,
    List.map_singleton]
  rfl

@[simp] theorem failed_traversal : (ρ.traversal w).failed = w.failed := rfl

@[simp] theorem hasInternal_traversal : (ρ.traversal w).hasInternal = w.hasInternal := rfl

end Renaming

namespace Catalog

/-- To each question `g'` has under new handles the answer that `g` has. -/
structure SameAnswers (g : Catalog I M T S V) (g' : Catalog I' M' T S V)
    (ρ : Renaming I M I' M') : Prop where
  separator : g'.separator = g.separator
  qualifiedName : ∀ i, g'.qualifiedName (ρ.interface i) = g.qualifiedName i
  simpleName : ∀ i, g'.simpleName (ρ.interface i) = g.simpleName i
  typeParameters : ∀ i, g'.typeParameters (ρ.interface i) = g.typeParameters i
  supertypes : ∀ i, g'.supertypes (ρ.interface i) = (g.supertypes i).map ρ.interface
  methods : ∀ i, g'.methods (ρ.interface i) = (g.methods i).map ρ.method
  constants : ∀ i, g'.constants (ρ.interface i) = g.constants i
  methodName : ∀ m, g'.methodName (ρ.method m) = g.methodName m
  isStatic : ∀ m, g'.isStatic (ρ.method m) = g.isStatic m
  isDefault : ∀ m, g'.isDefault (ρ.method m) = g.isDefault m
  isPublic : ∀ m, g'.isPublic (ρ.method m) = g.isPublic m
  parameters : ∀ m, g'.parameters (ρ.method m) = g.parameters m
  returnType : ∀ m, g'.returnType (ρ.method m) = g.returnType m
  methodTypeParameters : ∀ m, g'.methodTypeParameters (ρ.method m) = g.methodTypeParameters m
  ignoresDefault : ∀ m, g'.ignoresDefault (ρ.method m) = g.ignoresDefault m
  initializerName : ∀ m, g'.initializerName (ρ.method m) = g.initializerName m
  interfaceSite : ∀ i, g'.interfaceSite (ρ.interface i) = g.interfaceSite i
  methodSite : ∀ m, g'.methodSite (ρ.method m) = g.methodSite m
  typeText : g'.typeText = g.typeText
  sameType : g'.sameType = g.sameType
  isVoid : g'.isVoid = g.isVoid
  names : ∀ i, g'.names (ρ.interface i) = g.names i

namespace SameAnswers

variable {g : Catalog I M T S V} {g' : Catalog I' M' T S V} {ρ : Renaming I M I' M'}

/-! ## One method -/

theorem ruling (h : g.SameAnswers g' ρ) (i : I) (m : M) (v : V) :
    g'.ruling (ρ.interface i) (ρ.method m) v = g.ruling i m v := by
  simp only [Catalog.ruling, h.simpleName, h.methodName, h.isStatic, h.isDefault, h.ignoresDefault,
    h.parameters, h.returnType, h.methodTypeParameters, h.isVoid]

theorem initializer? (h : g.SameAnswers g' ρ) (i : I) (target : String) (type : T) :
    g'.initializer? (ρ.interface i) target type = g.initializer? i target type := by
  have hmethods : (g'.methods (ρ.interface i)).any (g'.isInitializerMethod target type) =
      (g.methods i).any (g.isInitializerMethod target type) := by
    rw [h.methods, List.any_map]
    congr 1
    funext m
    simp only [Function.comp_apply, isInitializerMethod, h.isStatic, h.isPublic, h.methodName,
      h.returnType, h.sameType]
  have hconstants : g'.isInitializerConstant target type = g.isInitializerConstant target type := by
    funext c
    rw [isInitializerConstant, isInitializerConstant, h.sameType]
  rw [Catalog.initializer?, Catalog.initializer?, hmethods, h.constants, hconstants]

theorem firstValue (h : g.SameAnswers g' ρ) (i : I) (m : M) (type : T)
    (w : Traversal I M T S V) :
    g'.firstValue (ρ.interface i) (ρ.method m) type (ρ.traversal w) =
      ((g.firstValue i m type w).1, ρ.traversal (g.firstValue i m type w).2) := by
  rw [Catalog.firstValue, Catalog.firstValue, h.initializerName]
  cases g.initializerName m with
  | none => rfl
  | some target =>
    dsimp only
    rw [h.initializer?, h.methodSite]
    cases g.initializer? i target type with
    | some found => rfl
    | none => rw [ρ.traversal_diagnose]

theorem considerFresh (h : g.SameAnswers g' ρ) (i : I) (m : M) (name : String) (type : T)
    (w : Traversal I M T S V) :
    g'.considerFresh (ρ.interface i) (ρ.method m) name type (ρ.traversal w) =
      ρ.traversal (g.considerFresh i m name type w) := by
  have hvoid : g'.isVoid type (ρ.traversal w).void = g.isVoid type w.void := by
    rw [h.isVoid]
    rfl
  rw [Catalog.considerFresh, Catalog.considerFresh, hvoid, h.simpleName, h.methodSite]
  cases g.isVoid type w.void with
  | mk void v =>
    cases void with
    | true => exact (ρ.traversal_diagnose { w with void := v } i m _ _).symm
    | false =>
      have hfirst := h.firstValue i m type { w with void := v }
      refine Eq.trans ?_ (ρ.traversal_keep _ i _ _).symm
      exact congrArg (fun p => p.2.keep (ρ.interface i) (g.simpleName i)
        ⟨name, type, ρ.method m, p.1⟩) hfirst

theorem consider (h : g.SameAnswers g' ρ) (policy : ConflictPolicy) (i : I) (m : M)
    (name : String) (type : T) (w : Traversal I M T S V) :
    g'.consider policy (ρ.interface i) (ρ.method m) name type (ρ.traversal w) =
      ρ.traversal (g.consider policy i m name type w) := by
  have hused : (ρ.traversal w).used = w.used := rfl
  rw [Catalog.consider, Catalog.consider, hused]
  cases w.used.lookup name with
  | none => exact h.considerFresh i m name type w
  | some seen =>
    dsimp only
    rw [h.sameType, h.typeText, h.simpleName, h.methodSite]
    split
    · exact (ρ.traversal_diagnose w i m _ _).symm
    · exact (ρ.traversal_note w (.repeated i m)).symm

theorem examine (h : g.SameAnswers g' ρ) (policy : ConflictPolicy) (i : I) (m : M)
    (w : Traversal I M T S V) :
    g'.examine policy (ρ.interface i) (ρ.traversal w) (ρ.method m) =
      ρ.traversal (g.examine policy i w m) := by
  have hruling : g'.ruling (ρ.interface i) (ρ.method m) (ρ.traversal w).void =
      g.ruling i m w.void := h.ruling i m w.void
  rw [Catalog.examine, Catalog.examine, hruling, h.methodSite]
  cases g.ruling i m w.void with
  | mk ruling v =>
    cases ruling with
    | accept name type => exact h.consider policy i m name type { w with void := v }
    | skip => exact (ρ.traversal_note { w with void := v } (.skipped i m)).symm
    | reject fault => exact (ρ.traversal_diagnose { w with void := v } i m fault _).symm

/-! ## Traversals -/

theorem examineAll (h : g.SameAnswers g' ρ) (policy : ConflictPolicy) (i : I) (ms : List M)
    (w : Traversal I M T S V) :
    g'.examineAll policy (ρ.interface i) (ms.map ρ.method) (ρ.traversal w) =
      ρ.traversal (g.examineAll policy i ms w) := by
  induction ms generalizing w with
  | nil => rfl
  | cons m ms ih =>
    rw [List.map_cons, Catalog.examineAll, Catalog.examineAll, h.examine, ρ.hasInternal_traversal]
    split
    · rfl
    · exact ih _

theorem descend (h : g.SameAnswers g' ρ) (policy : ConflictPolicy) (depth : Nat) (i : I)
    (w : Traversal I M T S V) :
    g'.descend policy depth (ρ.interface i) (ρ.traversal w) =
      ρ.traversal (g.descend policy depth i w) := by
  induction depth generalizing i w with
  | zero => rfl
  | succ depth ih =>
    have hfold (ps : List I) (w : Traversal I M T S V) :
        (ps.map ρ.interface).foldl
            (fun w p => if w.failed then w else g'.descend policy depth p w) (ρ.traversal w) =
          ρ.traversal
            (ps.foldl (fun w p => if w.failed then w else g.descend policy depth p w) w) := by
      induction ps generalizing w with
      | nil => rfl
      | cons p ps ihs =>
        rw [List.map_cons, List.foldl_cons, List.foldl_cons, ρ.failed_traversal]
        split
        · exact ihs w
        · rw [ih]
          exact ihs _
    have hvisited : (ρ.traversal w).visited = w.visited := rfl
    rw [Catalog.descend, Catalog.descend, h.qualifiedName, hvisited]
    split
    · exact (ρ.traversal_note w (.revisited i)).symm
    · dsimp only
      rw [h.methods, ← ρ.traversal_enter, h.examineAll, ρ.hasInternal_traversal]
      split
      · rfl
      · rw [h.supertypes, ← hfold, ρ.traversal_note]
        rfl

theorem traverse (h : g.SameAnswers g' ρ) (policy : ConflictPolicy) (root : I) (v : V) :
    g'.traverse policy (ρ.interface root) v = ρ.traversal (g.traverse policy root v) := by
  rw [Catalog.traverse, Catalog.traverse, h.names]
  exact h.descend policy _ root { void := v }

/-- A renamed step is told by the same event. -/
theorem event? (h : g.SameAnswers g' ρ) (s : Step I M) : (ρ.step s).event? g' = s.event? g := by
  cases s with
  | revisited i => exact congrArg (some <| Event.revisited ·) (h.qualifiedName i)
  | entered i => exact congrArg (some <| Event.entered ·) (h.qualifiedName i)
  | skipped i m => exact congrArg (some <| Event.skipped ·) (h.methodName m)
  | repeated i m =>
    show some (Event.repeated _ _) = some (Event.repeated _ _)
    rw [h.methodName, h.simpleName]
  | accepted i m =>
    show some (Event.accepted _ _ _) = some (Event.accepted _ _ _)
    rw [h.methodName, h.returnType, h.typeText, h.simpleName]
  | diagnosed i m fault => rfl
  | expanded i => rfl

theorem events (h : g.SameAnswers g' ρ) (w : Traversal I M T S V) :
    g'.events (ρ.traversal w) = g.events w := by
  rw [Catalog.events, Catalog.events, Renaming.traversal, List.filterMap_map]
  exact congrArg (fun f => w.steps.filterMap f) (funext fun s => h.event? s)

/-! ## Derivations -/

theorem recordOf (h : g.SameAnswers g' ρ) (settings : Settings) (scheme : NameScheme) (root : I)
    (components : List (Component M T)) :
    g'.recordOf settings scheme (ρ.interface root) (components.map ρ.component) =
      ρ.record (g.recordOf settings scheme root components) := by
  rw [Catalog.recordOf, Catalog.recordOf, h.qualifiedName, h.separator, h.typeParameters,
    h.typeText, Renaming.record]

theorem derive (h : g.SameAnswers g' ρ) (settings : Settings) (scheme : NameScheme) (root : I)
    (v : V) :
    g'.derive settings scheme (ρ.interface root) v =
      ρ.derivation (g.derive settings scheme root v) := by
  rw [Catalog.derive, Catalog.derive, h.traverse, h.events, h.qualifiedName, h.interfaceSite,
    ρ.failed_traversal]
  have hempty : (ρ.traversal (g.traverse settings.conflicts root v)).components.isEmpty =
      (g.traverse settings.conflicts root v).components.isEmpty := List.isEmpty_map
  have hlength : (ρ.traversal (g.traverse settings.conflicts root v)).components.length =
      (g.traverse settings.conflicts root v).components.length := List.length_map _
  have hrecord : g'.recordOf settings scheme (ρ.interface root)
        (ρ.traversal (g.traverse settings.conflicts root v)).components =
      ρ.record (g.recordOf settings scheme root (g.traverse settings.conflicts root v).components) :=
    h.recordOf settings scheme root _
  dsimp only
  rw [hempty, hlength, hrecord]
  split
  · rfl
  · split
    · rfl
    · rfl

end SameAnswers

end Catalog

end InterfaceRecord
