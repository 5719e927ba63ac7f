/-
  What the events of a traversal tell. They fall into chapters, one for each interface that is
  entered: that it is entered, then what becomes of each of its methods, then which interfaces are
  passed over until the next one is entered (`Chronicle`). Each move goes on with the last chapter
  or begins a new one (`Moves.recorded`). So nothing is left out and nothing told twice
  (`events_account`): there is one report for each method, one acceptance for each component, one
  mark for each diagnostic and, if nothing is wrong, one meeting for each supertype that an entered
  interface declares.
-/
import InterfaceRecord.Proofs.Ending
import InterfaceRecord.Proofs.FirstValues
import InterfaceRecord.Proofs.InternalError

namespace InterfaceRecord

variable {I M T S V : Type}

/-! ## Counting events -/

namespace Event

/-- How many of the events have that message. -/
def tally (message : String) (es : List Event) : Nat := es.countP (·.message == message)

@[simp] theorem tally_nil (message : String) : tally message [] = 0 := rfl

@[simp] theorem tally_cons (message : String) (e : Event) (es : List Event) :
    tally message (e :: es) = tally message es + if e.message = message then 1 else 0 := by
  simp [tally, List.countP_cons]

@[simp] theorem tally_append (message : String) (front back : List Event) :
    tally message (front ++ back) = tally message front + tally message back := by
  simp [tally]

/-- The event is about a method. -/
def isAboutMethod : Event → Bool
  | skipped _ | repeated _ _ | accepted _ _ _ | diagnosed _ => true
  | _ => false

end Event

/-- A stretch of a traversal: an interface is entered, its methods are examined, and then some
interfaces are passed over. -/
structure Chapter (I : Type) where
  interface : I
  /-- What is told of its methods, one after another. -/
  reports : List (List Event)
  passed : List I

/-- The interfaces that are met in a chapter. -/
def Chapter.met (c : Chapter I) : List I := c.interface :: c.passed

namespace Catalog

open Traversal Event

/-- The events of a chapter. -/
def chapterEvents (g : Catalog I M T S V) (c : Chapter I) : List Event :=
  .entered (g.qualifiedName c.interface) ::
    (c.reports.flatten ++ c.passed.map fun i => .revisited (g.qualifiedName i))

/-- The events by which it is told what becomes of the method `m` of `i`. -/
inductive Report (g : Catalog I M T S Unit) (policy : ConflictPolicy) (i : I) (m : M) :
    List Event → Prop
  | skipped (hruling : g.rulingOf (i, m) = .skip) : Report g policy i m [.skipped (g.methodName m)]
  /-- It breaks a rule. -/
  | rejected {fault : Fault} (hruling : g.rulingOf (i, m) = .reject fault) :
    Report g policy i m [.diagnosed fault]
  /-- A component of its name exists, and nothing is wrong with that. -/
  | repeated (hruling : g.IsCandidate i m ()) :
    Report g policy i m [.repeated (g.methodName m) (g.simpleName i)]
  /-- A component of its name has another type. -/
  | conflicting {first firstInterface : String} (hruling : g.IsCandidate i m ())
    (hpolicy : policy = .reject) :
    Report g policy i m [.diagnosed (.conflict (g.methodName m) first firstInterface
      (g.typeText (g.returnType m)) (g.simpleName i))]
  /-- It is kept, and has the first value it asks for if it asks for one. -/
  | accepted (hruling : g.IsCandidate i m ()) (hresolved : g.Resolved (i, m)) :
    Report g policy i m
      [.accepted (g.methodName m) (g.typeText (g.returnType m)) (g.simpleName i)]
  /-- It is kept without the first value that it asks for, and both are told. -/
  | unresolved {target : String} (hruling : g.IsCandidate i m ())
    (htarget : g.initializerName m = some target)
    (hnone : g.initializer? i target (g.returnType m) = none) :
    Report g policy i m [.diagnosed (.missingInitializer target),
      .accepted (g.methodName m) (g.typeText (g.returnType m)) (g.simpleName i)]

/-- There is one report for each method of the chapter's interface. -/
def IsFull (g : Catalog I M T S Unit) (policy : ConflictPolicy) (c : Chapter I) : Prop :=
  List.Forall₂ (g.Report policy c.interface) (g.methods c.interface) c.reports

/-- The chapters tell all of the traversal, with the interfaces in `todo` still to be met. -/
structure Chronicle (g : Catalog I M T S Unit) (supertypes : I → List I) (root : I)
    (w : Traversal I M T S Unit) (chapters : List (Chapter I)) (todo : List I) : Prop where
  entered : w.entered = chapters.map (·.interface)
  events : g.events w = chapters.flatMap g.chapterEvents
  components : tally "component accepted" (g.events w) = w.components.length
  diagnostics : tally "diagnostic recorded" (g.events w) = w.diagnostics.length
  /-- While nothing is wrong, what was met and what is still to be met are the root and the
  supertypes of what was entered, each as often as it is declared. -/
  edges : w.failed = false → (chapters.flatMap Chapter.met ++ todo).Perm
    (root :: chapters.flatMap (supertypes ·.interface))

/-- What is told at a moment. -/
inductive Recorded (g : Catalog I M T S Unit) (supertypes : I → List I) (policy : ConflictPolicy)
    (root : I) : Moment I M T S Unit → Prop
  /-- All that was entered is told of in full. -/
  | between {w : Traversal I M T S Unit} {chapters : List (Chapter I)} {todo : List I}
    (h : g.Chronicle supertypes root w chapters todo) (hfull : ∀ c ∈ chapters, g.IsFull policy c) :
    Recorded g supertypes policy root ⟨todo.map .meet, w⟩
  /-- The last chapter has got as far as the methods `pending`. -/
  | within {w : Traversal I M T S Unit} {chapters : List (Chapter I)} {i : I}
    {reports : List (List Event)} {done pending : List M} {todo : List I}
    (h : g.Chronicle supertypes root w (chapters ++ [⟨i, reports, []⟩]) (supertypes i ++ todo))
    (hfull : ∀ c ∈ chapters, g.IsFull policy c)
    (hdone : List.Forall₂ (g.Report policy i) done reports)
    (hmethods : g.methods i = done ++ pending) :
    Recorded g supertypes policy root
      ⟨pending.map (.examine i) ++ .expand i :: todo.map .meet, w⟩

/-! ## What is told in one step -/

@[simp] theorem events_note (g : Catalog I M T S V) (w : Traversal I M T S V) (s : Step I M) :
    g.events (w.note s) = g.events w ++ (s.event? g).toList := by
  unfold events
  rw [steps_note, List.filterMap_append]
  cases h : s.event? g <;> simp [h]

/-- The events `es` tell of all components and diagnostics that `w'` has and `w` has not. -/
structure Tells (g : Catalog I M T S V) (w w' : Traversal I M T S V) (es : List Event) : Prop where
  events : g.events w' = g.events w ++ es
  components : w'.components.length = w.components.length + tally "component accepted" es
  diagnostics : w'.diagnostics.length = w.diagnostics.length + tally "diagnostic recorded" es

section

variable (g : Catalog I M T S V) (w : Traversal I M T S V)

/-- A step that is told by an event of another kind. -/
theorem tells_note {s : Step I M} {es : List Event} (hs : (s.event? g).toList = es)
    (haccepted : tally "component accepted" es = 0)
    (hdiagnosed : tally "diagnostic recorded" es = 0) : g.Tells w (w.note s) es := by
  refine ⟨by rw [events_note, hs], ?_, ?_⟩
  · rw [haccepted]
    rfl
  · rw [hdiagnosed]
    rfl

theorem tells_diagnose (i : I) (m : M) (fault : Fault) (site : S) :
    g.Tells w (w.diagnose i m fault site) [.diagnosed fault] := by
  refine ⟨g.events_note { w with diagnostics := w.diagnostics.add fault site } _, ?_, ?_⟩
  · simp [message]
    rfl
  · simp [message]

theorem tells_keep (i : I) (interface : String) (c : Component M T) :
    g.Tells w (w.keep i interface c) [.accepted (g.methodName c.origin)
      (g.typeText (g.returnType c.origin)) (g.simpleName i)] := by
  refine ⟨g.events_note { w with
    used := w.used ++ [(c.name, ⟨c.type, interface⟩)]
    components := w.components ++ [c] } _, ?_, ?_⟩
  · simp [message]
  · simp [message]
    rfl

end

section

variable {g : Catalog I M T S V} {w w' w'' : Traversal I M T S V} {es es' : List Event}

theorem Tells.trans (h : g.Tells w w' es) (h' : g.Tells w' w'' es') :
    g.Tells w w'' (es ++ es') := by
  refine ⟨by rw [h'.events, h.events, List.append_assoc], ?_, ?_⟩
  · rw [h'.components, h.components, tally_append, Nat.add_assoc]
  · rw [h'.diagnostics, h.diagnostics, tally_append, Nat.add_assoc]

/-- Nothing is told of what the answers on void types depend on. -/
theorem Tells.of_void {v : V} (h : g.Tells { w with void := v } w' es) : g.Tells w w' es :=
  ⟨h.events, h.components, h.diagnostics⟩

/-- Where nothing is wrong in the end nothing was before. -/
theorem Tells.failed (h : g.Tells w w' es) (hw : w'.failed = false) : w.failed = false := by
  have hlength := h.diagnostics
  rw [failed_eq_false_iff] at hw ⊢
  rw [hw, List.length_nil] at hlength
  exact List.eq_nil_of_length_eq_zero (by omega)

end

variable {g : Catalog I M T S Unit} {supertypes : I → List I} {policy : ConflictPolicy}
  {root i : I} {m : M} {w w' : Traversal I M T S Unit} {es : List Event}

/-- The examination of one method is told in one report. -/
theorem Outcome.report (h : g.Outcome policy i m w w') (hquiet : w'.hasInternal = false) :
    ∃ es, g.Report policy i m es ∧ g.Tells w w' es := by
  cases h with
  | skipped hruling => exact ⟨_, .skipped hruling, (g.tells_note _ rfl rfl rfl).of_void⟩
  | rejected hruling => exact ⟨_, .rejected hruling, (g.tells_diagnose _ i m _ _).of_void⟩
  | repeated hruling => exact ⟨_, .repeated hruling, (g.tells_note _ rfl rfl rfl).of_void⟩
  | conflicting hruling _ hpolicy =>
    exact ⟨_, .conflicting hruling hpolicy, (g.tells_diagnose _ i m _ _).of_void⟩
  | void =>
    simp [Traversal.hasInternal, Diagnostics.hasInternal, Diagnostic.severity, Fault.severity]
      at hquiet
  | kept hruling _ hinitializer =>
    refine ⟨_, .accepted hruling ?_, (g.tells_keep _ i _ _).of_void⟩
    rcases hinitializer with ⟨hname, -⟩ | ⟨target, found, hname, hfound, -⟩
    · exact Or.inl hname
    · exact Or.inr (by simp [initializerOf, hname, hfound])
  | unresolved hruling _ htarget hnone =>
    exact ⟨_, .unresolved hruling htarget hnone,
      ((g.tells_diagnose _ i m _ _).trans (g.tells_keep _ i _ _)).of_void⟩

/-! ## One chapter after another -/

section

variable {chapters : List (Chapter I)} {c : Chapter I} {todo : List I}

/-- A traversal is told of to its present state, whatever is still to be met. -/
theorem Chronicle.of_tells (h : g.Chronicle supertypes root w chapters todo)
    (htells : g.Tells w w' es) :
    tally "component accepted" (g.events w') = w'.components.length ∧
      tally "diagnostic recorded" (g.events w') = w'.diagnostics.length := by
  rw [htells.events, tally_append, tally_append, h.components, h.diagnostics, htells.components,
    htells.diagnostics]
  exact ⟨rfl, rfl⟩

theorem chronicle_start (g : Catalog I M T S Unit) (supertypes : I → List I) (root : I) :
    g.Chronicle supertypes root { void := () } [] [root] :=
  ⟨rfl, rfl, rfl, rfl, fun _ => List.Perm.refl _⟩

/-- After a failure nothing more is met. -/
theorem Chronicle.stop (h : g.Chronicle supertypes root w chapters todo) (hw : w.failed = true) :
    g.Chronicle supertypes root w chapters [] :=
  ⟨h.entered, h.events, h.components, h.diagnostics,
    fun hw' => absurd (hw'.symm.trans hw) Bool.false_ne_true⟩

/-- What is passed over belongs to the last chapter. -/
theorem Chronicle.pass (h : g.Chronicle supertypes root w (chapters ++ [c]) (i :: todo)) :
    g.Chronicle supertypes root (w.note (.revisited i))
      (chapters ++ [{ c with passed := c.passed ++ [i] }]) todo := by
  have htells : g.Tells w (w.note (.revisited i)) [.revisited (g.qualifiedName i)] :=
    g.tells_note w rfl rfl rfl
  obtain ⟨hcomponents, hdiagnostics⟩ := h.of_tells htells
  refine ⟨?_, ?_, hcomponents, hdiagnostics, fun hw => ?_⟩
  · rw [entered_note, h.entered]
    simp [Step.entry?]
  · rw [htells.events, h.events]
    simp [chapterEvents]
  · have hedges := h.edges hw
    simpa [Chapter.met] using hedges

/-- A new chapter begins, and the supertypes of its interface are to be met before all else. -/
theorem Chronicle.enter (h : g.Chronicle supertypes root w chapters (i :: todo)) :
    g.Chronicle supertypes root (w.enter i (g.qualifiedName i)) (chapters ++ [⟨i, [], []⟩])
      (supertypes i ++ todo) := by
  have htells : g.Tells w (w.enter i (g.qualifiedName i)) [.entered (g.qualifiedName i)] := by
    have hnote := g.tells_note { w with visited := w.visited ++ [g.qualifiedName i] }
      (s := .entered i) rfl rfl rfl
    exact ⟨hnote.events, hnote.components, hnote.diagnostics⟩
  obtain ⟨hcomponents, hdiagnostics⟩ := h.of_tells htells
  refine ⟨?_, ?_, hcomponents, hdiagnostics, fun hw => ?_⟩
  · rw [entered_enter, h.entered, List.map_append]
    rfl
  · rw [htells.events, h.events, List.flatMap_append]
    rfl
  · have hedges := (h.edges hw).append_right (supertypes i)
    rw [List.append_assoc] at hedges
    have hrear : (i :: (supertypes i ++ todo)).Perm (i :: todo ++ supertypes i) :=
      List.perm_append_comm.cons i
    have hall := (hrear.append_left (chapters.flatMap Chapter.met)).trans hedges
    simpa [Chapter.met] using hall

/-- One method more is told of. -/
theorem Chronicle.examine {reports : List (List Event)}
    (h : g.Chronicle supertypes root w (chapters ++ [⟨i, reports, []⟩]) todo)
    (htells : g.Tells w w' es) (hentered : w'.entered = w.entered) :
    g.Chronicle supertypes root w' (chapters ++ [⟨i, reports ++ [es], []⟩]) todo := by
  obtain ⟨hcomponents, hdiagnostics⟩ := h.of_tells htells
  refine ⟨?_, ?_, hcomponents, hdiagnostics, fun hw => ?_⟩
  · rw [hentered, h.entered]
    simp
  · rw [htells.events, h.events]
    simp [chapterEvents]
  · have hedges := h.edges (htells.failed hw)
    simpa [Chapter.met] using hedges

/-- That the supertypes are asked for is not told. -/
theorem Chronicle.expand (h : g.Chronicle supertypes root w chapters todo) :
    g.Chronicle supertypes root (w.note (.expanded i)) chapters todo := by
  have htells : g.Tells w (w.note (.expanded i)) [] := g.tells_note w rfl rfl rfl
  obtain ⟨hcomponents, hdiagnostics⟩ := h.of_tells htells
  refine ⟨?_, ?_, hcomponents, hdiagnostics, h.edges⟩
  · rw [entered_note, h.entered]
    exact List.append_nil _
  · rw [htells.events, h.events, List.append_nil]

end

/-- With fixed answers no move meets an internal error. -/
theorem Moves.untroubled {a b : Moment I M T S Unit} (h : g.Moves supertypes policy a b)
    (ha : g.Untroubled a.state) : g.Untroubled b.state := by
  have hexamine (i : I) (m : M) {w : Traversal I M T S Unit} (hw : g.Untroubled w) :
      g.Untroubled (g.examine policy i w m) := by
    rcases untroubled_or_endsAt_examine hw policy i m with hnext | ⟨text, hend⟩
    · exact hnext
    · obtain ⟨_, _, hfirst, hsecond⟩ := hend.wavers
      exact absurd (hfirst.symm.trans hsecond) Bool.false_ne_true
  cases h with
  | stop => exact ha
  | pass => exact ha.note rfl
  | enter => exact ha.enter _ _
  | examine => exact hexamine _ _ ha
  | halt => exact hexamine _ _ ha
  | expand => exact ha.note rfl

theorem Passes.untroubled {a : Moment I M T S Unit}
    (h : g.Passes supertypes policy root () a) : g.Untroubled a.state :=
  h.invariant (P := fun a => g.Untroubled a.state) (g.untroubled_start ()) fun _ _ hab ha =>
    hab.untroubled ha

/-- Each move goes on with the last chapter or begins a new one. -/
theorem Moves.recorded {a b : Moment I M T S Unit} (h : g.Moves supertypes policy a b)
    (hvisited : a.state.visited = a.state.entered.map g.qualifiedName)
    (hquiet : b.state.hasInternal = false) (ha : g.Recorded supertypes policy root a) :
    g.Recorded supertypes policy root b := by
  cases ha with
  | @between w chapters todo hchronicle hfull =>
    cases todo with
    | nil => cases h
    | cons i todo =>
      cases h with
      | stop hfailed =>
        rw [← List.map_nil (f := Task.meet)]
        exact .between (hchronicle.stop hfailed) hfull
      | pass _ hmet =>
        -- something was entered before, since its name was
        obtain rfl | ⟨front, c, rfl⟩ := chapters.eq_nil_or_concat
        · rw [hvisited, hchronicle.entered] at hmet
          exact absurd hmet List.not_mem_nil
        · rw [List.concat_eq_append] at hchronicle hfull
          refine .between hchronicle.pass fun c' hc' => ?_
          rcases List.mem_append.mp hc' with hc' | hc'
          · exact hfull c' (List.mem_append_left _ hc')
          · rw [List.mem_singleton.mp hc']
            exact hfull c (List.mem_append_right _ (List.mem_singleton_self c))
      | enter => exact .within hchronicle.enter hfull .nil (List.nil_append _).symm
  | @within w chapters i reports done pending todo hchronicle hfull hdone hmethods =>
    cases pending with
    | nil =>
      cases h with
      | expand =>
        rw [← List.map_append]
        refine .between hchronicle.expand fun c hc => ?_
        rcases List.mem_append.mp hc with hc | hc
        · exact hfull c hc
        · rw [List.mem_singleton.mp hc, IsFull, hmethods, List.append_nil]
          exact hdone
    | cons m pending =>
      cases h with
      | examine hinternal =>
        obtain ⟨es, hreport, htells⟩ := (g.outcome_examine policy i m w).report hinternal
        have hentered := (g.sameEntered_examine policy i w m).2
        have hdone' : List.Forall₂ (g.Report policy i) (done ++ [m]) (reports ++ [es]) :=
          List.rel_append hdone (.cons hreport .nil)
        refine .within (hchronicle.examine htells hentered) hfull hdone' ?_
        rw [hmethods, List.append_assoc, List.singleton_append]
      | halt hinternal => exact absurd (hquiet.symm.trans hinternal) Bool.false_ne_true

theorem Passes.recorded {a : Moment I M T S Unit} (h : g.Passes supertypes policy root () a) :
    g.Recorded supertypes policy root a := by
  induction h with
  | refl =>
    show g.Recorded supertypes policy root ⟨[root].map .meet, _⟩
    exact .between (g.chronicle_start supertypes root) fun _ hc => absurd hc List.not_mem_nil
  | tail ha hab ih =>
    have hb : g.Passes supertypes policy root () _ := ha.tail hab
    exact hab.recorded (Passes.counted ha).visited hb.untroubled.hasInternal ih

/-- In the end all is told. -/
theorem Passes.chronicle (h : g.Passes supertypes policy root () ⟨[], w⟩) :
    ∃ chapters, g.Chronicle supertypes root w chapters [] ∧ ∀ c ∈ chapters, g.IsFull policy c := by
  have hrecorded := h.recorded
  generalize ha : (⟨[], w⟩ : Moment I M T S Unit) = a at hrecorded
  cases hrecorded with
  | @between w chapters todo hchronicle hfull =>
    obtain ⟨htodo, rfl⟩ := Moment.mk.inj ha
    obtain rfl := List.map_eq_nil_iff.mp htodo.symm
    exact ⟨chapters, hchronicle, hfull⟩
  | within => simp at ha

/-! ## Counts -/

/-- A report tells nothing of any other kind. -/
theorem Report.isAboutMethod (h : g.Report policy i m es) : ∀ e ∈ es, e.isAboutMethod = true := by
  cases h <;> simp [Event.isAboutMethod]

theorem IsFull.isAboutMethod {c : Chapter I} (h : g.IsFull policy c) :
    ∀ e ∈ c.reports.flatten, e.isAboutMethod = true := by
  unfold IsFull at h
  generalize g.methods c.interface = ms, c.reports = reports at h
  induction h with
  | nil => simp
  | cons hreport _ ih =>
    rw [List.flatten_cons, List.forall_mem_append]
    exact ⟨hreport.isAboutMethod, ih⟩

/-- A chapter tells once that its interface is entered, and for each interface that is passed over
that it was entered before. -/
theorem IsFull.tally_chapterEvents {c : Chapter I} (h : g.IsFull policy c) :
    tally "visiting interface" (g.chapterEvents c) +
      tally "interface already visited" (g.chapterEvents c) = c.met.length := by
  have hreports (message : String) (hmessage : ∀ e : Event, e.isAboutMethod = true →
      e.message ≠ message) : tally message c.reports.flatten = 0 := by
    unfold tally
    rw [List.countP_eq_zero]
    intro e he
    simpa using hmessage e (h.isAboutMethod e he)
  have hvisiting := hreports "visiting interface" fun e he => by
    cases e <;> simp_all [Event.isAboutMethod, Event.message]
  have hvisited := hreports "interface already visited" fun e he => by
    cases e <;> simp_all [Event.isAboutMethod, Event.message]
  have hpassed : tally "visiting interface" (c.passed.map fun i => .revisited (g.qualifiedName i)) = 0 ∧
      tally "interface already visited" (c.passed.map fun i => .revisited (g.qualifiedName i)) =
        c.passed.length := by
    induction c.passed with
    | nil => simp
    | cons i is ih => simp [ih, Event.message]
  simp [chapterEvents, Chapter.met, hvisiting, hvisited, hpassed, Event.message]
  omega

theorem IsFull.count_chapterEvents {c : Chapter I} (h : g.IsFull policy c) (name : String) :
    (g.chapterEvents c).count (.entered name) =
      if g.qualifiedName c.interface = name then 1 else 0 := by
  have hreports : c.reports.flatten.count (.entered name) = 0 := by
    rw [List.count_eq_zero]
    intro hmem
    cases h.isAboutMethod _ hmem
  have hpassed : (c.passed.map fun i => Event.revisited (g.qualifiedName i)).count (.entered name) =
      0 := by
    rw [List.count_eq_zero]
    simp
  simp [chapterEvents, List.count_cons, hreports, hpassed]

/-- What the chapters tell of is told once for each of their interfaces. -/
theorem Chronicle.counts {chapters : List (Chapter I)} {todo : List I}
    (h : g.Chronicle supertypes root w chapters todo) (hfull : ∀ c ∈ chapters, g.IsFull policy c) :
    tally "visiting interface" (g.events w) + tally "interface already visited" (g.events w) =
        (chapters.flatMap Chapter.met).length ∧
      ∀ name, (g.events w).count (.entered name) = (w.entered.map g.qualifiedName).count name := by
  rw [h.events, h.entered]
  clear h
  induction chapters with
  | nil => simp
  | cons c chapters ih =>
    rw [List.forall_mem_cons] at hfull
    obtain ⟨hmet, hentered⟩ := ih hfull.2
    refine ⟨?_, fun name => ?_⟩
    · have hchapter := hfull.1.tally_chapterEvents
      rw [List.flatMap_cons, List.flatMap_cons, tally_append, tally_append, List.length_append,
        ← hmet, ← hchapter]
      omega
    · rw [List.flatMap_cons, List.count_append, hentered, hfull.1.count_chapterEvents, List.map_cons,
        List.map_cons, List.count_cons]
      simp only [beq_iff_eq]
      omega

/-- A derivation tells of the diagnostics that it reports, those of its traversal and its own. -/
theorem tally_events_derive (g : Catalog I M T S Unit) (settings : Settings) (scheme : NameScheme)
    (root : I)
    (h : tally "diagnostic recorded" (g.events (g.traverse settings.conflicts root ())) =
      (g.traverse settings.conflicts root ()).diagnostics.length) :
    tally "diagnostic recorded" (g.derive settings scheme root ()).events =
      (g.derive settings scheme root ()).diagnostics.length := by
  unfold derive
  dsimp only
  split
  · simp [h, Event.message]
  · split <;> simp [h, Event.message, Diagnostics.add]

/-- Events account for every method and every edge. The events of a traversal that has come to its
end, whatever it found, fall into chapters, one for each name that was entered, in which each
declared method of the interface gets one report. A report is one event, or two where a component
is kept without the first value that it asks for. There are as many events of acceptance as
components and as many of diagnostics as diagnostics, and for each name that was entered one event
says so. If nothing was wrong, then the interfaces that were entered or passed over are the root and
all supertypes that the entered interfaces declare, each as often as it is declared, so that the
events of both kinds are one more than those supertypes. The supertypes may lead on to ever new
names; with those of the catalog itself, what its traversal comes to is such an end. -/
theorem events_account (g : Catalog I M T S Unit) (supertypes : I → List I)
    (policy : ConflictPolicy) (root : I) :
    (∀ w, g.Passes supertypes policy root () ⟨[], w⟩ →
      (∃ chapters : List (Chapter I), g.events w = chapters.flatMap g.chapterEvents ∧
        chapters.map (·.interface) = w.entered ∧
        (∀ c ∈ chapters,
          List.Forall₂ (g.Report policy c.interface) (g.methods c.interface) c.reports) ∧
        (w.diagnostics = [] → (chapters.flatMap Chapter.met).Perm
          (root :: chapters.flatMap (supertypes ·.interface)))) ∧
      tally "component accepted" (g.events w) = w.components.length ∧
      tally "diagnostic recorded" (g.events w) = w.diagnostics.length ∧
      w.visited = w.entered.map g.qualifiedName ∧
      (∀ name, (g.events w).count (.entered name) = if name ∈ w.visited then 1 else 0) ∧
      (w.diagnostics = [] →
        tally "visiting interface" (g.events w) + tally "interface already visited" (g.events w) =
          1 + (w.entered.map fun i => (supertypes i).length).sum)) ∧
    g.Passes g.supertypes policy root () ⟨[], g.traverse policy root ()⟩ ∧
    ∀ settings scheme, tally "diagnostic recorded" (g.derive settings scheme root ()).events =
      (g.derive settings scheme root ()).diagnostics.length := by
  refine ⟨fun w hw => ?_, passes_traverse root (), fun settings scheme => ?_⟩
  · obtain ⟨chapters, hchronicle, hfull⟩ := hw.chronicle
    have hcounted := Passes.counted hw
    obtain ⟨hmet, hentered⟩ := hchronicle.counts hfull
    have hedges (hclean : w.diagnostics = []) :
        (chapters.flatMap Chapter.met).Perm (root :: chapters.flatMap (supertypes ·.interface)) := by
      have hperm := hchronicle.edges (failed_eq_false_iff.mpr hclean)
      rwa [List.append_nil] at hperm
    refine ⟨⟨chapters, hchronicle.events, hchronicle.entered.symm, hfull, hedges⟩,
      hchronicle.components, hchronicle.diagnostics, hcounted.visited, fun name => ?_,
      fun hclean => ?_⟩
    · have hnodup : (w.entered.map g.qualifiedName).Nodup := by
        rw [← hcounted.visited]
        exact hcounted.nodup
      rw [hentered, hcounted.visited, hnodup.count]
    · have hlength := (hedges hclean).length_eq
      rw [hmet, hlength, hchronicle.entered, List.length_cons, List.length_flatMap, List.map_map,
        Nat.add_comm]
      rfl
  · have hpasses : g.Passes g.supertypes settings.conflicts root ()
        ⟨[], g.traverse settings.conflicts root ()⟩ := g.passes_traverse root ()
    obtain ⟨_, hchronicle, -⟩ := hpasses.chronicle
    exact g.tally_events_derive settings scheme root hchronicle.diagnostics

/-- In the one traversal some methods are skipped, rejected, repeated or kept without their first
values. In the other one all edges of a cyclic graph are gone along. -/
theorem events_account_defaults :
    (∃ chapters : List (Chapter Nat),
      Graph.defaults.catalog.events (Graph.defaults.catalog.traverse .reject 0 ()) =
        chapters.flatMap Graph.defaults.catalog.chapterEvents ∧
      ∀ c ∈ chapters, List.Forall₂ (Graph.defaults.catalog.Report .reject c.interface)
        (Graph.defaults.catalog.methods c.interface) c.reports) ∧
    Graph.defaults.catalog.events (Graph.defaults.catalog.traverse .reject 0 ()) =
      [.entered "v::Root", .accepted "id" "int" "Root", .entered "v::Base", .skipped "zero",
        .skipped "TAG", .repeated "id" "Base", .accepted "count" "int" "Base",
        .accepted "tag" "String" "Base", .diagnosed (.missingInitializer "zero"),
        .accepted "gap" "String" "Base", .diagnosed (.signature "Base" "bad"), .skipped "zero"] ∧
    (Graph.knot.catalog.traverse .reject 0 ()).diagnostics = [] ∧
    tally "visiting interface"
          (Graph.knot.catalog.events (Graph.knot.catalog.traverse .reject 0 ())) +
        tally "interface already visited"
          (Graph.knot.catalog.events (Graph.knot.catalog.traverse .reject 0 ())) =
      1 + ((Graph.knot.catalog.traverse .reject 0 ()).entered.map fun i =>
        (Graph.knot.catalog.supertypes i).length).sum ∧
    (Graph.knot.catalog.traverse .reject 0 ()).entered = [0, 1, 3, 2] := by
  obtain ⟨hdefaults, hends, -⟩ :=
    Graph.defaults.catalog.events_account Graph.defaults.catalog.supertypes .reject 0
  obtain ⟨⟨chapters, hevents, -, hreports, -⟩, -⟩ := hdefaults _ hends
  obtain ⟨hknot, hends', -⟩ :=
    Graph.knot.catalog.events_account Graph.knot.catalog.supertypes .reject 0
  obtain ⟨-, -, -, -, -, hedges⟩ := hknot _ hends'
  exact ⟨⟨chapters, hevents, hreports⟩, by decide, by decide, hedges (by decide), by decide⟩

end Catalog

end InterfaceRecord
