/-
  Each traversal ends. `moves_end`: it is enough that the interfaces to be reached have finitely
  many names between them, whatever cycles there are and however many interfaces share a name. Each
  move leaves fewer names or less work (`Moves.remaining_lt`). No name is entered twice, and what is
  met is the root or stands in the supertypes of something entered (`Counted`), so these bound how
  often anything is met.
-/
import InterfaceRecord.Graph
import InterfaceRecord.Proofs.Moments
import InterfaceRecord.Proofs.Outcome
import Mathlib.Algebra.Order.Ring.Nat
import Mathlib.Data.Set.Finite.Basic

namespace InterfaceRecord

variable {I M T S V : Type}

/-! ## Meetings -/

/-- The step tells that an interface was met. -/
def Step.isMeeting : Step I M → Bool
  | revisited _ => true
  | entered _ => true
  | _ => false

/-- How often an interface was met, whether it was entered or passed over. -/
def Traversal.meetings (w : Traversal I M T S V) : Nat := w.steps.countP Step.isMeeting

@[simp] theorem Traversal.meetings_note (w : Traversal I M T S V) (s : Step I M) :
    (w.note s).meetings = w.meetings + bif s.isMeeting then 1 else 0 := by
  rw [meetings, steps_note, List.countP_append, List.countP_singleton, meetings]
  cases s.isMeeting <;> rfl

namespace Catalog

open Traversal Relation

variable {g : Catalog I M T S V} {supertypes : I → List I} {policy : ConflictPolicy}

theorem Outcome.meetings {i : I} {m : M} {w w' : Traversal I M T S V}
    (h : g.Outcome policy i m w w') : w'.meetings = w.meetings := by
  have hstep {w' : Traversal I M T S V} {s : Step I M} (hsteps : w'.steps = w.steps ++ [s])
      (hs : s.isMeeting = false) : w'.meetings = w.meetings := by
    rw [Traversal.meetings, hsteps, List.countP_append, List.countP_singleton, hs]
    rfl
  cases h with
  | skipped => exact hstep rfl rfl
  | rejected => exact hstep rfl rfl
  | repeated => exact hstep rfl rfl
  | conflicting => exact hstep rfl rfl
  | void => exact hstep rfl rfl
  | kept => exact hstep rfl rfl
  | unresolved =>
    rw [Traversal.meetings, steps_keep, steps_diagnose, List.countP_append, List.countP_append]
    rfl

/-- To examine a method is to meet nothing. -/
theorem meetings_examine (g : Catalog I M T S V) (policy : ConflictPolicy) (i : I)
    (w : Traversal I M T S V) (m : M) : (g.examine policy i w m).meetings = w.meetings :=
  (g.outcome_examine policy i m w).meetings

/-! ## Each move does something -/

/-- The moves that a task still takes, as long as nothing new is entered. -/
def work (supertypes : I → List I) : Task I M → Nat
  | .meet _ => 1
  | .examine _ _ => 1
  | .expand i => (supertypes i).length + 1

/-- How many of the names are left, and how much work there is. -/
def remaining (supertypes : I → List I) (names : Finset String) (a : Moment I M T S V) : Nat × Nat :=
  ((names \ a.state.visited.toFinset).card, (a.agenda.map (work supertypes)).sum)

/-- A count that takes one for each interface to be met. -/
theorem sum_map_meet {f : Task I M → Nat} (hf : ∀ i, f (.meet i) = 1) (is : List I) :
    ((is.map Task.meet).map f).sum = is.length := by
  induction is with
  | nil => rfl
  | cons i is ih => simp only [List.map_cons, List.sum_cons, ih, hf, List.length_cons]; omega

/-- An interface is entered under a new name, and all other moves take from the work. -/
theorem Moves.remaining_lt {names : Finset String} {a b : Moment I M T S V}
    (h : g.Moves supertypes policy a b)
    (hnames : ∀ task ∈ a.agenda, g.qualifiedName task.interface ∈ names) :
    Prod.Lex (· < ·) (· < ·) (remaining supertypes names b) (remaining supertypes names a) := by
  cases h with
  | stop =>
    apply Prod.Lex.right
    simp only [List.map_nil, List.sum_nil, List.map_cons, List.sum_cons, work]
    omega
  | pass =>
    apply Prod.Lex.right
    simp only [List.map_cons, List.sum_cons, work]
    omega
  | @enter i rest w _ hnew =>
    apply Prod.Lex.left
    apply Finset.card_lt_card
    have hi : g.qualifiedName i ∈ names := hnames _ List.mem_cons_self
    rw [visited_enter, Finset.ssubset_iff_of_subset]
    · refine ⟨g.qualifiedName i, ?_, ?_⟩ <;> simp [hi, hnew]
    · intro name hname
      simp only [Finset.mem_sdiff, List.mem_toFinset, List.mem_append, not_or] at hname ⊢
      exact ⟨hname.1, hname.2.1⟩
  | @examine i m rest w =>
    have hvisited : (g.examine policy i w m).visited = w.visited :=
      (g.sameEntered_examine policy i w m).1
    rw [remaining, remaining, hvisited]
    apply Prod.Lex.right
    simp only [List.map_cons, List.sum_cons, work]
    omega
  | @halt i m rest w =>
    have hvisited : (g.examine policy i w m).visited = w.visited :=
      (g.sameEntered_examine policy i w m).1
    rw [remaining, remaining, hvisited]
    apply Prod.Lex.right
    simp only [List.map_nil, List.sum_nil, List.map_cons, List.sum_cons, work]
    omega
  | expand =>
    apply Prod.Lex.right
    have hmeet := sum_map_meet (f := work (M := M) supertypes) (fun _ => rfl)
    simp only [List.map_append, List.sum_append, hmeet, List.map_cons, List.sum_cons, work]
    omega

/-- Where the names to be met are finite in number, there are no moves without end. -/
theorem acc_of_known {root : I} {names : Finset String}
    (hnames : ∀ i, ReflTransGen (fun i p => p ∈ supertypes i) root i → g.qualifiedName i ∈ names)
    {a : Moment I M T S V} (ha : ∀ task ∈ a.agenda, g.Known supertypes root task) :
    Acc (fun b a => g.Moves supertypes policy a b) a := by
  have hwf : WellFounded (InvImage (Prod.Lex (· < ·) (· < ·))
      (remaining (M := M) (T := T) (S := S) (V := V) supertypes names)) :=
    InvImage.wf _ (WellFounded.prod_lex Nat.lt_wfRel.wf Nat.lt_wfRel.wf)
  induction a using hwf.induction with
  | _ a ih =>
    refine Acc.intro a fun b hab => ih b ?_ (hab.known ha)
    exact hab.remaining_lt fun task htask => hnames _ (ha task htask).reached

/-- Moves that cannot go on without end come to one. -/
theorem exists_end_of_acc {a : Moment I M T S V}
    (h : Acc (fun b a => g.Moves supertypes policy a b) a) :
    ∃ w, ReflTransGen (g.Moves supertypes policy) a ⟨[], w⟩ := by
  induction h with
  | intro a _ ih =>
    by_cases hagenda : a.agenda = []
    · obtain ⟨agenda, w⟩ := a
      obtain rfl : agenda = [] := hagenda
      exact ⟨w, .refl⟩
    · obtain ⟨b, hab⟩ : ∃ b, g.Moves supertypes policy a b := exists_moves hagenda
      obtain ⟨w, hw⟩ := ih b hab
      exact ⟨w, .head hab hw⟩

/-! ## How much there is to do -/

/-- The interfaces that a task leads to before anything new is entered. -/
def due (supertypes : I → List I) : Task I M → Nat
  | .meet _ => 1
  | .examine _ _ => 0
  | .expand i => (supertypes i).length

/-- The root and all direct supertypes of the interfaces that were entered. -/
def reckoned (supertypes : I → List I) (entered : List I) : Nat :=
  1 + (entered.map fun i => (supertypes i).length).sum

/-- Each name was entered once, and what was met and is still to be met is no more than the root
and the supertypes of what was entered. -/
structure Counted (g : Catalog I M T S V) (supertypes : I → List I) (a : Moment I M T S V) :
    Prop where
  visited : a.state.visited = a.state.entered.map g.qualifiedName
  nodup : a.state.visited.Nodup
  meetings : a.state.meetings + (a.agenda.map (due supertypes)).sum ≤
    reckoned supertypes a.state.entered

theorem counted_start (root : I) (v : V) : g.Counted supertypes (.start root v) :=
  ⟨rfl, List.nodup_nil, Nat.le_refl 1⟩

theorem sum_due_examine (i : I) (ms : List M) :
    ((ms.map (Task.examine i)).map (due supertypes)).sum = 0 := by
  induction ms with
  | nil => rfl
  | cons m ms ih => simp only [List.map_cons, List.sum_cons, ih, due]

theorem Moves.counted {a b : Moment I M T S V} (h : g.Moves supertypes policy a b)
    (ha : g.Counted supertypes a) : g.Counted supertypes b := by
  obtain ⟨hvisited, hnodup, hmeetings⟩ := ha
  cases h with
  | stop =>
    refine ⟨hvisited, hnodup, ?_⟩
    simp only [List.map_cons, List.sum_cons, due, List.map_nil, List.sum_nil] at hmeetings ⊢
    omega
  | pass =>
    refine ⟨?_, hnodup, ?_⟩
    · rw [visited_note, entered_note, hvisited]
      exact congrArg _ (List.append_nil _).symm
    · simp only [List.map_cons, List.sum_cons, due, meetings_note, entered_note, Step.isMeeting,
        Step.entry?, cond_true, Option.toList_none, List.append_nil] at hmeetings ⊢
      omega
  | @enter i rest w _ hnew =>
    refine ⟨?_, ?_, ?_⟩
    · rw [visited_enter, entered_enter, List.map_append, List.map_singleton, hvisited]
    · rw [visited_enter, ← List.concat_eq_append]
      exact hnodup.concat hnew
    · have hmet : (w.enter i (g.qualifiedName i)).meetings = w.meetings + 1 := meetings_note _ _
      simp only [List.map_cons, List.sum_cons, due, reckoned, hmet, List.map_append,
        List.sum_append, sum_due_examine, entered_enter, List.map_nil, List.sum_nil]
        at hmeetings ⊢
      omega
  | @examine i m rest w =>
    obtain ⟨hvisited', hentered⟩ := g.sameEntered_examine policy i w m
    refine ⟨?_, ?_, ?_⟩
    · rw [hvisited', hentered, hvisited]
    · rw [hvisited']
      exact hnodup
    · simp only [List.map_cons, List.sum_cons, due, meetings_examine, hentered] at hmeetings ⊢
      omega
  | @halt i m rest w =>
    obtain ⟨hvisited', hentered⟩ := g.sameEntered_examine policy i w m
    refine ⟨?_, ?_, ?_⟩
    · rw [hvisited', hentered, hvisited]
    · rw [hvisited']
      exact hnodup
    · simp only [List.map_cons, List.sum_cons, due, meetings_examine, hentered, List.map_nil,
        List.sum_nil] at hmeetings ⊢
      omega
  | expand =>
    refine ⟨?_, hnodup, ?_⟩
    · rw [visited_note, entered_note, hvisited]
      exact congrArg _ (List.append_nil _).symm
    · have hmeet := sum_map_meet (f := due (M := M) supertypes) (fun _ => rfl)
      simp only [List.map_cons, List.sum_cons, due, meetings_note, entered_note, Step.isMeeting,
        Step.entry?, cond_false, Option.toList_none, List.append_nil, List.map_append,
        List.sum_append, hmeet] at hmeetings ⊢
      omega

theorem Passes.counted {root : I} {v : V} {a : Moment I M T S V}
    (h : g.Passes supertypes policy root v a) : g.Counted supertypes a :=
  h.invariant (counted_start root v) fun _ _ hab ha => hab.counted ha

/-- Where the interfaces that can be reached have finitely many names between them, each traversal
ends: there are no moves without end, and the moves come to one end. No name is then entered twice,
and interfaces were met no more often than once and once for each supertype of those entered. With
the supertypes of the catalog itself, that end is what the traversal comes to. -/
theorem moves_end (g : Catalog I M T S V) (supertypes : I → List I) (policy : ConflictPolicy)
    (root : I) (v : V)
    (hfinite : {name | ∃ i, ReflTransGen (fun i p => p ∈ supertypes i) root i ∧
      g.qualifiedName i = name}.Finite) :
    Acc (fun b a => g.Moves supertypes policy a b) (.start root v) ∧
      ∃ w, g.Passes supertypes policy root v ⟨[], w⟩ ∧
        (∀ w', g.Passes supertypes policy root v ⟨[], w'⟩ → w' = w) ∧
        (w.entered.map g.qualifiedName).Nodup ∧
        w.meetings ≤ 1 + (w.entered.map fun i => (supertypes i).length).sum ∧
        (supertypes = g.supertypes → w = g.traverse policy root v) := by
  have hacc : Acc (fun b a => g.Moves supertypes policy a b) (.start root v) := by
    have hnames (i : I) (hi : ReflTransGen (fun i p => p ∈ supertypes i) root i) :
        g.qualifiedName i ∈ hfinite.toFinset :=
      hfinite.mem_toFinset.mpr ⟨i, hi, rfl⟩
    have hstart : g.Passes supertypes policy root v (.start root v) := .refl
    exact acc_of_known hnames hstart.known
  obtain ⟨w, hw⟩ := exists_end_of_acc hacc
  have hcounted := Passes.counted hw
  refine ⟨hacc, w, hw, fun w' hw' => hw'.state_unique hw, ?_, hcounted.meetings, ?_⟩
  · rw [← hcounted.visited]
    exact hcounted.nodup
  · rintro rfl
    exact Passes.state_unique hw (g.passes_traverse root v)

/-- Stairs without end. Each step leads twice to the next one and back to itself, and every other
step has the same name. -/
def stairs : Catalog Nat Nat NamedType GraphSite Unit where
  qualifiedName i := if i % 2 = 0 then "s::Left" else "s::Right"
  simpleName i := if i % 2 = 0 then "Left" else "Right"
  typeParameters _ := []
  supertypes i := [i + 1, i, i + 1]
  methods i := [i]
  methodName i := if i % 2 = 0 then "left" else "right"
  isStatic _ := false
  isDefault _ := false
  parameters _ := []
  returnType _ := ⟨"int"⟩
  methodTypeParameters _ := []
  ignoresDefault _ := false
  interfaceSite i := .interface (if i % 2 = 0 then "s::Left" else "s::Right")
  methodSite i := .interface (if i % 2 = 0 then "s::Left" else "s::Right")
  typeText t := t.name
  sameType a b := a = b
  isVoid _ _ := (false, ())
  names _ := ["s::Left", "s::Right"]
  name_mem_names i := by split <;> simp
  names_subset_names _ _ _ := List.Subset.refl _

/-- Infinitely many interfaces can be reached, of which two are entered. -/
theorem moves_end_stairs :
    {name | ∃ i, ReflTransGen (fun i p => p ∈ stairs.supertypes i) 0 i ∧
      stairs.qualifiedName i = name}.Finite ∧
    Acc (fun b a => stairs.Moves stairs.supertypes .reject a b) (.start 0 ()) ∧
    (∃ w, stairs.Passes stairs.supertypes .reject 0 () ⟨[], w⟩ ∧
      w = stairs.traverse .reject 0 () ∧ w.meetings ≤ 1 + (w.entered.map fun _ => 3).sum) ∧
    (stairs.traverse .reject 0 ()).entered = [0, 1] ∧
    (stairs.traverse .reject 0 ()).meetings = 7 := by
  have hfinite : {name | ∃ i, ReflTransGen (fun i p => p ∈ stairs.supertypes i) 0 i ∧
      stairs.qualifiedName i = name}.Finite := by
    apply Set.Finite.subset (Set.toFinite {"s::Left", "s::Right"})
    rintro _ ⟨i, -, rfl⟩
    have hname := stairs.name_mem_names i
    simpa [stairs] using hname
  obtain ⟨hacc, w, hpasses, -, -, hmeetings, htraverse⟩ :=
    stairs.moves_end stairs.supertypes .reject 0 () hfinite
  exact ⟨hfinite, hacc, ⟨w, hpasses, htraverse rfl, hmeetings⟩, by decide, by decide⟩

end Catalog

end InterfaceRecord
