/-
  A traversal move by move. What is still to be done stands on an agenda, and each move takes the
  first task from it, until something goes wrong or nothing is left. There is no limit on the depth
  here, and the supertypes may lead on to ever new names. `passes_traverse`: with the supertypes of
  the catalog the moves end with what the traversal comes to. Since each moment has at most one
  next one (`Moves.unique`), the moments passed on the way are all points of the traversal.
-/
import InterfaceRecord.Proofs.Sweep
import Mathlib.Logic.Relation

namespace InterfaceRecord

/-- One thing that a traversal has still to do. -/
inductive Task (I M : Type)
  | meet (i : I)
  /-- A method of an interface that was entered is to be examined. -/
  | examine (i : I) (m : M)
  /-- The supertypes of an interface are to be asked for, its methods having been examined. -/
  | expand (i : I)

/-- The interface that a task is about. -/
def Task.interface {I M : Type} : Task I M → I
  | meet i => i
  | examine i _ => i
  | expand i => i

/-- A moment of a traversal: what is still to be done, in order, and what was gathered so far. -/
structure Moment (I M T S V : Type) where
  agenda : List (Task I M)
  state : Traversal I M T S V

/-- The moment before a root is met. -/
def Moment.start {I M T S V : Type} (root : I) (v : V) : Moment I M T S V where
  agenda := [.meet root]
  state := { void := v }

namespace Catalog

open Traversal Relation

variable {I M T S V : Type} (g : Catalog I M T S V) (supertypes : I → List I)
  (policy : ConflictPolicy)

/-- From one moment to the next. The supertypes are given apart, since those of a catalog lead to
finitely many names from everywhere. -/
inductive Moves : Moment I M T S V → Moment I M T S V → Prop
  /-- After a failure nothing more is met. -/
  | stop {i : I} {rest : List (Task I M)} {w : Traversal I M T S V} (hfailed : w.failed = true) :
    Moves ⟨.meet i :: rest, w⟩ ⟨[], w⟩
  /-- The name was entered before. -/
  | pass {i : I} {rest : List (Task I M)} {w : Traversal I M T S V} (hfailed : w.failed = false)
    (hvisited : g.qualifiedName i ∈ w.visited) :
    Moves ⟨.meet i :: rest, w⟩ ⟨rest, w.note (.revisited i)⟩
  /-- The methods are to be examined and then the supertypes asked for, before all else. -/
  | enter {i : I} {rest : List (Task I M)} {w : Traversal I M T S V} (hfailed : w.failed = false)
    (hnew : g.qualifiedName i ∉ w.visited) :
    Moves ⟨.meet i :: rest, w⟩
      ⟨(g.methods i).map (.examine i) ++ .expand i :: rest, w.enter i (g.qualifiedName i)⟩
  | examine {i : I} {m : M} {rest : List (Task I M)} {w : Traversal I M T S V}
    (hinternal : (g.examine policy i w m).hasInternal = false) :
    Moves ⟨.examine i m :: rest, w⟩ ⟨rest, g.examine policy i w m⟩
  /-- An internal error ends all. -/
  | halt {i : I} {m : M} {rest : List (Task I M)} {w : Traversal I M T S V}
    (hinternal : (g.examine policy i w m).hasInternal = true) :
    Moves ⟨.examine i m :: rest, w⟩ ⟨[], g.examine policy i w m⟩
  /-- The supertypes are to be met in turn, before all else. -/
  | expand {i : I} {rest : List (Task I M)} {w : Traversal I M T S V} :
    Moves ⟨.expand i :: rest, w⟩ ⟨(supertypes i).map .meet ++ rest, w.note (.expanded i)⟩

/-- A traversal from `root` passes through that moment. -/
def Passes (root : I) (v : V) (a : Moment I M T S V) : Prop :=
  ReflTransGen (g.Moves supertypes policy) (.start root v) a

variable {g supertypes policy}

/-! ## The course of the moves -/

/-- There is one way to go on. -/
theorem Moves.unique {a b c : Moment I M T S V} (hb : g.Moves supertypes policy a b)
    (hc : g.Moves supertypes policy a c) : b = c := by
  cases hb with
  | stop hfailed =>
    cases hc with
    | stop => rfl
    | pass hfailed' => exact absurd (hfailed'.symm.trans hfailed) Bool.false_ne_true
    | enter hfailed' => exact absurd (hfailed'.symm.trans hfailed) Bool.false_ne_true
  | pass hfailed hvisited =>
    cases hc with
    | stop hfailed' => exact absurd (hfailed.symm.trans hfailed') Bool.false_ne_true
    | pass => rfl
    | enter _ hnew => exact absurd hvisited hnew
  | enter hfailed hnew =>
    cases hc with
    | stop hfailed' => exact absurd (hfailed.symm.trans hfailed') Bool.false_ne_true
    | pass _ hvisited => exact absurd hvisited hnew
    | enter => rfl
  | examine hinternal =>
    cases hc with
    | examine => rfl
    | halt hinternal' => exact absurd (hinternal.symm.trans hinternal') Bool.false_ne_true
  | halt hinternal =>
    cases hc with
    | examine hinternal' => exact absurd (hinternal'.symm.trans hinternal) Bool.false_ne_true
    | halt => rfl
  | expand =>
    cases hc with
    | expand => rfl

/-- While something is to be done, there is a way to go on. -/
theorem exists_moves {a : Moment I M T S V} (h : a.agenda ≠ []) :
    ∃ b, g.Moves supertypes policy a b := by
  obtain ⟨agenda, w⟩ := a
  cases agenda with
  | nil => exact absurd rfl h
  | cons task rest =>
    cases task with
    | meet i =>
      cases hfailed : w.failed with
      | true => exact ⟨_, .stop hfailed⟩
      | false =>
        by_cases hvisited : g.qualifiedName i ∈ w.visited
        · exact ⟨_, .pass hfailed hvisited⟩
        · exact ⟨_, .enter hfailed hvisited⟩
    | examine i m =>
      cases hinternal : (g.examine policy i w m).hasInternal with
      | true => exact ⟨_, .halt hinternal⟩
      | false => exact ⟨_, .examine hinternal⟩
    | expand i => exact ⟨_, .expand⟩

/-- What holds at the start and is kept by every move holds at each moment. -/
theorem Passes.invariant {P : Moment I M T S V → Prop} {root : I} {v : V}
    {a : Moment I M T S V} (h : g.Passes supertypes policy root v a) (hstart : P (.start root v))
    (hmove : ∀ a b, g.Moves supertypes policy a b → P a → P b) : P a := by
  induction h with
  | refl => exact hstart
  | tail _ hab ih => exact hmove _ _ hab ih

/-- The moves come to one end only. -/
theorem Passes.state_unique {root : I} {v : V} {w w' : Traversal I M T S V}
    (h : g.Passes supertypes policy root v ⟨[], w⟩)
    (h' : g.Passes supertypes policy root v ⟨[], w'⟩) : w = w' := by
  have hend {w : Traversal I M T S V} {b : Moment I M T S V}
      (hb : ReflTransGen (g.Moves supertypes policy) ⟨[], w⟩ b) : (⟨[], w⟩ : Moment _ _ _ _ _) = b := by
    rcases hb.cases_head with heq | ⟨c, hc, -⟩
    · exact heq
    · cases hc
  have hunique : Relator.RightUnique (g.Moves supertypes policy) :=
    fun _ _ _ hb hc => hb.unique hc
  rcases ReflTransGen.total_of_right_unique hunique h h' with hww | hww
  · exact congrArg Moment.state (hend hww)
  · exact (congrArg Moment.state (hend hww)).symm

/-! ## What stands on the agenda -/

/-- The interface of a task can be reached, and a method to be examined is one of its own. -/
structure Known (g : Catalog I M T S V) (supertypes : I → List I) (root : I) (task : Task I M) :
    Prop where
  reached : ReflTransGen (fun i p => p ∈ supertypes i) root task.interface
  declared : ∀ i m, task = .examine i m → m ∈ g.methods i

/-- What is done comes from the interfaces that can be reached. -/
theorem Moves.known {root : I} {a b : Moment I M T S V} (h : g.Moves supertypes policy a b)
    (ha : ∀ task ∈ a.agenda, g.Known supertypes root task) :
    ∀ task ∈ b.agenda, g.Known supertypes root task := by
  cases h with
  | stop => exact fun _ h => absurd h List.not_mem_nil
  | pass => exact fun task h => ha task (List.mem_cons_of_mem _ h)
  | @enter i rest w =>
    have hi : ReflTransGen (fun i p => p ∈ supertypes i) root i :=
      (ha _ List.mem_cons_self).reached
    intro task htask
    rcases List.mem_append.mp htask with htask | htask
    · obtain ⟨m, hm, rfl⟩ := List.mem_map.mp htask
      refine ⟨hi, ?_⟩
      rintro _ _ ⟨⟩
      exact hm
    · rcases List.mem_cons.mp htask with rfl | htask
      · exact ⟨hi, fun _ _ h => by cases h⟩
      · exact ha task (List.mem_cons_of_mem _ htask)
  | examine => exact fun task h => ha task (List.mem_cons_of_mem _ h)
  | halt => exact fun _ h => absurd h List.not_mem_nil
  | @expand i rest w =>
    have hi : ReflTransGen (fun i p => p ∈ supertypes i) root i :=
      (ha _ List.mem_cons_self).reached
    intro task htask
    rcases List.mem_append.mp htask with htask | htask
    · obtain ⟨p, hp, rfl⟩ := List.mem_map.mp htask
      exact ⟨hi.tail hp, fun _ _ h => by cases h⟩
    · exact ha task (List.mem_cons_of_mem _ htask)

theorem Passes.known {root : I} {v : V} {a : Moment I M T S V}
    (h : g.Passes supertypes policy root v a) :
    ∀ task ∈ a.agenda, g.Known supertypes root task := by
  refine h.invariant (P := fun a => ∀ task ∈ a.agenda, g.Known supertypes root task) ?_
    fun a b hab ha => hab.known ha
  intro task htask
  rw [Moment.start, List.mem_singleton] at htask
  rw [htask]
  exact ⟨.refl, fun _ _ h => by cases h⟩

/-! ## The moves and the traversal -/

/-- The methods of an interface in turn. -/
theorem moves_examineAll (i : I) (ms : List M) (rest : List (Task I M))
    {w : Traversal I M T S V} (hw : w.hasInternal = false) :
    ReflTransGen (g.Moves supertypes policy) ⟨ms.map (.examine i) ++ rest, w⟩
      ⟨if (g.examineAll policy i ms w).hasInternal then [] else rest,
        g.examineAll policy i ms w⟩ := by
  induction ms generalizing w with
  | nil =>
    rw [examineAll, if_neg (Bool.eq_false_iff.mp hw)]
    exact .refl
  | cons m ms ih =>
    rw [examineAll]
    cases hinternal : (g.examine policy i w m).hasInternal with
    | true =>
      rw [if_pos rfl, if_pos hinternal]
      exact .single (.halt hinternal)
    | false =>
      rw [if_neg Bool.false_ne_true]
      exact .head (.examine hinternal) (ih hinternal)

/-- The moves do what the loop does. -/
theorem moves_sweep (todo : List I) (w : Traversal I M T S V) :
    ReflTransGen (g.Moves g.supertypes policy) ⟨todo.map .meet, w⟩
      ⟨[], g.sweep policy todo w⟩ := by
  have henter {i : I} (todo : List I) {w : Traversal I M T S V} (hf : w.failed = false)
      (hi : g.qualifiedName i ∉ w.visited) :
      ReflTransGen (g.Moves g.supertypes policy) ⟨(i :: todo).map .meet, w⟩
        ⟨if (g.visit policy i w).hasInternal then [] else .expand i :: todo.map .meet,
          g.visit policy i w⟩ := by
    have hw : (w.enter i (g.qualifiedName i)).hasInternal = false := by
      by_contra hint
      have := failed_of_hasInternal (w := w) (Bool.eq_true_of_not_eq_false hint)
      exact Bool.false_ne_true (hf.symm.trans this)
    exact .head (.enter hf hi) (moves_examineAll i (g.methods i) _ hw)
  induction todo, w using sweep.induct g policy with
  | case1 w =>
    rw [sweep_nil]
    exact .refl
  | case2 i todo w hf =>
    rw [sweep_of_failed g _ _ hf]
    exact .single (.stop hf)
  | case3 i todo w hf hi ih =>
    have hf' := Bool.eq_false_iff.mpr hf
    rw [sweep_cons_of_mem g _ hf' hi]
    exact .head (.pass hf' hi) ih
  | case4 i todo w hf hi hint =>
    have hf' := Bool.eq_false_iff.mpr hf
    have hvisit := henter todo hf' hi
    rw [if_pos hint] at hvisit
    rw [sweep_cons_of_hasInternal g _ hf' hi hint]
    exact hvisit
  | case5 i todo w hf hi hint ih =>
    have hf' := Bool.eq_false_iff.mpr hf
    have hvisit := henter todo hf' hi
    rw [if_neg hint] at hvisit
    rw [sweep_cons_of_not_mem g _ hf' hi (Bool.eq_false_iff.mpr hint)]
    rw [List.map_append] at ih
    exact hvisit.trans (.head .expand ih)

/-- The moves end with what the traversal comes to. -/
theorem passes_traverse (root : I) (v : V) :
    g.Passes g.supertypes policy root v ⟨[], g.traverse policy root v⟩ := by
  rw [traverse_eq_sweep]
  exact moves_sweep [root] { void := v }

end Catalog

end InterfaceRecord
