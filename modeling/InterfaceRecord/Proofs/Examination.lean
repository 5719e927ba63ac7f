/-
  What a traversal tells about the interfaces it entered and the methods it examined. Examining
  methods adds to the methods and leaves the interfaces as they are.
-/
import InterfaceRecord.Traversal.Basic

namespace InterfaceRecord

variable {I M T S V : Type}

/-! ## Views of the steps -/

namespace Step

/-- The interface that is entered in a step. -/
def entry? : Step I M → Option I
  | entered i => some i
  | _ => none

/-- The method whose examination ends with a step. A first value that is missing is told on the
way to the component, so that it ends nothing. -/
def method? : Step I M → Option (I × M)
  | skipped i m => some (i, m)
  | repeated i m => some (i, m)
  | accepted i m => some (i, m)
  | diagnosed _ _ (.missingInitializer _) => none
  | diagnosed i m _ => some (i, m)
  | _ => none

end Step

namespace Traversal

/-- The interfaces that were entered, in order. -/
def entered (w : Traversal I M T S V) : List I := w.steps.filterMap Step.entry?

/-- The methods that were examined, in order and each with its interface. -/
def examined (w : Traversal I M T S V) : List (I × M) := w.steps.filterMap Step.method?

@[simp] theorem visited_note (w : Traversal I M T S V) (s : Step I M) :
    (w.note s).visited = w.visited := rfl

@[simp] theorem diagnostics_note (w : Traversal I M T S V) (s : Step I M) :
    (w.note s).diagnostics = w.diagnostics := rfl

@[simp] theorem entered_note (w : Traversal I M T S V) (s : Step I M) :
    (w.note s).entered = w.entered ++ s.entry?.toList := by
  rw [entered, note, List.filterMap_append, entered]
  cases h : s.entry? <;> simp [h]

@[simp] theorem examined_note (w : Traversal I M T S V) (s : Step I M) :
    (w.note s).examined = w.examined ++ s.method?.toList := by
  rw [examined, note, List.filterMap_append, examined]
  cases h : s.method? <;> simp [h]

@[simp] theorem entered_enter (w : Traversal I M T S V) (i : I) (name : String) :
    (w.enter i name).entered = w.entered ++ [i] := entered_note _ _

@[simp] theorem examined_enter (w : Traversal I M T S V) (i : I) (name : String) :
    (w.enter i name).examined = w.examined := by
  rw [enter, examined_note]
  exact List.append_nil _

@[simp] theorem examined_diagnose (w : Traversal I M T S V) (i : I) (m : M) (fault : Fault)
    (site : S) :
    (w.diagnose i m fault site).examined =
      w.examined ++ (Step.diagnosed i m fault).method?.toList := examined_note _ _

@[simp] theorem examined_keep (w : Traversal I M T S V) (i : I) (interface : String)
    (c : Component M T) :
    (w.keep i interface c).examined = w.examined ++ [(i, c.origin)] := examined_note _ _

/-- A traversal has failed exactly if it has diagnostics. -/
theorem failed_eq_false_iff {w : Traversal I M T S V} :
    w.failed = false ↔ w.diagnostics = [] := by
  rw [failed, Diagnostics.failed, Bool.not_eq_false', List.isEmpty_iff]

/-- An internal error is a failure. -/
theorem failed_of_hasInternal {w : Traversal I M T S V} (h : w.hasInternal = true) :
    w.failed = true := by
  cases hf : w.failed with
  | true => rfl
  | false =>
    rw [hasInternal, failed_eq_false_iff.mp hf] at h
    cases h

/-- Two traversals have entered the same. -/
def SameEntered (w w' : Traversal I M T S V) : Prop :=
  w'.visited = w.visited ∧ w'.entered = w.entered

theorem SameEntered.refl (w : Traversal I M T S V) : w.SameEntered w := ⟨rfl, rfl⟩

theorem SameEntered.trans {w w' w'' : Traversal I M T S V} (h : w.SameEntered w')
    (h' : w'.SameEntered w'') : w.SameEntered w'' :=
  ⟨h'.1.trans h.1, h'.2.trans h.2⟩

theorem sameEntered_note (w : Traversal I M T S V) {s : Step I M} (hs : s.entry? = none) :
    w.SameEntered (w.note s) := by
  refine ⟨rfl, ?_⟩
  rw [entered_note, hs]
  exact List.append_nil _

theorem sameEntered_diagnose (w : Traversal I M T S V) (i : I) (m : M) (fault : Fault)
    (site : S) : w.SameEntered (w.diagnose i m fault site) :=
  sameEntered_note { w with diagnostics := w.diagnostics.add fault site } rfl

theorem sameEntered_keep (w : Traversal I M T S V) (i : I) (interface : String)
    (c : Component M T) : w.SameEntered (w.keep i interface c) :=
  sameEntered_note { w with
    used := w.used ++ [(c.name, Precedent.mk c.type interface)]
    components := w.components ++ [c] } rfl

end Traversal

/-! ## Examining enters nothing -/

namespace Catalog

open Traversal

variable (g : Catalog I M T S V)

theorem sameEntered_firstValue (i : I) (m : M) (type : T) (w : Traversal I M T S V) :
    w.SameEntered (g.firstValue i m type w).2 := by
  rw [firstValue]
  split
  · exact SameEntered.refl w
  · split
    · exact SameEntered.refl w
    · exact sameEntered_diagnose w i m _ _

theorem sameEntered_considerFresh (i : I) (m : M) (name : String) (type : T)
    (w : Traversal I M T S V) : w.SameEntered (g.considerFresh i m name type w) := by
  rw [considerFresh]
  dsimp only
  have hvoid : w.SameEntered { w with void := (g.isVoid type w.void).2 } := ⟨rfl, rfl⟩
  split
  · exact hvoid.trans (sameEntered_diagnose _ i m _ _)
  · exact hvoid.trans ((g.sameEntered_firstValue i m type _).trans (sameEntered_keep _ i _ _))

theorem sameEntered_consider (policy : ConflictPolicy) (i : I) (m : M) (name : String) (type : T)
    (w : Traversal I M T S V) : w.SameEntered (g.consider policy i m name type w) := by
  rw [consider]
  split
  · split
    · exact sameEntered_diagnose w i m _ _
    · exact sameEntered_note w rfl
  · exact g.sameEntered_considerFresh i m name type w

theorem sameEntered_examine (policy : ConflictPolicy) (i : I) (w : Traversal I M T S V) (m : M) :
    w.SameEntered (g.examine policy i w m) := by
  rw [examine]
  dsimp only
  have hvoid : w.SameEntered { w with void := (g.ruling i m w.void).2 } := ⟨rfl, rfl⟩
  split
  · exact hvoid.trans (g.sameEntered_consider policy i m _ _ _)
  · exact hvoid.trans (sameEntered_note _ rfl)
  · exact hvoid.trans (sameEntered_diagnose _ i m _ _)

theorem sameEntered_examineAll (policy : ConflictPolicy) (i : I) (ms : List M)
    (w : Traversal I M T S V) : w.SameEntered (g.examineAll policy i ms w) := by
  induction ms generalizing w with
  | nil => exact SameEntered.refl w
  | cons m ms ih =>
    rw [examineAll]
    split
    · exact g.sameEntered_examine policy i w m
    · exact (g.sameEntered_examine policy i w m).trans (ih _)

end Catalog

end InterfaceRecord
