/-
  What the examination of one method comes to. `outcome_examine` says all that it can do to a
  traversal, whatever the answers on void types are; what it leaves as it is and what it adds is
  read off from there.
-/
import InterfaceRecord.Proofs.Declarations
import InterfaceRecord.Proofs.Examination

namespace InterfaceRecord

variable {I M T S V : Type}

/-! ## Updates field by field -/

namespace Traversal

@[simp] theorem steps_note (w : Traversal I M T S V) (s : Step I M) :
    (w.note s).steps = w.steps ++ [s] := rfl

@[simp] theorem visited_enter (w : Traversal I M T S V) (i : I) (name : String) :
    (w.enter i name).visited = w.visited ++ [name] := rfl

section

variable (w : Traversal I M T S V) (i : I) (m : M) (fault : Fault) (site : S)

@[simp] theorem diagnostics_diagnose :
    (w.diagnose i m fault site).diagnostics = w.diagnostics ++ [⟨fault, site⟩] := rfl

@[simp] theorem steps_diagnose :
    (w.diagnose i m fault site).steps = w.steps ++ [.diagnosed i m fault] := rfl

end

section

variable (w : Traversal I M T S V) (i : I) (interface : String) (c : Component M T)

@[simp] theorem used_keep :
    (w.keep i interface c).used = w.used ++ [(c.name, ⟨c.type, interface⟩)] := rfl

@[simp] theorem components_keep :
    (w.keep i interface c).components = w.components ++ [c] := rfl

@[simp] theorem steps_keep :
    (w.keep i interface c).steps = w.steps ++ [.accepted i c.origin] := rfl

end

end Traversal

/-! ## One examination -/

namespace Catalog

open Traversal

variable (g : Catalog I M T S V)

/-- The method is a component candidate, by its name and its return type. -/
def IsCandidate (i : I) (m : M) (v : V) : Prop :=
  (g.ruling i m v).1 = .accept (g.methodName m) (g.returnType m)

/-- What the examination of the method `m` of `i` can make of a traversal `w`. What the answers on
void types depend on may have changed, and nothing is said of that. -/
inductive Outcome (policy : ConflictPolicy) (i : I) (m : M) (w : Traversal I M T S V) :
    Traversal I M T S V → Prop
  /-- The method is left out on purpose. -/
  | skipped {v : V} (hruling : (g.ruling i m w.void).1 = .skip) :
    Outcome policy i m w ({ w with void := v }.note (.skipped i m))
  /-- It breaks a rule. -/
  | rejected {v : V} {fault : Fault} (hruling : (g.ruling i m w.void).1 = .reject fault)
    (hfault : fault = .signature (g.simpleName i) (g.methodName m) ∨
      fault = .genericMethod (g.simpleName i) (g.methodName m)) :
    Outcome policy i m w ({ w with void := v }.diagnose i m fault (g.methodSite m))
  /-- Its name is taken, and that is all right. -/
  | repeated {v : V} {seen : Precedent T} (hruling : g.IsCandidate i m w.void)
    (hseen : w.used.lookup (g.methodName m) = some seen)
    (hagree : ¬ (policy = .reject ∧ g.sameType seen.type (g.returnType m) = false)) :
    Outcome policy i m w ({ w with void := v }.note (.repeated i m))
  /-- Its name is taken for another type. -/
  | conflicting {v : V} {seen : Precedent T} (hruling : g.IsCandidate i m w.void)
    (hseen : w.used.lookup (g.methodName m) = some seen) (hpolicy : policy = .reject)
    (htype : g.sameType seen.type (g.returnType m) = false) :
    Outcome policy i m w ({ w with void := v }.diagnose i m
      (.conflict (g.methodName m) (g.typeText seen.type) seen.interface
        (g.typeText (g.returnType m)) (g.simpleName i)) (g.methodSite m))
  /-- Its name is new, but its type has turned void. -/
  | void {v : V} {text : String} (hruling : g.IsCandidate i m w.void)
    (hnew : w.used.lookup (g.methodName m) = none) :
    Outcome policy i m w ({ w with void := v }.diagnose i m (.internal text) (g.methodSite m))
  /-- It is kept, with the first value it asks for if it asks for one. -/
  | kept {v : V} {initializer : Option Initializer} (hruling : g.IsCandidate i m w.void)
    (hnew : w.used.lookup (g.methodName m) = none)
    (hinitializer : g.initializerName m = none ∧ initializer = none ∨
      ∃ target found, g.initializerName m = some target ∧
        g.initializer? i target (g.returnType m) = some found ∧ initializer = some found) :
    Outcome policy i m w ({ w with void := v }.keep i (g.simpleName i)
      ⟨g.methodName m, g.returnType m, m, initializer⟩)
  /-- It is kept, and there is no first value such as it asks for. -/
  | unresolved {v : V} {target : String} (hruling : g.IsCandidate i m w.void)
    (hnew : w.used.lookup (g.methodName m) = none)
    (htarget : g.initializerName m = some target)
    (hnone : g.initializer? i target (g.returnType m) = none) :
    Outcome policy i m w (({ w with void := v }.diagnose i m (.missingInitializer target)
      (g.methodSite m)).keep i (g.simpleName i) ⟨g.methodName m, g.returnType m, m, none⟩)

variable {g} {policy : ConflictPolicy} {i : I} {m : M} {w w' : Traversal I M T S V}

/-- A candidate of a new name is kept, unless its type has turned void. -/
theorem outcome_considerFresh (v : V) (hruling : g.IsCandidate i m w.void)
    (hnew : w.used.lookup (g.methodName m) = none) :
    g.Outcome policy i m w
      (g.considerFresh i m (g.methodName m) (g.returnType m) { w with void := v }) := by
  rw [considerFresh]
  dsimp only
  split
  · exact .void hruling hnew
  · rw [firstValue]
    cases hname : g.initializerName m with
    | none => exact .kept hruling hnew (Or.inl ⟨hname, rfl⟩)
    | some target =>
      dsimp only
      cases hfound : g.initializer? i target (g.returnType m) with
      | some found => exact .kept hruling hnew (Or.inr ⟨target, found, hname, hfound, rfl⟩)
      | none => exact .unresolved hruling hnew hname hfound

variable (g policy i m w) in
/-- All that an examination can come to. -/
theorem outcome_examine : g.Outcome policy i m w (g.examine policy i w m) := by
  rw [examine]
  rcases g.ruling_cases i m w.void with h | h | h | ⟨h, -⟩
  · simp only [h]
    exact .skipped h
  · simp only [h]
    exact .rejected h (Or.inl rfl)
  · simp only [h]
    exact .rejected h (Or.inr rfl)
  · simp only [h, consider]
    cases hseen : w.used.lookup (g.methodName m) with
    | none => exact outcome_considerFresh _ h hseen
    | some seen =>
      dsimp only
      split
      · rename_i hconflict
        exact .conflicting h hseen hconflict.1 hconflict.2
      · rename_i hagree
        exact .repeated h hseen hagree

end Catalog

end InterfaceRecord
