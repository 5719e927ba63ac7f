/-
  What a traversal has gathered is what the declarations it examined come to. `accounts_examine` is
  the step: one method more. `accounts_examineAll`: all methods of an interface are examined, since
  no internal error arises where the answers on void types are fixed.
-/
import InterfaceRecord.Proofs.Declarations
import InterfaceRecord.Proofs.Examination

namespace InterfaceRecord

namespace Catalog

open Traversal

variable {I M T S : Type} (g : Catalog I M T S Unit)

/-- The declaration that a component's name stands for. -/
def precedent (d : I × M) : Precedent T := ⟨g.returnType d.2, g.simpleName d.1⟩

/-- The traversal has examined the declarations `ds` and nothing else, has kept of them what is to
be kept, and has found in them what is to be found. -/
structure Accounts (policy : ConflictPolicy) (ds : List (I × M))
    (w : Traversal I M T S Unit) : Prop where
  used : w.used = (g.kept ds).map fun d => (g.methodName d.2, g.precedent d)
  components : w.components = (g.kept ds).map g.component
  diagnostics : w.diagnostics = g.findings policy ds
  examined : w.examined = ds

theorem accounts_start (policy : ConflictPolicy) :
    g.Accounts policy [] ({ void := () } : Traversal I M T S Unit) := ⟨rfl, rfl, rfl, rfl⟩

/-! ## Faults that arise here -/

/-- A rule that is broken is no missing first value and no internal error. -/
theorem of_rulingOf_reject {d : I × M} {fault : Fault} (h : g.rulingOf d = .reject fault) :
    (Step.diagnosed d.1 d.2 fault).method? = some d ∧ fault.severity = .error := by
  rcases g.rulingOf_cases d with h' | h' | h' | ⟨h', -⟩
  · cases h.symm.trans h'
  · cases h.symm.trans h'
    exact ⟨rfl, rfl⟩
  · cases h.symm.trans h'
    exact ⟨rfl, rfl⟩
  · cases h.symm.trans h'

theorem missing?_eq_some {d : I × M} {fault : Fault} (h : g.missing? d = some fault) :
    ∃ target, g.initializerName d.2 = some target ∧
      g.initializer? d.1 target (g.returnType d.2) = none ∧
      fault = .missingInitializer target := by
  rw [missing?] at h
  split at h
  · cases h
  · rename_i target hn
    split at h
    · cases h
    · rename_i hi
      cases h
      exact ⟨target, hn, Option.not_isSome_iff_eq_none.mp hi, rfl⟩

theorem conflict?_eq_some {first d : I × M} {fault : Fault}
    (h : g.conflict? first d = some fault) :
    g.sameType (g.returnType first.2) (g.returnType d.2) = false ∧
      fault = .conflict (g.methodName d.2) (g.typeText (g.returnType first.2))
        (g.simpleName first.1) (g.typeText (g.returnType d.2)) (g.simpleName d.1) := by
  rw [conflict?] at h
  split at h
  · cases h
  · rename_i hs
    cases h
    exact ⟨Bool.eq_false_iff.mpr hs, rfl⟩

theorem severity_of_fault? {policy : ConflictPolicy} {before : List (I × M)} {d : I × M}
    {fault : Fault} (h : g.fault? policy before d = some fault) : fault.severity = .error := by
  rw [fault?] at h
  split at h
  · cases h
  · rename_i f hr
    cases h
    exact (g.of_rulingOf_reject hr).2
  · split at h
    · obtain ⟨-, rfl⟩ := g.conflict?_eq_some h
      rfl
    · cases h
    · obtain ⟨target, -, -, rfl⟩ := g.missing?_eq_some h
      rfl

theorem severity_of_mem_faults {policy : ConflictPolicy} {before ds : List (I × M)}
    {f : (I × M) × Fault} (h : f ∈ g.faults policy before ds) : f.2.severity = .error := by
  induction ds generalizing before with
  | nil => exact absurd h List.not_mem_nil
  | cons d ds ih =>
    rw [faults, List.mem_append] at h
    rcases h with h | h
    · obtain ⟨fault, hf, rfl⟩ := List.mem_map.mp h
      exact g.severity_of_fault? (Option.mem_toList.mp hf)
    · exact ih h

variable {g}

/-- With fixed answers no internal error arises. -/
theorem Accounts.hasInternal {policy : ConflictPolicy} {ds : List (I × M)}
    {w : Traversal I M T S Unit} (h : g.Accounts policy ds w) : w.hasInternal = false := by
  rw [Traversal.hasInternal, Diagnostics.hasInternal, h.diagnostics, findings, List.any_eq_false]
  intro e he
  obtain ⟨f, hf, rfl⟩ := List.mem_map.mp he
  have hs : (g.diagnostic f).severity = .error := g.severity_of_mem_faults hf
  rw [hs]
  decide

theorem Accounts.lookup {policy : ConflictPolicy} {ds : List (I × M)}
    {w : Traversal I M T S Unit} (h : g.Accounts policy ds w) (name : String) :
    w.used.lookup name = (g.first? ds name).map g.precedent := by
  rw [h.used, lookup_map (g.methodName ·.2) g.precedent, first?_eq_find?_kept]

/-! ## One method more -/

/-- A method that is not kept and has no fault. -/
theorem Accounts.note {policy : ConflictPolicy} {ds : List (I × M)} {d : I × M}
    {w : Traversal I M T S Unit} (h : g.Accounts policy ds w) {s : Step I M}
    (hs : s.method? = some d) (hk : g.kept (ds ++ [d]) = g.kept ds)
    (hf : g.fault? policy ds d = none) : g.Accounts policy (ds ++ [d]) (w.note s) where
  used := by rw [hk]; exact h.used
  components := by rw [hk]; exact h.components
  diagnostics := by
    rw [diagnostics_note, h.diagnostics, findings_concat, hf]
    exact (List.append_nil _).symm
  examined := by rw [examined_note, h.examined, hs]; rfl

/-- A method that is not kept and has a fault. -/
theorem Accounts.diagnose {policy : ConflictPolicy} {ds : List (I × M)} {d : I × M}
    {w : Traversal I M T S Unit} (h : g.Accounts policy ds w) {fault : Fault}
    (hs : (Step.diagnosed d.1 d.2 fault).method? = some d)
    (hk : g.kept (ds ++ [d]) = g.kept ds) (hf : g.fault? policy ds d = some fault) :
    g.Accounts policy (ds ++ [d]) (w.diagnose d.1 d.2 fault (g.methodSite d.2)) where
  used := by rw [hk]; exact h.used
  components := by rw [hk]; exact h.components
  diagnostics := by
    rw [findings_concat, hf, ← h.diagnostics]
    rfl
  examined := by rw [examined_diagnose, h.examined, hs]; rfl

variable (g)

/-- The first value of a component, and the fault there is if it is asked for and missing. -/
theorem firstValue_eq (d : I × M) (w : Traversal I M T S Unit) :
    g.firstValue d.1 d.2 (g.returnType d.2) w =
      (g.initializerOf d,
        match g.missing? d with
        | none => w
        | some fault => w.diagnose d.1 d.2 fault (g.methodSite d.2)) := by
  rw [firstValue, initializerOf, missing?]
  cases g.initializerName d.2 with
  | none => rfl
  | some target =>
    rw [Option.bind_some]
    dsimp only
    cases g.initializer? d.1 target (g.returnType d.2) <;> rfl

variable {g}

/-- A method that is kept, with its first value or without the one it asks for. -/
theorem Accounts.keep {policy : ConflictPolicy} {ds : List (I × M)} {d : I × M}
    {w : Traversal I M T S Unit} (h : g.Accounts policy ds w)
    (hk : g.kept (ds ++ [d]) = g.kept ds ++ [d]) (hf : g.fault? policy ds d = g.missing? d) :
    g.Accounts policy (ds ++ [d])
      ((g.firstValue d.1 d.2 (g.returnType d.2) w).2.keep d.1 (g.simpleName d.1)
        ⟨g.methodName d.2, g.returnType d.2, d.2,
          (g.firstValue d.1 d.2 (g.returnType d.2) w).1⟩) := by
  rw [firstValue_eq]
  cases hm : g.missing? d with
  | none =>
    refine ⟨?_, ?_, ?_, ?_⟩
    · rw [hk, List.map_append, ← h.used]
      rfl
    · rw [hk, List.map_append, ← h.components]
      rfl
    · rw [findings_concat, hf, hm, ← h.diagnostics]
      exact (List.append_nil _).symm
    · rw [examined_keep, h.examined]
  | some fault =>
    obtain ⟨target, -, -, rfl⟩ := g.missing?_eq_some hm
    refine ⟨?_, ?_, ?_, ?_⟩
    · rw [hk, List.map_append, ← h.used]
      rfl
    · rw [hk, List.map_append, ← h.components]
      rfl
    · rw [findings_concat, hf, hm, ← h.diagnostics]
      rfl
    · rw [examined_keep, examined_diagnose, h.examined]
      exact congrArg (· ++ [d]) (List.append_nil ds)

/-- A candidate of a new name is kept. -/
theorem Accounts.considerFresh {policy : ConflictPolicy} {ds : List (I × M)} {d : I × M}
    {w : Traversal I M T S Unit} (h : g.Accounts policy ds w)
    (hr : g.rulingOf d = .accept (g.methodName d.2) (g.returnType d.2))
    (hv : g.isVoid (g.returnType d.2) () = (false, ()))
    (hf : g.first? ds (g.methodName d.2) = none) :
    g.Accounts policy (ds ++ [d])
      (g.considerFresh d.1 d.2 (g.methodName d.2) (g.returnType d.2) w) := by
  have ha : g.isAccepted d = true := by rw [isAccepted, hr]
  have hkeep : g.considerFresh d.1 d.2 (g.methodName d.2) (g.returnType d.2) w =
      (g.firstValue d.1 d.2 (g.returnType d.2) w).2.keep d.1 (g.simpleName d.1)
        ⟨g.methodName d.2, g.returnType d.2, d.2,
          (g.firstValue d.1 d.2 (g.returnType d.2) w).1⟩ := by
    rw [Catalog.considerFresh, show w.void = () from rfl, hv]
    rfl
  rw [hkeep]
  apply h.keep
  · rw [kept_concat, if_pos ⟨ha, hf⟩]
  · rw [fault?, hr]
    dsimp only
    rw [hf]

/-- A candidate of a name that is kept already is passed over or, under the strict policy and with
another type, is a fault. -/
theorem Accounts.considerAgain {policy : ConflictPolicy} {ds : List (I × M)} {d first : I × M}
    {w : Traversal I M T S Unit} (h : g.Accounts policy ds w)
    (hr : g.rulingOf d = .accept (g.methodName d.2) (g.returnType d.2))
    (hf : g.first? ds (g.methodName d.2) = some first) :
    g.Accounts policy (ds ++ [d])
      (if policy = .reject ∧ g.sameType (g.returnType first.2) (g.returnType d.2) = false then
        w.diagnose d.1 d.2 (.conflict (g.methodName d.2) (g.typeText (g.returnType first.2))
          (g.simpleName first.1) (g.typeText (g.returnType d.2)) (g.simpleName d.1))
          (g.methodSite d.2)
      else w.note (.repeated d.1 d.2)) := by
  have hk : g.kept (ds ++ [d]) = g.kept ds := by
    rw [kept_concat, if_neg fun h' => Option.some_ne_none first (hf.symm.trans h'.2)]
  have hfault : g.fault? policy ds d =
      if policy = .reject then g.conflict? first d else none := by
    rw [fault?, hr]
    dsimp only
    rw [hf]
    cases policy <;> rfl
  split
  · rename_i hc
    apply h.diagnose rfl hk
    rw [hfault, if_pos hc.1, conflict?, if_neg (Bool.eq_false_iff.mp hc.2)]
  · rename_i hc
    apply h.note rfl hk
    rw [hfault]
    split
    · rename_i hp
      rw [conflict?_eq_none_iff]
      exact (Bool.not_eq_false _).mp fun hs => hc ⟨hp, hs⟩
    · rfl

variable (g)

/-- With fixed answers the examination of a method is decided by its ruling alone. -/
theorem examine_eq (policy : ConflictPolicy) (i : I) (w : Traversal I M T S Unit) (m : M) :
    g.examine policy i w m =
      match g.rulingOf (i, m) with
      | .accept name type => g.consider policy i m name type w
      | .skip => w.note (.skipped i m)
      | .reject fault => w.diagnose i m fault (g.methodSite m) := rfl

/-- One method more is accounted for when it is examined. -/
theorem accounts_examine {policy : ConflictPolicy} {ds : List (I × M)}
    {w : Traversal I M T S Unit} (h : g.Accounts policy ds w) (i : I) (m : M) :
    g.Accounts policy (ds ++ [(i, m)]) (g.examine policy i w m) := by
  -- Only candidates are kept.
  have hkept (ha : g.isAccepted (i, m) = false) : g.kept (ds ++ [(i, m)]) = g.kept ds := by
    rw [kept_concat, if_neg fun h' => Bool.false_ne_true (ha.symm.trans h'.1)]
  rw [examine_eq]
  cases hr : g.rulingOf (i, m) with
  | skip =>
    apply h.note rfl (hkept (by rw [isAccepted, hr]))
    rw [fault?, hr]
  | reject fault =>
    apply h.diagnose (g.of_rulingOf_reject hr).1 (hkept (by rw [isAccepted, hr]))
    rw [fault?, hr]
  | accept name type =>
    obtain ⟨rfl, rfl, hv⟩ := g.of_rulingOf_accept hr
    dsimp only
    rw [consider, h.lookup]
    cases hf : g.first? ds (g.methodName m) with
    | none => exact h.considerFresh hr hv hf
    | some first => exact h.considerAgain hr hf

/-- All methods of an interface are examined, and accounted for. -/
theorem accounts_examineAll {policy : ConflictPolicy} {ds : List (I × M)}
    {w : Traversal I M T S Unit} (h : g.Accounts policy ds w) (i : I) (ms : List M) :
    g.Accounts policy (ds ++ ms.map fun m => (i, m)) (g.examineAll policy i ms w) := by
  induction ms generalizing ds w with
  | nil => rw [List.map_nil, List.append_nil]; exact h
  | cons m ms ih =>
    have hm := g.accounts_examine h i m
    rw [examineAll, if_neg (Bool.eq_false_iff.mp hm.hasInternal), List.map_cons,
      ← List.singleton_append, ← List.append_assoc]
    exact ih hm

end Catalog

end InterfaceRecord
