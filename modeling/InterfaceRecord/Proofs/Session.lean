/-
  Derivations one after another from interfaces that keep what is reported. A derivation answers as
  if it were the only one, since it changes nothing but the reported diagnostics, and each of these
  is handed out once or still kept (`Keeper.undisturbed`). Graphs and source files both keep what
  is reported in this way (`derive_drain_undisturbed`).
-/
import InterfaceRecord.Graph
import InterfaceRecord.Proofs.Derivability
import InterfaceRecord.Trait.File

namespace InterfaceRecord

/-- What is asked for in a session. -/
inductive Call
  /-- The record of an interface. -/
  | derive (settings : Settings) (scheme : NameScheme) (root : Nat)
  /-- The diagnostics that were reported since they were last asked for. -/
  | drain

inductive Answer (T S : Type)
  | derived (d : Derivation MethodHandle T S Unit)
  | drained (ds : Diagnostics S)

namespace Answer

variable {T S : Type}

/-- The diagnostics that the call itself reports. -/
def own : Answer T S → Diagnostics S
  | derived d => d.diagnostics
  | drained _ => []

/-- The diagnostics that are handed out. -/
def handedOut : Answer T S → Diagnostics S
  | derived _ => []
  | drained ds => ds

end Answer

/-- Interfaces that are kept together with what derivations from them report. To derive is to
answer as the interfaces do and to add to what is reported, to drain is to hand it out, and
neither changes anything else. -/
structure Keeper (K T S : Type) where
  catalog : K → Catalog Nat MethodHandle T S Unit
  reported : K → Diagnostics S
  derive : K → Settings → NameScheme → Nat → Derivation MethodHandle T S Unit × K
  drain : K → Diagnostics S × K
  derive_fst : ∀ k settings scheme root,
    (derive k settings scheme root).1 = (catalog k).derive settings scheme root ()
  reported_derive : ∀ k settings scheme root,
    reported (derive k settings scheme root).2 =
      reported k ++ (derive k settings scheme root).1.diagnostics
  drain_derive : ∀ k settings scheme root,
    (drain (derive k settings scheme root).2).2 = (drain k).2
  drain_fst : ∀ k, (drain k).1 = reported k
  reported_drain : ∀ k, reported (drain k).2 = []
  drain_drain : ∀ k, (drain (drain k).2).2 = (drain k).2
  catalog_drain : ∀ k, catalog (drain k).2 = catalog k

namespace Keeper

variable {K T S : Type} (κ : Keeper K T S)

/-- The same interfaces with nothing reported. -/
def unused (k : K) : K := (κ.drain k).2

def step (k : K) : Call → Answer T S × K
  | .derive settings scheme root =>
    let (d, k) := κ.derive k settings scheme root
    (.derived d, k)
  | .drain =>
    let (ds, k) := κ.drain k
    (.drained ds, k)

/-- The answers to calls in turn, and what is kept in the end. -/
def run (k : K) : List Call → List (Answer T S) × K
  | [] => ([], k)
  | c :: calls =>
    let (answer, k) := κ.step k c
    let (answers, k) := run k calls
    (answer :: answers, k)

/-- The answer that a call gets when it is the only one, as far as that says anything: what is
drained depends on the calls before. -/
def Fits (unused : K) : Call → Answer T S → Prop
  | .derive settings scheme root, answer =>
    answer = .derived (κ.derive unused settings scheme root).1
  | .drain, answer => ∃ ds, answer = .drained ds

/-! ## One call -/

/-- What is derived does not depend on what was reported before. -/
theorem derive_unused (k : K) (settings : Settings) (scheme : NameScheme) (root : Nat) :
    (κ.derive (κ.unused k) settings scheme root).1 = (κ.derive k settings scheme root).1 := by
  rw [derive_fst, derive_fst, unused, catalog_drain]

/-- A call changes nothing but what is reported. -/
theorem unused_step (k : K) (c : Call) : κ.unused (κ.step k c).2 = κ.unused k := by
  cases c with
  | derive settings scheme root => exact κ.drain_derive k settings scheme root
  | drain => exact κ.drain_drain k

theorem fits_step (k : K) (c : Call) : κ.Fits (κ.unused k) c (κ.step k c).1 := by
  cases c with
  | derive settings scheme root =>
    exact congrArg Answer.derived (κ.derive_unused k settings scheme root).symm
  | drain => exact ⟨(κ.drain k).1, rfl⟩

/-- What a call reports is added behind what is there, and what it hands out is taken away. -/
theorem handedOut_append_reported_step (k : K) (c : Call) :
    (κ.step k c).1.handedOut ++ κ.reported (κ.step k c).2 =
      κ.reported k ++ (κ.step k c).1.own := by
  cases c with
  | derive settings scheme root => exact κ.reported_derive k settings scheme root
  | drain =>
    show (κ.drain k).1 ++ κ.reported (κ.drain k).2 = κ.reported k ++ []
    rw [drain_fst, reported_drain]

/-! ## Many calls -/

theorem run_cons (k : K) (c : Call) (calls : List Call) :
    κ.run k (c :: calls) =
      ((κ.step k c).1 :: (κ.run (κ.step k c).2 calls).1, (κ.run (κ.step k c).2 calls).2) := rfl

theorem unused_run (k : K) (calls : List Call) : κ.unused (κ.run k calls).2 = κ.unused k := by
  induction calls generalizing k with
  | nil => rfl
  | cons c calls ih => rw [run_cons, ih, unused_step]

theorem fits_run (k : K) (calls : List Call) :
    List.Forall₂ (κ.Fits (κ.unused k)) calls (κ.run k calls).1 := by
  induction calls generalizing k with
  | nil => exact .nil
  | cons c calls ih =>
    have hrest := ih (κ.step k c).2
    rw [unused_step] at hrest
    exact .cons (κ.fits_step k c) hrest

theorem handedOut_append_reported_run (k : K) (calls : List Call) :
    (κ.run k calls).1.flatMap Answer.handedOut ++ κ.reported (κ.run k calls).2 =
      κ.reported k ++ (κ.run k calls).1.flatMap Answer.own := by
  induction calls generalizing k with
  | nil => exact (List.append_nil _).symm
  | cons c calls ih =>
    rw [run_cons, List.flatMap_cons, List.flatMap_cons, List.append_assoc, ih,
      ← List.append_assoc, handedOut_append_reported_step, List.append_assoc]

/-- Calls do not disturb each other. -/
structure Undisturbed (k : K) (calls : List Call) : Prop where
  /-- Each call has its answer, each derivation the one that it gives as the only call. -/
  answers : List.Forall₂ (κ.Fits (κ.unused k)) calls (κ.run k calls).1
  /-- A derivation gives no record exactly if it reports something. -/
  record : ∀ settings scheme root,
    (κ.derive (κ.unused k) settings scheme root).1.record = none ↔
      (κ.derive (κ.unused k) settings scheme root).1.diagnostics ≠ []
  /-- It reports what its traversal finds, and that there are no components where that finds
  neither these nor anything else. -/
  reports : ∀ settings scheme root,
    (κ.derive (κ.unused k) settings scheme root).1.diagnostics =
      ((κ.catalog k).traverse settings.conflicts root ()).diagnostics ++
        if ((κ.catalog k).traverse settings.conflicts root ()).diagnostics = [] ∧
            ((κ.catalog k).traverse settings.conflicts root ()).components = [] then
          [⟨.noComponents, (κ.catalog k).interfaceSite root⟩]
        else []
  /-- What is handed out and what is still kept is what was kept before and what the calls report,
  in order. -/
  accounted : (κ.run k calls).1.flatMap Answer.handedOut ++ κ.reported (κ.run k calls).2 =
    κ.reported k ++ (κ.run k calls).1.flatMap Answer.own
  /-- Nothing but the reported diagnostics changes. -/
  unchanged : κ.unused (κ.run k calls).2 = κ.unused k

theorem undisturbed (k : K) (calls : List Call) : κ.Undisturbed k calls where
  answers := κ.fits_run k calls
  record := by
    intro settings scheme root
    rw [derive_fst]
    exact Catalog.record_derive_eq_none_iff _
  reports := by
    intro settings scheme root
    rw [derive_fst, unused, catalog_drain]
    exact Catalog.diagnostics_derive _ settings scheme root ()
  accounted := κ.handedOut_append_reported_run k calls
  unchanged := κ.unused_run k calls

end Keeper

/-! ## What keeps interfaces -/

def Graph.keeper : Keeper Graph NamedType GraphSite where
  catalog := Graph.catalog
  reported := Graph.reported
  derive := Graph.derive
  drain := Graph.drain
  derive_fst _ _ _ _ := rfl
  reported_derive _ _ _ _ := rfl
  drain_derive _ _ _ _ := rfl
  drain_fst _ := rfl
  reported_drain _ := rfl
  drain_drain _ := rfl
  catalog_drain _ := rfl

def Trait.TraitFile.keeper : Keeper Trait.TraitFile Trait.TypeTokens Trait.SourcePlace where
  catalog := Trait.TraitFile.catalog
  reported := Trait.TraitFile.reported
  derive := Trait.TraitFile.derive
  drain := Trait.TraitFile.drain
  derive_fst _ _ _ _ := rfl
  reported_derive _ _ _ _ := rfl
  drain_derive _ _ _ _ := rfl
  drain_fst _ := rfl
  reported_drain _ := rfl
  drain_drain _ := rfl
  catalog_drain _ := rfl

/-- Derivations from a graph or a source file do not disturb each other, in whatever order they
are made and their diagnostics are asked for. -/
theorem derive_drain_undisturbed (calls : List Call) :
    (∀ g : Graph, Graph.keeper.Undisturbed g calls) ∧
      (∀ f : Trait.TraitFile, Trait.TraitFile.keeper.Undisturbed f calls) :=
  ⟨fun g => Graph.keeper.undisturbed g calls, fun f => Trait.TraitFile.keeper.undisturbed f calls⟩

end InterfaceRecord
