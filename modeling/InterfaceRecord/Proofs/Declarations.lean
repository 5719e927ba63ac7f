/-
  What the methods of interfaces come to when they are read in order, each in the light of those
  before it: which of them are kept as components, and what is wrong with the others.
  `findings_eq_nil_iff`: nothing is wrong exactly if no method is rejected, each component has the
  first value it asks for, and under the strict policy all types agree with the first ones.
-/
import InterfaceRecord.Proofs.Firsts
import InterfaceRecord.Traversal.Basic

namespace InterfaceRecord

namespace Catalog

section

variable {I M T S V : Type} (g : Catalog I M T S V)

/-- The methods that interfaces declare, in order and each with its interface. -/
def declarations (is : List I) : List (I × M) :=
  is.flatMap fun i => (g.methods i).map fun m => (i, m)

theorem declarations_append (front back : List I) :
    g.declarations (front ++ back) = g.declarations front ++ g.declarations back := by
  rw [declarations, List.flatMap_append, declarations, declarations]

theorem declarations_prefix {front is : List I} (h : front <+: is) :
    g.declarations front <+: g.declarations is := by
  obtain ⟨back, rfl⟩ := h
  rw [declarations_append]
  exact List.prefix_append _ _

theorem declarations_singleton (i : I) :
    g.declarations [i] = (g.methods i).map fun m => (i, m) := by
  rw [declarations, List.flatMap_singleton]

theorem mem_declarations {is : List I} {d : I × M} :
    d ∈ g.declarations is ↔ d.1 ∈ is ∧ d.2 ∈ g.methods d.1 := by
  rw [declarations, List.mem_flatMap]
  constructor
  · rintro ⟨i, hi, hd⟩
    obtain ⟨m, hm, rfl⟩ := List.mem_map.mp hd
    exact ⟨hi, hm⟩
  · rintro ⟨hi, hm⟩
    exact ⟨d.1, hi, List.mem_map.mpr ⟨d.2, hm, rfl⟩⟩

/-- A method is left out, breaks one of two rules, or is a candidate by its name and its return
type, of which it was just said that it is not void. -/
theorem ruling_cases (i : I) (m : M) (v : V) :
    (g.ruling i m v).1 = .skip ∨
    (g.ruling i m v).1 = .reject (.signature (g.simpleName i) (g.methodName m)) ∨
    (g.ruling i m v).1 = .reject (.genericMethod (g.simpleName i) (g.methodName m)) ∨
    (g.ruling i m v).1 = .accept (g.methodName m) (g.returnType m) ∧
      (g.isVoid (g.returnType m) v).1 = false := by
  rw [ruling]
  split
  · exact Or.inl rfl
  · by_cases hp : (g.parameters m).isEmpty = true
    · rw [if_pos hp]
      dsimp only
      split
      · exact Or.inr (Or.inl rfl)
      · rename_i hv
        split
        · exact Or.inr (Or.inr (Or.inr ⟨rfl, Bool.eq_false_iff.mpr hv⟩))
        · exact Or.inr (Or.inr (Or.inl rfl))
    · rw [if_neg hp]
      exact Or.inr (Or.inl rfl)

end

variable {I M T S : Type} (g : Catalog I M T S Unit)

/-! ## Single declarations -/

/-- What is decided about a declared method. -/
def rulingOf (d : I × M) : Ruling T := (g.ruling d.1 d.2 ()).1

/-- The method is a component candidate. -/
def isAccepted (d : I × M) : Bool :=
  match g.rulingOf d with
  | .accept _ _ => true
  | _ => false

theorem rulingOf_cases (d : I × M) :
    g.rulingOf d = .skip ∨
    g.rulingOf d = .reject (.signature (g.simpleName d.1) (g.methodName d.2)) ∨
    g.rulingOf d = .reject (.genericMethod (g.simpleName d.1) (g.methodName d.2)) ∨
    g.rulingOf d = .accept (g.methodName d.2) (g.returnType d.2) ∧
      g.isVoid (g.returnType d.2) () = (false, ()) := by
  have hcases := g.ruling_cases d.1 d.2 ()
  rw [Prod.ext_iff, and_iff_left rfl]
  exact hcases

theorem of_rulingOf_accept {d : I × M} {name : String} {type : T}
    (h : g.rulingOf d = .accept name type) :
    name = g.methodName d.2 ∧ type = g.returnType d.2 ∧
      g.isVoid (g.returnType d.2) () = (false, ()) := by
  rcases g.rulingOf_cases d with h' | h' | h' | ⟨h', hv⟩
  · cases h.symm.trans h'
  · cases h.symm.trans h'
  · cases h.symm.trans h'
  · cases h.symm.trans h'
    exact ⟨rfl, rfl, hv⟩

/-- The member that gives the component its first value, found in the declaring interface. -/
def initializerOf (d : I × M) : Option Initializer :=
  (g.initializerName d.2).bind fun target => g.initializer? d.1 target (g.returnType d.2)

/-- The method asks for no first value, or its interface has one. -/
def Resolved (d : I × M) : Prop :=
  g.initializerName d.2 = none ∨ (g.initializerOf d).isSome

/-- The component that a method gives. -/
def component (d : I × M) : Component M T :=
  ⟨g.methodName d.2, g.returnType d.2, d.2, g.initializerOf d⟩

/-- What is wrong with the first value that a method asks for. -/
def missing? (d : I × M) : Option Fault :=
  match g.initializerName d.2 with
  | none => none
  | some target =>
    if (g.initializer? d.1 target (g.returnType d.2)).isSome then none
    else some (.missingInitializer target)

/-- What is wrong with a method when `first` has its name already. -/
def conflict? (first d : I × M) : Option Fault :=
  if g.sameType (g.returnType first.2) (g.returnType d.2) then none
  else some (.conflict (g.methodName d.2) (g.typeText (g.returnType first.2))
    (g.simpleName first.1) (g.typeText (g.returnType d.2)) (g.simpleName d.1))

theorem missing?_eq_none_iff {d : I × M} : g.missing? d = none ↔ g.Resolved d := by
  rw [missing?, Resolved, initializerOf]
  cases g.initializerName d.2 with
  | none => exact ⟨fun _ => Or.inl rfl, fun _ => rfl⟩
  | some target =>
    rw [Option.bind_some]
    dsimp only
    cases g.initializer? d.1 target (g.returnType d.2) with
    | none => simp
    | some found => simp

theorem conflict?_eq_none_iff {first d : I × M} :
    g.conflict? first d = none ↔
      g.sameType (g.returnType first.2) (g.returnType d.2) = true := by
  rw [conflict?]
  split
  · rename_i h
    exact ⟨fun _ => h, fun _ => rfl⟩
  · rename_i h
    exact ⟨fun h' => absurd h' (Option.some_ne_none _), fun h' => absurd h' h⟩

/-! ## Declarations in order -/

/-- The component candidates. -/
def accepted (ds : List (I × M)) : List (I × M) := ds.filter g.isAccepted

/-- The first candidate of a name. -/
def first? (ds : List (I × M)) (name : String) : Option (I × M) :=
  (g.accepted ds).find? (g.methodName ·.2 == name)

/-- The first candidate of each name, in order. -/
def kept (ds : List (I × M)) : List (I × M) := firsts (g.methodName ·.2) (g.accepted ds)

/-- What is wrong with a method that comes behind the methods in `before`: the rule it breaks, a
type other than that of the first candidate of its name where the policy is strict, or for the
first candidate itself a first value that is not there. -/
def fault? (policy : ConflictPolicy) (before : List (I × M)) (d : I × M) : Option Fault :=
  match g.rulingOf d with
  | .skip => none
  | .reject fault => some fault
  | .accept name _ =>
    match g.first? before name, policy with
    | some first, .reject => g.conflict? first d
    | some _, .firstWins => none
    | none, _ => g.missing? d

/-- The methods in `ds` with which something is wrong, and what it is. -/
def faults (policy : ConflictPolicy) : (before ds : List (I × M)) → List ((I × M) × Fault)
  | _, [] => []
  | before, d :: ds =>
    ((g.fault? policy before d).toList.map fun fault => (d, fault)) ++
      faults policy (before ++ [d]) ds

/-- Pins the fault of a method to the method. -/
def diagnostic (f : (I × M) × Fault) : Diagnostic S := ⟨f.2, g.methodSite f.1.2⟩

/-- All diagnostics that the methods give. -/
def findings (policy : ConflictPolicy) (ds : List (I × M)) : Diagnostics S :=
  (g.faults policy [] ds).map g.diagnostic

theorem accepted_append (front back : List (I × M)) :
    g.accepted (front ++ back) = g.accepted front ++ g.accepted back := by
  rw [accepted, List.filter_append, accepted, accepted]

theorem accepted_concat (ds : List (I × M)) (d : I × M) :
    g.accepted (ds ++ [d]) = g.accepted ds ++ bif g.isAccepted d then [d] else [] := by
  rw [accepted, List.filter_append, List.filter_singleton, accepted]

theorem first?_eq_find?_kept (ds : List (I × M)) (name : String) :
    g.first? ds name = (g.kept ds).find? (g.methodName ·.2 == name) := by
  rw [first?, kept, find?_firsts]

theorem first?_eq_none_iff {ds : List (I × M)} {name : String} :
    g.first? ds name = none ↔ name ∉ (g.accepted ds).map (g.methodName ·.2) := by
  rw [first?, List.find?_eq_none, List.mem_map]
  simp only [beq_iff_eq, not_exists, not_and]

/-- The first candidate of several lists is that of the earliest one that has any. -/
theorem first?_append (front back : List (I × M)) (name : String) :
    g.first? (front ++ back) name = (g.first? front name).or (g.first? back name) := by
  rw [first?, accepted_append, List.find?_append, first?, first?]

theorem mem_of_first?_eq_some {ds : List (I × M)} {name : String} {first : I × M}
    (h : g.first? ds name = some first) :
    first ∈ ds ∧ g.isAccepted first = true ∧ g.methodName first.2 = name := by
  rw [first?] at h
  obtain ⟨hmem, ha⟩ := List.mem_filter.mp (List.mem_of_find?_eq_some h)
  have hname := List.find?_some h
  exact ⟨hmem, ha, beq_iff_eq.mp hname⟩

/-- What is kept stays in order. -/
theorem kept_sublist (ds : List (I × M)) : (g.kept ds).Sublist ds :=
  (firsts_sublist _ _).trans List.filter_sublist

/-- No name is kept twice. -/
theorem nodup_names_kept (ds : List (I × M)) : ((g.kept ds).map (g.methodName ·.2)).Nodup :=
  nodup_map_firsts _ _

theorem kept_eq_nil_iff {ds : List (I × M)} : g.kept ds = [] ↔ g.accepted ds = [] := by
  rw [kept, firsts_eq_nil_iff]

/-- What is kept of several lists is kept of each and merged. -/
theorem kept_append (front back : List (I × M)) :
    g.kept (front ++ back) = merge (g.methodName ·.2) (g.kept front) (g.kept back) := by
  rw [kept, accepted_append, firsts_append_eq_merge, kept, kept]

/-- What is kept is kept whatever comes behind. -/
theorem kept_prefix {front ds : List (I × M)} (h : front <+: ds) : g.kept front <+: g.kept ds := by
  obtain ⟨back, rfl⟩ := h
  rw [kept_append, merge]
  exact List.prefix_append _ _

theorem kept_append_of_subset {front back : List (I × M)} (h : ∀ d ∈ back, d ∈ front) :
    g.kept (front ++ back) = g.kept front := by
  rw [kept, accepted_append, firsts_append_of_subset, kept]
  intro d hd
  obtain ⟨hd, ha⟩ := List.mem_filter.mp hd
  exact List.mem_filter.mpr ⟨h d hd, ha⟩

/-- A candidate behind others is kept if its name is new, and no other method is. -/
theorem kept_concat (ds : List (I × M)) (d : I × M) :
    g.kept (ds ++ [d]) =
      if g.isAccepted d = true ∧ g.first? ds (g.methodName d.2) = none then g.kept ds ++ [d]
      else g.kept ds := by
  rw [kept, accepted_concat]
  cases ha : g.isAccepted d with
  | false =>
    rw [cond_false, List.append_nil, if_neg fun h => Bool.false_ne_true h.1, kept]
  | true =>
    rw [cond_true, firsts_concat]
    by_cases hn : g.first? ds (g.methodName d.2) = none
    · rw [if_neg (g.first?_eq_none_iff.mp hn), if_pos ⟨rfl, hn⟩, kept]
    · have hmem := not_not.mp (mt g.first?_eq_none_iff.mpr hn)
      rw [if_pos hmem, if_neg fun h => hn h.2, kept]

theorem faults_append (policy : ConflictPolicy) (before front back : List (I × M)) :
    g.faults policy before (front ++ back) =
      g.faults policy before front ++ g.faults policy (before ++ front) back := by
  induction front generalizing before with
  | nil => rw [List.nil_append, List.append_nil, faults, List.nil_append]
  | cons d front ih =>
    rw [List.cons_append, faults, faults, ih, List.append_assoc, List.append_assoc,
      List.singleton_append]

theorem faults_singleton (policy : ConflictPolicy) (before : List (I × M)) (d : I × M) :
    g.faults policy before [d] =
      (g.fault? policy before d).toList.map fun fault => (d, fault) := by
  rw [faults, faults, List.append_nil]

/-- Where a fault is, it is one in the light of what comes before. -/
theorem fault?_of_mem_faults {policy : ConflictPolicy} {before ds : List (I × M)}
    {f : (I × M) × Fault} (h : f ∈ g.faults policy before ds) :
    ∃ front back, ds = front ++ f.1 :: back ∧
      g.fault? policy (before ++ front) f.1 = some f.2 := by
  induction ds generalizing before with
  | nil => exact absurd h List.not_mem_nil
  | cons d ds ih =>
    rw [faults, List.mem_append] at h
    rcases h with h | h
    · obtain ⟨fault, hfault, rfl⟩ := List.mem_map.mp h
      refine ⟨[], ds, rfl, ?_⟩
      rw [List.append_nil]
      exact Option.mem_toList.mp hfault
    · obtain ⟨front, back, rfl, hfault⟩ := ih h
      refine ⟨d :: front, back, rfl, ?_⟩
      rwa [List.append_assoc, List.singleton_append] at hfault

theorem findings_append (policy : ConflictPolicy) (front back : List (I × M)) :
    g.findings policy (front ++ back) =
      g.findings policy front ++ (g.faults policy front back).map g.diagnostic := by
  rw [findings, faults_append, List.map_append, List.nil_append, findings]

theorem findings_prefix (policy : ConflictPolicy) {front ds : List (I × M)} (h : front <+: ds) :
    g.findings policy front <+: g.findings policy ds := by
  obtain ⟨back, rfl⟩ := h
  rw [findings_append]
  exact List.prefix_append _ _

theorem findings_concat (policy : ConflictPolicy) (ds : List (I × M)) (d : I × M) :
    g.findings policy (ds ++ [d]) =
      g.findings policy ds ++
        (g.fault? policy ds d).toList.map fun fault => ⟨fault, g.methodSite d.2⟩ := by
  rw [findings_append, faults_singleton, List.map_map]
  rfl

theorem findings_concat_eq_nil_iff {policy : ConflictPolicy} {ds : List (I × M)} {d : I × M} :
    g.findings policy (ds ++ [d]) = [] ↔
      g.findings policy ds = [] ∧ g.fault? policy ds d = none := by
  rw [findings_concat, List.append_eq_nil_iff, List.map_eq_nil_iff, Option.toList_eq_nil_iff]

/-! ## Declarations without faults -/

/-- No method breaks the rules, each component has the first value it asks for, and under the
strict policy each candidate's type is that of the first candidate of its name, if there is one
before it. -/
structure Faultless (policy : ConflictPolicy) (ds : List (I × M)) : Prop where
  unrejected : ∀ d ∈ ds, ∀ fault, g.rulingOf d ≠ .reject fault
  resolved : ∀ d ∈ g.kept ds, g.Resolved d
  agreeing : policy = .reject → ∀ before d after, ds = before ++ d :: after →
    g.isAccepted d = true → ∀ first, g.first? before (g.methodName d.2) = some first →
      g.sameType (g.returnType first.2) (g.returnType d.2) = true

/-- Nothing is wrong with a method exactly if it keeps the rules, has its first value where it is
the first candidate of its name, and agrees with the first one otherwise. -/
theorem fault?_eq_none_iff {policy : ConflictPolicy} {before : List (I × M)} {d : I × M} :
    g.fault? policy before d = none ↔
      (∀ fault, g.rulingOf d ≠ .reject fault) ∧
      (g.isAccepted d = true → g.first? before (g.methodName d.2) = none → g.Resolved d) ∧
      (policy = .reject → g.isAccepted d = true →
        ∀ first, g.first? before (g.methodName d.2) = some first →
          g.sameType (g.returnType first.2) (g.returnType d.2) = true) := by
  rw [fault?, isAccepted]
  cases h : g.rulingOf d with
  | skip => simp
  | reject fault => simp
  | accept name type =>
    obtain ⟨rfl, rfl, -⟩ := g.of_rulingOf_accept h
    dsimp only
    cases hf : g.first? before (g.methodName d.2) with
    | none => simp [missing?_eq_none_iff]
    | some first => cases policy <;> simp [conflict?_eq_none_iff]

theorem faultless_nil (policy : ConflictPolicy) : g.Faultless policy [] where
  unrejected := fun _ h => absurd h List.not_mem_nil
  resolved := fun _ h => absurd h List.not_mem_nil
  agreeing := fun _ before _ _ h => by cases before <;> cases h

/-- One method more: the others are without fault, and it is in their light. -/
theorem faultless_concat_iff {policy : ConflictPolicy} {ds : List (I × M)} {d : I × M} :
    g.Faultless policy (ds ++ [d]) ↔
      g.Faultless policy ds ∧ g.fault? policy ds d = none := by
  rw [fault?_eq_none_iff]
  constructor
  · intro h
    refine ⟨⟨fun e he => h.unrejected e (List.mem_append_left _ he), fun e he => ?_, ?_⟩,
      h.unrejected d (List.mem_append_right _ (List.mem_singleton_self d)),
      fun ha hn => ?_, fun hp ha => ?_⟩
    · apply h.resolved
      rw [kept_concat]
      split
      · exact List.mem_append_left _ he
      · exact he
    · intro hp before e after hds
      apply h.agreeing hp before e (after ++ [d])
      rw [hds, List.append_assoc, List.cons_append]
    · apply h.resolved
      rw [kept_concat, if_pos ⟨ha, hn⟩]
      exact List.mem_append_right _ (List.mem_singleton_self d)
    · exact h.agreeing hp ds d [] rfl ha
  · rintro ⟨h, hrule, hres, hagree⟩
    refine ⟨fun e he => ?_, fun e he => ?_, fun hp before e after hds ha => ?_⟩
    · rcases List.mem_append.mp he with he | he
      · exact h.unrejected e he
      · rw [List.mem_singleton.mp he]
        exact hrule
    · rw [kept_concat] at he
      split at he
      · rename_i hnew
        rcases List.mem_append.mp he with he | he
        · exact h.resolved e he
        · rw [List.mem_singleton.mp he]
          exact hres hnew.1 hnew.2
      · exact h.resolved e he
    · -- The method in question is the last one, or there is one behind it to be taken off.
      rcases List.eq_nil_or_concat after with rfl | ⟨after, last, rfl⟩
      · obtain ⟨rfl, hde⟩ := List.append_inj' hds rfl
        cases hde
        exact hagree hp ha
      · rw [List.concat_eq_append, ← List.cons_append, ← List.append_assoc] at hds
        exact h.agreeing hp before e after (List.append_inj' hds rfl).1 ha

/-- Nothing is found exactly where there is no fault. -/
theorem findings_eq_nil_iff {policy : ConflictPolicy} {ds : List (I × M)} :
    g.findings policy ds = [] ↔ g.Faultless policy ds := by
  induction ds using List.reverseRecOn with
  | nil => exact ⟨fun _ => g.faultless_nil policy, fun _ => rfl⟩
  | append_singleton ds d ih =>
    rw [findings_concat_eq_nil_iff, faultless_concat_iff, ih]

end Catalog

end InterfaceRecord
