/-
  What the strict policy adds. Each candidate is compared with the first one of its name only, but
  where being of the same type is an equivalence, all of a name then agree
  (`faultless_reject_iff`). So the strict policy refuses exactly the interfaces whose candidates
  disagree, gives the others the same record, and complains of nothing but the conflicts
  (`record_derive_reject_iff`).
-/
import InterfaceRecord.Proofs.Derivability
import InterfaceRecord.Proofs.Failure

namespace InterfaceRecord

namespace Catalog

variable {I M T S : Type} (g : Catalog I M T S Unit)

/-- Any two candidates of one name have the same type. -/
def Consistent (ds : List (I × M)) : Prop :=
  ∀ d ∈ ds, ∀ e ∈ ds, g.isAccepted d = true → g.isAccepted e = true →
    g.methodName d.2 = g.methodName e.2 →
      g.sameType (g.returnType d.2) (g.returnType e.2) = true

/-! ## Agreement with the first candidate -/

/-- If all candidates agree with the first ones before them, each agrees with the first one of
all. -/
theorem sameType_first? (heq : Equivalence fun a b => g.sameType a b = true) {ds : List (I × M)}
    (h : ∀ before d after, ds = before ++ d :: after → g.isAccepted d = true →
      ∀ first, g.first? before (g.methodName d.2) = some first →
        g.sameType (g.returnType first.2) (g.returnType d.2) = true)
    {d : I × M} (hd : d ∈ ds) (ha : g.isAccepted d = true) :
    ∃ first, g.first? ds (g.methodName d.2) = some first ∧
      g.sameType (g.returnType first.2) (g.returnType d.2) = true := by
  obtain ⟨before, after, rfl⟩ := List.append_of_mem hd
  rw [first?_append]
  cases hf : g.first? before (g.methodName d.2) with
  | some first =>
    exact ⟨first, rfl, h before d after rfl ha first hf⟩
  | none =>
    -- nothing of that name comes before, so `d` is the first one itself
    have hself : g.first? (d :: after) (g.methodName d.2) = some d := by
      simp [first?, accepted, ha]
    exact ⟨d, hself, heq.refl _⟩

/-- The strict policy asks for all that the other one asks for, and that candidates agree. -/
theorem faultless_reject_iff (heq : Equivalence fun a b => g.sameType a b = true)
    {ds : List (I × M)} :
    g.Faultless .reject ds ↔ g.Faultless .firstWins ds ∧ g.Consistent ds := by
  constructor
  · intro h
    refine ⟨⟨h.unrejected, h.resolved, fun hp => by cases hp⟩, ?_⟩
    intro d hd e he hda hea hname
    obtain ⟨first, hfirst, hsame⟩ := g.sameType_first? heq (h.agreeing rfl) hd hda
    obtain ⟨first', hfirst', hsame'⟩ := g.sameType_first? heq (h.agreeing rfl) he hea
    obtain rfl : first = first' := by
      rw [hname, hfirst', Option.some.injEq] at hfirst
      exact hfirst.symm
    exact heq.trans (heq.symm hsame) hsame'
  · rintro ⟨h, hconsistent⟩
    refine ⟨h.unrejected, h.resolved, fun _ before d after hds ha first hfirst => ?_⟩
    obtain ⟨hmem, hfirsta, hname⟩ := g.mem_of_first?_eq_some hfirst
    subst hds
    exact hconsistent first (List.mem_append_left _ hmem) d
      (List.mem_append_right _ List.mem_cons_self) hfirsta ha hname

/-! ## What is reported -/

/-- A method with which only the strict policy finds a fault is in conflict with the first
candidate of its name. -/
theorem conflict?_of_fault?_reject {before : List (I × M)} {d : I × M} {fault : Fault}
    (hloose : g.fault? .firstWins before d = none)
    (hstrict : g.fault? .reject before d = some fault) :
    ∃ first ∈ before, g.methodName first.2 = g.methodName d.2 ∧
      g.conflict? first d = some fault := by
  rw [fault?] at hloose hstrict
  cases hr : g.rulingOf d with
  | skip =>
    rw [hr] at hstrict
    cases hstrict
  | reject fault' =>
    rw [hr] at hloose
    cases hloose
  | accept name type =>
    obtain ⟨rfl, -, -⟩ := g.of_rulingOf_accept hr
    rw [hr] at hloose hstrict
    dsimp only at hloose hstrict
    cases hf : g.first? before (g.methodName d.2) with
    | none =>
      rw [hf] at hloose hstrict
      exact absurd (hstrict.symm.trans hloose) (Option.some_ne_none fault)
    | some first =>
      rw [hf] at hstrict
      obtain ⟨hmem, -, hname⟩ := g.mem_of_first?_eq_some hf
      exact ⟨first, hmem, hname, hstrict⟩

/-- The diagnostic is a conflict of a method of `k` with one of the same name that the interfaces
in `is` declare, and pinned to the method of `k`. -/
def IsConflictIn (is : List I) (k : I) (e : Diagnostic S) : Prop :=
  ∃ m ∈ g.methods k, ∃ first ∈ g.declarations is, g.methodName first.2 = g.methodName m ∧
    g.sameType (g.returnType first.2) (g.returnType m) = false ∧
    e = ⟨.conflict (g.methodName m) (g.typeText (g.returnType first.2)) (g.simpleName first.1)
      (g.typeText (g.returnType m)) (g.simpleName k), g.methodSite m⟩

/-- Where only the strict policy finds faults along interfaces, it finds conflicts. -/
theorem isConflictIn_of_mem_faultsAt {is front : List I} {k : I} (hp : front ++ [k] <+: is)
    (hloose : g.findings .firstWins (g.declarations is) = []) :
    ∀ e ∈ (g.faultsAt .reject front k).map g.diagnostic, g.IsConflictIn is k e := by
  intro e he
  obtain ⟨f, hf, rfl⟩ := List.mem_map.mp he
  obtain ⟨ds, back, hds, hfault⟩ := g.fault?_of_mem_faults hf
  have hmem : f.1 ∈ g.declarations [k] := by
    rw [hds]
    exact List.mem_append_right ds List.mem_cons_self
  obtain ⟨hk, hm⟩ := g.mem_declarations.mp hmem
  rw [List.mem_singleton] at hk
  have hsplit : g.declarations (front ++ [k]) = g.declarations front ++ ds ++ [f.1] ++ back := by
    rw [declarations_append, hds]
    simp
  -- the loose policy finds nothing up to the method
  have hclean := g.findings_eq_nil_of_prefix hp hloose
  rw [hsplit, findings_append, List.append_eq_nil_iff, findings_concat_eq_nil_iff] at hclean
  obtain ⟨first, hfirst, hname, hconflict⟩ := g.conflict?_of_fault?_reject hclean.1.2 hfault
  have hfirst' : first ∈ g.declarations is := by
    obtain ⟨rest, rfl⟩ := hp
    rw [declarations_append, hsplit, List.append_assoc, List.append_assoc]
    exact List.mem_append_left _ hfirst
  obtain ⟨hsame, htext⟩ := g.conflict?_eq_some hconflict
  refine ⟨f.1.2, hk ▸ hm, first, hfirst', hname, hsame, ?_⟩
  rw [diagnostic, htext, hk]

/-! ## Derivations -/

/-- Where being of the same type is an equivalence, the strict policy gives a record exactly if
the other one gives it and any two candidates of one name agree among the methods of the
interfaces entered; the record is the same. Where it refuses a record that the other one gives, it
reports conflicts of methods of one of these interfaces and nothing else. -/
theorem record_derive_reject_iff (heq : Equivalence fun a b => g.sameType a b = true)
    (settings : Settings) (root : I) :
    (∀ r, (g.derive (settings.setConflicts .reject) .suffixes root ()).record = some r ↔
      (g.derive (settings.setConflicts .firstWins) .suffixes root ()).record = some r ∧
        g.Consistent (g.declarations (g.traverse .firstWins root ()).entered)) ∧
    (∀ r, (g.derive (settings.setConflicts .firstWins) .suffixes root ()).record = some r →
      (g.derive (settings.setConflicts .reject) .suffixes root ()).record = none →
      (g.derive (settings.setConflicts .reject) .suffixes root ()).diagnostics ≠ [] ∧
        ∃ k ∈ (g.traverse .firstWins root ()).entered,
          ∀ e ∈ (g.derive (settings.setConflicts .reject) .suffixes root ()).diagnostics,
            g.IsConflictIn (g.traverse .firstWins root ()).entered k e) := by
  have hentered (h : g.Faultless .firstWins (g.declarations (g.preorder root))) :
      (g.traverse .firstWins root ()).entered = g.preorder root :=
    g.entered_traverse_of_clean
      (g.diagnostics_traverse_eq_nil_iff.mpr (g.findings_eq_nil_iff.mpr h))
  constructor
  · intro r
    rw [record_derive_iff_faultless, record_derive_iff_faultless]
    show (g.Faultless .reject _ ∧ _) ∧ _ ↔ ((g.Faultless .firstWins _ ∧ _) ∧ _) ∧ _
    rw [g.faultless_reject_iff heq]
    constructor
    · rintro ⟨⟨⟨hloose, hconsistent⟩, hsome⟩, hr⟩
      rw [hentered hloose]
      exact ⟨⟨⟨hloose, hsome⟩, hr⟩, hconsistent⟩
    · rintro ⟨⟨⟨hloose, hsome⟩, hr⟩, hconsistent⟩
      rw [hentered hloose] at hconsistent
      exact ⟨⟨⟨hloose, hconsistent⟩, hsome⟩, hr⟩
  · intro r hr hnone
    obtain ⟨⟨hloose, hsome⟩, -⟩ := (g.record_derive_iff_faultless _ _ _ _).mp hr
    have hclean : g.findings .firstWins (g.declarations (g.preorder root)) = [] :=
      g.findings_eq_nil_iff.mpr hloose
    have hstrict : g.findings .reject (g.declarations (g.preorder root)) ≠ [] := by
      intro hnil
      have hrecord := (g.record_derive_iff_faultless (settings.setConflicts .reject) .suffixes
        root _).mpr ⟨⟨g.findings_eq_nil_iff.mp hnil, hsome⟩, rfl⟩
      exact Option.some_ne_none _ (hrecord.symm.trans hnone)
    obtain ⟨front, k, hfirst⟩ := g.exists_first_faulty hstrict
    have hfound : (g.traverse (settings.setConflicts .reject).conflicts root ()).diagnostics =
        (g.faultsAt .reject front k).map g.diagnostic :=
      ((g.traverse_firstFaulty .reject root).1 front k ⟨hfirst.1, hfirst.2.1, hfirst.2.2⟩).1
    have hne : (g.faultsAt .reject front k).map g.diagnostic ≠ [] :=
      mt List.map_eq_nil_iff.mp hfirst.2.1
    have hdiag : (g.derive (settings.setConflicts .reject) .suffixes root ()).diagnostics =
        (g.faultsAt .reject front k).map g.diagnostic := by
      rw [diagnostics_derive, hfound, if_neg fun h => hne h.1, List.append_nil]
    rw [hdiag, hentered hloose]
    have hk : k ∈ g.preorder root :=
      hfirst.1.subset (List.mem_append_right front (List.mem_singleton_self k))
    exact ⟨hne, k, hk, g.isConflictIn_of_mem_faultsAt hfirst.1 hclean⟩

end Catalog

/-- One interface has a method of its supertype's with another type, and another one has it with
the same type. -/
def Graph.atOdds : Graph where
  interfaces := [
    { qualifiedName := "o::Odd", simpleName := "Odd", supertypes := [2],
      methods := [{ name := "id", returnType := ⟨"int"⟩, site := .method "o::Odd" "id" }],
      site := .interface "o::Odd" },
    { qualifiedName := "o::Even", simpleName := "Even", supertypes := [2],
      methods := [{ name := "id", returnType := ⟨"String"⟩, site := .method "o::Even" "id" }],
      site := .interface "o::Even" },
    { qualifiedName := "o::Named", simpleName := "Named",
      methods := [
        { name := "id", returnType := ⟨"String"⟩, site := .method "o::Named" "id" },
        { name := "tag", returnType := ⟨"String"⟩, site := .method "o::Named" "tag" }],
      site := .interface "o::Named" }]

namespace Catalog

/-- The strict policy changes nothing where the types agree, and reports the conflict where they
do not. -/
theorem record_derive_atOdds :
    Equivalence (fun a b => Graph.atOdds.catalog.sameType a b = true) ∧
      (∃ r, (Graph.atOdds.catalog.derive (({} : Settings).setConflicts .reject) .suffixes 1
          ()).record = some r ∧
        (Graph.atOdds.catalog.derive (({} : Settings).setConflicts .firstWins) .suffixes 1
          ()).record = some r) ∧
      (∃ r, (Graph.atOdds.catalog.derive (({} : Settings).setConflicts .firstWins) .suffixes 0
          ()).record = some r) ∧
      (Graph.atOdds.catalog.derive (({} : Settings).setConflicts .reject) .suffixes 0
          ()).record = none ∧
      (∃ k ∈ (Graph.atOdds.catalog.traverse .firstWins 0 ()).entered,
        ∀ e ∈ (Graph.atOdds.catalog.derive (({} : Settings).setConflicts .reject) .suffixes 0
          ()).diagnostics,
          Graph.atOdds.catalog.IsConflictIn (Graph.atOdds.catalog.traverse .firstWins 0 ()).entered
            k e) := by
  have heq : Equivalence (fun a b => Graph.atOdds.catalog.sameType a b = true) := {
    refl := fun a => decide_eq_true rfl
    symm := fun h => decide_eq_true (of_decide_eq_true h).symm
    trans := fun h h' => decide_eq_true ((of_decide_eq_true h).trans (of_decide_eq_true h')) }
  have h := Graph.atOdds.catalog.record_derive_reject_iff heq {}
  obtain ⟨r, hr⟩ := Option.isSome_iff_exists.mp
    (show (Graph.atOdds.catalog.derive (({} : Settings).setConflicts .reject) .suffixes 1
      ()).record.isSome = true by decide +kernel)
  obtain ⟨r', hr'⟩ := Option.isSome_iff_exists.mp
    (show (Graph.atOdds.catalog.derive (({} : Settings).setConflicts .firstWins) .suffixes 0
      ()).record.isSome = true by decide +kernel)
  have hnone : (Graph.atOdds.catalog.derive (({} : Settings).setConflicts .reject) .suffixes 0
      ()).record = none := by
    decide +kernel
  exact ⟨heq, ⟨r, hr, (((h 1).1 r).mp hr).1⟩, ⟨r', hr'⟩, hnone, ((h 0).2 r' hr' hnone).2⟩

end Catalog

end InterfaceRecord
