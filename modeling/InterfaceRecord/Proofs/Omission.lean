/-
  Methods that do not count. Left out on purpose, or with a name that is taken, a method is neither
  kept nor at fault, and one that is not static gives no first value either (`Idle`). Without such
  methods the others are kept and found at fault as before (`Idle.kept`, `Idle.findings`), so a
  traversal enters the same interfaces and a derivation comes to the same (`Idle.derive`). Which
  methods a traversal passed over its steps tell (`told_traverse`). Taken out of a graph they leave
  the others at new positions (`Table.sameAnswers_without`).
-/
import InterfaceRecord.Proofs.DeclarationOrder
import InterfaceRecord.Proofs.SameAnswers
import InterfaceRecord.Proofs.UsedNames

namespace InterfaceRecord

namespace Catalog

section

variable {I M T S V : Type}

/-- The same interfaces without some of their methods. -/
def without (g : Catalog I M T S V) (gone : I × M → Bool) : Catalog I M T S V :=
  { g with methods := fun i => (g.methods i).filter fun m => !gone (i, m) }

variable (g : Catalog I M T S V) (gone : I × M → Bool)

theorem declarations_without (is : List I) :
    (g.without gone).declarations is = (g.declarations is).filter fun d => !gone d := by
  induction is with
  | nil => rfl
  | cons i is ih =>
    rw [← List.singleton_append, declarations_append, declarations_append, List.filter_append, ih,
      declarations_singleton, declarations_singleton, List.filter_map]
    rfl

theorem preorderFrom_without (todo entered : List I) :
    (g.without gone).preorderFrom todo entered = g.preorderFrom todo entered := by
  induction todo, entered using preorderFrom.induct g with
  | case1 entered => rw [preorderFrom_nil, preorderFrom_nil]
  | case2 i todo entered hi ih =>
    rw [preorderFrom_cons_of_mem g _ hi, preorderFrom_cons_of_mem (g.without gone) _ hi, ih]
  | case3 i todo entered hi ih =>
    rw [preorderFrom_cons_of_not_mem g _ hi, preorderFrom_cons_of_not_mem (g.without gone) _ hi]
    exact ih

theorem preorder_without (root : I) : (g.without gone).preorder root = g.preorder root :=
  g.preorderFrom_without gone [root] []

variable {g gone}

/-- Only static methods give first values. -/
theorem initializer?_without (hstatic : ∀ d, gone d = true → g.isStatic d.2 = false) (i : I)
    (target : String) (type : T) :
    (g.without gone).initializer? i target type = g.initializer? i target type := by
  have hany : ((g.without gone).methods i).any (g.isInitializerMethod target type) =
      (g.methods i).any (g.isInitializerMethod target type) := by
    show ((g.methods i).filter fun m => !gone (i, m)).any _ = _
    rw [List.any_filter]
    congr 1
    funext m
    cases hgone : gone (i, m) with
    | false => rfl
    | true =>
      rw [isInitializerMethod, hstatic (i, m) hgone]
      rfl
  rw [initializer?, initializer?]
  exact congrArg (fun found => if found = true then some (Initializer.method target) else _) hany

end

variable {I M T S : Type} {g : Catalog I M T S Unit} {gone : I × M → Bool}

/-! ## Methods that do not count -/

/-- The methods for which `gone` answers yes are neither kept among those in `ds` nor rejected. -/
structure Idle (g : Catalog I M T S Unit) (gone : I × M → Bool) (ds : List (I × M)) : Prop where
  unkept : ∀ d ∈ g.kept ds, gone d = false
  unrejected : ∀ d ∈ ds, gone d = true → ∀ fault, g.rulingOf d ≠ .reject fault

variable {ds front : List (I × M)} {d : I × M}

theorem Idle.of_isPrefix (h : g.Idle gone ds) (hp : front <+: ds) : g.Idle gone front := by
  exact ⟨fun d hd => h.unkept d ((g.kept_prefix hp).subset hd),
    fun d hd => h.unrejected d (hp.subset hd)⟩

theorem Idle.kept (h : g.Idle gone ds) : g.kept (ds.filter fun d => !gone d) = g.kept ds := by
  rw [Catalog.kept, accepted, List.filter_comm, firsts_filter_of_forall, Catalog.kept, accepted]
  intro d hd
  rw [h.unkept d hd]
  rfl

theorem Idle.first? (h : g.Idle gone ds) (name : String) :
    g.first? (ds.filter fun d => !gone d) name = g.first? ds name := by
  rw [first?_eq_find?_kept, first?_eq_find?_kept, h.kept]

/-- Where types may differ, nothing is wrong with a method that is gone. -/
theorem Idle.fault?_eq_none (h : g.Idle gone (ds ++ [d])) (hd : gone d = true) :
    g.fault? .firstWins ds d = none := by
  have hmem : d ∈ ds ++ [d] := List.mem_append_right _ (List.mem_singleton_self d)
  refine g.fault?_eq_none_iff.mpr ⟨h.unrejected d hmem hd, fun ha hnone => ?_, fun hp => by cases hp⟩
  -- as the first of its name it would have been kept
  have hkept : d ∈ g.kept (ds ++ [d]) := by
    rw [kept_concat, if_pos ⟨ha, hnone⟩]
    exact List.mem_append_right _ (List.mem_singleton_self d)
  rw [h.unkept d hkept] at hd
  cases hd

/-- Nothing else is found without them. -/
theorem Idle.findings (h : g.Idle gone ds) :
    g.findings .firstWins (ds.filter fun d => !gone d) = g.findings .firstWins ds := by
  induction ds using List.reverseRecOn with
  | nil => rfl
  | append_singleton ds d ih =>
    have hds : g.Idle gone ds := h.of_isPrefix (List.prefix_append ds [d])
    rw [List.filter_append, List.filter_singleton, findings_concat]
    cases hd : gone d with
    | true =>
      rw [Bool.not_true, cond_false, List.append_nil, ih hds, h.fault?_eq_none hd]
      exact (List.append_nil _).symm
    | false =>
      have hfault : g.fault? .firstWins (ds.filter fun d => !gone d) d =
          g.fault? .firstWins ds d := by
        simp only [fault?, hds.first?]
      rw [Bool.not_false, cond_true, findings_concat, ih hds, hfault]

/-! ## Derivations without them -/

section

variable (hstatic : ∀ d, gone d = true → g.isStatic d.2 = false)

include hstatic

theorem missing?_without (d : I × M) : (g.without gone).missing? d = g.missing? d := by
  rw [missing?, missing?]
  simp only [initializer?_without hstatic]
  rfl

theorem component_without (d : I × M) : (g.without gone).component d = g.component d := by
  rw [component, component, initializerOf, initializerOf]
  simp only [initializer?_without hstatic]
  rfl

theorem faults_without (policy : ConflictPolicy) (before ds : List (I × M)) :
    (g.without gone).faults policy before ds = g.faults policy before ds := by
  induction ds generalizing before with
  | nil => rfl
  | cons d ds ih =>
    have hfault : (g.without gone).fault? policy before d = g.fault? policy before d := by
      rw [fault?, fault?, missing?_without hstatic]
      rfl
    rw [faults, faults, ih, hfault]

theorem findings_without {is : List I} (h : g.Idle gone (g.declarations is)) :
    (g.without gone).findings .firstWins ((g.without gone).declarations is) =
      g.findings .firstWins (g.declarations is) := by
  rw [declarations_without, ← h.findings]
  exact congrArg (List.map g.diagnostic) (faults_without hstatic _ _ _)

variable {root : I}

/-- Something is wrong at the same places, at least up to where the traversal stops. -/
theorem entered_without
    (h : g.Idle gone (g.declarations (g.traverse .firstWins root ()).entered)) :
    ((g.without gone).traverse .firstWins root ()).entered =
      (g.traverse .firstWins root ()).entered := by
  obtain ⟨hpre, hcov, hall⟩ := g.covers_traverse .firstWins root
  have hsame := findings_without hstatic h
  rw [← List.map_id (g.traverse .firstWins root ()).entered]
  apply entered_eq_map .firstWins
  · rw [List.map_id, preorder_without]
  · intro is his
    rw [List.map_id]
    rcases List.prefix_or_prefix_of_prefix his hpre with hle | hle
    · rw [findings_without hstatic (h.of_isPrefix (g.declarations_prefix hle))]
    · -- beyond its end there is nothing more unless it has failed
      by_cases hclean : g.findings .firstWins
          (g.declarations (g.traverse .firstWins root ()).entered) = []
      · have hwhole : (g.traverse .firstWins root ()).entered = g.preorder root :=
          hall (hcov.failed_eq_false_iff.mpr hclean)
        obtain rfl : is = g.preorder root := his.eq_of_length_le (hwhole ▸ hle.length_le)
        rw [← hwhole, hsame]
      · constructor
        · intro hnil
          have hnil' := Catalog.findings_eq_nil_of_prefix (g.without gone) hle hnil
          exact absurd (hsame.symm.trans hnil') hclean
        · intro hnil
          exact absurd (Catalog.findings_eq_nil_of_prefix g hle hnil) hclean

theorem traverse_without
    (h : g.Idle gone (g.declarations (g.traverse .firstWins root ()).entered)) :
    ((g.without gone).traverse .firstWins root ()).components =
        (g.traverse .firstWins root ()).components ∧
      ((g.without gone).traverse .firstWins root ()).diagnostics =
        (g.traverse .firstWins root ()).diagnostics := by
  have hcov := (g.covers_traverse .firstWins root).2.1.accounts
  have hcov' := ((g.without gone).covers_traverse .firstWins root).2.1.accounts
  rw [hcov.components, hcov.diagnostics, hcov'.components, hcov'.diagnostics,
    entered_without hstatic h]
  refine ⟨?_, findings_without hstatic h⟩
  rw [declarations_without, ← h.kept]
  exact List.map_congr_left fun d _ => component_without hstatic d

/-- Without methods that do not count a derivation comes to the same. -/
theorem Idle.derive {settings : Settings} (hloose : settings.conflicts = .firstWins)
    (h : g.Idle gone (g.declarations (g.traverse .firstWins root ()).entered))
    (scheme : NameScheme) :
    ((g.without gone).derive settings scheme root ()).record =
        (g.derive settings scheme root ()).record ∧
      ((g.without gone).derive settings scheme root ()).diagnostics =
        (g.derive settings scheme root ()).diagnostics := by
  obtain ⟨hcomponents, hdiagnostics⟩ := traverse_without hstatic h
  constructor
  · rw [Option.ext_iff]
    intro r
    rw [record_derive_eq_some_iff, record_derive_eq_some_iff, hloose, hcomponents, hdiagnostics]
    rfl
  · rw [diagnostics_derive, diagnostics_derive, hloose, hcomponents, hdiagnostics]
    rfl

end

/-! ## What the steps tell -/

section

variable {policy : ConflictPolicy} {i : I} {m : M} {w w' : Traversal I M T S Unit} {root : I}

/-- The traversal left the method out as a default method, or came across it when there was a
component of its name. -/
def PassesOver (g : Catalog I M T S Unit) (w : Traversal I M T S Unit) (d : I × M) : Prop :=
  Step.skipped d.1 d.2 ∈ w.steps ∧ g.isStatic d.2 = false ∨ Step.repeated d.1 d.2 ∈ w.steps

instance [DecidableEq I] [DecidableEq M] : Decidable (g.PassesOver w d) :=
  inferInstanceAs (Decidable (_ ∧ _ ∨ _))

/-- The methods in `ds` were examined. Those that were left out are ruled to be, and those whose
names were taken are candidates behind one of that name. -/
structure Told (g : Catalog I M T S Unit) (policy : ConflictPolicy) (ds : List (I × M))
    (w : Traversal I M T S Unit) : Prop where
  accounts : g.Accounts policy ds w
  skipped : ∀ d, Step.skipped d.1 d.2 ∈ w.steps → g.rulingOf d = .skip
  repeated : ∀ d, Step.repeated d.1 d.2 ∈ w.steps → ∃ front back, ds = front ++ d :: back ∧
    g.isAccepted d = true ∧ g.first? front (g.methodName d.2) ≠ none

/-- Where a method is left out, a step before or this one tells so. -/
theorem Outcome.of_skipped_mem (h : g.Outcome policy i m w w')
    (hd : Step.skipped d.1 d.2 ∈ w'.steps) :
    Step.skipped d.1 d.2 ∈ w.steps ∨ d = (i, m) ∧ g.rulingOf (i, m) = .skip := by
  cases h with
  | skipped hruling =>
    rw [Traversal.steps_note, List.mem_append, List.mem_singleton] at hd
    refine hd.imp_right fun heq => ?_
    injection heq with hi hm
    exact ⟨Prod.ext hi hm, hruling⟩
  | _ => exact Or.inl (by simpa using hd)

theorem Outcome.of_repeated_mem (h : g.Outcome policy i m w w')
    (hd : Step.repeated d.1 d.2 ∈ w'.steps) :
    Step.repeated d.1 d.2 ∈ w.steps ∨ d = (i, m) ∧ g.IsCandidate i m () ∧
      w.used.lookup (g.methodName m) ≠ none := by
  cases h with
  | repeated hruling hseen =>
    rw [Traversal.steps_note, List.mem_append, List.mem_singleton] at hd
    refine hd.imp_right fun heq => ?_
    injection heq with hi hm
    exact ⟨Prod.ext hi hm, hruling, fun hnone => Option.some_ne_none _ (hseen.symm.trans hnone)⟩
  | _ => exact Or.inl (by simpa using hd)

theorem Told.examine (h : g.Told policy ds w) (i : I) (m : M) :
    g.Told policy (ds ++ [(i, m)]) (g.examine policy i w m) where
  accounts := g.accounts_examine h.accounts i m
  skipped d hd := by
    rcases (g.outcome_examine policy i m w).of_skipped_mem hd with hd | ⟨rfl, hruling⟩
    · exact h.skipped d hd
    · exact hruling
  repeated d hd := by
    rcases (g.outcome_examine policy i m w).of_repeated_mem hd with hd | ⟨rfl, hruling, htaken⟩
    · obtain ⟨front, back, rfl, ha, hfirst⟩ := h.repeated d hd
      exact ⟨front, back ++ [(i, m)], by simp, ha, hfirst⟩
    · refine ⟨ds, [], rfl, isAccepted_iff.mpr hruling, fun hnone => htaken ?_⟩
      rw [h.accounts.lookup, hnone, Option.map_none]

/-- A step that is about no method. -/
theorem Told.note (h : g.Told policy ds w) {s : Step I M} (hs : s.method? = none) :
    g.Told policy ds (w.note s) where
  accounts := {
    used := h.accounts.used
    components := h.accounts.components
    diagnostics := h.accounts.diagnostics
    examined := by
      rw [Traversal.examined_note, hs, h.accounts.examined]
      exact List.append_nil _ }
  skipped d hd := by
    rw [Traversal.steps_note, List.mem_append, List.mem_singleton] at hd
    refine h.skipped d (hd.resolve_right fun heq => ?_)
    rw [← heq] at hs
    cases hs
  repeated d hd := by
    rw [Traversal.steps_note, List.mem_append, List.mem_singleton] at hd
    refine h.repeated d (hd.resolve_right fun heq => ?_)
    rw [← heq] at hs
    cases hs

theorem Told.enter (h : g.Told policy ds w) (i : I) (name : String) :
    g.Told policy ds (w.enter i name) :=
  Told.note (w := { w with visited := w.visited ++ [name] })
    ⟨⟨h.accounts.used, h.accounts.components, h.accounts.diagnostics, h.accounts.examined⟩,
      h.skipped, h.repeated⟩ rfl

theorem Moves.told {a b : Moment I M T S Unit} (hab : g.Moves g.supertypes policy a b)
    (h : ∃ ds, g.Told policy ds a.state) : ∃ ds, g.Told policy ds b.state := by
  obtain ⟨ds, h⟩ := h
  cases hab with
  | stop => exact ⟨ds, h⟩
  | pass => exact ⟨ds, h.note rfl⟩
  | enter => exact ⟨ds, h.enter _ _⟩
  | @examine i m => exact ⟨ds ++ [(i, m)], h.examine i m⟩
  | @halt i m => exact ⟨ds ++ [(i, m)], h.examine i m⟩
  | expand => exact ⟨ds, h.note rfl⟩

variable (g policy root) in
/-- The steps of a traversal tell of the methods of the interfaces that were entered. -/
theorem told_traverse :
    g.Told policy (g.declarations (g.traverse policy root ()).entered)
      (g.traverse policy root ()) := by
  have hstart : g.Told policy [] ({ void := () } : Traversal I M T S Unit) :=
    ⟨g.accounts_start policy, fun _ hd => absurd hd List.not_mem_nil,
      fun _ hd => absurd hd List.not_mem_nil⟩
  have hpasses : g.Passes g.supertypes policy root () ⟨[], g.traverse policy root ()⟩ :=
    passes_traverse root ()
  obtain ⟨ds, h⟩ := hpasses.invariant (P := fun a => ∃ ds, g.Told policy ds a.state)
    ⟨[], hstart⟩ fun _ _ hab => hab.told
  obtain rfl := h.accounts.examined.symm.trans
    (g.covers_traverse policy root).2.1.accounts.examined
  exact h

/-- A method behind a candidate of its name is not kept. -/
theorem not_mem_kept {front back : List (I × M)} (hnodup : (front ++ d :: back).Nodup)
    (hfirst : g.first? front (g.methodName d.2) ≠ none) : d ∉ g.kept (front ++ d :: back) := by
  intro hd
  obtain ⟨first, hsome⟩ := Option.ne_none_iff_exists'.mp hfirst
  have hfound : g.first? (front ++ d :: back) (g.methodName d.2) = some first := by
    rw [first?_append, hsome, Option.some_or]
  have hself : g.first? (front ++ d :: back) (g.methodName d.2) = some d := by
    rw [first?_eq_find?_kept]
    exact find?_of_nodup_map (g.methodName ·.2) (g.nodup_names_kept _) hd
  obtain rfl : d = first := Option.some.inj (hself.symm.trans hfound)
  exact (List.nodup_append.mp hnodup).2.2 d (g.mem_of_first?_eq_some hsome).1 d
    List.mem_cons_self rfl

theorem isStatic_of_isAccepted (h : g.isAccepted d = true) : g.isStatic d.2 = false := by
  rw [isAccepted_iff, rulingOf, ruling] at h
  split at h
  · cases h
  · rename_i hskip
    rw [Bool.or_eq_true, not_or] at hskip
    exact Bool.eq_false_iff.mpr hskip.1

/-- No method of an interface is declared twice, so neither is one of interfaces that differ. -/
theorem nodup_declarations (hmethods : ∀ i, (g.methods i).Nodup) {is : List I} (his : is.Nodup) :
    (g.declarations is).Nodup := by
  rw [declarations, List.nodup_flatMap]
  refine ⟨fun i _ => (hmethods i).map fun _ _ h => (Prod.mk.inj h).2, ?_⟩
  refine his.imp fun hne => ?_
  intro d hd he
  obtain ⟨_, -, rfl⟩ := List.mem_map.mp hd
  obtain ⟨_, -, heq⟩ := List.mem_map.mp he
  exact hne (Prod.mk.inj heq).1.symm

/-- Methods that a traversal passed over do not count. -/
theorem idle_of_passesOver (hmethods : ∀ i, (g.methods i).Nodup)
    (hgone : ∀ d, gone d = true → g.PassesOver (g.traverse policy root ()) d) :
    g.Idle gone (g.declarations (g.traverse policy root ()).entered) ∧
      ∀ d, gone d = true → g.isStatic d.2 = false := by
  have htold := g.told_traverse policy root
  have hnodup : (g.declarations (g.traverse policy root ()).entered).Nodup :=
    nodup_declarations hmethods ((g.covers_traverse policy root).1.sublist.nodup
      (g.nodup_preorder root))
  refine ⟨⟨fun d hd => ?_, fun d _ hd fault hreject => ?_⟩, fun d hd => ?_⟩
  · rw [Bool.eq_false_iff]
    intro hmem
    rcases hgone d hmem with ⟨hskip, -⟩ | hrepeat
    · have ha : g.isAccepted d = true :=
        (List.mem_filter.mp ((firsts_sublist _ _).subset hd)).2
      cases (isAccepted_iff.mp ha).symm.trans (htold.skipped d hskip)
    · obtain ⟨front, back, hds, -, hfirst⟩ := htold.repeated d hrepeat
      rw [hds] at hnodup hd
      exact not_mem_kept hnodup hfirst hd
  · rcases hgone d hd with ⟨hskip, -⟩ | hrepeat
    · cases hreject.symm.trans (htold.skipped d hskip)
    · obtain ⟨-, -, -, ha, -⟩ := htold.repeated d hrepeat
      cases hreject.symm.trans (isAccepted_iff.mp ha)
  · rcases hgone d hd with ⟨-, hstatic⟩ | hrepeat
    · exact hstatic
    · obtain ⟨-, -, -, ha, -⟩ := htold.repeated d hrepeat
      exact isStatic_of_isAccepted ha

end

end Catalog

/-! ## Tables -/

section

variable {T S V : Type}

namespace InterfaceEntry

/-- The methods that stay, each with the position it had. -/
def staying (d : InterfaceEntry T S) (gone : Nat → Bool) : List (MethodEntry T S × Nat) :=
  d.methods.zipIdx.filter fun p => !gone p.2

/-- The declaration without the methods at some positions. -/
def without (d : InterfaceEntry T S) (gone : Nat → Bool) : InterfaceEntry T S :=
  { d with methods := (d.staying gone).map Prod.fst }

end InterfaceEntry

namespace Table

/-- The table without some methods. Those behind them move up. -/
def without (t : Table T S) (gone : MethodHandle → Bool) : Table T S :=
  t.mapIdx fun i d => d.without fun k => gone ⟨i, k⟩

/-- The handle that a method had when the others were still there. What is out of range stays so. -/
def formerHandle (t : Table T S) (gone : MethodHandle → Bool) (m : MethodHandle) : MethodHandle where
  interface := m.interface
  index := t[m.interface]?.elim m.index fun d =>
    (d.staying fun k => gone ⟨m.interface, k⟩)[m.index]?.elim d.methods.length Prod.snd

def formerHandles (t : Table T S) (gone : MethodHandle → Bool) :
    Renaming Nat MethodHandle Nat MethodHandle where
  interface := id
  method := t.formerHandle gone

variable {t : Table T S} {gone : MethodHandle → Bool}

theorem getElem?_without (i : Nat) :
    (t.without gone)[i]? = t[i]?.map fun d => d.without fun k => gone ⟨i, k⟩ :=
  List.getElem?_mapIdx

/-- What is asked about anything but methods is answered as before. -/
theorem elim_without {α : Type} {none : α} {answer : InterfaceEntry T S → α}
    (hanswer : ∀ d gone, answer (d.without gone) = answer d) (i : Nat) :
    t[i]?.elim none answer = (t.without gone)[i]?.elim none answer := by
  rw [getElem?_without]
  cases t[i]? with
  | none => rfl
  | some d => exact (hanswer d _).symm

theorem method?_formerHandle (m : MethodHandle) :
    t.method? (t.formerHandle gone m) = (t.without gone).method? m := by
  rw [method?, method?, getElem?_without, formerHandle]
  dsimp only
  cases t[m.interface]? with
  | none => rfl
  | some d =>
    rw [Option.map_some, Option.bind_some, Option.bind_some, Option.elim_some,
      InterfaceEntry.without, List.getElem?_map]
    cases hp : (d.staying fun k => gone ⟨m.interface, k⟩)[m.index]? with
    | none => exact List.getElem?_eq_none (Nat.le_refl _)
    | some p =>
      have hmem : p ∈ d.methods.zipIdx := (List.mem_filter.mp (List.mem_of_getElem? hp)).1
      exact List.mem_zipIdx_iff_getElem?.mp hmem

/-- The positions of the methods that stay. -/
theorem filter_range (d : InterfaceEntry T S) (gone : Nat → Bool) :
    (List.range d.methods.length).filter (fun k => !gone k) =
      (d.staying gone).map Prod.snd := by
  rw [InterfaceEntry.staying, List.range_eq_range', ← List.zipIdx_map_snd 0 d.methods,
    List.filter_map]
  rfl

variable [Inhabited T] [Inhabited S] {types : TypeView T V} {separator : String}

theorem catalog_methods (i : Nat) :
    (t.catalog types separator).methods i =
      t[i]?.elim [] fun d => (List.range d.methods.length).map (MethodHandle.mk i) := rfl

/-- Under their former handles the methods that are left are those that were not taken out. -/
theorem methods_without (i : Nat) :
    ((t.catalog types separator).methods i).filter
        (fun m => !(i == m.interface && gone m)) =
      (((t.without gone).catalog types separator).methods i).map (t.formerHandle gone) := by
  rw [catalog_methods, catalog_methods, getElem?_without]
  cases hd : t[i]? with
  | none => rfl
  | some d =>
    rw [Option.map_some, Option.elim_some, Option.elim_some, List.filter_map, List.map_map]
    have hgone : (fun m : MethodHandle => !(i == m.interface && gone m)) ∘ MethodHandle.mk i =
        fun k => !gone ⟨i, k⟩ := by
      funext k
      simp
    rw [hgone, filter_range d fun k => gone ⟨i, k⟩, InterfaceEntry.without, List.length_map]
    apply List.ext_getElem?
    intro k
    rw [List.map_map, List.getElem?_map, List.getElem?_map]
    by_cases hk : k < (d.staying fun k => gone ⟨i, k⟩).length
    · rw [List.getElem?_range hk, List.getElem?_eq_getElem hk, Option.map_some, Option.map_some,
        Function.comp_apply, Function.comp_apply, formerHandle, hd, Option.elim_some,
        List.getElem?_eq_getElem hk, Option.elim_some]
    · rw [List.getElem?_eq_none (Nat.le_of_not_lt hk), List.getElem?_eq_none (by simpa using hk)]
      rfl

/-- The smaller table answers under former handles as the catalog without the methods does. -/
theorem sameAnswers_without :
    ((t.without gone).catalog types separator).SameAnswers
      ((t.catalog types separator).without fun d => d.1 == d.2.interface && gone d.2)
      (t.formerHandles gone) where
  separator := rfl
  qualifiedName := elim_without fun _ _ => rfl
  simpleName := elim_without fun _ _ => rfl
  typeParameters := elim_without fun _ _ => rfl
  supertypes i := by
    rw [show (t.formerHandles gone).interface = id from rfl, List.map_id]
    exact elim_without (fun _ _ => rfl) i
  methods := methods_without
  constants := elim_without fun _ _ => rfl
  methodName m := congrArg (Option.elim · _ _) (method?_formerHandle m)
  isStatic m := congrArg (Option.elim · _ _) (method?_formerHandle m)
  isDefault m := congrArg (Option.elim · _ _) (method?_formerHandle m)
  isPublic m := congrArg (Option.elim · _ _) (method?_formerHandle m)
  parameters m := congrArg (Option.elim · _ _) (method?_formerHandle m)
  returnType m := congrArg (Option.elim · _ _) (method?_formerHandle m)
  methodTypeParameters m := congrArg (Option.elim · _ _) (method?_formerHandle m)
  ignoresDefault m := congrArg (Option.elim · _ _) (method?_formerHandle m)
  initializerName m := congrArg (Option.bind · _) (method?_formerHandle m)
  interfaceSite := elim_without fun _ _ => rfl
  methodSite m := congrArg (Option.elim · _ _) (method?_formerHandle m)
  typeText := rfl
  sameType := rfl
  isVoid := rfl
  names i := by
    have hnames : (t.without gone).map (·.qualifiedName) = t.map (·.qualifiedName) := by
      apply List.ext_getElem?
      intro k
      rw [List.getElem?_map, List.getElem?_map, getElem?_without, Option.map_map]
      rfl
    exact congrArg ("" :: ·) hnames.symm

theorem nodup_methods (i : Nat) : ((t.catalog types separator).methods i).Nodup := by
  rw [catalog_methods]
  cases t[i]? with
  | none => exact List.nodup_nil
  | some d => exact List.nodup_range.map fun _ _ h => (MethodHandle.mk.inj h).2

end Table

/-- An outline is the same under other handles. -/
theorem Renaming.outline_record {I M I' M' : Type} (ρ : Renaming I M I' M') (r : Record M T)
    (text : T → String) : (ρ.record r).outline text = r.outline text := by
  rw [Record.outline, Record.outline, record, List.map_map]
  rfl

/-- Without methods that the traversal passed over, a derivation from a table comes to the same
outline and reports the same. -/
theorem Table.outline_derive_without [Inhabited T] [Inhabited S] {t : Table T S}
    {types : TypeView T Unit} {separator : String} {root : Nat} {settings : Settings}
    (hloose : settings.conflicts = .firstWins) {gone : MethodHandle → Bool}
    (hgone : ∀ m, gone m = true → (t.catalog types separator).PassesOver
      ((t.catalog types separator).traverse .firstWins root ()) (m.interface, m))
    (scheme : NameScheme) :
    (((t.without gone).catalog types separator).derive settings scheme root ()).record.map
          (·.outline types.text) =
        ((t.catalog types separator).derive settings scheme root ()).record.map
          (·.outline types.text) ∧
      (((t.without gone).catalog types separator).derive settings scheme root ()).diagnostics =
        ((t.catalog types separator).derive settings scheme root ()).diagnostics := by
  have hpassed : ∀ d : Nat × MethodHandle, (d.1 == d.2.interface && gone d.2) = true →
      (t.catalog types separator).PassesOver
        ((t.catalog types separator).traverse .firstWins root ()) d := by
    rintro ⟨i, m⟩ hd
    obtain ⟨hi, hm⟩ := Bool.and_eq_true_iff.mp hd
    obtain rfl : i = m.interface := beq_iff_eq.mp hi
    exact hgone m hm
  obtain ⟨hidle, hstatic⟩ := Catalog.idle_of_passesOver nodup_methods hpassed
  obtain ⟨hrecord, hdiagnostics⟩ := Catalog.Idle.derive hstatic hloose hidle scheme
  have hsame : (((t.catalog types separator).without fun d =>
        d.1 == d.2.interface && gone d.2).derive settings scheme root ()) =
      (t.formerHandles gone).derivation
        (((t.without gone).catalog types separator).derive settings scheme root ()) :=
    sameAnswers_without.derive settings scheme root ()
  rw [hsame] at hrecord hdiagnostics
  refine ⟨?_, hdiagnostics⟩
  rw [← hrecord, Renaming.derivation, Option.map_map]
  exact congrArg (Option.map · _) (funext fun r => (Renaming.outline_record _ r _).symm)

end

/-! ## Graphs -/

namespace Graph

/-- The graph without some methods. -/
def without (g : Graph) (gone : MethodHandle → Bool) : Graph :=
  { g with interfaces := g.interfaces.without gone }

/-- What does not count may be left out. Where the first declaration wins, the methods that are
taken out of a graph being among those that the traversal from the root left out as default methods
or came across when there was a component of their name, the derivation comes to the same outline
as before, or to none, and reports the same. -/
theorem derive_without {g : Graph} {root : Nat} {settings : Settings}
    (hloose : settings.conflicts = .firstWins) {gone : MethodHandle → Bool}
    (hgone : ∀ m, gone m = true →
      g.catalog.PassesOver (g.catalog.traverse .firstWins root ()) (m.interface, m))
    (scheme : NameScheme) :
    ((g.without gone).derive settings scheme root).1.record.map (·.outline NamedType.name) =
        (g.derive settings scheme root).1.record.map (·.outline NamedType.name) ∧
      ((g.without gone).derive settings scheme root).1.diagnostics =
        (g.derive settings scheme root).1.diagnostics :=
  Table.outline_derive_without hloose hgone scheme

/-- A component's name comes again in the same interface, with another type and a first value that
is not there, and again in its supertype; and there is a default method that is ignored. -/
def surplus : Graph where
  interfaces := [
    { qualifiedName := "s::Whole", simpleName := "Whole", supertypes := [1],
      methods := [
        { name := "id", returnType := ⟨"int"⟩, initializer := some "zero",
          site := .method "s::Whole" "id" },
        { name := "id", returnType := ⟨"String"⟩, initializer := some "nowhere",
          site := .method "s::Whole" "id" },
        { name := "hint", returnType := ⟨"int"⟩, isDefault := true, ignoresDefault := true,
          site := .method "s::Whole" "hint" },
        { name := "zero", returnType := ⟨"int"⟩, isStatic := true,
          site := .method "s::Whole" "zero" }],
      site := .interface "s::Whole" },
    { qualifiedName := "s::Part", simpleName := "Part",
      methods := [
        { name := "id", returnType := ⟨"long"⟩, isDefault := true, site := .method "s::Part" "id" },
        { name := "tag", returnType := ⟨"String"⟩, site := .method "s::Part" "tag" }],
      site := .interface "s::Part" }]

/-- All of them are left out at once. -/
theorem derive_without_surplus :
    ({} : Settings).conflicts = .firstWins ∧
      (∀ m, [⟨0, 1⟩, ⟨0, 2⟩, ⟨1, 0⟩].contains m = true →
        surplus.catalog.PassesOver (surplus.catalog.traverse .firstWins 0 ()) (m.interface, m)) ∧
      (surplus.without [⟨0, 1⟩, ⟨0, 2⟩, ⟨1, 0⟩].contains).interfaces.map
        (fun d => d.methods.map (·.name)) = [["id", "zero"], ["tag"]] ∧
      ((surplus.without [⟨0, 1⟩, ⟨0, 2⟩, ⟨1, 0⟩].contains).derive {} .suffixes 0).1.record.map
          (fun r => (r.outline NamedType.name).components) =
        some [⟨"id", "int", some (.method "zero")⟩, ⟨"tag", "String", none⟩] := by
  have hgone : ∀ m : MethodHandle, [⟨0, 1⟩, ⟨0, 2⟩, ⟨1, 0⟩].contains m = true →
      surplus.catalog.PassesOver (surplus.catalog.traverse .firstWins 0 ()) (m.interface, m) := by
    have hall : ∀ m ∈ ([⟨0, 1⟩, ⟨0, 2⟩, ⟨1, 0⟩] : List MethodHandle), surplus.catalog.PassesOver
        (surplus.catalog.traverse .firstWins 0 ()) (m.interface, m) := by
      decide +kernel
    exact fun m hm => hall m (List.contains_iff_mem.mp hm)
  have hwhole : (surplus.derive {} .suffixes 0).1.record.map
      (fun r => (r.outline NamedType.name).components) =
        some [⟨"id", "int", some (.method "zero")⟩, ⟨"tag", "String", none⟩] := by
    decide +kernel
  have hloose : ({} : Settings).conflicts = .firstWins := rfl
  obtain ⟨hsame, -⟩ := derive_without hloose hgone .suffixes
  have hcomponents := congrArg (Option.map RecordOutline.components) hsame
  rw [Option.map_map, Option.map_map] at hcomponents
  exact ⟨hloose, hgone, by decide +kernel, hcomponents.trans hwhole⟩

end Graph

end InterfaceRecord
