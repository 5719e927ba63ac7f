/-
  What a survey of a file finds. `traitsOf_eq_map_placed`: the traits of the file in source order,
  each with the path of the inline modules around it. So whatever holds of the names of all traits
  and inline modules holds of all segments of the traits' paths (`forall_mem_path_of_named`).
-/
import InterfaceRecord.Trait.File

namespace InterfaceRecord.Trait

open InterfaceRecord.Source

/-! ## Loading -/

/-- What is loaded is what the items of the source give. -/
theorem load_eq_ok_iff {source : String} {f : TraitFile} :
    TraitFile.load source = .ok f ↔
      ∃ items, Grammar.parseFile? source = some items ∧ f = TraitFile.ofItems items := by
  rw [TraitFile.load]
  constructor
  · intro h
    split at h
    · rename_i items hitems
      cases h
      exact ⟨items, hitems, rfl⟩
    · cases h
  · rintro ⟨items, hitems, rfl⟩
    rw [hitems]

/-- A source of which a test can be evaluated is loaded. -/
theorem exists_load_of_any (source : String) (p : TraitFile → Bool)
    (h : (TraitFile.load source).toOption.any p = true) :
    ∃ f, TraitFile.load source = .ok f ∧ p f = true := by
  cases hload : TraitFile.load source with
  | ok f =>
    rw [hload] at h
    exact ⟨f, rfl, h⟩
  | error e =>
    rw [hload] at h
    cases h

/-! ## Traits in their modules -/

mutual

/-- The traits in an item that stands in the module `home`, each with the module it stands in. -/
def placed (home : List Ident) : Item → List (List Ident × TraitItem)
  | .interface t => [(home, t)]
  | .inlineModule name its => placedAll (home ++ [name]) its
  | .fileModule _ => []
  | .other => []

/-- The traits in items that stand in the module `home`. -/
def placedAll (home : List Ident) : List Item → List (List Ident × TraitItem)
  | [] => []
  | i :: is => placed home i ++ placedAll home is

end

theorem mem_placedAll {home : List Ident} {is : List Item} {p : List Ident × TraitItem} :
    p ∈ placedAll home is ↔ ∃ i ∈ is, p ∈ placed home i := by
  induction is with
  | nil => simp [placedAll]
  | cons i is ih => simp [placedAll, ih]

namespace Survey

/-- What an item adds to a survey. The module is left the way it was entered. -/
def Adds (s s' : Survey) (found : List (List Ident × TraitItem)) : Prop :=
  s'.home = s.home ∧ s'.found = s.found ++ found.map fun (home, t) => .ofItem home t

theorem Adds.trans {s s' s'' : Survey} {front back : List (List Ident × TraitItem)}
    (h : s.Adds s' front) (h' : s'.Adds s'' back) : s.Adds s'' (front ++ back) := by
  refine ⟨h'.1.trans h.1, ?_⟩
  rw [h'.2, h.2, List.map_append, List.append_assoc]

mutual

theorem adds_item (s : Survey) (i : Item) : s.Adds (s.item i) (placed s.home i) := by
  cases i with
  | interface t =>
    rw [item, placed]
    exact ⟨rfl, rfl⟩
  | inlineModule name its =>
    obtain ⟨hhome, hfound⟩ := adds_items (s.enter name) its
    rw [item, placed]
    refine ⟨?_, hfound⟩
    rw [leave, hhome]
    exact List.dropLast_concat
  | fileModule name =>
    rw [item, placed]
    exact ⟨rfl, (List.append_nil _).symm⟩
  | other =>
    rw [item, placed]
    exact ⟨rfl, (List.append_nil _).symm⟩

theorem adds_items (s : Survey) (is : List Item) : s.Adds (s.items is) (placedAll s.home is) := by
  cases is with
  | nil =>
    rw [items, placedAll]
    exact ⟨rfl, (List.append_nil _).symm⟩
  | cons i is =>
    have hi := adds_item s i
    have his := adds_items (s.item i) is
    rw [hi.1] at his
    rw [items, placedAll]
    exact hi.trans his

end

end Survey

/-- A survey finds the traits of a file in source order, each in its module. -/
theorem traitsOf_eq_map_placed (items : List Item) :
    traitsOf items = (placedAll [] items).map fun (home, t) => .ofItem home t := by
  rw [traitsOf, (Survey.adds_items {} items).2]
  exact List.nil_append _

/-- Each trait of a file is the declaration of an item. -/
theorem exists_ofItem_of_mem {items : List Item} {d : TraitEntry} (h : d ∈ traitsOf items) :
    ∃ home t, d = .ofItem home t := by
  rw [traitsOf_eq_map_placed] at h
  obtain ⟨⟨home, t⟩, -, rfl⟩ := List.mem_map.mp h
  exact ⟨home, t, rfl⟩

/-! ## Names -/

/-- `P` holds of the names of all traits and inline modules in an item. -/
inductive Named (P : Ident → Prop) : Item → Prop
  | interface {t : TraitItem} (h : P t.name) : Named P (.interface t)
  | inlineModule {name : Ident} {its : List Item} (h : P name) (hits : ∀ i ∈ its, Named P i) :
    Named P (.inlineModule name its)
  | fileModule {name : Ident} : Named P (.fileModule name)
  | other : Named P .other

variable {P : Ident → Prop}

mutual

theorem forall_mem_placed {home : List Ident} (hhome : ∀ s ∈ home, P s) (i : Item)
    (hi : Named P i) : ∀ p ∈ placed home i, (∀ s ∈ p.1, P s) ∧ P p.2.name := by
  cases i with
  | interface t =>
    cases hi with
    | interface ht =>
      intro p hp
      rw [placed, List.mem_singleton] at hp
      rw [hp]
      exact ⟨hhome, ht⟩
  | inlineModule name its =>
    cases hi with
    | inlineModule hname hits =>
      rw [placed]
      apply forall_mem_placedAll _ its hits
      intro s hs
      rcases List.mem_append.mp hs with hs | hs
      · exact hhome s hs
      · rw [List.mem_singleton.mp hs]
        exact hname
  | fileModule name =>
    rw [placed]
    exact fun p hp => absurd hp List.not_mem_nil
  | other =>
    rw [placed]
    exact fun p hp => absurd hp List.not_mem_nil

theorem forall_mem_placedAll {home : List Ident} (hhome : ∀ s ∈ home, P s) (is : List Item)
    (his : ∀ i ∈ is, Named P i) : ∀ p ∈ placedAll home is, (∀ s ∈ p.1, P s) ∧ P p.2.name := by
  cases is with
  | nil =>
    rw [placedAll]
    exact fun p hp => absurd hp List.not_mem_nil
  | cons i is =>
    rw [placedAll]
    intro p hp
    rcases List.mem_append.mp hp with hp | hp
    · exact forall_mem_placed hhome i (his i List.mem_cons_self) p hp
    · exact forall_mem_placedAll hhome is (fun j hj => his j (List.mem_cons_of_mem i hj)) p hp

end

/-- What holds of all names in a file holds of the segments of its traits' paths. -/
theorem forall_mem_path_of_named {items : List Item} (h : ∀ i ∈ items, Named P i) {d : TraitEntry}
    (hd : d ∈ traitsOf items) : ∀ s ∈ d.path, P s := by
  rw [traitsOf_eq_map_placed] at hd
  obtain ⟨p, hp, rfl⟩ := List.mem_map.mp hd
  obtain ⟨hhome, hname⟩ :=
    forall_mem_placedAll (fun _ hs => absurd hs List.not_mem_nil) items h p hp
  intro s hs
  rcases List.mem_append.mp hs with hs | hs
  · exact hhome s hs
  · rw [List.mem_singleton.mp hs]
    exact hname

end InterfaceRecord.Trait
