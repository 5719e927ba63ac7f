/-
  Where the supertypes of a trait come from: from the bounds that are written on the trait, in the
  order in which they are written, those of the supertrait list before those of clauses on `Self`
  (`supertypes_ofItems_eq`). So the last bounds of the list may as well be written in clauses in
  front of the others (`respell`). Nothing that a trait declares changes with that, not
  for the traits that lead to it either, and all derivations stay the same (`derive_respelled`).
-/
import InterfaceRecord.Proofs.AddedTrait
import Mathlib.Data.List.DropRight

namespace InterfaceRecord.Trait

open InterfaceRecord.Source

/-! ## Bounds as they are written -/

/-- The bounds of a clause on the bare name `Self`, if it is one. -/
def ownClause? : Predicate → Option (List Bound)
  | .type [.ident i] bounds => if i.text = "Self" then some bounds else none
  | _ => none

/-- All bounds on a trait: those of its supertrait list, then those of its clauses on `Self`. -/
def writtenBounds (t : TraitItem) : List Bound :=
  t.supertraits ++ (t.predicates.filterMap ownClause?).flatten

/-- The trait that a bound means where it is written in the module `home`. Bounds of other kinds
mean none. -/
def boundLink? (traits : List TraitEntry) (home : List Ident) : Bound → Option Nat
  | .trait path => link? traits home path
  | .other => none

theorem selfBounds_eq (p : Predicate) : selfBounds p = (ownClause? p).getD [] := by
  cases p with
  | lifetime => rfl
  | type subject bounds =>
    rcases subject with _ | ⟨token, _ | ⟨token', rest⟩⟩
    · rfl
    · cases token with
      | ident i =>
        by_cases hi : i.text = "Self" <;> simp [selfBounds, isOwnType, ownClause?, hi]
      | _ => rfl
    · cases token <;> rfl

theorem boundPaths_eq (t : TraitItem) : boundPaths t = (writtenBounds t).filterMap (·.path?) := by
  have hclauses (ps : List Predicate) :
      ps.flatMap selfBounds = (ps.filterMap ownClause?).flatten := by
    induction ps with
    | nil => rfl
    | cons p ps ih =>
      rw [List.flatMap_cons, selfBounds_eq, ih, List.filterMap_cons]
      cases ownClause? p <;> rfl
  rw [boundPaths, writtenBounds, hclauses]

/-- The supertypes of a trait are what its bounds mean, one after another as they are written. -/
theorem supertypes_ofItems_eq {items : List Item} {n : Nat} {home : List Ident} {t : TraitItem}
    (h : (placedAll [] items)[n]? = some (home, t)) :
    (TraitFile.ofItems items).catalog.supertypes n =
      (writtenBounds t).filterMap (boundLink? (traitsOf items) home) := by
  rw [supertypes_ofItems h, boundPaths_eq, List.filterMap_filterMap]
  apply List.filterMap_congr
  intro b _
  cases b <;> rfl

/-! ## Supertraits in clauses -/

theorem isIdentText_ownName : Text.isIdentText "Self".toList = true := by decide

/-- The clauses on `Self` with these bounds. -/
def ownClauses (groups : List (List Bound)) : List Predicate :=
  groups.map (.type [.ident ⟨"Self", isIdentText_ownName⟩])

/-- The last `k` bounds of the supertrait list are left out there, and clauses on `Self` come in
front of the other ones. -/
def respell (t : TraitItem) (k : Nat) (groups : List (List Bound)) : TraitItem :=
  { t with
    supertraits := t.supertraits.rdrop k
    predicates := ownClauses groups ++ t.predicates }

/-- The items of the second list are those of the first one, but for one trait, at the root or in a
module, of which the last `k` bounds of the supertrait list stand in clauses on `Self`. -/
inductive Respelled (k : Nat) : List Item → List Item → Prop
  | here (front back : List Item) (t : TraitItem) {groups : List (List Bound)}
    (h : groups.flatten = t.supertraits.rtake k) :
    Respelled k (front ++ .interface t :: back) (front ++ .interface (respell t k groups) :: back)
  | within (front back : List Item) (name : Ident) {its its' : List Item}
    (h : Respelled k its its') :
    Respelled k (front ++ .inlineModule name its :: back) (front ++ .inlineModule name its' :: back)

theorem filterMap_ownClauses (groups : List (List Bound)) :
    (ownClauses groups).filterMap ownClause? = groups := by
  rw [ownClauses, List.filterMap_map]
  exact List.filterMap_some

/-- The bounds are the same ones in the same order. -/
theorem writtenBounds_respell {t : TraitItem} {k : Nat} {groups : List (List Bound)}
    (h : groups.flatten = t.supertraits.rtake k) :
    writtenBounds (respell t k groups) = writtenBounds t := by
  have hsplit : t.supertraits.rdrop k ++ t.supertraits.rtake k = t.supertraits :=
    List.take_append_drop _ _
  calc writtenBounds (respell t k groups)
      = t.supertraits.rdrop k ++
          ((ownClauses groups ++ t.predicates).filterMap ownClause?).flatten := rfl
    _ = (t.supertraits.rdrop k ++ t.supertraits.rtake k) ++
          (t.predicates.filterMap ownClause?).flatten := by
      rw [List.filterMap_append, filterMap_ownClauses, List.flatten_append, h, List.append_assoc]
    _ = writtenBounds t := by rw [hsplit, writtenBounds]

theorem ofItem_respell {t : TraitItem} {k : Nat} {groups : List (List Bound)}
    (h : groups.flatten = t.supertraits.rtake k) (home : List Ident) :
    TraitEntry.ofItem home (respell t k groups) = TraitEntry.ofItem home t := by
  have hbounds : boundPaths (respell t k groups) = boundPaths t := by
    rw [boundPaths_eq, boundPaths_eq, writtenBounds_respell h]
  rw [TraitEntry.ofItem, hbounds]
  rfl

/-- All traits declare what they did, whichever module they stand in. -/
theorem Respelled.map_ofItem {k : Nat} {is is' : List Item} (h : Respelled k is is')
    (home : List Ident) :
    (placedAll home is').map (fun p => TraitEntry.ofItem p.1 p.2) =
      (placedAll home is).map fun p => TraitEntry.ofItem p.1 p.2 := by
  induction h generalizing home with
  | here front back t hgroups =>
    simp only [placedAll_append, placedAll, placed, List.map_append, List.map_cons,
      ofItem_respell hgroups]
  | within front back name _ ih =>
    simp only [placedAll_append, placedAll, placed, List.map_append, ih]

theorem Respelled.map_content {k : Nat} {items items' : List Item}
    (h : Respelled k (Item.unplacedAll items) (Item.unplacedAll items')) :
    (traitsOf items').map TraitEntry.content = (traitsOf items).map TraitEntry.content := by
  have hentries := congrArg (List.map TraitEntry.content) (h.map_ofItem [])
  rw [List.map_map, List.map_map] at hentries
  rw [map_content_traitsOf, map_content_traitsOf]
  exact hentries

/-! ## The same declarations in the same order -/

section

variable {traits traits' : List TraitEntry}

theorem lastNamed?_eq (traits : List TraitEntry) (name : String) :
    lastNamed? traits name =
      ((traits.map TraitEntry.content).zipIdx.filter
        (joinPath ·.1.path == name)).getLast?.map (·.2) := by
  rw [lastNamed?, List.zipIdx_map, List.filter_map, List.getLast?_map, Option.map_map]
  rfl

theorem onlyNamed?_eq_of_map_content
    (h : traits'.map TraitEntry.content = traits.map TraitEntry.content) (name : String) :
    onlyNamed? traits' name = onlyNamed? traits name := by
  -- the traits of that name are at the same positions
  have hfound (ts : List TraitEntry) :
      (ts.zipIdx.filter (·.1.simpleName == name)).map (·.2) =
        ((ts.map TraitEntry.content).zipIdx.filter (·.1.name.text == name)).map (·.2) := by
    rw [List.zipIdx_map, List.filter_map, List.map_map]
    rfl
  have hsame : (traits'.zipIdx.filter (·.1.simpleName == name)).map (·.2) =
      (traits.zipIdx.filter (·.1.simpleName == name)).map (·.2) := by
    rw [hfound, hfound, h]
  rw [onlyNamed?, onlyNamed?]
  generalize traits'.zipIdx.filter (·.1.simpleName == name) = found' at hsame ⊢
  generalize traits.zipIdx.filter (·.1.simpleName == name) = found at hsame ⊢
  rcases found' with _ | ⟨⟨d', i'⟩, _ | ⟨e', ds'⟩⟩ <;>
    rcases found with _ | ⟨⟨d, i⟩, _ | ⟨e, ds⟩⟩ <;> simp_all

/-- A path means the same trait wherever the same is declared. -/
theorem link?_eq_of_map_content
    (h : traits'.map TraitEntry.content = traits.map TraitEntry.content) (home path : List Ident) :
    link? traits' home path = link? traits home path := by
  simp only [link?, lastNamed?_eq, onlyNamed?_eq_of_map_content h, h]

theorem relocated_of_map_content
    (h : traits'.map TraitEntry.content = traits.map TraitEntry.content) :
    (tableOf traits).Relocated (tableOf traits') TypeTokens.text (· < traits.length) id where
  closed := fun _ _ _ he _ hp => lt_length_of_mem_supertypes (List.mem_of_getElem? he) hp
  entry := by
    intro i hi
    have hd : traits[i]? = some traits[i] := List.getElem?_eq_getElem hi
    have hat := congrArg (·[i]?) h
    simp only [List.getElem?_map, hd, Option.map_some] at hat
    obtain ⟨d', hd', hcontent⟩ := Option.map_eq_some_iff.mp hat
    refine ⟨_, _, getElem?_tableOf hd, getElem?_tableOf hd', shown_interfaceOf hcontent ?_⟩
    intro path _
    rw [link?_eq_of_map_content h, Option.map_id, id]

end

/-! ## Files -/

/-- Supertypes keep their written order, and none is lost or invented. The direct supertypes of a
trait of a file are the traits that its bounds mean, in order: those of the supertrait list, then
those of each clause on the bare name `Self`. Bounds of other kinds, bounds that mean no trait of
the file and other clauses add none. So it does not matter which of the two ways a bound is written.
In a second source the last bounds of one trait's supertrait list may stand, in order, in any number
of new clauses on `Self` in front of its other clauses. Then all traits have the supertypes that
they had, and derivations come to the same outline, or both to none, and report the same messages. -/
theorem derive_respelled {source : String} {items : List Item}
    (hitems : Grammar.parseFile? source = some items) :
    ∃ f, TraitFile.load source = .ok f ∧
      (∀ n home t, (placedAll [] items)[n]? = some (home, t) →
        f.traits[n]? = some (.ofItem home t) ∧
          f.catalog.supertypes n = (writtenBounds t).filterMap (boundLink? f.traits home)) ∧
      ∀ k source' items', Grammar.parseFile? source' = some items' →
        Respelled k (Item.unplacedAll items) (Item.unplacedAll items') →
        ∃ f', TraitFile.load source' = .ok f' ∧ f'.traits.length = f.traits.length ∧
          ∀ root, root < f.traits.length →
            f'.catalog.supertypes root = f.catalog.supertypes root ∧
            ∀ settings scheme,
              (f'.derive settings scheme root).1.record.map (·.outline TypeTokens.text) =
                  (f.derive settings scheme root).1.record.map (·.outline TypeTokens.text) ∧
                (f'.derive settings scheme root).1.diagnostics.map (·.message) =
                  (f.derive settings scheme root).1.diagnostics.map (·.message) := by
  have hf := load_eq_ok_iff.mpr ⟨items, hitems, rfl⟩
  refine ⟨_, hf, ?_, ?_⟩
  · intro n home t ht
    refine ⟨?_, supertypes_ofItems_eq ht⟩
    show (traitsOf items)[n]? = _
    rw [traitsOf_eq_map_placed, List.getElem?_map, ht]
    rfl
  · intro k source' items' hitems' h
    have hf' := load_eq_ok_iff.mpr ⟨items', hitems', rfl⟩
    have hcontent : (TraitFile.ofItems items').traits.map TraitEntry.content =
        (TraitFile.ofItems items).traits.map TraitEntry.content := h.map_content
    have hlength := congrArg List.length hcontent
    rw [List.length_map, List.length_map] at hlength
    have hcor := (relocated_of_map_content hcontent).corresponds byText_view "::"
    rw [← catalog_of_load hf, ← catalog_of_load hf'] at hcor
    refine ⟨_, hf', hlength, fun root hroot => ⟨?_, fun settings scheme => ?_⟩⟩
    · have hsupertypes := hcor.supertypes root hroot
      exact hsupertypes.trans (List.map_id _)
    · exact derive_eq_of_corresponds hcor settings scheme hroot

/-- A trait whose bounds lead to one in a module, to itself and, in a clause of its own, to the one in
the module again. -/
def listedSource : String :=
  "mod a \x7b trait Part \x7b fn x(&self) -> u8; \x7d \x7d
  trait Whole: a::Part + 'static + Whole where Self: Part \x7b\x7d"

/-- The same with the last two bounds of the list in clauses. -/
def respelledSource : String :=
  "mod a \x7b trait Part \x7b fn x(&self) -> u8; \x7d \x7d
  trait Whole: a::Part where Self: 'static, Self: Whole, Self: Part \x7b\x7d"

def listedWhole : TraitItem where
  name := ⟨"Whole", isIdentText_whole⟩
  position := ⟨0, 0⟩
  generics := []
  supertraits := [.trait [⟨"a", isIdentText_a⟩, ⟨"Part", isIdentText_part⟩], .other,
    .trait [⟨"Whole", isIdentText_whole⟩]]
  predicates := ownClauses [[.trait [⟨"Part", isIdentText_part⟩]]]
  members := []

theorem parseFile?_listedSource :
    ∃ items, Grammar.parseFile? listedSource = some items ∧
      Item.unplacedAll items = [partModule, .interface listedWhole] ∧
      1 < (traitsOf items).length ∧
      (writtenBounds listedWhole).filterMap (boundLink? (traitsOf items) []) = [0, 1, 0] ∧
      ((TraitFile.ofItems items).derive {} .suffixes 1).1.record.isSome := by
  obtain ⟨items, hitems, h⟩ := (Option.any_eq_true
    (fun items => decide (Item.unplacedAll items = [partModule, .interface listedWhole] ∧
      1 < (traitsOf items).length ∧
      (writtenBounds listedWhole).filterMap (boundLink? (traitsOf items) []) = [0, 1, 0] ∧
      ((TraitFile.ofItems items).derive {} .suffixes 1).1.record.isSome))
    (Grammar.parseFile? listedSource)).mp (by decide +kernel)
  exact ⟨items, hitems, of_decide_eq_true h⟩

theorem parseFile?_respelledSource :
    ∃ items, Grammar.parseFile? respelledSource = some items ∧
      Item.unplacedAll items = [partModule,
        .interface (respell listedWhole 2 [[.other], [.trait [⟨"Whole", isIdentText_whole⟩]]])] :=
  exists_parseFile? _ _ (by decide +kernel)

/-- The trait has its three supertypes and its record however its bounds are written. -/
theorem derive_respelledSource :
    ∃ f f', TraitFile.load listedSource = .ok f ∧ TraitFile.load respelledSource = .ok f' ∧
      f.catalog.supertypes 1 = [0, 1, 0] ∧ f'.catalog.supertypes 1 = [0, 1, 0] ∧
      (f.derive {} .suffixes 1).1.record.isSome ∧
      (f'.derive {} .suffixes 1).1.record.map (·.outline TypeTokens.text) =
        (f.derive {} .suffixes 1).1.record.map (·.outline TypeTokens.text) := by
  obtain ⟨items, hitems, hunplaced, hlength, hlinks, hrecord⟩ := parseFile?_listedSource
  obtain ⟨items', hitems', hunplaced'⟩ := parseFile?_respelledSource
  have hrespelled : Respelled 2 (Item.unplacedAll items) (Item.unplacedAll items') := by
    rw [hunplaced, hunplaced']
    exact .here [partModule] [] listedWhole rfl
  obtain ⟨f, hf, hsupertypes, hsame⟩ := derive_respelled hitems
  obtain ⟨f', hf', -, hderive⟩ := hsame 2 respelledSource items' hitems' hrespelled
  obtain rfl : f = TraitFile.ofItems items :=
    Except.ok.inj (hf.symm.trans (load_eq_ok_iff.mpr ⟨items, hitems, rfl⟩))
  -- the second trait of the file is `listedWhole` but for its position
  have hplaced := placedAll_unplacedAll [] items
  rw [hunplaced] at hplaced
  have hsecond := (congrArg (·[1]?) hplaced).symm
  simp only [List.getElem?_map] at hsecond
  obtain ⟨⟨home, t⟩, ht, hwhole⟩ := Option.map_eq_some_iff.mp hsecond
  obtain ⟨rfl, ht'⟩ := Prod.mk.inj hwhole
  have hbounds : writtenBounds t = writtenBounds listedWhole := by
    rw [← ht']
    rfl
  have hlisted : (TraitFile.ofItems items).catalog.supertypes 1 = [0, 1, 0] := by
    rw [(hsupertypes 1 _ t ht).2, hbounds]
    exact hlinks
  obtain ⟨hkept, hderived⟩ := hderive 1 hlength
  exact ⟨_, f', hf, hf', hlisted, hkept.trans hlisted, hrecord, (hderived {} .suffixes).1⟩

end InterfaceRecord.Trait
