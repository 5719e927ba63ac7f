/-
  Looking a trait up by name, compared with what a supertrait's path means at the root of the file.
  A look-up takes the first declaration of a path and a link the last one, so the two agree exactly
  if the path is declared at most once (`find?_eq_link?_iff`).
-/
import InterfaceRecord.Proofs.Linking

namespace InterfaceRecord.Trait

open InterfaceRecord.Source

variable {traits : List TraitEntry} {path : List Ident} {i j : Nat}

/-- The first trait of the path `segments` is at position `i`. -/
structure IsFirstAt (traits : List TraitEntry) (segments : List Ident) (i : Nat) : Prop where
  here : ∃ d, traits[i]? = some d ∧ d.path = segments
  first : ∀ j d, traits[j]? = some d → d.path = segments → i ≤ j

/-- The path starts with none of the words that lead elsewhere. -/
def IsPlain (path : List Ident) : Prop :=
  ∀ s ∈ path.head?, s.text ≠ "crate" ∧ s.text ≠ "self" ∧ s.text ≠ "super"

instance (path : List Ident) : Decidable (IsPlain path) :=
  inferInstanceAs (Decidable (∀ s ∈ path.head?, _))

/-- What a path of a single name means that no trait has: the only trait of that simple name. -/
def lone? (traits : List TraitEntry) : List Ident → Option Nat
  | [name] => onlyNamed? traits name.text
  | _ => none

/-! ## Look-ups by name -/

theorem findIdx?_joinPath_eq_some_iff :
    traits.findIdx? (·.qualifiedName == joinPath path) = some i ↔ IsFirstAt traits path i := by
  rw [List.findIdx?_eq_some_iff_getElem]
  constructor
  · rintro ⟨hi, hhere, hbefore⟩
    have hpath : traits[i].path = path := qualifiedName_beq_iff.mp hhere
    refine ⟨⟨traits[i], List.getElem?_eq_getElem hi, hpath⟩, fun j d hj hd => ?_⟩
    by_contra hlt
    obtain ⟨hj, rfl⟩ := List.getElem?_eq_some_iff.mp hj
    exact hbefore j (Nat.lt_of_not_le hlt) (qualifiedName_beq_iff.mpr hd)
  · rintro ⟨⟨d, hd, hdpath⟩, hfirst⟩
    obtain ⟨hi, rfl⟩ := List.getElem?_eq_some_iff.mp hd
    refine ⟨hi, qualifiedName_beq_iff.mpr hdpath, fun j hj hname => ?_⟩
    have hat : traits[j]? = some traits[j] := List.getElem?_eq_getElem (hj.trans hi)
    have hle := hfirst j traits[j] hat (qualifiedName_beq_iff.mp hname)
    omega

theorem findIdx?_joinPath_eq_none_iff :
    traits.findIdx? (·.qualifiedName == joinPath path) = none ↔ Absent traits path := by
  rw [List.findIdx?_eq_none_iff]
  refine forall₂_congr fun d _ => ?_
  rw [beq_eq_false_iff_ne, TraitEntry.qualifiedName, ne_eq, joinPath_injective.eq_iff]

/-- A joined path is a simple name only if it has one segment. -/
theorem onlyNamed?_joinPath : onlyNamed? traits (joinPath path) = lone? traits path := by
  have hsingle (name : Ident) : joinPath [name] = name.text := by simp [joinPath]
  unfold lone?
  split
  · rename_i name
    rw [hsingle]
  · rename_i hne
    have hnone : traits.zipIdx.filter (·.1.simpleName == joinPath path) = [] := by
      rw [List.filter_eq_nil_iff]
      intro d _ hname
      rw [beq_iff_eq, TraitEntry.simpleName, ← hsingle] at hname
      exact hne d.1.name (joinPath_injective hname).symm
    rw [onlyNamed?, hnone]

/-- Looking a joined path up finds its first declaration, else the only trait of its name. -/
theorem find?_joinPath (f : TraitFile) (path : List Ident) :
    f.find? (joinPath path) =
      (f.traits.findIdx? (·.qualifiedName == joinPath path)).or (lone? f.traits path) := by
  rw [TraitFile.find?, onlyNamed?_joinPath]

/-- A plain path that is written at the root means its last declaration, else the only trait of
its name. -/
theorem link?_root (hplain : IsPlain path) :
    link? traits [] path = (lastNamed? traits (joinPath path)).or (lone? traits path) := by
  have hhead : ∀ s ∈ path.head?, s.text ≠ "crate" ∧ s.text ≠ "self" :=
    fun s hs => ⟨(hplain s hs).1, (hplain s hs).2.1⟩
  have hsupers : supers path = 0 := supers_eq_zero_iff.mpr fun s hs => (hplain s hs).2.2
  unfold link?
  rw [startOf_of_supers_eq_zero [] hhead hsupers]
  dsimp only
  rw [List.nil_append, Option.or_self]
  rfl

/-! ## Where they agree -/

/-- A path is declared once if its first declaration is its last one. -/
theorem atMostOnce_iff_eq (hi : IsFirstAt traits path i) (hj : IsLastAt traits path j) :
    AtMostOnce traits path ↔ i = j := by
  obtain ⟨d, hd, hdpath⟩ := hi.here
  obtain ⟨e, he, hepath⟩ := hj.here
  constructor
  · intro h
    exact h i j d e hd he hdpath hepath
  · rintro rfl k l d' e' hk hl hdpath' hepath'
    -- both lie between the first and the last
    have hik := hi.first k d' hk hdpath'
    have hki := hj.last k d' hk hdpath'
    have hil := hi.first l e' hl hepath'
    have hli := hj.last l e' hl hepath'
    omega

theorem Absent.atMostOnce (h : Absent traits path) : AtMostOnce traits path :=
  fun _ _ d _ hd _ hpath _ => absurd hpath (h d (List.mem_of_getElem? hd))

/-- The supertypes of a trait at the root of a file. -/
theorem supertypes_of_root {source : String} {f : TraitFile} (h : TraitFile.load source = .ok f)
    {n : Nat} {d : TraitEntry} (hd : f.traits[n]? = some d) (hhome : d.home = []) :
    f.catalog.supertypes n = d.bounds.filterMap (link? f.traits []) := by
  rw [catalog_of_load h]
  show (tableOf f.traits)[n]?.elim [] (·.supertypes) = _
  rw [tableOf, List.getElem?_map, hd, ← hhome]
  rfl

/-- The supertypes of a trait at the root are what its bounds mean there. Looking up the joined
segments of a plain path finds a trait exactly if the path means one. If traits have that path,
the look-up finds the first of them and the bound means the last; otherwise both come to the only
trait of a single name. So they agree exactly if no two traits have that path. -/
theorem find?_eq_link?_iff {source : String} {f : TraitFile} (h : TraitFile.load source = .ok f)
    {path : List Ident} (hplain : IsPlain path) :
    (∀ n d, f.traits[n]? = some d → d.home = [] →
      f.catalog.supertypes n = d.bounds.filterMap (link? f.traits [])) ∧
    (f.find? (joinPath path) = none ↔ link? f.traits [] path = none) ∧
    (∀ i j, f.find? (joinPath path) = some i → link? f.traits [] path = some j →
      IsFirstAt f.traits path i ∧ IsLastAt f.traits path j ∨
        i = j ∧ Absent f.traits path ∧ ∃ name, path = [name] ∧ IsOnlyNamed f.traits name i) ∧
    (f.find? (joinPath path) = link? f.traits [] path ↔ AtMostOnce f.traits path) := by
  refine ⟨fun n d => supertypes_of_root h, ?_⟩
  rw [find?_joinPath, link?_root hplain]
  cases hfirst : f.traits.findIdx? (·.qualifiedName == joinPath path) with
  | none =>
    have habsent : Absent f.traits path := findIdx?_joinPath_eq_none_iff.mp hfirst
    rw [lastNamed?_eq_none_iff.mpr habsent, Option.none_or]
    refine ⟨Iff.rfl, ?_, fun _ => habsent.atMostOnce, fun _ => rfl⟩
    intro i j hi hj
    refine Or.inr ⟨Option.some.inj (hi.symm.trans hj), habsent, ?_⟩
    unfold lone? at hi
    split at hi
    · rename_i name
      exact ⟨name, rfl, onlyNamed?_eq_some_iff.mp hi⟩
    · cases hi
  | some i =>
    have hi : IsFirstAt f.traits path i := findIdx?_joinPath_eq_some_iff.mp hfirst
    cases hlast : lastNamed? f.traits (joinPath path) with
    | none =>
      obtain ⟨d, hd, hpath⟩ := hi.here
      exact absurd hpath (lastNamed?_eq_none_iff.mp hlast d (List.mem_of_getElem? hd))
    | some j =>
      have hj : IsLastAt f.traits path j := lastNamed?_eq_some_iff.mp hlast
      rw [Option.some_or, Option.some_or, atMostOnce_iff_eq hi hj, Option.some.injEq]
      refine ⟨by simp, ?_, Iff.rfl⟩
      rintro i' j' hi' hj'
      rw [Option.some.injEq] at hi' hj'
      subst hi' hj'
      exact Or.inl ⟨hi, hj⟩

/-- A trait in a module, one that stands twice at the root, and one that extends both. -/
def doubledSource : String :=
  "mod m { trait Q { fn z(&self) -> u8; } }
  #[cfg(a)] trait P { fn x(&self) -> u8; }
  #[cfg(b)] trait P { fn y(&self) -> u8; }
  trait C: P + m::Q + Q {}"

/-- The path of the trait in the module. -/
def singlePath : List Ident := [⟨"m", by decide⟩, ⟨"Q", by decide⟩]

/-- The path of the two traits at the root. -/
def doubledPath : List Ident := [⟨"P", by decide⟩]

theorem load_doubledSource :
    ∃ f, TraitFile.load doubledSource = .ok f ∧
      f.find? (joinPath singlePath) = some 0 ∧ link? f.traits [] singlePath = some 0 ∧
      f.find? (joinPath doubledPath) = some 1 ∧ link? f.traits [] doubledPath = some 2 ∧
      f.catalog.supertypes 3 = [2, 0, 0] := by
  obtain ⟨f, hf, h⟩ := exists_load_of_any doubledSource (fun f =>
    decide (f.find? (joinPath singlePath) = some 0 ∧ link? f.traits [] singlePath = some 0 ∧
      f.find? (joinPath doubledPath) = some 1 ∧ link? f.traits [] doubledPath = some 2 ∧
      f.catalog.supertypes 3 = [2, 0, 0])) (by decide +kernel)
  exact ⟨f, hf, of_decide_eq_true h⟩

/-- The path that is declared once is looked up as it is linked, the one that is declared twice is
not. -/
theorem find?_doubledSource :
    ∃ f, TraitFile.load doubledSource = .ok f ∧
      (IsPlain singlePath ∧ AtMostOnce f.traits singlePath) ∧
      (IsPlain doubledPath ∧ ¬ AtMostOnce f.traits doubledPath) := by
  obtain ⟨f, hf, hfind, hlink, hfind', hlink', -⟩ := load_doubledSource
  have hsingle : IsPlain singlePath := by decide
  have hdoubled : IsPlain doubledPath := by decide
  refine ⟨f, hf, ⟨hsingle, ?_⟩, hdoubled, ?_⟩
  · exact (find?_eq_link?_iff hf hsingle).2.2.2.mp (hfind.trans hlink.symm)
  · rw [← (find?_eq_link?_iff hf hdoubled).2.2.2, hfind', hlink']
    decide

/-- A bound on a trait at the root means another trait than the one of its name that is found. -/
theorem find?_ne_link? :
    ∃ f, TraitFile.load doubledSource = .ok f ∧ IsPlain doubledPath ∧
      f.find? (joinPath doubledPath) ≠ link? f.traits [] doubledPath ∧
      f.find? "P" = some 1 ∧ f.catalog.supertypes 3 = [2, 0, 0] := by
  obtain ⟨f, hf, -, -, hfind, hlink, hsupertypes⟩ := load_doubledSource
  refine ⟨f, hf, by decide, ?_, hfind, hsupertypes⟩
  rw [hfind, hlink]
  decide

end InterfaceRecord.Trait
