/-
  Which trait the path of a supertrait means, by segments. The look-ups go by joined paths and by
  simple names; since no two paths are joined to the same text, they find the last trait of a path
  and the only trait of a name (`link?_eq_some_iff`).
-/
import InterfaceRecord.Proofs.JoinedPath
import InterfaceRecord.Proofs.Surveying
import InterfaceRecord.Trait.File
import Mathlib.Data.List.Induction
import Mathlib.Data.List.Nodup

namespace InterfaceRecord.Trait

open InterfaceRecord.Source

/-! ## Look-ups -/

section

variable {α : Type} {p : α → Bool} {xs : List α} {i : Nat}

theorem mem_zipIdx_filter {x : α} :
    (x, i) ∈ xs.zipIdx.filter (p ·.1) ↔ xs[i]? = some x ∧ p x = true := by
  rw [List.mem_filter, List.mk_mem_zipIdx_iff_getElem?]

/-- The last position at which `p` holds. -/
theorem getLast?_zipIdx_filter_eq_some_iff :
    (xs.zipIdx.filter (p ·.1)).getLast?.map (·.2) = some i ↔
      (∃ x, xs[i]? = some x ∧ p x = true) ∧
        ∀ j x, xs[j]? = some x → p x = true → j ≤ i := by
  induction xs using List.reverseRecOn with
  | nil => simp
  | append_singleton xs x ih =>
    have hlt {j : Nat} {y : α} (h : (xs ++ [x])[j]? = some y) : j ≤ xs.length := by
      have := (List.getElem?_eq_some_iff.mp h).1
      rw [List.length_append, List.length_singleton] at this
      omega
    have hlast : (xs ++ [x])[xs.length]? = some x := List.getElem?_concat_length
    have hfront {j : Nat} (h : j < xs.length) : (xs ++ [x])[j]? = xs[j]? :=
      List.getElem?_append_left h
    rw [List.zipIdx_append, List.filter_append, List.zipIdx_singleton, List.filter_singleton]
    cases hp : p x with
    | true =>
      rw [cond_true, List.getLast?_concat, Option.map_some, Option.some.injEq]
      constructor
      · intro h
        have hi : i = xs.length := by rw [← h]; simp
        exact hi ▸ ⟨⟨x, hlast, hp⟩, fun j y hj _ => hlt hj⟩
      · rintro ⟨⟨y, hy, -⟩, hall⟩
        have := hlt hy
        have := hall xs.length x hlast hp
        dsimp only
        omega
    | false =>
      rw [cond_false, List.append_nil, ih]
      constructor
      · rintro ⟨⟨y, hy, hpy⟩, hall⟩
        have hi := (List.getElem?_eq_some_iff.mp hy).1
        refine ⟨⟨y, (hfront hi).trans hy, hpy⟩, fun j z hj hz => ?_⟩
        rcases Nat.lt_or_eq_of_le (hlt hj) with hj' | hj'
        · exact hall j z ((hfront hj').symm.trans hj) hz
        · rw [hj', hlast, Option.some.injEq] at hj
          rw [← hj, hp] at hz
          cases hz
      · rintro ⟨⟨y, hy, hpy⟩, hall⟩
        have hi : i < xs.length := by
          rcases Nat.lt_or_eq_of_le (hlt hy) with hi | hi
          · exact hi
          · rw [hi, hlast, Option.some.injEq] at hy
            rw [← hy, hp] at hpy
            cases hpy
        refine ⟨⟨y, (hfront hi).symm.trans hy, hpy⟩, fun j z hj hz => ?_⟩
        exact hall j z ((hfront (List.getElem?_eq_some_iff.mp hj).1).trans hj) hz

/-- The only position at which `p` holds. -/
theorem zipIdx_filter_eq_singleton_iff :
    (∃ x, xs.zipIdx.filter (p ·.1) = [(x, i)]) ↔
      (∃ x, xs[i]? = some x ∧ p x = true) ∧
        ∀ j x, xs[j]? = some x → p x = true → j = i := by
  constructor
  · rintro ⟨x, hx⟩
    have hmem {j : Nat} {y : α} : xs[j]? = some y ∧ p y = true ↔ (y, j) = (x, i) := by
      rw [← mem_zipIdx_filter, hx, List.mem_singleton]
    exact ⟨⟨x, hmem.mpr rfl⟩, fun j y hj hy => congrArg Prod.snd (hmem.mp ⟨hj, hy⟩)⟩
  · rintro ⟨⟨x, hx, hpx⟩, hall⟩
    refine ⟨x, ?_⟩
    have hnodup : (xs.zipIdx.filter (p ·.1)).Nodup := by
      have hindices : (xs.zipIdx.map Prod.snd).Nodup := by
        rw [List.zipIdx_map_snd]
        exact List.nodup_range'
      exact (List.Nodup.of_map Prod.snd hindices).filter _
    -- Whatever is chosen is at `i`, and there is `x`.
    have hsame : ∀ e ∈ xs.zipIdx.filter (p ·.1), e = (x, i) := by
      rintro ⟨y, j⟩ he
      obtain ⟨hj, hy⟩ := mem_zipIdx_filter.mp he
      obtain rfl := hall j y hj hy
      rw [hx, Option.some.injEq] at hj
      rw [hj]
    have hmem : (x, i) ∈ xs.zipIdx.filter (p ·.1) := mem_zipIdx_filter.mpr ⟨hx, hpx⟩
    rw [List.eq_replicate_of_mem hsame] at hnodup hmem ⊢
    have hone := List.nodup_replicate.mp hnodup
    have hpos := (List.mem_replicate.mp hmem).1
    rw [show (xs.zipIdx.filter (p ·.1)).length = 1 by omega]
    rfl

end

variable {traits : List TraitEntry}

/-- The last trait of the path `segments` is at position `i`. -/
structure IsLastAt (traits : List TraitEntry) (segments : List Ident) (i : Nat) : Prop where
  here : ∃ d, traits[i]? = some d ∧ d.path = segments
  last : ∀ j d, traits[j]? = some d → d.path = segments → j ≤ i

/-- The only trait of the simple name `name` is at position `i`. -/
structure IsOnlyNamed (traits : List TraitEntry) (name : Ident) (i : Nat) : Prop where
  here : ∃ d, traits[i]? = some d ∧ d.name = name
  only : ∀ j d, traits[j]? = some d → d.name = name → j = i

/-- No trait has the path `segments`. -/
def Absent (traits : List TraitEntry) (segments : List Ident) : Prop :=
  ∀ d ∈ traits, d.path ≠ segments

/-- No two traits have the path `segments`. -/
def AtMostOnce (traits : List TraitEntry) (segments : List Ident) : Prop :=
  ∀ (i j : Nat) (d e : TraitEntry), traits[i]? = some d → traits[j]? = some e →
    d.path = segments → e.path = segments → i = j

theorem qualifiedName_beq_iff {d : TraitEntry} {segments : List Ident} :
    (d.qualifiedName == joinPath segments) = true ↔ d.path = segments := by
  rw [beq_iff_eq, TraitEntry.qualifiedName, joinPath_injective.eq_iff]

/-- A look-up by a joined path is one by segments. -/
theorem lastNamed?_eq_some_iff {segments : List Ident} {i : Nat} :
    lastNamed? traits (joinPath segments) = some i ↔ IsLastAt traits segments i := by
  rw [lastNamed?, getLast?_zipIdx_filter_eq_some_iff
    (p := fun d : TraitEntry => d.qualifiedName == joinPath segments)]
  simp only [qualifiedName_beq_iff]
  exact ⟨fun h => ⟨h.1, h.2⟩, fun h => ⟨h.here, h.last⟩⟩

theorem lastNamed?_eq_none_iff {segments : List Ident} :
    lastNamed? traits (joinPath segments) = none ↔ Absent traits segments := by
  rw [lastNamed?, Option.map_eq_none_iff, List.getLast?_eq_none_iff, List.filter_eq_nil_iff]
  constructor
  · intro h d hd hpath
    obtain ⟨i, hi⟩ := List.mem_iff_getElem?.mp hd
    apply h (d, i) (List.mk_mem_zipIdx_iff_getElem?.mpr hi)
    rw [beq_iff_eq, TraitEntry.qualifiedName, hpath]
  · rintro h ⟨d, i⟩ hd hname
    rw [beq_iff_eq] at hname
    exact h d (List.mem_of_getElem? (List.mk_mem_zipIdx_iff_getElem?.mp hd))
      (joinPath_injective hname)

theorem onlyNamed?_eq_some_iff {name : Ident} {i : Nat} :
    onlyNamed? traits name.text = some i ↔ IsOnlyNamed traits name i := by
  have hname (d : TraitEntry) : (d.simpleName == name.text) = true ↔ d.name = name := by
    rw [beq_iff_eq, TraitEntry.simpleName]
    exact Ident.text_injective.eq_iff
  have hone : onlyNamed? traits name.text = some i ↔
      ∃ d, traits.zipIdx.filter (·.1.simpleName == name.text) = [(d, i)] := by
    rw [onlyNamed?]
    split
    · rename_i d j h
      rw [h]
      simp
    · rename_i h
      constructor
      · intro h'
        cases h'
      · rintro ⟨d, hd⟩
        exact absurd hd (h d i)
  rw [hone, zipIdx_filter_eq_singleton_iff (p := fun d : TraitEntry => d.simpleName == name.text)]
  simp only [hname]
  exact ⟨fun h => ⟨h.1, h.2⟩, fun h => ⟨h.here, h.only⟩⟩

/-! ## Where a path leads from -/

/-- How many words `super` a path starts with. -/
def supers (path : List Ident) : Nat :=
  (path.takeWhile (·.text == "super")).length

/-- The module from which a path leads that is written in the module `home`, and the segments it
leads through: `crate` is the root, `self` is `home`, and each leading `super` goes up one module
from there, as far as there are any. -/
def anchor (home : List Ident) : List Ident → List Ident × List Ident
  | [] => (home, [])
  | i :: path =>
    if i.text = "crate" then ([], path)
    else if i.text = "self" then (home, path)
    else (home.take (home.length - supers (i :: path)), (i :: path).drop (supers (i :: path)))

theorem dropSupers_eq (home path : List Ident) :
    dropSupers home path = (home.take (home.length - supers path), path.drop (supers path)) := by
  induction path generalizing home with
  | nil => simp [dropSupers, supers]
  | cons i path ih =>
    rw [dropSupers]
    split
    · rename_i h
      have hs : supers (i :: path) = supers path + 1 := by simp [supers, h]
      rw [ih, hs, List.drop_succ_cons, List.length_dropLast, List.dropLast_eq_take,
        List.take_take]
      congr 2
      omega
    · rename_i h
      have hs : supers (i :: path) = 0 := by simp [supers, h]
      rw [hs, Nat.sub_zero, List.take_length, List.drop_zero]

theorem startOf_eq_anchor (home path : List Ident) : startOf home path = anchor home path := by
  cases path with
  | nil => rfl
  | cons i path =>
    rw [startOf, anchor, dropSupers_eq]
    simp only [beq_iff_eq]

theorem supers_eq_zero_iff {path : List Ident} :
    supers path = 0 ↔ ∀ i ∈ path.head?, i.text ≠ "super" := by
  cases path with
  | nil => simp [supers]
  | cons i path => by_cases h : i.text = "super" <;> simp [supers, h]

/-- A path that goes neither up nor to the root is taken as it stands. -/
theorem startOf_of_supers_eq_zero {path : List Ident} (home : List Ident)
    (hhead : ∀ i ∈ path.head?, i.text ≠ "crate" ∧ i.text ≠ "self") (h : supers path = 0) :
    startOf home path = (home, path) := by
  rw [startOf_eq_anchor]
  cases path with
  | nil => rfl
  | cons i path =>
    obtain ⟨hcrate, hself⟩ := hhead i rfl
    rw [anchor, if_neg hcrate, if_neg hself, h, Nat.sub_zero, List.take_length, List.drop_zero]

/-! ## What a path means -/

/-- A path that is written in the module `home` means the trait at `i`: the last one of the path
it leads to, where there is none the last one of that path from the root, and where a single name
leads to none the only one of that name. -/
inductive Means (traits : List TraitEntry) (home path : List Ident) (i : Nat) : Prop
  | near (h : IsLastAt traits ((anchor home path).1 ++ (anchor home path).2) i)
  | rooted (hnear : Absent traits ((anchor home path).1 ++ (anchor home path).2))
      (h : IsLastAt traits (anchor home path).2 i)
  | lone (hnear : Absent traits ((anchor home path).1 ++ (anchor home path).2))
      (hroot : Absent traits (anchor home path).2) {name : Ident} (hpath : path = [name])
      (h : IsOnlyNamed traits name i)

theorem IsLastAt.not_absent {segments : List Ident} {i : Nat} (h : IsLastAt traits segments i) :
    ¬ Absent traits segments := by
  obtain ⟨d, hd, hpath⟩ := h.here
  exact fun ha => ha d (List.mem_of_getElem? hd) hpath

theorem link?_eq_some_iff {home path : List Ident} {i : Nat} :
    link? traits home path = some i ↔ Means traits home path i := by
  unfold link?
  rw [startOf_eq_anchor]
  generalize h : anchor home path = start
  obtain ⟨base, rest⟩ := start
  dsimp only
  cases hnear : lastNamed? traits (joinPath (base ++ rest)) with
  | some j =>
    have hj := lastNamed?_eq_some_iff.mp hnear
    rw [Option.some_or, Option.some_or, ← hnear, lastNamed?_eq_some_iff]
    constructor
    · intro hi
      exact .near (by rwa [h])
    · rintro (hi | ⟨ha, -⟩ | ⟨ha, -, -, -⟩)
      · rwa [h] at hi
      · rw [h] at ha
        exact absurd ha hj.not_absent
      · rw [h] at ha
        exact absurd ha hj.not_absent
  | none =>
    have hn := lastNamed?_eq_none_iff.mp hnear
    rw [Option.none_or]
    cases hroot : lastNamed? traits (joinPath rest) with
    | some j =>
      have hj := lastNamed?_eq_some_iff.mp hroot
      rw [Option.some_or, ← hroot, lastNamed?_eq_some_iff]
      constructor
      · intro hi
        exact .rooted (by rwa [h]) (by rwa [h])
      · rintro (hi | ⟨-, hi⟩ | ⟨-, ha, -, -⟩)
        · rw [h] at hi
          exact absurd hn hi.not_absent
        · rwa [h] at hi
        · rw [h] at ha
          exact absurd ha hj.not_absent
    | none =>
      have hr := lastNamed?_eq_none_iff.mp hroot
      rw [Option.none_or]
      constructor
      · intro hi
        split at hi
        · exact .lone (by rwa [h]) (by rwa [h]) rfl (onlyNamed?_eq_some_iff.mp hi)
        · cases hi
      · rintro (hi | ⟨-, hi⟩ | ⟨-, -, rfl, hi⟩)
        · rw [h] at hi
          exact absurd hn hi.not_absent
        · rw [h] at hi
          exact absurd hr hi.not_absent
        · exact onlyNamed?_eq_some_iff.mpr hi

/-! ## Files -/

/-- What is loaded answers by its traits alone. -/
theorem catalog_of_load {source : String} {f : TraitFile} (h : TraitFile.load source = .ok f) :
    f.catalog = (tableOf f.traits).catalog TypeTokens.view "::" := by
  obtain ⟨items, -, rfl⟩ := load_eq_ok_iff.mp h
  rfl

/-- The direct supertypes of a file's traits by their places in the source. -/
theorem supertypes_ofItems {items : List Item} {n : Nat} {home : List Ident} {t : TraitItem}
    (h : (placedAll [] items)[n]? = some (home, t)) :
    (TraitFile.ofItems items).catalog.supertypes n =
      (boundPaths t).filterMap (link? (traitsOf items) home) := by
  have hd : (traitsOf items)[n]? = some (.ofItem home t) := by
    rw [traitsOf_eq_map_placed, List.getElem?_map, h]
    rfl
  have hi : (tableOf (traitsOf items))[n]? =
      some (interfaceOf (traitsOf items) (.ofItem home t)) := by
    rw [tableOf, List.getElem?_map, hd]
    rfl
  change (tableOf (traitsOf items))[n]?.elim [] (·.supertypes) = _
  rw [hi]
  rfl

/-- Supertraits are resolved by segments. The direct supertypes of a trait that stands in the
module `home` are what the paths of its bounds mean there, in order and without those that mean no
trait of the file; a path means what `Means` says and nothing else. No two paths are confused by
being joined, and a path of more than one segment never means a trait by its simple name alone. -/
theorem supertypes_iff_means (items : List Item) :
    (∀ n home t, (placedAll [] items)[n]? = some (home, t) →
      (TraitFile.ofItems items).catalog.supertypes n =
        (boundPaths t).filterMap (link? (traitsOf items) home)) ∧
    (∀ home path i, link? (traitsOf items) home path = some i ↔
      Means (traitsOf items) home path i) ∧
    Function.Injective joinPath ∧
    (∀ home path i, 2 ≤ path.length → link? (traitsOf items) home path = some i →
      IsLastAt (traitsOf items) ((anchor home path).1 ++ (anchor home path).2) i ∨
        IsLastAt (traitsOf items) (anchor home path).2 i) := by
  refine ⟨fun n home t h => supertypes_ofItems h, fun home path i => link?_eq_some_iff,
    joinPath_injective, fun home path i hlen hi => ?_⟩
  rcases link?_eq_some_iff.mp hi with h | ⟨-, h⟩ | ⟨-, -, rfl, -⟩
  · exact Or.inl h
  · exact Or.inr h
  · rw [List.length_singleton] at hlen
    omega

end InterfaceRecord.Trait
