/-
  Where the traits of a file stand. The address of an item is its position among the items around
  it, behind the positions of the inline modules that hold it. `Occurs` says which trait stands at
  which address without going through the items one after another, and just one list holds all
  these traits in the order of their addresses (`inSourceOrder_iff`). `Survey.items_inSourceOrder`:
  in any module and behind anything found before, a survey adds this list, and it ends in the
  module where it began.
-/
import InterfaceRecord.Proofs.Surveying

namespace InterfaceRecord.Trait

open InterfaceRecord.Source

/-! ## Addresses -/

/-- A trait among items. Its address leads to it: the positions of the inline modules around it,
from the outside in, then its own. Its home names these modules. -/
structure Occurrence where
  address : List Nat
  home : List Ident
  item : TraitItem

namespace Occurrence

/-- What stands in a module, seen from the items among which the module has position `n`. -/
def within (n : Nat) (name : Ident) (o : Occurrence) : Occurrence where
  address := n :: o.address
  home := name :: o.home
  item := o.item

/-- The trait's declaration, if the items stand in the module `home`. -/
def entry (home : List Ident) (o : Occurrence) : TraitEntry :=
  .ofItem (home ++ o.home) o.item

end Occurrence

/-- A trait occurs as one of the items, or in an inline module that is one of them. A module in
another file holds no trait here. -/
inductive Occurs : List Item → Occurrence → Prop
  | here {is : List Item} {n : Nat} {t : TraitItem} (h : is[n]? = some (.interface t)) :
    Occurs is ⟨[n], [], t⟩
  | inside {is its : List Item} {n : Nat} {name : Ident} {o : Occurrence}
    (h : is[n]? = some (.inlineModule name its)) (ho : Occurs its o) :
    Occurs is (o.within n name)

/-- All traits among the items and nothing else, in the order of the source: addresses increase,
compared position by position, so that a module's traits come where the module stands. -/
structure InSourceOrder (is : List Item) (os : List Occurrence) : Prop where
  complete : ∀ o, o ∈ os ↔ Occurs is o
  increasing : os.Pairwise (·.address < ·.address)

/-! ## The list of all traits -/

mutual

/-- The traits in an item at position `n`. -/
def occurrencesAt (n : Nat) : Item → List Occurrence
  | .interface t => [⟨[n], [], t⟩]
  | .inlineModule name its => (occurrencesFrom 0 its).map (·.within n name)
  | .fileModule _ => []
  | .other => []

/-- The traits in items of which the first has position `n`. -/
def occurrencesFrom (n : Nat) : List Item → List Occurrence
  | [] => []
  | i :: is => occurrencesAt n i ++ occurrencesFrom (n + 1) is

end

variable {is : List Item} {os : List Occurrence} {o : Occurrence} {n : Nat}

theorem occurrencesFrom_eq_flatMap (n : Nat) (is : List Item) :
    occurrencesFrom n is = (is.zipIdx n).flatMap fun (i, k) => occurrencesAt k i := by
  induction is generalizing n with
  | nil => rfl
  | cons i is ih => rw [occurrencesFrom, ih, List.zipIdx_cons, List.flatMap_cons]

theorem mem_occurrencesFrom :
    o ∈ occurrencesFrom n is ↔ ∃ k i, n ≤ k ∧ is[k - n]? = some i ∧ o ∈ occurrencesAt k i := by
  simp only [occurrencesFrom_eq_flatMap, List.mem_flatMap, Prod.exists,
    List.mem_zipIdx_iff_le_and_getElem?_sub]
  constructor
  · rintro ⟨i, k, ⟨hk, hi⟩, ho⟩
    exact ⟨k, i, hk, hi, ho⟩
  · rintro ⟨k, i, hk, hi, ho⟩
    exact ⟨i, k, ⟨hk, hi⟩, ho⟩

/-- An item is a trait, or it is a module and gives what its items give. -/
theorem mem_occurrencesAt {i : Item} :
    o ∈ occurrencesAt n i ↔
      (∃ t, i = .interface t ∧ o = ⟨[n], [], t⟩) ∨
        ∃ name its p, i = .inlineModule name its ∧ p ∈ occurrencesFrom 0 its ∧
          o = p.within n name := by
  cases i with
  | interface t => simp [occurrencesAt]
  | inlineModule name its =>
    rw [occurrencesAt, List.mem_map]
    constructor
    · rintro ⟨p, hp, rfl⟩
      exact .inr ⟨name, its, p, rfl, hp, rfl⟩
    · rintro (⟨t, ht, -⟩ | ⟨name', its', p, hi, hp, rfl⟩)
      · cases ht
      · cases hi
        exact ⟨p, hp, rfl⟩
  | fileModule name => simp [occurrencesAt]
  | other => simp [occurrencesAt]

theorem exists_address_of_mem_occurrencesAt {i : Item} (h : o ∈ occurrencesAt n i) :
    ∃ inner, o.address = n :: inner := by
  obtain ⟨t, -, rfl⟩ | ⟨name, its, p, -, -, rfl⟩ := mem_occurrencesAt.mp h
  · exact ⟨[], rfl⟩
  · exact ⟨p.address, rfl⟩

/-! ## Nothing but traits, and all of them -/

theorem occurs_of_mem_occurrencesFrom (h : o ∈ occurrencesFrom 0 is) : Occurs is o := by
  -- by the address, which is shorter inside a module
  generalize haddress : o.address = address
  induction address generalizing is o with
  | nil =>
    obtain ⟨k, i, -, -, ho⟩ := mem_occurrencesFrom.mp h
    obtain ⟨inner, hinner⟩ := exists_address_of_mem_occurrencesAt ho
    simp [haddress] at hinner
  | cons first inner ih =>
    obtain ⟨k, i, -, hi, ho⟩ := mem_occurrencesFrom.mp h
    rw [Nat.sub_zero] at hi
    obtain ⟨t, rfl, rfl⟩ | ⟨name, its, p, rfl, hp, rfl⟩ := mem_occurrencesAt.mp ho
    · exact .here hi
    · have hinner : p.address = inner := (List.cons.inj haddress).2
      exact .inside hi (ih hp hinner)

theorem mem_occurrencesFrom_of_occurs (h : Occurs is o) : o ∈ occurrencesFrom 0 is := by
  induction h with
  | here h =>
    exact mem_occurrencesFrom.mpr
      ⟨_, _, Nat.zero_le _, h, mem_occurrencesAt.mpr (.inl ⟨_, rfl, rfl⟩)⟩
  | inside h _ ih =>
    exact mem_occurrencesFrom.mpr
      ⟨_, _, Nat.zero_le _, h, mem_occurrencesAt.mpr (.inr ⟨_, _, _, rfl, ih, rfl⟩)⟩

/-! ## In the order of the source -/

mutual

theorem increasing_occurrencesAt (n : Nat) (i : Item) :
    (occurrencesAt n i).Pairwise (·.address < ·.address) := by
  cases i with
  | interface t =>
    rw [occurrencesAt]
    exact List.pairwise_singleton _ _
  | inlineModule name its =>
    rw [occurrencesAt, List.pairwise_map]
    exact (increasing_occurrencesFrom 0 its).imp fun h => List.cons_lt_cons_iff.mpr (.inr ⟨rfl, h⟩)
  | fileModule name =>
    rw [occurrencesAt]
    exact .nil
  | other =>
    rw [occurrencesAt]
    exact .nil

theorem increasing_occurrencesFrom (n : Nat) (is : List Item) :
    (occurrencesFrom n is).Pairwise (·.address < ·.address) := by
  cases is with
  | nil =>
    rw [occurrencesFrom]
    exact .nil
  | cons i is =>
    rw [occurrencesFrom, List.pairwise_append]
    refine ⟨increasing_occurrencesAt n i, increasing_occurrencesFrom (n + 1) is,
      fun o ho p hp => ?_⟩
    -- two items part at their own positions
    obtain ⟨inner, hinner⟩ := exists_address_of_mem_occurrencesAt ho
    obtain ⟨k, j, hk, -, hpj⟩ := mem_occurrencesFrom.mp hp
    obtain ⟨inner', hinner'⟩ := exists_address_of_mem_occurrencesAt hpj
    rw [hinner, hinner', List.cons_lt_cons_iff]
    exact .inl hk

end

namespace InSourceOrder

theorem nodup (h : InSourceOrder is os) : os.Nodup := by
  refine h.increasing.imp fun {o p} hlt heq => ?_
  rw [heq] at hlt
  exact List.lt_irrefl p.address hlt

/-- What occurs and in which order leaves no choice. -/
theorem unique {os' : List Occurrence} (h : InSourceOrder is os) (h' : InSourceOrder is os') :
    os = os' := by
  have hperm : os.Perm os' := (List.perm_ext_iff_of_nodup h.nodup h'.nodup).mpr fun o =>
    (h.complete o).trans (h'.complete o).symm
  exact hperm.eq_of_pairwise (fun _ _ _ _ hlt hgt => absurd hgt (List.lt_asymm hlt))
    h.increasing h'.increasing

end InSourceOrder

theorem inSourceOrder_occurrencesFrom (is : List Item) :
    InSourceOrder is (occurrencesFrom 0 is) where
  complete := fun _ => ⟨occurs_of_mem_occurrencesFrom, mem_occurrencesFrom_of_occurs⟩
  increasing := increasing_occurrencesFrom 0 is

example (a b : Ident) (t u v : TraitItem) :
    (occurrencesFrom 0 [.interface t, .inlineModule a [.other, .inlineModule b [.interface u]],
      .fileModule b, .interface v]).map (·.address) = [[0], [1, 1, 0], [3]] := rfl

theorem inSourceOrder_iff : InSourceOrder is os ↔ os = occurrencesFrom 0 is := by
  constructor
  · exact fun h => h.unique (inSourceOrder_occurrencesFrom is)
  · rintro rfl
    exact inSourceOrder_occurrencesFrom is

/-! ## Surveys -/

mutual

theorem placed_eq_map (home : List Ident) (n : Nat) (i : Item) :
    placed home i = (occurrencesAt n i).map fun o => (home ++ o.home, o.item) := by
  cases i with
  | interface t => simp [placed, occurrencesAt]
  | inlineModule name its =>
    rw [placed, occurrencesAt, List.map_map, placedAll_eq_map (home ++ [name]) 0 its]
    simp [Occurrence.within, Function.comp_def]
  | fileModule name => simp [placed, occurrencesAt]
  | other => simp [placed, occurrencesAt]

theorem placedAll_eq_map (home : List Ident) (n : Nat) (is : List Item) :
    placedAll home is = (occurrencesFrom n is).map fun o => (home ++ o.home, o.item) := by
  cases is with
  | nil => simp [placedAll, occurrencesFrom]
  | cons i is =>
    rw [placedAll, occurrencesFrom, List.map_append, placed_eq_map home n i,
      placedAll_eq_map home (n + 1) is]

end

/-- A survey adds the declarations of all traits among the items. -/
theorem Survey.found_items (s : Survey) (is : List Item) :
    (s.items is).found = s.found ++ (occurrencesFrom 0 is).map (·.entry s.home) := by
  rw [(s.adds_items is).2, placedAll_eq_map s.home 0 is, List.map_map]
  rfl

/-- A survey is complete and leaves all modules that it enters. Just one list holds the traits among
the items in source order; whatever has been found before and in whatever module the items stand,
their survey adds the declarations of this list behind it and ends in that module. The qualified
name of each joins the names of all modules around the trait and its own. -/
theorem Survey.items_inSourceOrder (s : Survey) (is : List Item) :
    ∃ os : List Occurrence, (∀ os', InSourceOrder is os' ↔ os' = os) ∧
      (s.items is).home = s.home ∧
      (s.items is).found = s.found ++ os.map (·.entry s.home) ∧
      (os.map (·.entry s.home)).map (·.qualifiedName) = os.map fun o =>
        String.intercalate "::" ((s.home ++ o.home ++ [o.item.name]).map (·.text)) := by
  refine ⟨occurrencesFrom 0 is, fun os' => inSourceOrder_iff, (s.adds_items is).1,
    s.found_items is, ?_⟩
  rw [List.map_map]
  rfl

end InterfaceRecord.Trait
