/-
  Handles that were handed out stay good. A graph is put together call by call, with questions and
  derivations in between, and a file is loaded and then asked (`Graph.Use`, `TraitFile.Use`). All
  that is handed out on the way can be used for ever (`handles_usable`). Graphs grow meanwhile, and
  files do not change.
-/
import InterfaceRecord.Proofs.Handles
import InterfaceRecord.Proofs.SourceOrder
import InterfaceRecord.Proofs.Surveying
import Mathlib.Logic.Relation

namespace InterfaceRecord

open Relation

/-! ## Graphs -/

namespace Graph

def tabled : Graph.keeper.Tabled where
  table := Graph.interfaces
  types := NamedType.view
  separator := Graph.separator
  catalog_eq _ := rfl
  table_derive _ _ _ _ := rfl
  table_drain _ := rfl

/-- One call for a graph, with handles that are held. -/
inductive Use : Holding Graph → Holding Graph → Prop
  | query {a b : Holding Graph} (h : Graph.keeper.Query a b) : Use a b
  | declare {a : Holding Graph} (name : String) :
    Use a { a with
      kept := (a.kept.declare name).1
      interfaces := a.interfaces ++ [(a.kept.declare name).2] }
  | addTypeParameter {a : Holding Graph} {i : Nat} (hi : i ∈ a.interfaces) (type : NamedType) :
    Use a { a with kept := a.kept.addTypeParameter i type }
  | extend {a : Holding Graph} {i parent : Nat} (hi : i ∈ a.interfaces)
    (hparent : parent ∈ a.interfaces) : Use a { a with kept := a.kept.extend i parent }
  | addMethod {a : Holding Graph} {i : Nat} (hi : i ∈ a.interfaces)
    (m : MethodEntry NamedType Unit) :
    Use a { a with
      kept := (a.kept.addMethod i m).1
      methods := a.methods ++ [(a.kept.addMethod i m).2] }
  | addAccessor {a : Holding Graph} {i : Nat} (hi : i ∈ a.interfaces) (name : String)
    (type : NamedType) :
    Use a { a with
      kept := (a.kept.addAccessor i name type).1
      methods := a.methods ++ [(a.kept.addAccessor i name type).2] }
  | addConstant {a : Holding Graph} {i : Nat} (hi : i ∈ a.interfaces) (name : String)
    (type : NamedType) : Use a { a with kept := a.kept.addConstant i name type }

variable {a b : Holding Graph}

/-- An interface may be changed where it is, as long as it loses no method and its supertypes stay
in the table. -/
theorem sound_modify (ha : tabled.Sound a) {g : Graph} {i : Nat}
    {f : InterfaceEntry NamedType GraphSite → InterfaceEntry NamedType GraphSite}
    (hg : g.interfaces = a.kept.interfaces.modify i f)
    (hmethods : ∀ d, d.methods.length ≤ (f d).methods.length)
    (hsupertypes : ∀ d, ∀ p ∈ (f d).supertypes, p ∈ d.supertypes ∨ p < a.kept.interfaces.length) :
    tabled.Sound { a with kept := g } := by
  refine ha.of_grows ?_ ?_ (fun j hj => Or.inl hj) fun m hm => Or.inl hm
  · show Table.Closed g.interfaces
    rw [hg]
    exact ha.closed.modify hsupertypes
  · show Table.Grows _ g.interfaces
    rw [hg]
    exact Table.grows_modify _ i hmethods

/-- A new method is declared where its handle says. -/
theorem sound_addMethod (ha : tabled.Sound a) {i : Nat} (hi : i ∈ a.interfaces)
    (m : MethodEntry NamedType Unit) :
    tabled.Sound { a with
      kept := (a.kept.addMethod i m).1
      methods := a.methods ++ [(a.kept.addMethod i m).2] } := by
  have hkept : tabled.Sound { a with kept := (a.kept.addMethod i m).1 } := by
    refine sound_modify ha rfl (fun d => ?_) fun d p hp => Or.inl hp
    rw [List.length_append]
    exact Nat.le_add_right _ _
  refine hkept.of_grows hkept.closed (Table.grows_refl _) (fun j hj => Or.inl hj) fun k hk => ?_
  refine (List.mem_append.mp hk).imp_right fun hk => ?_
  rw [List.mem_singleton.mp hk]
  have hlt : i < a.kept.interfaces.length := ha.interfaces i hi
  have hd : a.kept.interfaces[i]? = some a.kept.interfaces[i] := List.getElem?_eq_getElem hlt
  refine ⟨{ a.kept.interfaces[i] with
    methods := a.kept.interfaces[i].methods ++
      [{ m with site := .method (a.kept.qualifiedName i) m.name }] }, ?_, ?_⟩
  · show (a.kept.interfaces.modify i _)[i]? = _
    rw [List.getElem?_modify_eq, hd]
    rfl
  · show a.kept.interfaces[i]?.elim 0 (·.methods.length) < _
    rw [hd, Option.elim_some, List.length_append]
    exact Nat.lt_succ_self _

/-- A call for a graph hands out the handles of positions. -/
theorem Use.sound (h : Use a b) (ha : tabled.Sound a) : tabled.Sound b := by
  cases h with
  | query h => exact ha.query h
  | declare name =>
    refine ha.of_grows (ha.closed.concat rfl) (Table.grows_concat _ _) (fun j hj => ?_)
      fun m hm => Or.inl hm
    refine (List.mem_append.mp hj).imp_right fun hj => ?_
    rw [List.mem_singleton.mp hj]
    show a.kept.interfaces.length < (a.kept.interfaces ++ [_]).length
    rw [List.length_append]
    exact Nat.lt_succ_self _
  | addTypeParameter =>
    exact sound_modify ha rfl (fun d => Nat.le_refl _) fun d p hp => Or.inl hp
  | extend hi hparent =>
    refine sound_modify ha rfl (fun d => Nat.le_refl _) fun d p hp => ?_
    refine (List.mem_append.mp hp).imp_right fun hp => ?_
    rw [List.mem_singleton.mp hp]
    exact ha.interfaces _ hparent
  | addMethod hi m => exact sound_addMethod ha hi m
  | addAccessor hi name type => exact sound_addMethod ha hi _
  | addConstant => exact sound_modify ha rfl (fun d => Nat.le_refl _) fun d p hp => Or.inl hp

theorem Use.within (h : Use a b) : a.Within b := by
  cases h with
  | query h => exact h.within
  | declare => exact ⟨List.subset_append_left _ _, List.Subset.refl _⟩
  | addTypeParameter => exact ⟨List.Subset.refl _, List.Subset.refl _⟩
  | extend => exact ⟨List.Subset.refl _, List.Subset.refl _⟩
  | addMethod => exact ⟨List.Subset.refl _, List.subset_append_left _ _⟩
  | addAccessor => exact ⟨List.Subset.refl _, List.subset_append_left _ _⟩
  | addConstant => exact ⟨List.Subset.refl _, List.Subset.refl _⟩

/-- A graph that was put together call by call. -/
theorem sound_of_reflTransGen (h : ReflTransGen Use ⟨{}, [], []⟩ a) : tabled.Sound a := by
  induction h with
  | refl =>
    exact ⟨fun d hd => absurd hd List.not_mem_nil, fun i hi => absurd hi List.not_mem_nil,
      fun m hm => absurd hm List.not_mem_nil⟩
  | tail _ hab ih => exact hab.sound ih

end Graph

/-! ## Files -/

namespace Trait

/-- The only trait of a name is one of the traits. -/
theorem lt_length_of_onlyNamed? {traits : List TraitEntry} {name : String} {i : Nat}
    (h : onlyNamed? traits name = some i) : i < traits.length := by
  rw [onlyNamed?] at h
  split at h
  · rename_i d j hone
    cases h
    have hmem : (d, i) ∈ traits.zipIdx.filter (·.1.simpleName == name) := by
      rw [hone]
      exact List.mem_singleton_self _
    have hd := (mem_zipIdx_filter (p := fun d : TraitEntry => d.simpleName == name)).mp hmem
    exact (List.getElem?_eq_some_iff.mp hd.1).1
  · cases h

namespace TraitFile

theorem lt_length_of_find? {f : TraitFile} {name : String} {i : Nat} (h : f.find? name = some i) :
    i < f.traits.length := by
  rw [find?, Option.or_eq_some_iff] at h
  rcases h with h | ⟨-, h⟩
  · exact (List.findIdx?_eq_some_iff_getElem.mp h).1
  · exact lt_length_of_onlyNamed? h

def tabled : TraitFile.keeper.Tabled where
  table := TraitFile.interfaces
  types := TypeTokens.view
  separator := "::"
  catalog_eq _ := rfl
  table_derive _ _ _ _ := rfl
  table_drain _ := rfl

/-- The traits of some file: of one that is already read, of a source text, or of a path. -/
inductive Loaded (f : TraitFile) : Prop
  | items (items : List Source.Item) (h : f = ofItems items)
  | source (source : String) (h : load source = .ok f)
  | path (folder : Source.Folder) (path : String) (h : loadPath folder path = .ok f)

/-- One call for a file, with handles that are held. -/
inductive Use : Holding TraitFile → Holding TraitFile → Prop
  | query {a b : Holding TraitFile} (h : TraitFile.keeper.Query a b) : Use a b
  | find {a : Holding TraitFile} {name : String} {i : Nat} (hfind : a.kept.find? name = some i) :
    Use a { a with interfaces := a.interfaces ++ [i] }
  /-- All traits in source order. -/
  | traits {a : Holding TraitFile} :
    Use a { a with interfaces := a.interfaces ++ List.range a.kept.traits.length }

variable {a b : Holding TraitFile} {f : TraitFile}

/-- The handles are those of positions, and the positions those of the traits. -/
structure Sound (a : Holding TraitFile) : Prop where
  handles : tabled.Sound a
  length : a.kept.interfaces.length = a.kept.traits.length

/-- A loaded file comes from items. -/
theorem Loaded.exists_items (h : f.Loaded) : ∃ items, f = ofItems items := by
  cases h with
  | items items h => exact ⟨items, h⟩
  | source source h =>
    obtain ⟨items, -, h⟩ := load_eq_ok_iff.mp h
    exact ⟨items, h⟩
  | path folder path h =>
    rw [loadPath] at h
    split at h
    · obtain ⟨items, -, h⟩ := load_eq_ok_iff.mp h
      exact ⟨items, h⟩
    · cases h

/-- However a file was loaded, its links stay in it. -/
theorem Loaded.sound (h : f.Loaded) : Sound ⟨f, [], []⟩ := by
  obtain ⟨items, rfl⟩ := h.exists_items
  refine ⟨⟨fun d hd p hp => ?_, fun i hi => absurd hi List.not_mem_nil,
    fun m hm => absurd hm List.not_mem_nil⟩, List.length_map _⟩
  show p < (tableOf (traitsOf items)).length
  rw [tableOf, List.length_map]
  exact lt_length_of_mem_supertypes hd hp

/-- A call for a file hands out the handles of positions. -/
theorem Use.sound (h : Use a b) (ha : Sound a) : Sound b := by
  have hadd {is : List Nat} (his : ∀ i ∈ is, i < a.kept.traits.length) :
      Sound { a with interfaces := a.interfaces ++ is } := by
    refine ⟨ha.handles.of_grows ha.handles.closed (Table.grows_refl _) (fun j hj => ?_)
      fun m hm => Or.inl hm, ha.length⟩
    refine (List.mem_append.mp hj).imp_right fun hj => ?_
    exact Nat.lt_of_lt_of_eq (his j hj) ha.length.symm
  cases h with
  | query h =>
    refine ⟨ha.handles.query h, ?_⟩
    cases h with
    | supertypes => exact ha.length
    | methods => exact ha.length
    | owner => exact ha.length
    | derive => exact ha.length
    | drain => exact ha.length
  | find hfind =>
    refine hadd fun i hi => ?_
    rw [List.mem_singleton.mp hi]
    exact lt_length_of_find? hfind
  | traits => exact hadd fun i hi => List.mem_range.mp hi

theorem Use.within (h : Use a b) : a.Within b := by
  cases h with
  | query h => exact h.within
  | find => exact ⟨List.subset_append_left _ _, List.Subset.refl _⟩
  | traits => exact ⟨List.subset_append_left _ _, List.Subset.refl _⟩

/-- A file that was loaded and asked. -/
theorem sound_of_reflTransGen (hf : f.Loaded) (h : ReflTransGen Use ⟨f, [], []⟩ a) : Sound a := by
  induction h with
  | refl => exact hf.sound
  | tail _ hab ih => exact hab.sound ih

end TraitFile

end Trait

/-! ## Histories -/

/-- What was handed out is held in the end. -/
theorem Holding.within_of_reflTransGen {K : Type} {use : Holding K → Holding K → Prop}
    (huse : ∀ a b, use a b → a.Within b) {a b : Holding K} (h : ReflTransGen use a b) :
    a.Within b := by
  induction h with
  | refl => exact ⟨List.Subset.refl _, List.Subset.refl _⟩
  | tail _ hbc ih =>
    have hstep := huse _ _ hbc
    exact ⟨List.Subset.trans ih.interfaces hstep.interfaces,
      List.Subset.trans ih.methods hstep.methods⟩

/-- Handles stay good for ever. Take a graph that was put together by any calls, or a file that was
loaded in any way, with any questions and derivations in between, and all handles that were handed
out until some time. At any later time these are the handles of positions, and whatever is asked,
decided, traversed or derived with handles of positions is made of what stands at positions. -/
theorem handles_usable :
    (∀ a b : Holding Graph, ReflTransGen Graph.Use ⟨{}, [], []⟩ a → ReflTransGen Graph.Use a b →
      Graph.tabled.Usable a b) ∧
    ∀ (f : Trait.TraitFile) (a b : Holding Trait.TraitFile), f.Loaded →
      ReflTransGen Trait.TraitFile.Use ⟨f, [], []⟩ a → ReflTransGen Trait.TraitFile.Use a b →
      Trait.TraitFile.tabled.Usable a b := by
  constructor
  · intro a b ha hab
    have hb := Graph.sound_of_reflTransGen (ha.trans hab)
    exact hb.usable (Holding.within_of_reflTransGen (fun _ _ h => h.within) hab)
  · intro f a b hf ha hab
    have hb := Trait.TraitFile.sound_of_reflTransGen hf (ha.trans hab)
    exact hb.handles.usable (Holding.within_of_reflTransGen (fun _ _ h => h.within) hab)

/-- A graph of one interface with one method. -/
def Graph.begun : Graph :=
  ((({} : Graph).declare "h::Base").1.addAccessor 0 "id" ⟨"int"⟩).1

/-- A trait whose supertrait stands in a module below. -/
def Trait.handledSource : String :=
  "trait Whole: m::Part { fn id(&self) -> u8; }
  mod m { trait Part { fn tag(&self) -> u8; } }"

/-- A graph that grows around its first interface, until that is in a cycle, and a file of which the
record of a supertrait is derived. -/
theorem handles_usable_grown :
    (∃ b : Holding Graph, ReflTransGen Graph.Use ⟨{}, [], []⟩ ⟨Graph.begun, [0], [⟨0, 0⟩]⟩ ∧
      ReflTransGen Graph.Use ⟨Graph.begun, [0], [⟨0, 0⟩]⟩ b ∧
      b.interfaces = [0, 1, 0] ∧ b.methods = [⟨0, 0⟩, ⟨0, 0⟩, ⟨1, 0⟩] ∧
      b.kept.interfaces.map (·.supertypes) = [[1], [0]] ∧
      Graph.tabled.Usable ⟨Graph.begun, [0], [⟨0, 0⟩]⟩ b) ∧
    ∃ (f : Trait.TraitFile) (b : Holding Trait.TraitFile),
      Trait.TraitFile.load Trait.handledSource = .ok f ∧
      ReflTransGen Trait.TraitFile.Use ⟨f, [], []⟩ ⟨f, [0, 1], []⟩ ∧
      ReflTransGen Trait.TraitFile.Use ⟨f, [0, 1], []⟩ b ∧ b.methods = [⟨1, 0⟩] ∧
      Trait.TraitFile.tabled.Usable ⟨f, [0, 1], []⟩ b := by
  obtain ⟨hgraphs, hfiles⟩ := handles_usable
  constructor
  · have ha : ReflTransGen Graph.Use ⟨{}, [], []⟩ ⟨Graph.begun, [0], [⟨0, 0⟩]⟩ :=
      .tail (.tail .refl (.declare "h::Base")) (.addAccessor (List.mem_singleton_self 0) "id" ⟨"int"⟩)
    have hab := ReflTransGen.refl (r := Graph.Use) (a := ⟨Graph.begun, [0], [⟨0, 0⟩]⟩)
      |>.tail (.query (.derive {} .suffixes (List.mem_singleton_self 0)))
      |>.tail (.declare "h::Top")
      |>.tail (.extend (show 1 ∈ [0, 1] by decide) (show 0 ∈ [0, 1] by decide))
      |>.tail (.extend (show 0 ∈ [0, 1] by decide) (show 1 ∈ [0, 1] by decide))
      |>.tail (.addMethod (show 1 ∈ [0, 1] by decide)
        { name := "tag", returnType := ⟨"int"⟩, site := () })
      |>.tail (.query (.supertypes (show 1 ∈ [0, 1] by decide)))
    exact ⟨_, ha, hab, by decide, by decide, by decide, hgraphs _ _ ha hab⟩
  · obtain ⟨f, hf, htest⟩ := Trait.exists_load_of_any Trait.handledSource
      (fun f => decide (f.find? "Whole" = some 0 ∧ f.catalog.supertypes 0 = [1] ∧
        ((f.derive {} .suffixes 1).1.record.elim [] fun r => r.components.map (·.origin)) =
          [⟨1, 0⟩])) (by decide +kernel)
    obtain ⟨hfind, hsupertypes, hmethods⟩ := of_decide_eq_true htest
    have hquery : Trait.TraitFile.keeper.Query ⟨f, [0], []⟩
        ⟨f, [0] ++ f.catalog.supertypes 0, []⟩ := .supertypes (List.mem_singleton_self 0)
    rw [hsupertypes] at hquery
    have ha : ReflTransGen Trait.TraitFile.Use ⟨f, [], []⟩ ⟨f, [0, 1], []⟩ :=
      .tail (.tail .refl (.find hfind)) (.query hquery)
    have hab := ReflTransGen.refl (r := Trait.TraitFile.Use) (a := ⟨f, [0, 1], []⟩)
      |>.tail (.query (.derive {} .suffixes (show 1 ∈ [0, 1] by decide)))
    exact ⟨f, _, hf, ha, hab, hmethods, hfiles f _ _ (.source _ hf) ha hab⟩

end InterfaceRecord
