/-
  Paths that lead from the own module by a leading `self`. In front of a path that goes down the
  word changes nothing, in front of one that goes up it leads nowhere: the words `super` behind it
  are looked up like names, and no trait or module has such a name (`link?_self_cons`).
-/
import InterfaceRecord.Proofs.ItemNames
import InterfaceRecord.Proofs.Linking

namespace InterfaceRecord.Trait

open InterfaceRecord.Source
open InterfaceRecord.Source.Grammar

/-- No trait of a file is found by segments of which one is `super`. -/
theorem lastNamed?_eq_none_of_super {source : String} {f : TraitFile}
    (h : TraitFile.load source = .ok f) (segments : List Ident)
    (hs : ∃ s ∈ segments, s.text = "super") :
    lastNamed? f.traits (joinPath segments) = none := by
  obtain ⟨items, hitems, rfl⟩ := load_eq_ok_iff.mp h
  obtain ⟨s, hs, htext⟩ := hs
  rw [lastNamed?_eq_none_iff]
  rintro d hd rfl
  exact (forall_mem_path_of_named (named_of_parseFile? hitems) hd s hs).text_ne_super htext

/-- Behind `self` the path is taken as it stands. -/
theorem startOf_self_cons {s : Ident} (hs : s.text = "self") (home path : List Ident) :
    startOf home (s :: path) = (home, path) := by
  rw [startOf, hs]
  rfl

/-- A path of more than one segment is looked up by segments alone. -/
theorem link?_of_two_le_length {traits : List TraitEntry} {home path : List Ident}
    (h : 2 ≤ path.length) :
    link? traits home path =
      (lastNamed? traits (joinPath ((startOf home path).1 ++ (startOf home path).2))).or
        (lastNamed? traits (joinPath (startOf home path).2)) := by
  cases path with
  | nil => cases h
  | cons i path =>
    cases path with
    | nil => cases Nat.le_of_succ_le_succ h
    | cons j path => exact Option.or_none

/-- What `self` means in front of a path of at least two segments that starts with neither `crate`
nor `self`. If the path does not start with `super`, it means what the path means, and otherwise
nothing. So it changes nothing exactly if the path does not go up or means nothing itself. -/
theorem link?_self_cons {source : String} {f : TraitFile} (h : TraitFile.load source = .ok f)
    (home : List Ident) {s : Ident} (hs : s.text = "self") {path : List Ident}
    (hlen : 2 ≤ path.length)
    (hhead : ∀ i ∈ path.head?, i.text ≠ "crate" ∧ i.text ≠ "self") :
    link? f.traits home (s :: path) =
        (if supers path = 0 then link? f.traits home path else none) ∧
      (link? f.traits home (s :: path) = link? f.traits home path ↔
        supers path = 0 ∨ link? f.traits home path = none) := by
  have hlink : link? f.traits home (s :: path) =
      (lastNamed? f.traits (joinPath (home ++ path))).or
        (lastNamed? f.traits (joinPath path)) := by
    have hlen' : 2 ≤ (s :: path).length := by
      rw [List.length_cons]
      omega
    rw [link?_of_two_le_length hlen', startOf_self_cons hs]
  have heq : link? f.traits home (s :: path) =
      (if supers path = 0 then link? f.traits home path else none) := by
    split
    · rename_i hzero
      rw [hlink, link?_of_two_le_length hlen, startOf_of_supers_eq_zero home hhead hzero]
    · rename_i hzero
      have hsuper : ∃ i ∈ path, i.text = "super" := by
        rw [supers_eq_zero_iff] at hzero
        push Not at hzero
        obtain ⟨i, hi, htext⟩ := hzero
        exact ⟨i, List.mem_of_mem_head? hi, htext⟩
      have hsuper' : ∃ i ∈ home ++ path, i.text = "super" := by
        obtain ⟨i, hi, htext⟩ := hsuper
        exact ⟨i, List.mem_append_right home hi, htext⟩
      rw [hlink, lastNamed?_eq_none_of_super h _ hsuper', lastNamed?_eq_none_of_super h _ hsuper]
      rfl
  refine ⟨heq, ?_⟩
  rw [heq]
  split
  · rename_i hzero
    exact ⟨fun _ => Or.inl hzero, fun _ => rfl⟩
  · rename_i hzero
    exact ⟨fun hn => Or.inr hn.symm, fun hn => (hn.resolve_left hzero).symm⟩

/-- A trait in an outer module, and two in an inner one that extend it, the second one with a
leading `self`. -/
def innerSource : String :=
  "mod a { trait Parent { fn x(&self) -> u8; }
    mod b { trait Plain: super::Parent {} trait Marked: self::super::Parent {} } }"

/-- The path of the inner module. -/
def innerHome : List Ident := [⟨"a", by decide⟩, ⟨"b", by decide⟩]

/-- The path by which the inner module knows the trait in the outer one. -/
def outerPath : List Ident := [⟨"super", by decide⟩, ⟨"Parent", by decide⟩]

/-- The path by which the outer module knows the first trait in the inner one. -/
def innerPath : List Ident := [⟨"b", by decide⟩, ⟨"Plain", by decide⟩]

def selfIdent : Ident := ⟨"self", by decide⟩

theorem load_innerSource :
    ∃ f, TraitFile.load innerSource = .ok f ∧
      link? f.traits innerHome outerPath = some 0 ∧
      link? f.traits (innerHome.take 1) innerPath = some 1 ∧
      f.catalog.supertypes 1 = [0] ∧ f.catalog.supertypes 2 = [] := by
  obtain ⟨f, hf, h⟩ := exists_load_of_any innerSource (fun f =>
    decide (link? f.traits innerHome outerPath = some 0 ∧
      link? f.traits (innerHome.take 1) innerPath = some 1 ∧
      f.catalog.supertypes 1 = [0] ∧ f.catalog.supertypes 2 = [])) (by decide +kernel)
  exact ⟨f, hf, of_decide_eq_true h⟩

/-- A path that goes down means the same behind `self`, one that goes up means nothing. -/
theorem link?_innerSource :
    ∃ f, TraitFile.load innerSource = .ok f ∧ selfIdent.text = "self" ∧
      (2 ≤ innerPath.length ∧ supers innerPath = 0 ∧
        (∀ i ∈ innerPath.head?, i.text ≠ "crate" ∧ i.text ≠ "self") ∧
        link? f.traits (innerHome.take 1) (selfIdent :: innerPath) = some 1) ∧
      (2 ≤ outerPath.length ∧ supers outerPath = 1 ∧
        (∀ i ∈ outerPath.head?, i.text ≠ "crate" ∧ i.text ≠ "self") ∧
        link? f.traits innerHome (selfIdent :: outerPath) = none) := by
  obtain ⟨f, hf, -, hdown, -, -⟩ := load_innerSource
  have hdownHead : ∀ i ∈ innerPath.head?, i.text ≠ "crate" ∧ i.text ≠ "self" := by decide
  have hupHead : ∀ i ∈ outerPath.head?, i.text ≠ "crate" ∧ i.text ≠ "self" := by decide
  have hlen : 2 ≤ innerPath.length ∧ 2 ≤ outerPath.length := by decide
  have hdown' := (link?_self_cons hf (innerHome.take 1) (s := selfIdent) rfl hlen.1 hdownHead).1
  have hup' := (link?_self_cons hf innerHome (s := selfIdent) rfl hlen.2 hupHead).1
  refine ⟨f, hf, rfl, ⟨hlen.1, by decide, hdownHead, ?_⟩, ⟨hlen.2, by decide, hupHead, ?_⟩⟩
  · rw [hdown', if_pos (by decide), hdown]
  · rw [hup', if_neg (by decide)]

/-- In front of a path that goes up, `self` loses a supertrait. -/
theorem link?_self_super_ne :
    ∃ f, TraitFile.load innerSource = .ok f ∧
      link? f.traits innerHome (selfIdent :: outerPath) ≠ link? f.traits innerHome outerPath ∧
      f.catalog.supertypes 2 ≠ f.catalog.supertypes 1 := by
  obtain ⟨f, hf, hup, -, hplain, hmarked⟩ := load_innerSource
  refine ⟨f, hf, ?_, by rw [hplain, hmarked]; decide⟩
  have hstart : startOf innerHome (selfIdent :: outerPath) = (innerHome, outerPath) :=
    startOf_self_cons rfl innerHome outerPath
  rw [hup, link?_of_two_le_length (by decide), hstart,
    lastNamed?_eq_none_of_super hf (innerHome ++ outerPath) (by decide),
    lastNamed?_eq_none_of_super hf outerPath (by decide)]
  decide

end InterfaceRecord.Trait
