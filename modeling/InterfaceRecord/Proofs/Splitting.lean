/-
  Where names split. A qualified name splits at the last place where its separator stands, places
  that overlap included (`QualifiedName.split_cases`), and all that is said of an interface's name
  speaks of this split: its simple name, the names of its record, and the interfaces that
  diagnostics name (`names_split_alike`). The two parts tell names apart, so that records of
  different interfaces do not get the same names (`records_differ`).
-/
import InterfaceRecord.Proofs.Histories
import InterfaceRecord.Proofs.Titles

namespace InterfaceRecord

open Relation

/-! ## The last place of a separator -/

section

variable {sep cs front back : List Char}

/-- A text does not split exactly if the separator does not occur in it. -/
theorem splitLast?_eq_none_iff : splitLast? sep cs = none ↔ ¬ sep <:+: cs := by
  induction cs with
  | nil => cases sep <;> simp [splitLast?]
  | cons c cs ih =>
    rw [List.infix_cons_iff, not_or, ← ih, splitLast?]
    cases splitLast? sep cs <;> simp

/-- The separator stands nowhere further right than where the text splits. -/
theorem length_le_of_splitLast? (h : splitLast? sep cs = some (front, back)) {f b : List Char}
    (hcs : cs = f ++ sep ++ b) : f.length ≤ front.length := by
  induction cs generalizing front back f with
  | nil =>
    have hf : f = [] := by simp_all
    simp [hf]
  | cons c cs ih =>
    cases f with
    | nil => exact Nat.zero_le _
    | cons x f =>
      have htail : cs = f ++ sep ++ b := (List.cons.inj hcs).2
      rw [splitLast?] at h
      split at h
      · rename_i hsplit
        cases h
        exact Nat.succ_le_succ (ih hsplit htail)
      · rename_i hnone
        exact absurd ⟨f, b, htail.symm⟩ (splitLast?_eq_none_iff.mp hnone)

end

namespace QualifiedName

/-- Either the separator does not occur in a name, which then is its own simple name, or the name is
made of its package, the separator and its simple name, and the separator stands nowhere further
right. -/
theorem split_cases (n : QualifiedName) :
    ((∀ front back, n.text ≠ front ++ n.separator ++ back) ∧ n.package = "" ∧ n.simple = n.text) ∨
    (n.text = n.package ++ n.separator ++ n.simple ∧
      ∀ front back, n.text = front ++ n.separator ++ back → front.length ≤ n.package.length) := by
  have hlist {front back : String} (h : n.text = front ++ n.separator ++ back) :
      n.text.toList = front.toList ++ n.separator.toList ++ back.toList := by
    rw [h, String.toList_append, String.toList_append]
  rw [package, simple]
  cases hsplit : n.split? with
  | none =>
    refine Or.inl ⟨fun front back h => ?_, rfl, rfl⟩
    exact splitLast?_eq_none_iff.mp hsplit ⟨_, _, (hlist h).symm⟩
  | some parts =>
    obtain ⟨front, back⟩ := parts
    refine Or.inr ⟨?_, fun f b h => ?_⟩
    · apply String.toList_inj.mp
      simpa using eq_append_of_splitLast? hsplit
    · have hle := length_le_of_splitLast? hsplit (hlist h)
      rw [String.length_toList] at hle
      rwa [String.length_ofList]

theorem simple_empty (separator : String) : QualifiedName.simple ⟨"", separator⟩ = "" := by
  rcases split_cases ⟨"", separator⟩ with ⟨-, -, h⟩ | ⟨h, -⟩
  · exact h
  · have hlist := congrArg String.toList h
    simp at hlist
    exact hlist.2.2

/-- Names with the same separator that split into the same parts are the same, if they do not begin
with the separator. Otherwise a name could have the parts of its own simple name. -/
theorem text_eq_of_parts_eq {n n' : QualifiedName} (hseparator : n'.separator = n.separator)
    (hn : ¬ n.separator.toList <+: n.text.toList) (hn' : ¬ n'.separator.toList <+: n'.text.toList)
    (hpackage : n'.package = n.package) (hsimple : n'.simple = n.simple) : n'.text = n.text := by
  have begins {n : QualifiedName} (htext : n.text = n.package ++ n.separator ++ n.simple)
      (hempty : n.package = "") : n.separator.toList <+: n.text.toList := by
    rw [htext, hempty]
    simp
  rcases split_cases n with ⟨-, hp, hs⟩ | ⟨htext, -⟩ <;>
    rcases split_cases n' with ⟨-, hp', hs'⟩ | ⟨htext', -⟩
  · rw [← hs, ← hs', hsimple]
  · exact absurd (begins htext' (hpackage.trans hp)) hn'
  · exact absurd (begins htext (hpackage.symm.trans hp')) hn
  · rw [htext, htext', hpackage, hseparator, hsimple]

end QualifiedName

/-! ## What speaks of a split -/

/-- The interfaces that a fault names, that of the method at fault last. -/
def Fault.interfaces : Fault → List String
  | signature interface _ => [interface]
  | genericMethod interface _ => [interface]
  | conflict _ _ firstInterface _ secondInterface => [firstInterface, secondInterface]
  | noComponents => []
  | missingInitializer _ => []
  | internal _ => []

namespace Catalog

section

variable {I M T S V : Type} (g : Catalog I M T S V)

/-- An interface's qualified name, with the separator that divides it. -/
def nameOf (i : I) : QualifiedName := ⟨g.qualifiedName i, g.separator⟩

/-- The names by suffixes go back to the two parts of the interface's name. -/
theorem suffixes_of_record_derive {settings : Settings} {root : I} {v : V} {r : Record M T}
    (h : (g.derive settings .suffixes root v).record = some r) :
    r.package = settings.package.getD (g.nameOf root).package ∧
      r.name = (g.nameOf root).simple ++ settings.recordSuffix := by
  have htitles := g.titles_of_record_derive h
  exact ⟨congrArg Titles.package htitles, congrArg Titles.name htitles⟩

end

variable {I M T S : Type} {g : Catalog I M T S Unit}

/-- Whatever is said of the name of an interface speaks of one split of its qualified name. -/
structure SplitsAlike (g : Catalog I M T S Unit) : Prop where
  simpleName : ∀ i, g.simpleName i = (g.nameOf i).simple
  record : ∀ settings root r, (g.derive settings .suffixes root ()).record = some r →
    r.package = settings.package.getD (g.nameOf root).package ∧
      r.name = (g.nameOf root).simple ++ settings.recordSuffix
  /-- A diagnostic names interfaces that can be reached, that of the method at fault last. -/
  diagnostics : ∀ settings scheme root, ∀ d ∈ (g.derive settings scheme root ()).diagnostics,
    ∃ is : List I, d.fault.interfaces = is.map (fun i => (g.nameOf i).simple) ∧
      (∀ i ∈ is, g.Reaches root i) ∧
      ∀ i ∈ is.getLast?, ∃ m ∈ g.methods i, d.site = g.methodSite m

/-- A fault names the interface of the method, and before it at most the one that has taken the
method's name. -/
theorem interfaces_of_fault? {policy : ConflictPolicy} {before : List (I × M)} {d : I × M}
    {fault : Fault} (h : g.fault? policy before d = some fault) :
    ∃ ds : List (I × M), fault.interfaces = ds.map (fun d => g.simpleName d.1) ∧
      (∀ e ∈ ds, e ∈ before ∨ e = d) ∧ ∀ e ∈ ds.getLast?, e = d := by
  unfold fault? at h
  rcases g.rulingOf_cases d with hruling | hruling | hruling | ⟨hruling, -⟩ <;>
    simp only [hruling] at h
  · cases h
  · cases h
    exact ⟨[d], rfl, by simp, by simp⟩
  · cases h
    exact ⟨[d], rfl, by simp, by simp⟩
  · split at h
    · rename_i first hfirst
      have hmem := (g.mem_of_first?_eq_some hfirst).1
      unfold conflict? at h
      split at h
      · cases h
      · cases h
        exact ⟨[first, d], rfl, by simp [hmem], by simp⟩
    · cases h
    · have hnone : fault.interfaces = [] := by
        unfold missing? at h
        split at h
        · cases h
        · split at h <;> cases h
          rfl
      exact ⟨[], hnone, by simp, by simp⟩

theorem interfaces_of_mem_findings {policy : ConflictPolicy} {ds : List (I × M)}
    {d : Diagnostic S} (h : d ∈ g.findings policy ds) :
    ∃ es ⊆ ds, d.fault.interfaces = es.map (fun e => g.simpleName e.1) ∧
      ∀ e ∈ es.getLast?, d.site = g.methodSite e.2 := by
  obtain ⟨f, hf, rfl⟩ := List.mem_map.mp h
  obtain ⟨front, back, rfl, hfault⟩ := g.fault?_of_mem_faults hf
  rw [List.nil_append] at hfault
  obtain ⟨es, hes, hmem, hlast⟩ := interfaces_of_fault? hfault
  refine ⟨es, fun e he => ?_, hes, fun e he => ?_⟩
  · rcases hmem e he with he | rfl
    · exact List.mem_append_left _ he
    · exact List.mem_append_right _ List.mem_cons_self
  · rw [hlast e he]
    rfl

/-- All depends on the simple names alone. -/
theorem splitsAlike_of_simpleName (h : ∀ i, g.simpleName i = (g.nameOf i).simple) :
    g.SplitsAlike where
  simpleName := h
  record _ _ _ := g.suffixes_of_record_derive
  diagnostics := by
    intro settings scheme root d hd
    rw [diagnostics_derive] at hd
    rcases List.mem_append.mp hd with hd | hd
    · obtain ⟨hpre, hcov, -⟩ := g.covers_traverse settings.conflicts root
      rw [hcov.accounts.diagnostics] at hd
      obtain ⟨es, hes, hinterfaces, hlast⟩ := interfaces_of_mem_findings hd
      have hdeclared : ∀ e ∈ es, g.Reaches root e.1 ∧ e.2 ∈ g.methods e.1 := fun e he => by
        obtain ⟨hentered, hm⟩ := g.mem_declarations.mp (hes he)
        exact ⟨g.reaches_of_mem_preorder (hpre.subset hentered), hm⟩
      refine ⟨es.map (·.1), ?_, ?_, ?_⟩
      · rw [hinterfaces, List.map_map]
        exact List.map_congr_left fun e _ => h e.1
      · simp only [List.mem_map]
        rintro i ⟨e, he, rfl⟩
        exact (hdeclared e he).1
      · simp only [List.getLast?_map, Option.mem_def, Option.map_eq_some_iff]
        rintro i ⟨e, he, rfl⟩
        exact ⟨e.2, (hdeclared e (List.mem_of_getLast? he)).2, hlast e he⟩
    · split at hd
      · rw [List.mem_singleton.mp hd]
        exact ⟨[], rfl, by simp, by simp⟩
      · exact absurd hd List.not_mem_nil

end Catalog

/-! ## Tables -/

section

variable {T S : Type}

/-- The simple name that is written down is the one that the qualified name ends with. -/
def InterfaceEntry.EndsName (separator : String) (d : InterfaceEntry T S) : Prop :=
  d.simpleName = QualifiedName.simple ⟨d.qualifiedName, separator⟩

theorem Table.splitsAlike [Inhabited T] [Inhabited S] {t : Table T S} {separator : String}
    (h : ∀ d ∈ t, d.EndsName separator) (types : TypeView T Unit) :
    (t.catalog types separator).SplitsAlike := by
  refine Catalog.splitsAlike_of_simpleName fun i => ?_
  show t[i]?.elim "" (·.simpleName) =
    QualifiedName.simple ⟨t[i]?.elim "" (·.qualifiedName), separator⟩
  cases hd : t[i]? with
  | none => exact (QualifiedName.simple_empty separator).symm
  | some d => exact h d (List.mem_of_getElem? hd)

theorem Table.forall_mem_modify {P : InterfaceEntry T S → Prop} {t : Table T S}
    (h : ∀ d ∈ t, P d) (i : Nat) {f : InterfaceEntry T S → InterfaceEntry T S}
    (hf : ∀ d, P d → P (f d)) : ∀ d ∈ t.modify i f, P d := by
  intro e he
  obtain ⟨j, hj⟩ := List.mem_iff_getElem?.mp he
  rw [List.getElem?_modify, Option.map_eq_map, Option.map_eq_some_iff] at hj
  obtain ⟨d, hd, rfl⟩ := hj
  split
  · exact hf d (h d (List.mem_of_getElem? hd))
  · exact h d (List.mem_of_getElem? hd)

end

namespace Graph

variable {a b : Holding Graph}

/-- A call declares an interface under its own simple name, or leaves names as they are. -/
theorem Use.endsName (h : Use a b) (ha : ∀ d ∈ a.kept.interfaces, d.EndsName separator) :
    ∀ d ∈ b.kept.interfaces, d.EndsName separator := by
  cases h with
  | query h => cases h <;> exact ha
  | declare name =>
    intro d hd
    rcases List.mem_append.mp hd with hd | hd
    · exact ha d hd
    · rw [List.mem_singleton.mp hd]
      rfl
  | addTypeParameter => exact Table.forall_mem_modify ha _ fun _ hd => hd
  | extend => exact Table.forall_mem_modify ha _ fun _ hd => hd
  | addMethod => exact Table.forall_mem_modify ha _ fun _ hd => hd
  | addAccessor => exact Table.forall_mem_modify ha _ fun _ hd => hd
  | addConstant => exact Table.forall_mem_modify ha _ fun _ hd => hd

theorem endsName_of_reflTransGen (h : ReflTransGen Use ⟨{}, [], []⟩ a) :
    ∀ d ∈ a.kept.interfaces, d.EndsName separator := by
  induction h with
  | refl => exact fun d hd => absurd hd List.not_mem_nil
  | tail _ hab ih => exact hab.endsName ih

end Graph

namespace Trait.TraitFile

open InterfaceRecord.Source

variable {items : List Item}

/-- The name of a trait is its path, joined. -/
theorem nameOf_ofItems {k : Nat} {home : List Ident} {t : TraitItem}
    (h : (placedAll [] items)[k]? = some (home, t)) :
    (ofItems items).catalog.nameOf k = ⟨joinPath (home ++ [t.name]), "::"⟩ := by
  have hd : (traitsOf items)[k]? = some (.ofItem home t) := by
    rw [traitsOf_eq_map_placed, List.getElem?_map, h]
    rfl
  show QualifiedName.mk ((tableOf (traitsOf items))[k]?.elim "" (·.qualifiedName)) "::" = _
  rw [getElem?_tableOf hd]
  rfl

theorem endsName_of_mem_ofItems :
    ∀ d ∈ (ofItems items).interfaces, d.EndsName "::" := by
  intro d hd
  obtain ⟨entry, hentry, rfl⟩ := List.mem_map.mp hd
  obtain ⟨home, t, rfl⟩ := exists_ofItem_of_mem hentry
  exact (simple_joinPath home t.name).symm

/-- A trait is called by its path, and no identifier begins with a colon. -/
theorem not_prefix_name_ofItems (k : Nat) :
    ¬ "::".toList <+: ((ofItems items).catalog.qualifiedName k).toList := by
  cases hk : (placedAll [] items)[k]? with
  | none =>
    have hnone : (tableOf (traitsOf items))[k]? = none := by
      rw [tableOf, List.getElem?_map, traitsOf_eq_map_placed, List.getElem?_map, hk]
      rfl
    show ¬ _ <+: ((tableOf (traitsOf items))[k]?.elim "" (·.qualifiedName)).toList
    rw [hnone]
    decide
  | some p =>
    have hname : (ofItems items).catalog.qualifiedName k = joinPath (p.1 ++ [p.2.name]) :=
      congrArg QualifiedName.text (nameOf_ofItems hk)
    rw [hname]
    cases hpath : p.1 ++ [p.2.name] with
    | nil => simp at hpath
    | cons i path =>
      rw [toList_joinPath_cons]
      rintro ⟨rest, hrest⟩
      have hcolon := i.colon_not_mem
      have hne := i.toList_ne_nil
      cases hi : i.text.toList with
      | nil => exact hne hi
      | cons c cs =>
        rw [hi] at hrest hcolon
        have hc : ':' = c := (List.cons.inj hrest).1
        exact hcolon (hc ▸ List.mem_cons_self)

end Trait.TraitFile

open Trait Trait.TraitFile

/-- All parts split names alike. A name splits at the last place of its separator, or is its own
simple name where that does not occur. In graphs that were put together by any calls, and in files
that were loaded in any way, simple names, the names of records and the interfaces in diagnostics
come from that one split. For a trait it gives the joined path of its module and its identifier. -/
theorem names_split_alike :
    (∀ n : QualifiedName,
      ((∀ front back, n.text ≠ front ++ n.separator ++ back) ∧
        n.package = "" ∧ n.simple = n.text) ∨
      (n.text = n.package ++ n.separator ++ n.simple ∧
        ∀ front back, n.text = front ++ n.separator ++ back →
          front.length ≤ n.package.length)) ∧
    (∀ a : Holding Graph, ReflTransGen Graph.Use ⟨{}, [], []⟩ a → a.kept.catalog.SplitsAlike) ∧
    ∀ f : TraitFile, f.Loaded → f.catalog.SplitsAlike ∧ (∃ items, f = ofItems items) ∧
      ∀ items, f = ofItems items → ∀ k home t, (placedAll [] items)[k]? = some (home, t) →
        (f.catalog.nameOf k).package = joinPath home ∧
          (f.catalog.nameOf k).simple = t.name.text ∧ f.catalog.simpleName k = t.name.text := by
  refine ⟨QualifiedName.split_cases, fun a ha => ?_, fun f hf => ?_⟩
  · exact Table.splitsAlike (Graph.endsName_of_reflTransGen ha) NamedType.view
  · have halike : f.catalog.SplitsAlike := by
      obtain ⟨items, rfl⟩ := hf.exists_items
      exact Table.splitsAlike endsName_of_mem_ofItems TypeTokens.view
    refine ⟨halike, hf.exists_items, ?_⟩
    rintro items rfl k home t hk
    rw [halike.simpleName, nameOf_ofItems hk, package_joinPath, simple_joinPath]
    exact ⟨rfl, rfl, rfl⟩

/-- Three interfaces with the same simple name, one of them behind three colons. -/
def Graph.namesakes : Graph :=
  let g := (((({} : Graph).declare "a::P").1.declare "a:::P").1.declare "P").1
  let add (g : Graph) (i : Nat) : Graph := (g.addAccessor i "id" ⟨"int"⟩).1
  add (add (add g 0) 1) 2

theorem Graph.exists_use_namesakes :
    ∃ a : Holding Graph, ReflTransGen Graph.Use ⟨{}, [], []⟩ a ∧ a.kept = namesakes :=
  ⟨_, ReflTransGen.refl
    |>.tail (.declare "a::P") |>.tail (.declare "a:::P") |>.tail (.declare "P")
    |>.tail (.addAccessor (show 0 ∈ [0, 1, 2] by decide) "id" ⟨"int"⟩)
    |>.tail (.addAccessor (show 1 ∈ [0, 1, 2] by decide) "id" ⟨"int"⟩)
    |>.tail (.addAccessor (show 2 ∈ [0, 1, 2] by decide) "id" ⟨"int"⟩), rfl⟩

/-- A trait two modules deep and one of its name outside. -/
def Trait.deepSource : String :=
  "mod m { mod n { trait P { fn id(&self) -> u8; } } } trait P { fn id(&self) -> u8; }"

theorem names_split_alike_deepSource :
    Graph.namesakes.catalog.SplitsAlike ∧ Graph.namesakes.catalog.simpleName 1 = "P" ∧
      (Graph.namesakes.catalog.nameOf 1).package = "a:" ∧
    ∃ f, load deepSource = .ok f ∧ f.catalog.SplitsAlike ∧
      (f.catalog.nameOf 0).package = "m::n" ∧ (f.catalog.nameOf 0).simple = "P" ∧
      (f.catalog.nameOf 1).package = "" ∧ (f.catalog.nameOf 1).simple = "P" := by
  obtain ⟨-, hgraphs, hfiles⟩ := names_split_alike
  obtain ⟨a, ha, hkept⟩ := Graph.exists_use_namesakes
  have hnamesakes := hgraphs a ha
  rw [hkept] at hnamesakes
  have htest : (Source.Grammar.parseFile? deepSource).any (fun items => decide
      ((placedAll [] items).map (fun p => (joinPath p.1, p.2.name.text)) =
        [("m::n", "P"), ("", "P")])) = true := by decide +kernel
  obtain ⟨items, hitems, htest⟩ := (Option.any_eq_true _ _).mp htest
  have hload : load deepSource = .ok (ofItems items) := load_eq_ok_iff.mpr ⟨items, hitems, rfl⟩
  obtain ⟨hsplits, -, hplaced⟩ := hfiles _ (.source _ hload)
  obtain ⟨p, q, hpq, hp, hq⟩ : ∃ p q, placedAll [] items = [p, q] ∧
      (joinPath p.1, p.2.name.text) = ("m::n", "P") ∧ (joinPath q.1, q.2.name.text) = ("", "P") := by
    simpa [List.map_eq_cons_iff] using of_decide_eq_true htest
  have hfirst := hplaced items rfl 0 p.1 p.2 (by rw [hpq]; rfl)
  have hsecond := hplaced items rfl 1 q.1 q.2 (by rw [hpq]; rfl)
  rw [Prod.mk.injEq] at hp hq
  refine ⟨hnamesakes, by decide, by decide, ofItems items, hload, hsplits, ?_, ?_, ?_, ?_⟩
  · rw [hfirst.1, hp.1]
  · rw [hfirst.2.1, hp.2]
  · rw [hsecond.1, hq.1]
  · rw [hsecond.2.1, hq.2]

/-! ## Names that differ -/

/-- Records of one file or graph with names by suffixes, none of which is put into a package of its
own, do not have package and name in common if the names of their interfaces differ. -/
theorem Catalog.package_ne_or_name_ne {I M T S V : Type} {g : Catalog I M T S V}
    {settings : Settings} (hpackage : settings.package = none) {i j : I} {v v' : V}
    {r r' : Record M T} (hne : g.qualifiedName i ≠ g.qualifiedName j)
    (hi : ¬ g.separator.toList <+: (g.qualifiedName i).toList)
    (hj : ¬ g.separator.toList <+: (g.qualifiedName j).toList)
    (hr : (g.derive settings .suffixes i v).record = some r)
    (hr' : (g.derive settings .suffixes j v').record = some r') :
    r.package ≠ r'.package ∨ r.name ≠ r'.name := by
  obtain ⟨hp, hn⟩ := g.suffixes_of_record_derive hr
  obtain ⟨hp', hn'⟩ := g.suffixes_of_record_derive hr'
  rw [hpackage, Option.getD_none] at hp hp'
  by_contra hsame
  obtain ⟨hsamePackage, hsameName⟩ : r.package = r'.package ∧ r.name = r'.name := by
    simpa [not_or] using hsame
  rw [hp, hp'] at hsamePackage
  rw [hn, hn'] at hsameName
  have hsimple : (g.nameOf i).simple = (g.nameOf j).simple := by
    have hlist := congrArg String.toList hsameName
    rw [String.toList_append, String.toList_append] at hlist
    exact String.toList_inj.mp (List.append_cancel_right hlist)
  have htext : (g.nameOf i).text = (g.nameOf j).text :=
    QualifiedName.text_eq_of_parts_eq rfl hj hi hsamePackage hsimple
  exact hne htext

/-- Records do not overwrite each other. As long as the settings name no package, whatever the
suffixes are, the records of two interfaces with different qualified names differ in package or in
name, provided that the qualified names do not begin with the separator, which then is not empty.
The traits of a loaded file never have such names. -/
theorem records_differ (settings : Settings) (hpackage : settings.package = none) :
    (∀ (I M T S V : Type) (g : Catalog I M T S V) (i j : I) (v v' : V) (r r' : Record M T),
      g.qualifiedName i ≠ g.qualifiedName j →
      ¬ g.separator.toList <+: (g.qualifiedName i).toList →
      ¬ g.separator.toList <+: (g.qualifiedName j).toList →
      (g.derive settings .suffixes i v).record = some r →
      (g.derive settings .suffixes j v').record = some r' →
      r.package ≠ r'.package ∨ r.name ≠ r'.name) ∧
    ∀ f : TraitFile, f.Loaded → ∀ i j r r', f.catalog.qualifiedName i ≠ f.catalog.qualifiedName j →
      (f.derive settings .suffixes i).1.record = some r →
      (f.derive settings .suffixes j).1.record = some r' →
      r.package ≠ r'.package ∨ r.name ≠ r'.name := by
  constructor
  · intro I M T S V g i j v v' r r' hne hi hj hr hr'
    exact Catalog.package_ne_or_name_ne hpackage hne hi hj hr hr'
  · intro f hf i j r r' hne hr hr'
    obtain ⟨items, rfl⟩ := hf.exists_items
    exact Catalog.package_ne_or_name_ne hpackage hne (not_prefix_name_ofItems i)
      (not_prefix_name_ofItems j) hr hr'

/-- A suffix that holds the separator. -/
def scopedSuffix : Settings := { recordSuffix := "::R" }

theorem records_differ_namesakes :
    (∃ r r', (Graph.namesakes.derive scopedSuffix .suffixes 0).1.record = some r ∧
      (Graph.namesakes.derive scopedSuffix .suffixes 1).1.record = some r' ∧
      r.name = "P::R" ∧ r'.name = "P::R" ∧ (r.package ≠ r'.package ∨ r.name ≠ r'.name)) ∧
    ∃ f r r', load deepSource = .ok f ∧ (f.derive scopedSuffix .suffixes 0).1.record = some r ∧
      (f.derive scopedSuffix .suffixes 1).1.record = some r' ∧
      (r.package ≠ r'.package ∨ r.name ≠ r'.name) := by
  obtain ⟨hcatalogs, hfiles⟩ := records_differ scopedSuffix rfl
  constructor
  · have hname : (Graph.namesakes.derive scopedSuffix .suffixes 0).1.record.map (·.name) =
        some "P::R" := by decide
    have hname' : (Graph.namesakes.derive scopedSuffix .suffixes 1).1.record.map (·.name) =
        some "P::R" := by decide
    obtain ⟨r, hr, hn⟩ := Option.map_eq_some_iff.mp hname
    obtain ⟨r', hr', hn'⟩ := Option.map_eq_some_iff.mp hname'
    exact ⟨r, r', hr, hr', hn, hn', hcatalogs _ _ _ _ _ Graph.namesakes.catalog 0 1 () () r r'
      (by decide) (by decide) (by decide) hr hr'⟩
  · obtain ⟨f, hf, htest⟩ := exists_load_of_any deepSource (fun f => decide
      (f.catalog.qualifiedName 0 ≠ f.catalog.qualifiedName 1 ∧
        (f.derive scopedSuffix .suffixes 0).1.record.isSome ∧
        (f.derive scopedSuffix .suffixes 1).1.record.isSome)) (by decide +kernel)
    obtain ⟨hne, hsome, hsome'⟩ := of_decide_eq_true htest
    obtain ⟨r, hr⟩ := Option.isSome_iff_exists.mp hsome
    obtain ⟨r', hr'⟩ := Option.isSome_iff_exists.mp hsome'
    exact ⟨f, r, r', hf, hr, hr', hfiles f (.source _ hf) 0 1 r r' hne hr hr'⟩

end InterfaceRecord
