/-
  Files that hold the same traits in another order. Where no two traits have the same path, each
  path means the trait that it meant, at its new position (`Rearranged.link?`). So the interfaces
  of one file are found again in the other one, and derivations come to the same outlines and the
  same messages (`derive_rearranged`).
-/
import InterfaceRecord.Proofs.Linking
import InterfaceRecord.Proofs.Relocation

namespace InterfaceRecord.Trait

open InterfaceRecord.Source

/-- A trait's declaration without its place in the source. -/
structure TraitContent where
  home : List Ident
  name : Ident
  typeParameters : List String
  bounds : List (List Ident)
  methods : List (MethodEntry String Unit)
  constants : List (Constant String)
deriving DecidableEq

def TraitContent.path (c : TraitContent) : List Ident := c.home ++ [c.name]

def TraitEntry.content (d : TraitEntry) : TraitContent where
  home := d.home
  name := d.name
  typeParameters := d.typeParameters.map TypeTokens.text
  bounds := d.bounds
  methods := d.methods.map (MethodEntry.shown TypeTokens.text)
  constants := d.constants.map (Constant.shown TypeTokens.text)

theorem path_eq_of_content {d d' : TraitEntry} (h : d'.content = d.content) :
    d'.path = d.path :=
  congrArg TraitContent.path h

/-- The same declarations in any order, with distinct qualified names. -/
structure Rearranged (traits traits' : List TraitEntry) : Prop where
  perm : (traits.map TraitEntry.content).Perm (traits'.map TraitEntry.content)
  distinct : (traits.map TraitEntry.qualifiedName).Nodup

/-- Where the trait at position `i` is found again: at the first trait of its path. -/
def movedTo (traits traits' : List TraitEntry) (i : Nat) : Nat :=
  let segments := traits[i]?.elim [] (·.path)
  traits'.findIdx (·.path == segments)

variable {traits traits' : List TraitEntry} {i j : Nat} {d d' : TraitEntry}

/-! ## Traits at their new positions -/

theorem map_qualifiedName_eq (traits : List TraitEntry) :
    traits.map TraitEntry.qualifiedName =
      (traits.map TraitEntry.content).map fun c => joinPath c.path := by
  rw [List.map_map]
  rfl

theorem Rearranged.symm (h : Rearranged traits traits') : Rearranged traits' traits where
  perm := h.perm.symm
  distinct := by
    have hdistinct := h.distinct
    rw [map_qualifiedName_eq] at hdistinct ⊢
    exact (h.perm.map _).nodup_iff.mp hdistinct

theorem Rearranged.atMostOnce (h : Rearranged traits traits') (segments : List Ident) :
    AtMostOnce traits segments := by
  intro i j d e hd he hdpath hepath
  have hi : i < (traits.map TraitEntry.qualifiedName).length := by
    rw [List.length_map]
    exact (List.getElem?_eq_some_iff.mp hd).1
  apply (List.getElem?_inj hi h.distinct).mp
  rw [List.getElem?_map, List.getElem?_map, hd, he, Option.map_some, Option.map_some,
    TraitEntry.qualifiedName, TraitEntry.qualifiedName, hdpath, hepath]

/-- Each trait is found again with the same content. -/
theorem Rearranged.getElem?_movedTo (h : Rearranged traits traits') (hd : traits[i]? = some d) :
    ∃ d', traits'[movedTo traits traits' i]? = some d' ∧ d'.content = d.content := by
  have hmem : d.content ∈ traits'.map TraitEntry.content :=
    h.perm.mem_iff.mp (List.mem_map_of_mem (List.mem_of_getElem? hd))
  obtain ⟨e, he, hcontent⟩ := List.mem_map.mp hmem
  obtain ⟨j, hj⟩ := List.mem_iff_getElem?.mp he
  have hmoved : movedTo traits traits' i = traits'.findIdx (·.path == d.path) := by
    rw [movedTo, hd]
    rfl
  have hlt : traits'.findIdx (·.path == d.path) < traits'.length :=
    List.findIdx_lt_length_of_exists ⟨e, he, beq_iff_eq.mpr (path_eq_of_content hcontent)⟩
  have hpath : traits'[traits'.findIdx (·.path == d.path)].path = d.path :=
    beq_iff_eq.mp (List.findIdx_getElem (w := hlt))
  -- another trait of that path there is not
  have hsame : traits'.findIdx (·.path == d.path) = j :=
    h.symm.atMostOnce d.path _ _ _ _ (List.getElem?_eq_getElem hlt) hj hpath
      (path_eq_of_content hcontent)
  refine ⟨e, ?_, hcontent⟩
  rw [hmoved, hsame]
  exact hj

/-- A trait is where another one of its path is found again. -/
theorem Rearranged.eq_movedTo (h : Rearranged traits traits') (hd : traits[i]? = some d)
    (hd' : traits'[j]? = some d') (hpath : d'.path = d.path) : j = movedTo traits traits' i := by
  obtain ⟨e, he, hcontent⟩ := h.getElem?_movedTo hd
  exact h.symm.atMostOnce d.path _ _ _ _ hd' he hpath (path_eq_of_content hcontent)

/-! ## Links -/

theorem Rearranged.isLastAt (h : Rearranged traits traits') {segments : List Ident}
    (hi : IsLastAt traits segments i) : IsLastAt traits' segments (movedTo traits traits' i) := by
  obtain ⟨d, hd, hpath⟩ := hi.here
  obtain ⟨d', hd', hcontent⟩ := h.getElem?_movedTo hd
  refine ⟨⟨d', hd', (path_eq_of_content hcontent).trans hpath⟩, fun j e he hepath => ?_⟩
  exact (h.eq_movedTo hd he (hepath.trans hpath.symm)).le

theorem Rearranged.absent (h : Rearranged traits traits') {segments : List Ident}
    (ha : Absent traits segments) : Absent traits' segments := by
  intro d' hd' hpath
  obtain ⟨j, hj⟩ := List.mem_iff_getElem?.mp hd'
  obtain ⟨d, hd, hcontent⟩ := h.symm.getElem?_movedTo hj
  exact ha d (List.mem_of_getElem? hd) ((path_eq_of_content hcontent).trans hpath)

theorem Rearranged.isOnlyNamed (h : Rearranged traits traits') {name : Ident}
    (hi : IsOnlyNamed traits name i) : IsOnlyNamed traits' name (movedTo traits traits' i) := by
  obtain ⟨d, hd, hname⟩ := hi.here
  obtain ⟨d', hd', hcontent⟩ := h.getElem?_movedTo hd
  refine ⟨⟨d', hd', (congrArg TraitContent.name hcontent).trans hname⟩, fun j e he hename => ?_⟩
  obtain ⟨e', he', hcontent'⟩ := h.symm.getElem?_movedTo he
  have hename' : e'.name = name := (congrArg TraitContent.name hcontent').trans hename
  -- the trait it was is the only one of that name, so `e` has the path of `d`
  rw [hi.only _ e' he' hename', hd, Option.some.injEq] at he'
  apply h.eq_movedTo hd he
  rw [he']
  exact (path_eq_of_content hcontent').symm

theorem Rearranged.means (h : Rearranged traits traits') {home path : List Ident}
    (hi : Means traits home path i) : Means traits' home path (movedTo traits traits' i) := by
  cases hi with
  | near hlast => exact .near (h.isLastAt hlast)
  | rooted hnear hlast => exact .rooted (h.absent hnear) (h.isLastAt hlast)
  | lone hnear hroot hpath honly =>
    exact .lone (h.absent hnear) (h.absent hroot) hpath (h.isOnlyNamed honly)

/-- A path means the trait that it meant, at its new position, or still none. -/
theorem Rearranged.link? (h : Rearranged traits traits') (home path : List Ident) :
    link? traits' home path = (link? traits home path).map (movedTo traits traits') := by
  cases hlink : Trait.link? traits home path with
  | some i => exact link?_eq_some_iff.mpr (h.means (link?_eq_some_iff.mp hlink))
  | none =>
    rw [Option.map_none, Option.eq_none_iff_forall_ne_some]
    intro j hj
    have hback := link?_eq_some_iff.mpr (h.symm.means (link?_eq_some_iff.mp hj))
    exact Option.some_ne_none _ (hback.symm.trans hlink)

theorem lt_length_of_link? {home path : List Ident} (h : link? traits home path = some i) :
    i < traits.length := by
  have hhere : ∃ d, traits[i]? = some d := by
    rcases link?_eq_some_iff.mp h with h | ⟨-, h⟩ | ⟨-, -, -, h⟩
    · exact h.here.imp fun d hd => hd.1
    · exact h.here.imp fun d hd => hd.1
    · exact h.here.imp fun d hd => hd.1
  obtain ⟨d, hd⟩ := hhere
  exact (List.getElem?_eq_some_iff.mp hd).1

/-! ## Interfaces -/

theorem byText_view : TypeTokens.view.ByText where
  same := fun _ _ => rfl
  isVoid := fun _ _ h => congrArg (fun text => (text == "()", ())) h

/-- A declaration with the same content gives the same interface, if its bounds mean the same traits
at new positions. -/
theorem shown_interfaceOf {move : Nat → Nat} (hcontent : d'.content = d.content)
    (hlink : ∀ path ∈ d.bounds, link? traits' d.home path = (link? traits d.home path).map move) :
    (interfaceOf traits' d').shown TypeTokens.text id =
      (interfaceOf traits d).shown TypeTokens.text move := by
  have hhome : d'.home = d.home := congrArg TraitContent.home hcontent
  have hname : d'.name = d.name := congrArg TraitContent.name hcontent
  have hbounds : d'.bounds = d.bounds := congrArg TraitContent.bounds hcontent
  have hsupertypes : supertypesOf traits' d' = (supertypesOf traits d).map move := by
    rw [supertypesOf, supertypesOf, hhome, hbounds, List.map_filterMap]
    exact List.filterMap_congr hlink
  rw [InterfaceEntry.shown, InterfaceEntry.shown, InterfaceEntry.mk.injEq]
  refine ⟨congrArg joinPath (path_eq_of_content hcontent), congrArg Ident.text hname,
    congrArg TraitContent.typeParameters hcontent, ?_,
    congrArg TraitContent.methods hcontent, congrArg TraitContent.constants hcontent, rfl⟩
  rw [List.map_id]
  exact hsupertypes

theorem getElem?_tableOf (hd : traits[i]? = some d) :
    (tableOf traits)[i]? = some (interfaceOf traits d) := by
  rw [tableOf, List.getElem?_map, hd]
  rfl

/-- Links stay in the file. -/
theorem lt_length_of_mem_supertypes {e : InterfaceEntry TypeTokens SourcePlace}
    (he : e ∈ tableOf traits) {p : Nat} (hp : p ∈ e.supertypes) : p < traits.length := by
  obtain ⟨d, -, rfl⟩ := List.mem_map.mp he
  obtain ⟨path, -, hlink⟩ := List.mem_filterMap.mp hp
  exact lt_length_of_link? hlink

/-- The interfaces of one file are found again in the other one. -/
theorem Rearranged.relocated (h : Rearranged traits traits') :
    (tableOf traits).Relocated (tableOf traits') TypeTokens.text (· < traits.length)
      (movedTo traits traits') where
  closed := fun _ _ _ he _ hp => lt_length_of_mem_supertypes (List.mem_of_getElem? he) hp
  entry := by
    intro i hi
    have hd : traits[i]? = some traits[i] := List.getElem?_eq_getElem hi
    obtain ⟨d', hd', hcontent⟩ := h.getElem?_movedTo hd
    exact ⟨_, _, getElem?_tableOf hd, getElem?_tableOf hd',
      shown_interfaceOf hcontent fun path _ => h.link? _ path⟩

/-! ## Files -/

/-- Files that correspond give the same outlines and the same messages. -/
theorem derive_eq_of_corresponds {f f' : TraitFile} {R : Nat → Prop} {move : Nat → Nat}
    (h : f.catalog.Corresponds f'.catalog R (Table.moved move)) (settings : Settings)
    (scheme : NameScheme) {n : Nat} (hn : R n) :
    (f'.derive settings scheme (move n)).1.record.map (·.outline TypeTokens.text) =
        (f.derive settings scheme n).1.record.map (·.outline TypeTokens.text) ∧
      (f'.derive settings scheme (move n)).1.diagnostics.map (·.message) =
        (f.derive settings scheme n).1.diagnostics.map (·.message) := by
  obtain ⟨houtline, hfaults⟩ := h.derive settings scheme hn
  refine ⟨houtline, ?_⟩
  have hmessages := congrArg (List.map Fault.message) hfaults
  rw [List.map_map, List.map_map] at hmessages
  exact hmessages

/-- The order of the traits in a file does not matter. If another file holds the same declarations
in any order and no two of them have the same qualified name, then each trait is in the other file
too, and there its direct supertypes have the same names in the same order, and all derivations
from it come to the same outline, or both to none, with the same messages in the same order. -/
theorem derive_rearranged {source source' : String} {f f' : TraitFile}
    (hf : TraitFile.load source = .ok f) (hf' : TraitFile.load source' = .ok f')
    (h : Rearranged f.traits f'.traits) :
    (∀ d ∈ f.traits, ∃ d' ∈ f'.traits, d'.qualifiedName = d.qualifiedName) ∧
    ∀ n n' d d', f.traits[n]? = some d → f'.traits[n']? = some d' →
      d'.qualifiedName = d.qualifiedName →
      (f'.catalog.supertypes n').map f'.catalog.qualifiedName =
          (f.catalog.supertypes n).map f.catalog.qualifiedName ∧
        ∀ settings scheme,
          (f'.derive settings scheme n').1.record.map (·.outline TypeTokens.text) =
              (f.derive settings scheme n).1.record.map (·.outline TypeTokens.text) ∧
            (f'.derive settings scheme n').1.diagnostics.map (·.message) =
              (f.derive settings scheme n).1.diagnostics.map (·.message) := by
  constructor
  · intro d hd
    obtain ⟨n, hn⟩ := List.mem_iff_getElem?.mp hd
    obtain ⟨d', hd', hcontent⟩ := h.getElem?_movedTo hn
    exact ⟨d', List.mem_of_getElem? hd', congrArg joinPath (path_eq_of_content hcontent)⟩
  · intro n n' d d' hd hd' hname
    obtain rfl := h.eq_movedTo hd hd' (joinPath_injective hname)
    have hlt : n < f.traits.length := (List.getElem?_eq_some_iff.mp hd).1
    have hcor := h.relocated.corresponds byText_view "::"
    rw [← catalog_of_load hf, ← catalog_of_load hf'] at hcor
    constructor
    · have hsupertypes := hcor.supertypes n hlt
      have hnames := hcor.map_qualifiedName fun i hi => hcor.closed n hlt i hi
      rw [← hsupertypes] at hnames
      exact hnames
    · exact fun settings scheme => derive_eq_of_corresponds hcor settings scheme hlt

/-- Traits at the root and in nested modules, linked by simple names and by paths. -/
def orderedSource : String :=
  "trait Base { fn id(&self) -> u8; }
  mod top { trait Part: Base + low::Inner { fn tag(&self) -> u8; }
    mod low { trait Inner { fn run(&self); } } }
  trait Whole: Part + Base {}"

/-- The same traits the other way round. -/
def reorderedSource : String :=
  "trait Whole: Part + Base {}
  mod top { mod low { trait Inner { fn run(&self); } }
    trait Part: Base + low::Inner { fn tag(&self) -> u8; } }
  trait Base { fn id(&self) -> u8; }"

/-- What both declare. -/
def orderedContents : List TraitContent := [
  { home := [], name := ⟨"Base", by decide⟩, typeParameters := [], bounds := [],
    methods := [{ name := "id", returnType := "u8", site := () }], constants := [] },
  { home := [⟨"top", by decide⟩], name := ⟨"Part", by decide⟩, typeParameters := [],
    bounds := [[⟨"Base", by decide⟩], [⟨"low", by decide⟩, ⟨"Inner", by decide⟩]],
    methods := [{ name := "tag", returnType := "u8", site := () }], constants := [] },
  { home := [⟨"top", by decide⟩, ⟨"low", by decide⟩], name := ⟨"Inner", by decide⟩,
    typeParameters := [], bounds := [],
    methods := [{ name := "run", returnType := "()", site := () }], constants := [] },
  { home := [], name := ⟨"Whole", by decide⟩, typeParameters := [],
    bounds := [[⟨"Part", by decide⟩], [⟨"Base", by decide⟩]], methods := [], constants := [] }]

theorem load_orderedSource :
    ∃ f, TraitFile.load orderedSource = .ok f ∧
      f.traits.map TraitEntry.content = orderedContents := by
  obtain ⟨f, hf, h⟩ := exists_load_of_any orderedSource
    (fun f => decide (f.traits.map TraitEntry.content = orderedContents)) (by decide +kernel)
  exact ⟨f, hf, of_decide_eq_true h⟩

theorem load_reorderedSource :
    ∃ f, TraitFile.load reorderedSource = .ok f ∧
      f.traits.map TraitEntry.content = orderedContents.reverse := by
  obtain ⟨f, hf, h⟩ := exists_load_of_any reorderedSource
    (fun f => decide (f.traits.map TraitEntry.content = orderedContents.reverse))
    (by decide +kernel)
  exact ⟨f, hf, of_decide_eq_true h⟩

/-- The last trait of one file is the first one of the other. -/
theorem derive_orderedSource :
    ∃ f f', TraitFile.load orderedSource = .ok f ∧ TraitFile.load reorderedSource = .ok f' ∧
      Rearranged f.traits f'.traits ∧
      (f'.catalog.supertypes 0).map f'.catalog.qualifiedName =
        (f.catalog.supertypes 3).map f.catalog.qualifiedName ∧
      ∀ settings scheme,
        (f'.derive settings scheme 0).1.record.map (·.outline TypeTokens.text) =
            (f.derive settings scheme 3).1.record.map (·.outline TypeTokens.text) ∧
          (f'.derive settings scheme 0).1.diagnostics.map (·.message) =
            (f.derive settings scheme 3).1.diagnostics.map (·.message) := by
  obtain ⟨f, hf, hcontents⟩ := load_orderedSource
  obtain ⟨f', hf', hcontents'⟩ := load_reorderedSource
  have h : Rearranged f.traits f'.traits := {
    perm := by
      rw [hcontents, hcontents']
      exact (List.reverse_perm orderedContents).symm
    distinct := by
      rw [map_qualifiedName_eq, hcontents]
      decide +kernel }
  have hlast : f.traits[3]?.map TraitEntry.content = some orderedContents[3] := by
    rw [← List.getElem?_map, hcontents]
    rfl
  have hfirst : f'.traits[0]?.map TraitEntry.content = some orderedContents[3] := by
    rw [← List.getElem?_map, hcontents']
    rfl
  obtain ⟨d, hd, hcontent⟩ := Option.map_eq_some_iff.mp hlast
  obtain ⟨d', hd', hcontent'⟩ := Option.map_eq_some_iff.mp hfirst
  have hname : d'.qualifiedName = d.qualifiedName :=
    congrArg joinPath (path_eq_of_content (hcontent'.trans hcontent.symm))
  exact ⟨f, f', hf, hf', h, (derive_rearranged hf hf' h).2 3 0 d d' hd hd' hname⟩

end InterfaceRecord.Trait
