/-
  One more trait in a file, anywhere among its items. Only paths that end in its simple name can
  notice: every other one means the trait that it meant, which may have moved by one position
  (`OneMore.link?`). So whatever a trait leads to by such paths only is derived as before
  (`derive_added`), even if the new trait takes the qualified name of another one.
-/
import InterfaceRecord.Proofs.SourceOrder

namespace InterfaceRecord

/-! ## Items without their positions -/

namespace Source

def FnItem.unplaced (f : FnItem) : FnItem :=
  { f with position := ⟨0, 0⟩ }

def Member.unplaced : Member → Member
  | .function f => .function f.unplaced
  | .const name type => .const name type
  | .other => .other

def TraitItem.unplaced (t : TraitItem) : TraitItem :=
  { t with position := ⟨0, 0⟩, members := t.members.map Member.unplaced }

namespace Item

mutual

/-- The item without its positions in the source text. -/
def unplaced : Item → Item
  | .interface t => .interface t.unplaced
  | .inlineModule name its => .inlineModule name (unplacedAll its)
  | .fileModule name => .fileModule name
  | .other => .other

/-- Items without their positions in the source text. -/
def unplacedAll : List Item → List Item
  | [] => []
  | i :: is => unplaced i :: unplacedAll is

end

mutual

/-- Whether two items are the same. -/
def decEq : (i j : Item) → Decidable (i = j)
  | .interface t, .interface u => decidable_of_iff (t = u) (by rw [Item.interface.injEq])
  | .inlineModule n is, .inlineModule m js =>
    have := decEqAll is js
    decidable_of_iff (n = m ∧ is = js) (by rw [Item.inlineModule.injEq])
  | .fileModule n, .fileModule m => decidable_of_iff (n = m) (by rw [Item.fileModule.injEq])
  | .other, .other => isTrue rfl
  | .interface _, .inlineModule _ _ | .interface _, .fileModule _ | .interface _, .other
  | .inlineModule _ _, .interface _ | .inlineModule _ _, .fileModule _ | .inlineModule _ _, .other
  | .fileModule _, .interface _ | .fileModule _, .inlineModule _ _ | .fileModule _, .other
  | .other, .interface _ | .other, .inlineModule _ _ | .other, .fileModule _ => isFalse nofun

/-- Whether two lists of items are the same. -/
def decEqAll : (is js : List Item) → Decidable (is = js)
  | [], [] => isTrue rfl
  | i :: is, j :: js =>
    have := decEq i j
    have := decEqAll is js
    decidable_of_iff (i = j ∧ is = js) (by rw [List.cons.injEq])
  | [], _ :: _ | _ :: _, [] => isFalse nofun

end

instance : DecidableEq Item := decEq

end Item

end Source

namespace Trait

open InterfaceRecord.Source

theorem shown_methodOf_unplaced (owner : String) (f : FnItem) :
    (methodOf owner f.unplaced).shown TypeTokens.text = (methodOf owner f).shown TypeTokens.text :=
  rfl

/-- What a trait declares does not depend on positions. -/
theorem content_ofItem_unplaced (home : List Ident) (t : TraitItem) :
    (TraitEntry.ofItem home t.unplaced).content = (TraitEntry.ofItem home t).content := by
  have hmethods (owner : String) :
      (methodsOf owner t.unplaced.members).map (MethodEntry.shown TypeTokens.text) =
        (methodsOf owner t.members).map (MethodEntry.shown TypeTokens.text) := by
    rw [methodsOf, methodsOf, TraitItem.unplaced, List.filterMap_map, List.map_filterMap,
      List.map_filterMap]
    apply List.filterMap_congr
    intro m _
    cases m with
    | function f => exact congrArg some (shown_methodOf_unplaced owner f)
    | const name type => rfl
    | other => rfl
  have hconstants : constantsOf t.unplaced.members = constantsOf t.members := by
    rw [constantsOf, constantsOf, TraitItem.unplaced, List.filterMap_map]
    apply List.filterMap_congr
    intro m _
    cases m <;> rfl
  have hname : t.unplaced.name = t.name := rfl
  simp only [TraitEntry.ofItem, TraitEntry.content, hmethods, hconstants, hname]
  rfl

mutual

theorem placed_unplaced (home : List Ident) (i : Item) :
    placed home i.unplaced = (placed home i).map fun p => (p.1, p.2.unplaced) := by
  cases i with
  | interface t => rfl
  | inlineModule name its =>
    rw [Item.unplaced, placed, placed]
    exact placedAll_unplacedAll (home ++ [name]) its
  | fileModule name => rfl
  | other => rfl

theorem placedAll_unplacedAll (home : List Ident) (is : List Item) :
    placedAll home (Item.unplacedAll is) =
      (placedAll home is).map fun p => (p.1, p.2.unplaced) := by
  cases is with
  | nil => rfl
  | cons i is =>
    rw [Item.unplacedAll, placedAll, placedAll, placed_unplaced home i, placedAll_unplacedAll home is,
      List.map_append]

end

/-- What the traits of a file declare, read off the items without their positions. -/
theorem map_content_traitsOf (items : List Item) :
    (traitsOf items).map TraitEntry.content =
      (placedAll [] (Item.unplacedAll items)).map fun p => (TraitEntry.ofItem p.1 p.2).content := by
  rw [traitsOf_eq_map_placed, placedAll_unplacedAll, List.map_map, List.map_map]
  exact List.map_congr_left fun p _ => (content_ofItem_unplaced p.1 p.2).symm

/-! ## One more item -/

/-- The items of the second list are those of the first one and the trait `t`, which stands somewhere
among them, in one of their modules or in a new module. -/
inductive Added (t : TraitItem) : List Item → List Item → Prop
  | here (front back : List Item) : Added t (front ++ back) (front ++ .interface t :: back)
  | within (front back : List Item) (name : Ident) {its its' : List Item} (h : Added t its its') :
    Added t (front ++ .inlineModule name its :: back) (front ++ .inlineModule name its' :: back)
  | inNewModule (front back : List Item) (name : Ident) {its : List Item} (h : Added t [] its) :
    Added t (front ++ back) (front ++ .inlineModule name its :: back)

theorem placedAll_append (home : List Ident) (front back : List Item) :
    placedAll home (front ++ back) = placedAll home front ++ placedAll home back := by
  induction front with
  | nil => rfl
  | cons i front ih => rw [List.cons_append, placedAll, placedAll, ih, List.append_assoc]

/-- All other traits keep their modules and their order. -/
theorem Added.placedAll {t : TraitItem} {is is' : List Item} (h : Added t is is')
    (home : List Ident) : ∃ front back home', placedAll home is = front ++ back ∧
      placedAll home is' = front ++ (home', t) :: back := by
  induction h generalizing home with
  | here front back =>
    refine ⟨Trait.placedAll home front, Trait.placedAll home back, home, ?_, ?_⟩
    · rw [placedAll_append]
    · rw [placedAll_append, Trait.placedAll, placed, List.singleton_append]
  | within front back name _ ih =>
    obtain ⟨front', back', home', hold, hnew⟩ := ih (home ++ [name])
    refine ⟨Trait.placedAll home front ++ front', back' ++ Trait.placedAll home back, home', ?_, ?_⟩
    · rw [placedAll_append, Trait.placedAll, placed, hold]
      simp only [List.append_assoc]
    · rw [placedAll_append, Trait.placedAll, placed, hnew]
      simp only [List.append_assoc, List.cons_append]
  | inNewModule front back name _ ih =>
    obtain ⟨front', back', home', hold, hnew⟩ := ih (home ++ [name])
    obtain ⟨rfl, rfl⟩ := List.append_eq_nil_iff.mp hold.symm
    refine ⟨Trait.placedAll home front, Trait.placedAll home back, home', ?_, ?_⟩
    · rw [placedAll_append]
    · rw [placedAll_append, Trait.placedAll, placed, hnew]
      rfl

/-! ## One more trait -/

/-- The traits of the second list declare what those of the first one do, and at position `k` there
is one more, which declares `c`. -/
structure OneMore (traits traits' : List TraitEntry) (k : Nat) (c : TraitContent) : Prop where
  contents : ∃ front back, traits.map TraitEntry.content = front ++ back ∧
    traits'.map TraitEntry.content = front ++ c :: back ∧ front.length = k

theorem Added.oneMore {t : TraitItem} {items items' : List Item}
    (h : Added t (Item.unplacedAll items) (Item.unplacedAll items')) :
    ∃ k home, OneMore (traitsOf items) (traitsOf items') k (TraitEntry.ofItem home t).content := by
  obtain ⟨front, back, home, hold, hnew⟩ := h.placedAll []
  refine ⟨front.length, home, ⟨front.map fun p => (TraitEntry.ofItem p.1 p.2).content,
    back.map fun p => (TraitEntry.ofItem p.1 p.2).content, ?_, ?_, List.length_map _⟩⟩
  · rw [map_content_traitsOf, hold, List.map_append]
  · rw [map_content_traitsOf, hnew, List.map_append, List.map_cons]

/-- Where a position is found again when there is a new one at `k`. -/
def past (k n : Nat) : Nat := if n < k then n else n + 1

theorem past_le_past_iff {k m n : Nat} : past k m ≤ past k n ↔ m ≤ n := by
  unfold past
  split <;> split <;> omega

theorem past_inj {k m n : Nat} : past k m = past k n ↔ m = n := by
  unfold past
  split <;> split <;> omega

theorem exists_eq_past {k j : Nat} (h : j ≠ k) : ∃ n, j = past k n := by
  by_cases hj : j < k
  · exact ⟨j, (if_pos hj).symm⟩
  · refine ⟨j - 1, ?_⟩
    rw [past, if_neg (by omega)]
    omega

variable {traits traits' : List TraitEntry} {k i j n : Nat} {c : TraitContent} {d d' : TraitEntry}

theorem OneMore.getElem?_past (h : OneMore traits traits' k c) (n : Nat) :
    (traits'.map TraitEntry.content)[past k n]? = (traits.map TraitEntry.content)[n]? := by
  obtain ⟨front, back, hold, hnew, rfl⟩ := h.contents
  rw [hold, hnew, past]
  split
  · rename_i hn
    rw [List.getElem?_append_left hn, List.getElem?_append_left hn]
  · rename_i hn
    have hle : front.length ≤ n := Nat.le_of_not_lt hn
    rw [List.getElem?_append_right hle, List.getElem?_append_right (Nat.le_succ_of_le hle),
      Nat.succ_sub hle, List.getElem?_cons_succ]

theorem OneMore.getElem?_self (h : OneMore traits traits' k c) :
    (traits'.map TraitEntry.content)[k]? = some c := by
  obtain ⟨front, back, -, hnew, rfl⟩ := h.contents
  rw [hnew, List.getElem?_append_right (Nat.le_refl _), Nat.sub_self, List.getElem?_cons_zero]

/-- Each trait is found again with the same content. -/
theorem OneMore.exists_getElem? (h : OneMore traits traits' k c) (hd : traits[n]? = some d) :
    ∃ d', traits'[past k n]? = some d' ∧ d'.content = d.content := by
  have hcontent := h.getElem?_past n
  rw [List.getElem?_map, List.getElem?_map, hd] at hcontent
  exact Option.map_eq_some_iff.mp hcontent

/-- A trait of another name than the new one was there before. -/
theorem OneMore.of_getElem? (h : OneMore traits traits' k c) (hd' : traits'[j]? = some d')
    (hname : d'.name ≠ c.name) :
    ∃ n d, j = past k n ∧ traits[n]? = some d ∧ d'.content = d.content := by
  have hj : j ≠ k := by
    rintro rfl
    have hself := h.getElem?_self
    rw [List.getElem?_map, hd', Option.map_some, Option.some.injEq] at hself
    exact hname (congrArg TraitContent.name hself)
  obtain ⟨n, rfl⟩ := exists_eq_past hj
  have hcontent := h.getElem?_past n
  rw [List.getElem?_map, List.getElem?_map, hd'] at hcontent
  obtain ⟨d, hd, hdd'⟩ := Option.map_eq_some_iff.mp hcontent.symm
  exact ⟨n, d, rfl, hd, hdd'.symm⟩

/-! ## Links -/

theorem name_ne_of_path_eq {segments : List Ident} {name : Ident}
    (hlast : segments.getLast? ≠ some name) (hpath : d.path = segments) : d.name ≠ name := by
  rintro rfl
  apply hlast
  rw [← hpath, TraitEntry.path, List.getLast?_concat]

theorem OneMore.isLastAt_iff (h : OneMore traits traits' k c) {segments : List Ident}
    (hlast : segments.getLast? ≠ some c.name) :
    IsLastAt traits' segments j ↔ ∃ i, j = past k i ∧ IsLastAt traits segments i := by
  constructor
  · intro hj
    obtain ⟨d', hd', hpath⟩ := hj.here
    obtain ⟨i, d, rfl, hd, hcontent⟩ := h.of_getElem? hd' (name_ne_of_path_eq hlast hpath)
    refine ⟨i, rfl, ⟨d, hd, (path_eq_of_content hcontent).symm.trans hpath⟩, ?_⟩
    intro m e he hepath
    obtain ⟨e', he', hcontent'⟩ := h.exists_getElem? he
    exact past_le_past_iff.mp (hj.last _ e' he' ((path_eq_of_content hcontent').trans hepath))
  · rintro ⟨i, rfl, hi⟩
    obtain ⟨d, hd, hpath⟩ := hi.here
    obtain ⟨d', hd', hcontent⟩ := h.exists_getElem? hd
    refine ⟨⟨d', hd', (path_eq_of_content hcontent).trans hpath⟩, ?_⟩
    intro m e' he' hepath
    obtain ⟨m, e, rfl, he, hcontent'⟩ := h.of_getElem? he' (name_ne_of_path_eq hlast hepath)
    exact past_le_past_iff.mpr (hi.last m e he ((path_eq_of_content hcontent').symm.trans hepath))

theorem OneMore.absent_iff (h : OneMore traits traits' k c) {segments : List Ident}
    (hlast : segments.getLast? ≠ some c.name) : Absent traits' segments ↔ Absent traits segments := by
  constructor
  · intro ha d hd hpath
    obtain ⟨n, hn⟩ := List.mem_iff_getElem?.mp hd
    obtain ⟨d', hd', hcontent⟩ := h.exists_getElem? hn
    exact ha d' (List.mem_of_getElem? hd') ((path_eq_of_content hcontent).trans hpath)
  · intro ha d' hd' hpath
    obtain ⟨j, hj⟩ := List.mem_iff_getElem?.mp hd'
    obtain ⟨n, d, -, hd, hcontent⟩ := h.of_getElem? hj (name_ne_of_path_eq hlast hpath)
    exact ha d (List.mem_of_getElem? hd) ((path_eq_of_content hcontent).symm.trans hpath)

theorem OneMore.isOnlyNamed_iff (h : OneMore traits traits' k c) {name : Ident}
    (hname : name ≠ c.name) :
    IsOnlyNamed traits' name j ↔ ∃ i, j = past k i ∧ IsOnlyNamed traits name i := by
  constructor
  · intro hj
    obtain ⟨d', hd', hd'name⟩ := hj.here
    obtain ⟨i, d, rfl, hd, hcontent⟩ := h.of_getElem? hd' (hd'name ▸ hname)
    refine ⟨i, rfl, ⟨d, hd, (congrArg TraitContent.name hcontent).symm.trans hd'name⟩, ?_⟩
    intro m e he hename
    obtain ⟨e', he', hcontent'⟩ := h.exists_getElem? he
    exact past_inj.mp (hj.only _ e' he' ((congrArg TraitContent.name hcontent').trans hename))
  · rintro ⟨i, rfl, hi⟩
    obtain ⟨d, hd, hdname⟩ := hi.here
    obtain ⟨d', hd', hcontent⟩ := h.exists_getElem? hd
    refine ⟨⟨d', hd', (congrArg TraitContent.name hcontent).trans hdname⟩, ?_⟩
    intro m e' he' hename
    obtain ⟨m, e, rfl, he, hcontent'⟩ := h.of_getElem? he' (hename ▸ hname)
    exact past_inj.mpr
      (hi.only m e he ((congrArg TraitContent.name hcontent').symm.trans hename))

/-- Behind the words that say where it starts, the path goes on and ends in another name. -/
def Bypasses (name : Ident) (path : List Ident) : Prop :=
  (anchor [] path).2 ≠ [] ∧ (anchor [] path).2.getLast? ≠ some name

instance (name : Ident) (path : List Ident) : Decidable (Bypasses name path) :=
  inferInstanceAs (Decidable (_ ∧ _))

theorem anchor_snd (home path : List Ident) : (anchor home path).2 = (anchor [] path).2 := by
  cases path with
  | nil => rfl
  | cons i path =>
    rw [anchor, anchor]
    split
    · rfl
    · split <;> rfl

theorem Bypasses.getLast?_ne {name : Ident} {path : List Ident} (h : Bypasses name path)
    (home : List Ident) :
    ((anchor home path).1 ++ (anchor home path).2).getLast? ≠ some name ∧
      (anchor home path).2.getLast? ≠ some name := by
  obtain ⟨hne, hlast⟩ := h
  rw [anchor_snd]
  refine ⟨?_, hlast⟩
  rwa [List.getLast?_append_of_ne_nil _ hne]

/-- Of a single name nothing is taken off but a word that says where it starts. -/
theorem Bypasses.ne_of_singleton {name other : Ident} (h : Bypasses name [other]) :
    other ≠ name := by
  rintro rfl
  obtain ⟨hne, hlast⟩ := h
  rw [anchor] at hne hlast
  split at hne
  · exact hne rfl
  · split at hne
    · exact hne rfl
    · by_cases hsuper : other.text = "super"
      · simp [supers, hsuper] at hne
      · simp_all [supers]

theorem OneMore.means_iff (h : OneMore traits traits' k c) {home path : List Ident}
    (hpath : Bypasses c.name path) :
    Means traits' home path j ↔ ∃ i, j = past k i ∧ Means traits home path i := by
  obtain ⟨hnear, hroot⟩ := hpath.getLast?_ne home
  constructor
  · intro hj
    cases hj with
    | near hlast =>
      obtain ⟨i, rfl, hi⟩ := (h.isLastAt_iff hnear).mp hlast
      exact ⟨i, rfl, .near hi⟩
    | rooted ha hlast =>
      obtain ⟨i, rfl, hi⟩ := (h.isLastAt_iff hroot).mp hlast
      exact ⟨i, rfl, .rooted ((h.absent_iff hnear).mp ha) hi⟩
    | lone ha ha' hsingle honly =>
      subst hsingle
      obtain ⟨i, rfl, hi⟩ := (h.isOnlyNamed_iff hpath.ne_of_singleton).mp honly
      exact ⟨i, rfl, .lone ((h.absent_iff hnear).mp ha) ((h.absent_iff hroot).mp ha') rfl hi⟩
  · rintro ⟨i, rfl, hi⟩
    cases hi with
    | near hlast => exact .near ((h.isLastAt_iff hnear).mpr ⟨i, rfl, hlast⟩)
    | rooted ha hlast =>
      exact .rooted ((h.absent_iff hnear).mpr ha) ((h.isLastAt_iff hroot).mpr ⟨i, rfl, hlast⟩)
    | lone ha ha' hsingle honly =>
      subst hsingle
      exact .lone ((h.absent_iff hnear).mpr ha) ((h.absent_iff hroot).mpr ha') rfl
        ((h.isOnlyNamed_iff hpath.ne_of_singleton).mpr ⟨i, rfl, honly⟩)

/-- A path that ends in another name means the trait that it meant, or still none. -/
theorem OneMore.link? (h : OneMore traits traits' k c) {path : List Ident}
    (hpath : Bypasses c.name path) (home : List Ident) :
    link? traits' home path = (link? traits home path).map (past k) := by
  rw [Option.ext_iff]
  intro j
  rw [link?_eq_some_iff, h.means_iff hpath, Option.map_eq_some_iff]
  simp only [link?_eq_some_iff]
  constructor
  · rintro ⟨i, rfl, hi⟩
    exact ⟨i, hi, rfl⟩
  · rintro ⟨i, hi, rfl⟩
    exact ⟨i, rfl, hi⟩

/-! ## Files -/

/-- All traits that the one at `root` leads to are bounded by paths that end in other names. -/
def TraitFile.Avoids (f : TraitFile) (name : Ident) (root : Nat) : Prop :=
  ∀ i d, f.catalog.Reaches root i → f.traits[i]? = some d → ∀ path ∈ d.bounds, Bypasses name path

/-- The interfaces that a trait leads to are found again. -/
theorem OneMore.relocated {f f' : TraitFile} (h : OneMore f.traits f'.traits k c)
    (hf : f.catalog = (tableOf f.traits).catalog TypeTokens.view "::") {root : Nat}
    (hr : root < f.traits.length) (havoids : f.Avoids c.name root) :
    (tableOf f.traits).Relocated (tableOf f'.traits) TypeTokens.text (f.catalog.Reaches root)
      (past k) where
  closed := by
    intro i e hi he p hp
    apply hi.supertype
    rw [hf, Table.catalog_supertypes, he]
    exact hp
  entry := by
    intro i hi
    have hlt : i < f.traits.length := by
      rw [hf] at hi
      have hlen : (tableOf f.traits).length = f.traits.length := List.length_map _
      rw [← hlen] at hr ⊢
      apply Table.lt_length_of_reaches _ hi hr
      intro e he p hp
      rw [hlen]
      exact lt_length_of_mem_supertypes he hp
    have hd : f.traits[i]? = some f.traits[i] := List.getElem?_eq_getElem hlt
    obtain ⟨d', hd', hcontent⟩ := h.exists_getElem? hd
    exact ⟨_, _, getElem?_tableOf hd, getElem?_tableOf hd',
      shown_interfaceOf hcontent fun path hpath => h.link? (havoids i _ hi hd path hpath) _⟩

/-- Traits interfere by their simple names only. If the items of a second source are those of a
first one and one more trait `t`, anywhere among them, in one of their modules or in a new module,
then the traits of the first file are in the second one too, and each path that ends in another
name than that of `t` means the trait that it meant, or still none. So derivations from a trait
that leads to others by such paths only come to the same outline, or both to none, and report the
same messages. Positions in the source may be other ones, and `t` may take the qualified name of
another trait. -/
theorem derive_added {source source' : String} {items items' : List Item} {t : TraitItem}
    (hitems : Grammar.parseFile? source = some items)
    (hitems' : Grammar.parseFile? source' = some items')
    (h : Added t (Item.unplacedAll items) (Item.unplacedAll items')) :
    ∃ f f' k, TraitFile.load source = .ok f ∧ TraitFile.load source' = .ok f' ∧
      (∃ home, f'.traits[k]?.map TraitEntry.content =
        some (TraitEntry.ofItem home t).content) ∧
      (∀ n d, f.traits[n]? = some d →
        ∃ d', f'.traits[past k n]? = some d' ∧ d'.content = d.content) ∧
      (∀ home path, Bypasses t.name path →
        link? f'.traits home path = (link? f.traits home path).map (past k)) ∧
      ∀ root, root < f.traits.length → f.Avoids t.name root → ∀ settings scheme,
        (f'.derive settings scheme (past k root)).1.record.map (·.outline TypeTokens.text) =
            (f.derive settings scheme root).1.record.map (·.outline TypeTokens.text) ∧
          (f'.derive settings scheme (past k root)).1.diagnostics.map (·.message) =
            (f.derive settings scheme root).1.diagnostics.map (·.message) := by
  have hf := load_eq_ok_iff.mpr ⟨items, hitems, rfl⟩
  have hf' := load_eq_ok_iff.mpr ⟨items', hitems', rfl⟩
  obtain ⟨k, home, hmore⟩ := h.oneMore
  refine ⟨_, _, k, hf, hf', ⟨home, ?_⟩, fun n d hd => hmore.exists_getElem? hd,
    fun home path hpath => hmore.link? hpath home, ?_⟩
  · rw [← List.getElem?_map]
    exact hmore.getElem?_self
  · intro root hr havoids settings scheme
    have hmore' : OneMore (TraitFile.ofItems items).traits (TraitFile.ofItems items').traits k
        (TraitEntry.ofItem home t).content := hmore
    have hcor := (hmore'.relocated (catalog_of_load hf) hr havoids).corresponds byText_view "::"
    rw [← catalog_of_load hf, ← catalog_of_load hf'] at hcor
    exact derive_eq_of_corresponds hcor settings scheme (Catalog.reaches_self _ root)

/-- A trait whose supertrait stands in a module. -/
def apartSource : String :=
  "mod a { trait Part { fn x(&self) -> u8; } }
  trait Whole: a::Part { fn y(&self) -> u8; }"

/-- The same with another trait of the same qualified name in between. -/
def crowdedSource : String :=
  "mod a { trait Part { fn x(&self) -> u8; } }
  trait Whole { fn run(&self); }
  trait Whole: a::Part { fn y(&self) -> u8; }"

theorem isIdentText_self : Text.isIdentText "self".toList = true := by decide

theorem isIdentText_a : Text.isIdentText "a".toList = true := by decide

theorem isIdentText_part : Text.isIdentText "Part".toList = true := by decide

theorem isIdentText_whole : Text.isIdentText "Whole".toList = true := by decide

/-- A method with a receiver and no other arguments. -/
def plainMethod (name : Ident) (output : Option (List Token)) : FnItem where
  attributes := []
  qualifiers := []
  name := name
  position := ⟨0, 0⟩
  generics := []
  predicates := []
  receiver := some [.punct '&' false, .ident ⟨"self", isIdentText_self⟩]
  arguments := []
  output := output
  hasBody := false

/-- A trait with one method. -/
def plainTrait (name : Ident) (supertraits : List Bound) (method : FnItem) : TraitItem where
  name := name
  position := ⟨0, 0⟩
  generics := []
  supertraits := supertraits
  predicates := []
  members := [.function method]

def partModule : Item :=
  .inlineModule ⟨"a", isIdentText_a⟩ [.interface (plainTrait ⟨"Part", isIdentText_part⟩ []
    (plainMethod ⟨"x", by decide⟩ (some [.ident ⟨"u8", by decide⟩])))]

def wholeTrait : Item :=
  .interface (plainTrait ⟨"Whole", isIdentText_whole⟩
    [.trait [⟨"a", isIdentText_a⟩, ⟨"Part", isIdentText_part⟩]]
    (plainMethod ⟨"y", by decide⟩ (some [.ident ⟨"u8", by decide⟩])))

/-- The trait in between, of which no record can be derived. -/
def otherWhole : TraitItem :=
  plainTrait ⟨"Whole", isIdentText_whole⟩ [] (plainMethod ⟨"run", by decide⟩ none)

/-- A source is parsed to items that can be evaluated but for their positions. -/
theorem exists_parseFile? (source : String) (expected : List Item)
    (h : (Grammar.parseFile? source).any
      (fun items => decide (Item.unplacedAll items = expected)) = true) :
    ∃ items, Grammar.parseFile? source = some items ∧ Item.unplacedAll items = expected := by
  obtain ⟨items, hitems, hexpected⟩ := (Option.any_eq_true _ _).mp h
  exact ⟨items, hitems, of_decide_eq_true hexpected⟩

theorem parseFile?_apartSource :
    ∃ items, Grammar.parseFile? apartSource = some items ∧
      Item.unplacedAll items = [partModule, wholeTrait] :=
  exists_parseFile? _ _ (by decide +kernel)

theorem parseFile?_crowdedSource :
    ∃ items, Grammar.parseFile? crowdedSource = some items ∧
      Item.unplacedAll items = [partModule, .interface otherWhole, wholeTrait] :=
  exists_parseFile? _ _ (by decide +kernel)

/-- The trait of the first file has its record in the second one too, though another trait has
taken its name. -/
theorem derive_crowdedSource :
    ∃ f f' k, TraitFile.load apartSource = .ok f ∧ TraitFile.load crowdedSource = .ok f' ∧
      1 < f.traits.length ∧ f.Avoids otherWhole.name 1 ∧
      (f.derive {} .suffixes 1).1.record.isSome ∧
      (f'.derive {} .suffixes (past k 1)).1.record.map (·.outline TypeTokens.text) =
        (f.derive {} .suffixes 1).1.record.map (·.outline TypeTokens.text) := by
  obtain ⟨items, hitems, hunplaced⟩ := parseFile?_apartSource
  obtain ⟨items', hitems', hunplaced'⟩ := parseFile?_crowdedSource
  have hadded : Added otherWhole (Item.unplacedAll items) (Item.unplacedAll items') := by
    rw [hunplaced, hunplaced']
    exact .here [partModule] [wholeTrait]
  obtain ⟨f, f', k, hf, hf', -, -, -, hderive⟩ := derive_added hitems hitems' hadded
  obtain ⟨f₁, hf₁, htest⟩ := exists_load_of_any apartSource
    (fun f => decide (1 < f.traits.length ∧
      (∀ d ∈ f.traits, ∀ path ∈ d.bounds, Bypasses otherWhole.name path) ∧
      (f.derive {} .suffixes 1).1.record.isSome)) (by decide +kernel)
  obtain rfl : f = f₁ := Except.ok.inj (hf.symm.trans hf₁)
  obtain ⟨hlength, hbounds, hrecord⟩ := of_decide_eq_true htest
  have havoids : f.Avoids otherWhole.name 1 :=
    fun _ d _ hd path hpath => hbounds d (List.mem_of_getElem? hd) path hpath
  exact ⟨f, f', k, hf, hf', hlength, havoids, hrecord,
    (hderive 1 hlength havoids {} .suffixes).1⟩

end Trait

end InterfaceRecord
