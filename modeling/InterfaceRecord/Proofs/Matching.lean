/-
  What the comparison of types by their texts comes to in a traversal. The member that gives a
  component its first value has a type of the same text, and where both types are plain it is
  spelled the same; and under the strict policy plain types that are spelled differently are
  reported (`traverse_spelled`). A blank inside a literal can make different types the same
  (`traverse_blankSource`).
-/
import InterfaceRecord.Proofs.Course
import InterfaceRecord.Proofs.Rendering
import InterfaceRecord.Proofs.Surveying

namespace InterfaceRecord

namespace Catalog

variable {I M T S : Type} {g : Catalog I M T S Unit}

/-- An initializer is a member of that name and type, with the marks that it needs. -/
theorem initializer?_eq_some {i : I} {target : String} {type : T} {init : Initializer}
    (h : g.initializer? i target type = some init) :
    (init = .method target ∧ ∃ m ∈ g.methods i, g.isInitializerMethod target type m = true) ∨
      (init = .constant target ∧
        ∃ c ∈ g.constants i, g.isInitializerConstant target type c = true) := by
  rw [initializer?] at h
  split at h
  · rename_i hmethods
    cases h
    exact Or.inl ⟨rfl, List.any_eq_true.mp hmethods⟩
  · split at h
    · rename_i hconstants
      cases h
      exact Or.inr ⟨rfl, List.any_eq_true.mp hconstants⟩
    · cases h

/-- A kept method comes first among the candidates of its name. -/
theorem first?_of_mem_kept {ds : List (I × M)} {d : I × M} (h : d ∈ g.kept ds) :
    g.first? ds (g.methodName d.2) = some d := by
  rw [first?_eq_find?_kept]
  exact find?_of_nodup_map (fun d : I × M => g.methodName d.2) (g.nodup_names_kept ds) h

/-- What the reader is told of a method whose name `first` has taken for another type. -/
def conflictOf (g : Catalog I M T S Unit) (first d : I × M) : Fault :=
  .conflict (g.methodName d.2) (g.typeText (g.returnType first.2)) (g.simpleName first.1)
    (g.typeText (g.returnType d.2)) (g.simpleName d.1)

/-- A candidate of another type than the kept method of its name is in conflict with it. -/
theorem fault?_of_mem_kept {before : List (I × M)} {first d : I × M}
    (hfirst : first ∈ g.kept before) (hname : g.methodName first.2 = g.methodName d.2)
    (hd : g.isAccepted d = true)
    (htype : g.sameType (g.returnType first.2) (g.returnType d.2) = false) :
    g.fault? .reject before d = some (g.conflictOf first d) := by
  have hlookup : g.first? before (g.methodName d.2) = some first := by
    rw [← hname]
    exact first?_of_mem_kept hfirst
  have hconflict : g.conflict? first d = some (g.conflictOf first d) := by
    rw [conflict?, htype]
    rfl
  rw [isAccepted] at hd
  rw [fault?]
  split at hd
  · rename_i name type hruling
    obtain ⟨rfl, -, -⟩ := g.of_rulingOf_accept hruling
    rw [hruling]
    dsimp only
    rw [hlookup]
    exact hconflict
  · cases hd

/-- What is wrong with a method is found. -/
theorem mem_findings_of_fault? {policy : ConflictPolicy} {before : List (I × M)} {d : I × M}
    {fault : Fault} (h : g.fault? policy before d = some fault) (after : List (I × M)) :
    ⟨fault, g.methodSite d.2⟩ ∈ g.findings policy (before ++ d :: after) := by
  have hupTo : before ++ [d] <+: before ++ d :: after :=
    List.prefix_append_right_inj before |>.mpr (List.prefix_append [d] after)
  have hfinding : ⟨fault, g.methodSite d.2⟩ ∈ g.findings policy (before ++ [d]) := by
    rw [findings_concat, h]
    exact List.mem_append_right _ List.mem_cons_self
  exact (g.findings_prefix policy hupTo).subset hfinding

end Catalog

namespace Trait

open InterfaceRecord.Source

/-! ## Types as they are written -/

namespace TypeTokens

/-- The texts of a type's tokens. -/
def spelled (t : TypeTokens) : List (List Char) := t.tokens.map Token.text

def isPlain (t : TypeTokens) : Bool := t.tokens.all Token.isPlain

/-- The types have the same text, and are spelled the same if they are plain. -/
def WrittenAlike (t u : TypeTokens) : Prop :=
  t.text = u.text ∧ (t.isPlain = true → u.isPlain = true → t.spelled = u.spelled)

theorem writtenAlike_of_same {t u : TypeTokens} (h : view.same t u = true) : t.WrittenAlike u := by
  have htext : t.text = u.text := beq_iff_eq.mp h
  refine ⟨htext, fun ht hu => ?_⟩
  exact map_text_eq_of_render_eq (List.all_eq_true.mp ht) (List.all_eq_true.mp hu) htext

/-- Plain types that are spelled differently are not the same. -/
theorem same_eq_false {t u : TypeTokens} (ht : t.isPlain = true) (hu : u.isPlain = true)
    (h : t.spelled ≠ u.spelled) : view.same t u = false := by
  rw [Bool.eq_false_iff]
  intro hsame
  exact h ((writtenAlike_of_same hsame).2 ht hu)

end TypeTokens

/-! ## Traversals of a file -/

/-- The member of an interface by which a component of that type gets its first value. -/
def Initializes (f : TraitFile) (i : Nat) (type : TypeTokens) : Initializer → Prop
  | .method name => ∃ m ∈ f.catalog.methods i, f.catalog.isStatic m = true ∧
      f.catalog.methodName m = name ∧ (f.catalog.returnType m).WrittenAlike type
  | .constant name => ∃ c ∈ f.catalog.constants i, c.name = name ∧ c.type.WrittenAlike type

theorem initializes_of_initializer? {f : TraitFile} {i : Nat} {target : String}
    {type : TypeTokens} {init : Initializer}
    (h : f.catalog.initializer? i target type = some init) : Initializes f i type init := by
  rcases Catalog.initializer?_eq_some h with ⟨rfl, m, hm, hfits⟩ | ⟨rfl, c, hc, hfits⟩
  · rw [Catalog.isInitializerMethod] at hfits
    simp only [Bool.and_eq_true, beq_iff_eq] at hfits
    obtain ⟨⟨⟨hstatic, -⟩, hname⟩, hsame⟩ := hfits
    exact ⟨m, hm, hstatic, hname, TypeTokens.writtenAlike_of_same hsame⟩
  · rw [Catalog.isInitializerConstant] at hfits
    simp only [Bool.and_eq_true, beq_iff_eq] at hfits
    obtain ⟨⟨-, hname⟩, hsame⟩ := hfits
    exact ⟨c, hc, hname, TypeTokens.writtenAlike_of_same hsame⟩

/-- The handle of a declared method names its interface. -/
theorem interface_of_mem_methods {f : TraitFile} {i : Nat} {m : MethodHandle}
    (h : m ∈ f.catalog.methods i) : m.interface = i := by
  simp only [TraitFile.catalog, Table.catalog] at h
  cases hd : f.interfaces[i]? with
  | none => rw [hd] at h; cases h
  | some d =>
    rw [hd] at h
    obtain ⟨k, -, rfl⟩ := List.mem_map.mp h
    rfl

/-- A component's first value comes from a member whose type has the text of the component's, and
the same spelling if both are plain. Under the strict policy a candidate whose name was kept for
another type, both of them plain, is reported. -/
theorem traverse_spelled (f : TraitFile) (policy : ConflictPolicy) (root : Nat) :
    (∀ c ∈ (f.catalog.traverse policy root ()).components, ∀ init ∈ c.initializer,
      Initializes f c.origin.interface (f.catalog.returnType c.origin) init) ∧
    ∀ before d after, policy = .reject →
      (f.catalog.traverse policy root ()).examined = before ++ d :: after →
      f.catalog.isAccepted d = true →
      ∀ first ∈ f.catalog.kept before, f.catalog.methodName first.2 = f.catalog.methodName d.2 →
        (f.catalog.returnType first.2).isPlain = true →
        (f.catalog.returnType d.2).isPlain = true →
        (f.catalog.returnType first.2).spelled ≠ (f.catalog.returnType d.2).spelled →
        ⟨f.catalog.conflictOf first d, f.catalog.methodSite d.2⟩ ∈
          (f.catalog.traverse policy root ()).diagnostics := by
  have hcov := (f.catalog.covers_traverse policy root).2.1.accounts
  constructor
  · intro c hc init hinit
    rw [hcov.components] at hc
    obtain ⟨d, hd, rfl⟩ := List.mem_map.mp hc
    have hmem := (f.catalog.kept_sublist _).subset hd
    have hmethod := (f.catalog.mem_declarations.mp hmem).2
    have hinit' : f.catalog.initializerOf d = some init := hinit
    obtain ⟨target, -, hfound⟩ := Option.bind_eq_some_iff.mp hinit'
    have hinterface : (f.catalog.component d).origin.interface = d.1 :=
      interface_of_mem_methods hmethod
    rw [hinterface]
    exact initializes_of_initializer? hfound
  · rintro before d after rfl hexamined haccepted first hfirst hname hplain hplain' hspelled
    have hfault := Catalog.fault?_of_mem_kept hfirst hname haccepted
      (TypeTokens.same_eq_false hplain hplain' hspelled)
    rw [hcov.diagnostics, ← hcov.examined, hexamined]
    exact Catalog.mem_findings_of_fault? hfault after

/-- A component with a first value, and one that a supertrait gives another type. -/
def plainSource : String :=
  "trait T: S { fn m() -> u8; #[initializer(m)] fn x(&self) -> u8; fn y(&self) -> u8; }
  trait S { fn y(&self) -> [u8; 4]; }"

theorem traverse_plainSource :
    ∃ f, TraitFile.load plainSource = .ok f ∧
      Initializes f 0 (f.catalog.returnType ⟨0, 1⟩) (.method "m") ∧
      ⟨f.catalog.conflictOf (0, ⟨0, 2⟩) (1, ⟨1, 0⟩), f.catalog.methodSite ⟨1, 0⟩⟩ ∈
        (f.catalog.traverse .reject 0 ()).diagnostics := by
  let before : List (Nat × MethodHandle) := [(0, ⟨0, 0⟩), (0, ⟨0, 1⟩), (0, ⟨0, 2⟩)]
  obtain ⟨f, hf, h⟩ := exists_load_of_any plainSource (fun f => decide (
    (∃ c ∈ (f.catalog.traverse .reject 0 ()).components,
      c.origin = ⟨0, 1⟩ ∧ c.initializer = some (.method "m")) ∧
    (f.catalog.traverse .reject 0 ()).examined = before ++ (1, ⟨1, 0⟩) :: [] ∧
    f.catalog.isAccepted (1, ⟨1, 0⟩) = true ∧
    (0, ⟨0, 2⟩) ∈ f.catalog.kept before ∧
    f.catalog.methodName ⟨0, 2⟩ = f.catalog.methodName ⟨1, 0⟩ ∧
    (f.catalog.returnType ⟨0, 2⟩).isPlain = true ∧
    (f.catalog.returnType ⟨1, 0⟩).isPlain = true ∧
    (f.catalog.returnType ⟨0, 2⟩).spelled ≠ (f.catalog.returnType ⟨1, 0⟩).spelled))
    (by decide +kernel)
  obtain ⟨⟨c, hc, horigin, hinit⟩, hexamined, haccepted, hkept, hname, hplain, hplain', hspelled⟩ :=
    of_decide_eq_true h
  obtain ⟨hfirst, hconflict⟩ := traverse_spelled f .reject 0
  refine ⟨f, hf, ?_, ?_⟩
  · have hvalue := hfirst c hc _ hinit
    rwa [horigin] at hvalue
  · exact hconflict before _ [] rfl hexamined haccepted _ hkept hname hplain hplain' hspelled

/-- A method and a component whose types differ by a blank in a literal. -/
def blankSource : String :=
  "trait T \x7b fn m() -> [u8; f(\" ,\")]; #[initializer(m)] fn x(&self) -> [u8; f(\",\")]; \x7d"

/-- The method gives the component its first value although its type is spelled differently. -/
theorem traverse_blankSource :
    ∃ f, TraitFile.load blankSource = .ok f ∧
      ∃ c ∈ (f.catalog.traverse .reject 0 ()).components, c.initializer = some (.method "m") ∧
        ∀ m ∈ f.catalog.methods 0, f.catalog.isStatic m = true → f.catalog.methodName m = "m" →
          (f.catalog.returnType m).spelled ≠ (f.catalog.returnType c.origin).spelled := by
  obtain ⟨f, hf, h⟩ := exists_load_of_any blankSource (fun f => decide (
    ∃ c ∈ (f.catalog.traverse .reject 0 ()).components, c.initializer = some (.method "m") ∧
      ∀ m ∈ f.catalog.methods 0, f.catalog.isStatic m = true → f.catalog.methodName m = "m" →
        (f.catalog.returnType m).spelled ≠ (f.catalog.returnType c.origin).spelled))
    (by decide +kernel)
  exact ⟨f, hf, of_decide_eq_true h⟩

end Trait

end InterfaceRecord
