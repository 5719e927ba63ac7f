/-
  What holds of whatever a parser answers, combinator by combinator. A property that is passed on
  from the items inside a module to the module holds of all items of a source file
  (`Inherited.forall_of_parseFile?`). So the traits and inline modules of a file have proper names
  (`named_of_parseFile?`): words that stand for places, such as `super`, are none.
-/
import InterfaceRecord.Proofs.Surveying
import InterfaceRecord.Source.Grammar.File

namespace InterfaceRecord.Source.Grammar

open InterfaceRecord.Trait

variable {α β : Type} {P : α → Prop} {Q : β → Prop}

/-! ## Answers of parsers -/

/-- Whatever the parser answers, `P` holds of it. -/
def Gives (p : Parser α) (P : α → Prop) : Prop :=
  ∀ ts a rest, p ts = some (a, rest) → P a

theorem gives_any (p : Parser α) : Gives p fun _ => True :=
  fun _ _ _ _ => trivial

theorem gives_failure : Gives (failure : Parser α) P := by
  intro ts a rest h
  cases h

theorem gives_pure {a : α} (h : P a) : Gives (pure a) P := by
  intro ts b rest hb
  cases hb
  exact h

theorem Gives.imp {p : Parser α} {P' : α → Prop} (h : Gives p P) (hP : ∀ a, P a → P' a) :
    Gives p P' :=
  fun ts a rest ha => hP a (h ts a rest ha)

theorem Gives.bind {p : Parser α} {q : α → Parser β} (hp : Gives p P)
    (hq : ∀ a, P a → Gives (q a) Q) : Gives (p >>= q) Q := by
  intro ts b rest h
  have h' : (p ts).bind (fun r => q r.1 r.2) = some (b, rest) := h
  obtain ⟨⟨a, ts'⟩, ha, hb⟩ := Option.bind_eq_some_iff.mp h'
  exact hq a (hp ts a ts' ha) ts' b rest hb

/-- What comes before does not matter. -/
theorem Gives.after {q : α → Parser β} (p : Parser α) (hq : ∀ a, Gives (q a) Q) :
    Gives (p >>= q) Q :=
  (gives_any p).bind fun a _ => hq a

theorem Gives.ifLook {l : Look} {p q : Parser α} (hp : Gives p P) (hq : Gives q P) :
    Gives (ifLook l p q) P := by
  intro ts a rest h
  rw [Grammar.ifLook] at h
  split at h
  · exact hp ts a rest h
  · exact hq ts a rest h

theorem gives_choose {branches : List (Look × Parser α)} (h : ∀ b ∈ branches, Gives b.2 P) :
    Gives (choose branches) P := by
  induction branches with
  | nil => exact gives_failure
  | cons b branches ih =>
    exact (h b List.mem_cons_self).ifLook (ih fun c hc => h c (List.mem_cons_of_mem b hc))

theorem Gives.group {p : Parser α} (d : Delimiter) (h : Gives p P) : Gives (group d p) P := by
  refine Gives.after _ fun _ => Gives.after _ fun _ => h.bind fun a ha => Gives.after _ fun t => ?_
  split
  · exact gives_pure ha
  · exact gives_failure

theorem Gives.loopWithin {p : Parser (Option α)} (h : Gives p fun o => ∀ a ∈ o, P a)
    (fuel : Nat) : Gives (loopWithin p fuel) fun as => ∀ a ∈ as, P a := by
  induction fuel with
  | zero => exact gives_failure
  | succ fuel ih =>
    refine h.bind fun o ho => ?_
    cases o with
    | none => exact gives_pure fun _ ha => absurd ha List.not_mem_nil
    | some a =>
      refine ih.bind fun as has => gives_pure ?_
      exact List.forall_mem_cons.mpr ⟨ho a rfl, has⟩

theorem Gives.whileLook {p : Parser α} (l : Look) (h : Gives p P) :
    Gives (whileLook l p) fun as => ∀ a ∈ as, P a := by
  intro ts as rest has
  refine Gives.loopWithin (Gives.ifLook (h.bind fun a ha => ?_) ?_) (ts.length + 1) ts as rest has
  · exact gives_pure fun b hb => Option.some.inj hb ▸ ha
  · exact gives_pure fun b hb => by cases hb

theorem Gives.untilDone {p : Parser α} (h : Gives p P) :
    Gives (untilDone p) fun as => ∀ a ∈ as, P a :=
  h.whileLook _

/-- An identifier has passed the test it was read with. -/
theorem gives_identAt (l : Look) :
    Gives (identAt l) fun r => ∃ ts, l (⟨.ident r.1, r.2⟩ :: ts) = true := by
  intro ts r rest h
  obtain ⟨⟨_, ts'⟩, hlook, hnext⟩ := Option.bind_eq_some_iff.mp h
  rw [require] at hlook
  split at hlook
  · rename_i hl
    cases hlook
    cases ts with
    | nil => cases hnext
    | cons t ts =>
      obtain ⟨t, p⟩ := t
      cases t <;> cases hnext
      exact ⟨_, hl⟩
  · cases hlook

/-! ## Names of items -/

/-- What an item may be called. One word that is reserved can still name a module. -/
def IsItemName (i : Ident) : Prop :=
  i.isReserved = false ∨ i.text = "try"

theorem IsItemName.text_ne_super {i : Ident} (h : IsItemName i) : i.text ≠ "super" := by
  intro hs
  rcases h with h | h
  · rw [Ident.isReserved, hs] at h
    revert h
    decide
  · rw [hs] at h
    revert h
    decide

theorem gives_nameAt : Gives nameAt fun r => IsItemName r.1 := by
  intro ts r rest h
  obtain ⟨ts, hl⟩ := gives_identAt _ ts r rest h
  exact Or.inl (by simpa [Look.name] using hl)

theorem gives_moduleName :
    Gives (identAt (Look.name ||| Look.word "try")) fun r => IsItemName r.1 := by
  intro ts r rest h
  obtain ⟨ts, hl⟩ := gives_identAt _ ts r rest h
  have hl' : (!r.1.isReserved || r.1.text == "try") = true := hl
  simpa [IsItemName] using hl'

/-! ## What holds of all items -/

/-- A property of items that a trait has by the way it is read, an inline module if the items inside
it have it, and any other item at any rate. -/
structure Inherited (R : Item → Prop) : Prop where
  interface : ∀ (depth : Nat) {name : Ident} (position : Position) (params : List GenericParam),
    IsItemName name → Gives (traitRest (Nested.ofDepth depth) name position params) R
  inlineModule : ∀ {name : Ident} {its : List Item}, IsItemName name → (∀ i ∈ its, R i) →
    R (.inlineModule name its)
  fileModule : ∀ name : Ident, R (.fileModule name)
  others : R .other

namespace Inherited

variable {R : Item → Prop}

theorem gives_other (h : Inherited R) (p : Parser α) : Gives (other p) R :=
  Gives.after p fun _ => gives_pure h.others

theorem gives_traitItem (h : Inherited R) (depth : Nat) (aliasAllowed : Bool) :
    Gives (traitItem (Nested.ofDepth depth) aliasAllowed) R := by
  refine Gives.after _ fun _ => gives_nameAt.bind fun r hr => Gives.after _ fun params => ?_
  apply gives_choose
  rw [List.forall_mem_cons, List.forall_mem_singleton]
  constructor
  · exact Gives.after _ fun _ => Gives.after _ fun _ => Gives.after _ fun _ =>
      Gives.after _ fun _ => gives_pure h.others
  · exact h.interface depth r.2 params.1 hr

theorem gives_moduleItem (h : Inherited R) {n : Nested} (hn : Gives n.item R) :
    Gives (moduleItem n) R := by
  refine Gives.after _ fun _ => Gives.after _ fun _ => gives_moduleName.bind fun r hr => ?_
  have hits : Gives (untilDone (do let _ ← outerAttributes n; n.item)) fun its => ∀ i ∈ its, R i :=
    Gives.untilDone (Gives.after _ fun _ => hn)
  apply gives_choose
  rw [List.forall_mem_cons, List.forall_mem_singleton]
  constructor
  · exact Gives.after _ fun _ => gives_pure (h.fileModule r.1)
  · exact (Gives.group .brace (Gives.after _ fun _ => hits)).bind
      fun _ hits => gives_pure (h.inlineModule hr hits)

/-- An item has the property if those inside it have it. -/
theorem gives_item (h : Inherited R) {depth : Nat} (hn : Gives (Nested.ofDepth depth).item R) :
    Gives (item (Nested.ofDepth depth)) R := by
  refine Gives.after _ fun _ => gives_choose ?_
  simp only [List.forall_mem_cons]
  have hfunction : Gives (do
      let _ ← signature (Nested.ofDepth depth) false
      ifLook (Look.op ";") (other semicolon)
        (other (bodyAttributes (Nested.ofDepth depth)))) R :=
    Gives.after _ fun _ => (h.gives_other _).ifLook (h.gives_other _)
  have htrait : Gives (traitItem (Nested.ofDepth depth) false) R := h.gives_traitItem depth false
  exact ⟨hfunction, h.gives_other _, h.gives_other _, h.gives_other _, h.gives_other _,
    h.gives_other _, Gives.after _ fun _ => htrait, Gives.after _ fun _ => htrait, h.gives_other _,
    h.gives_other _, h.gives_moduleItem hn, h.gives_other _, h.gives_other _, h.gives_other _,
    h.gives_other _, h.gives_traitItem depth true, Gives.after _ fun _ => htrait, h.gives_other _,
    h.gives_other _, h.gives_other _, fun _ hb => absurd hb List.not_mem_nil⟩

theorem gives_item_ofDepth (h : Inherited R) (depth : Nat) :
    Gives (Nested.ofDepth depth).item R := by
  induction depth with
  | zero => exact gives_failure
  | succ depth ih => exact h.gives_item ih

/-- All items of a source file have the property. -/
theorem forall_of_parseFile? (h : Inherited R) {source : String} {items : List Item}
    (hitems : parseFile? source = some items) : ∀ i ∈ items, R i := by
  obtain ⟨ts, -, hwhole⟩ := Option.bind_eq_some_iff.mp hitems
  rw [whole] at hwhole
  have hits : Gives (fileItems (Nested.forLength ts.length)) fun its => ∀ i ∈ its, R i :=
    Gives.after _ fun _ => Gives.untilDone (Gives.after _ fun _ => h.gives_item_ofDepth _)
  split at hwhole
  · rename_i its hp
    cases hwhole
    exact hits ts items [] hp
  · cases hwhole

end Inherited

theorem inherited_named : Inherited (Named IsItemName) where
  interface _ _ _ _ h :=
    Gives.after _ fun _ => Gives.after _ fun _ => Gives.after _ fun _ => gives_pure (.interface h)
  inlineModule := .inlineModule
  fileModule _ := .fileModule
  others := .other

/-- The traits and inline modules of a source file are properly named. -/
theorem named_of_parseFile? {source : String} {items : List Item}
    (h : parseFile? source = some items) : ∀ i ∈ items, Named IsItemName i :=
  inherited_named.forall_of_parseFile? h

end InterfaceRecord.Source.Grammar
