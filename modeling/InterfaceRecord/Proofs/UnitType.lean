/-
  Which types are shown as two parentheses. A text of tokens does not say where one token ends, but
  nothing that is read as a type is mistaken for the unit type: `gives_type` goes through all forms
  of types, and so of the types in a file only the unit type itself is void
  (`isVoid_iff_of_unmistakable`).
-/
import InterfaceRecord.Proofs.Compacting
import InterfaceRecord.Proofs.ItemNames

namespace InterfaceRecord.Source

open InterfaceRecord.Trait

/-! ## What tokens show -/

/-- The characters of tokens, blanks aside. -/
def solid (ts : List Token) : List Char :=
  (ts.flatMap Token.text).filter (· ≠ ' ')

variable {ts us : List Token}

theorem solid_append (ts us : List Token) : solid (ts ++ us) = solid ts ++ solid us := by
  simp [solid]

/-- The blanks between tokens make no difference. -/
theorem filter_spacedText (ts : List Token) : (spacedText ts).filter (· ≠ ' ') = solid ts := by
  induction ts using spacedText.induct with
  | case1 => rfl
  | case2 t => simp [spacedText, solid]
  | case3 a b ts ih =>
    have hgap : (if spaced a b then [' '] else []).filter (· ≠ ' ') = [] := by
      split <;> rfl
    rw [spacedText, List.filter_append, List.filter_append, hgap, ih]
    simp [solid]

/-- Some token shows more than blanks and parentheses. -/
def Marked (ts : List Token) : Prop :=
  ∃ t ∈ ts, ∃ c ∈ t.text, c ≠ ' ' ∧ c ≠ '(' ∧ c ≠ ')'

instance : DecidablePred Marked := fun ts =>
  decidable_of_iff (ts.any fun t => t.text.any fun c => c ≠ ' ' ∧ c ≠ '(' ∧ c ≠ ')')
    (by simp [Marked])

theorem Marked.append_left (h : Marked us) (ts : List Token) : Marked (ts ++ us) := by
  obtain ⟨t, ht, hc⟩ := h
  exact ⟨t, List.mem_append_right ts ht, hc⟩

theorem Marked.append_right (h : Marked ts) (us : List Token) : Marked (ts ++ us) := by
  obtain ⟨t, ht, hc⟩ := h
  exact ⟨t, List.mem_append_left us ht, hc⟩

/-- Identifiers hold neither blanks nor parentheses. -/
theorem marked_ident (i : Ident) (ts : List Token) : Marked (.ident i :: ts) := by
  cases h : i.text.toList with
  | nil => exact absurd h i.toList_ne_nil
  | cons c cs =>
    have hc : c ∈ i.text.toList := by rw [h]; exact List.mem_cons_self
    refine ⟨.ident i, List.mem_cons_self, c, hc, ?_⟩
    rcases Text.isWordTail_or_hash_of_mem i.isIdentText_toList hc with hword | rfl
    · refine ⟨?_, ?_, ?_⟩ <;>
        · rintro rfl
          revert hword
          decide
    · decide

theorem Marked.exists_mem_solid (h : Marked ts) : ∃ c ∈ solid ts, c ≠ '(' ∧ c ≠ ')' := by
  obtain ⟨t, ht, c, hc, hblank, hparens⟩ := h
  refine ⟨c, List.mem_filter.mpr ⟨List.mem_flatMap.mpr ⟨t, ht, hc⟩, ?_⟩, hparens⟩
  simpa using hblank

/-- The tokens show something if there are any. -/
def Visible (ts : List Token) : Prop := solid ts = [] → ts = []

theorem Marked.visible (h : Marked ts) : Visible ts := by
  intro hnil
  obtain ⟨c, hc, -⟩ := h.exists_mem_solid
  rw [hnil] at hc
  cases hc

/-- The tokens are not mistaken for nothing, nor for the unit type. -/
structure Unmistakable (ts : List Token) : Prop where
  visible : Visible ts
  unit : solid ts = ['(', ')'] → ts = TypeTokens.unit.tokens

theorem Marked.unmistakable (h : Marked ts) : Unmistakable ts where
  visible := h.visible
  unit := by
    intro hunit
    obtain ⟨c, hc, hopening, hclosing⟩ := h.exists_mem_solid
    rw [hunit] at hc
    simp [hopening, hclosing] at hc

/-- Parentheses are not mistaken if what is between them shows something. -/
theorem unmistakable_parens (hts : Visible ts) (hus : us = [] ∨ Marked us) :
    Unmistakable ([.opening .paren] ++ ts ++ [.closing .paren] ++ us) := by
  rcases hus with rfl | hus
  · have hsolid : solid ([.opening .paren] ++ ts ++ [.closing .paren] ++ []) =
        '(' :: (solid ts ++ [')']) := by
      rw [solid_append, solid_append, solid_append]
      simp [solid, Token.text, Delimiter.openingText, Delimiter.closingText]
    constructor
    · intro hnil
      rw [hsolid] at hnil
      cases hnil
    · intro hunit
      rw [hsolid] at hunit
      have hinner : solid ts = [] := by simpa using hunit
      rw [hts hinner]
      rfl
  · exact (hus.append_left _).unmistakable

/-- A type that is not mistaken is void exactly if it is the unit type. -/
theorem isVoid_iff_of_unmistakable (h : Unmistakable ts) :
    (⟨ts⟩ : TypeTokens).isVoid = true ↔ ts = [.opening .paren, .closing .paren] := by
  constructor
  · intro hvoid
    have htext : compact (spacedText ts) = ['(', ')'] := by
      rw [TypeTokens.isVoid, beq_iff_eq] at hvoid
      exact String.ofList_injective hvoid
    apply h.unit
    rw [← filter_spacedText, ← filter_compactFrom none]
    show (compact (spacedText ts)).filter (· ≠ ' ') = _
    rw [htext]
    rfl
  · rintro rfl
    rfl

end InterfaceRecord.Source

namespace InterfaceRecord.Source.Grammar

variable {n : Nested}

/-! ## Pieces that types are made of -/

/-- What is required in some cases does not matter. -/
theorem Gives.guarded {α : Type} {P : α → Prop} {c : Prop} [Decidable c] {p : Parser Unit}
    {q : Parser α} (hq : Gives q P) : Gives (if c then p >>= fun _ => q else q) P := by
  split
  · exact Gives.after _ fun _ => hq
  · exact hq

theorem gives_seq {ps : List (Parser Tokens)} {p : Parser Tokens} (hp : p ∈ ps)
    (h : Gives p Marked) : Gives (seq ps) Marked := by
  induction ps with
  | nil => cases hp
  | cons q ps ih =>
    rcases List.mem_cons.mp hp with rfl | hp
    · exact h.bind fun a ha => Gives.after _ fun b => gives_pure (ha.append_right b)
    · exact Gives.after _ fun a => (ih hp).bind fun b hb => gives_pure (hb.append_left a)

/-- A word is read where it stands. -/
theorem of_word {w : String} {ts rest : List Placed} {us : Tokens}
    (h : word w ts = some (us, rest)) :
    ∃ (i : Ident) (p : Position), ts = ⟨.ident i, p⟩ :: rest ∧ us = [.ident i] := by
  obtain ⟨⟨_, ts'⟩, hlook, hnext⟩ := Option.bind_eq_some_iff.mp h
  rw [require] at hlook
  split at hlook
  · rename_i hword
    cases hlook
    cases ts with
    | nil => cases hnext
    | cons t ts =>
      obtain ⟨t, p⟩ := t
      cases t <;> first | exact absurd hword Bool.false_ne_true | cases hnext
      exact ⟨_, _, rfl, rfl⟩
  · cases hlook

theorem gives_word (w : String) : Gives (word w) Marked := by
  intro ts us rest h
  obtain ⟨i, p, -, rfl⟩ := of_word h
  exact marked_ident i []

theorem gives_op {s : String} (h : Marked (opTokens s.toList)) : Gives (op s) Marked := by
  intro ts us rest hop
  rw [op] at hop
  split at hop
  · cases hop
    exact h
  · cases hop

theorem gives_lifetime : Gives lifetime Marked := by
  refine Gives.after _ fun i => gives_pure ?_
  exact (marked_ident i []).append_left [.punct '\'' true]

/-- Tokens as they stand in the source, from a word on. -/
theorem gives_verbatim {α : Type} (w : String) (q : Tokens → Parser α) :
    Gives (verbatim (word w >>= q)) fun us => us = [] ∨ Marked us := by
  intro ts us rest h
  obtain ⟨⟨b, rest'⟩, hread, heq⟩ := Option.map_eq_some_iff.mp h
  obtain ⟨⟨front, behind⟩, hword, -⟩ := Option.bind_eq_some_iff.mp hread
  obtain ⟨i, p, rfl, -⟩ := of_word hword
  cases heq
  rw [taken]
  cases (_ - _ : Nat) with
  | zero => exact Or.inl rfl
  | succ k => exact Or.inr (marked_ident i _)

/-! ## Paths -/

theorem gives_pathSegment (inExpr : Bool) :
    Gives (pathSegment n inExpr) fun r => Marked r.2.1 := by
  refine Gives.ifLook ?_ ?_
  · exact Gives.after _ fun i => gives_pure (marked_ident i [])
  · exact Gives.after _ fun r => Gives.after _ fun _ => Gives.after _ fun args =>
      gives_pure (marked_ident r.1 args)

/-- The tokens of a path show something if those in front of its segments or those of its first
segment do. -/
theorem marked_ofSegments {absolute qualified : Bool} {front : Tokens}
    {first : Ident × Tokens × Bool} (rest : List (Ident × Tokens × Bool))
    (h : Marked front ∨ Marked first.2.1) :
    Marked (ofSegments absolute qualified front (first :: rest)).tokens := by
  show Marked (front ++ (((first :: rest).map (·.2.1)).intersperse _).flatten)
  rcases h with h | h
  · exact h.append_right _
  · apply Marked.append_left
    cases rest with
    | nil => simpa using h
    | cons second rest =>
      simp only [List.map_cons, List.intersperse_cons_cons, List.flatten_cons]
      exact h.append_right _

theorem gives_pathSegments (inExpr : Bool) (more : Look) :
    Gives (pathSegments n inExpr more) fun segments =>
      ∃ first rest, segments = first :: rest ∧ Marked first.2.1 :=
  (gives_pathSegment inExpr).bind fun first hfirst => Gives.after _ fun rest =>
    gives_pure ⟨first, rest, rfl, hfirst⟩

theorem gives_simplePath (inExpr : Bool) :
    Gives (simplePath n inExpr) fun p => Marked p.tokens := by
  refine Gives.after _ fun _ => Gives.after _ fun _ => (gives_pathSegments _ _).bind ?_
  rintro _ ⟨first, rest, rfl, hfirst⟩
  exact gives_pure (marked_ofSegments rest (Or.inr hfirst))

theorem gives_anyPath (inExpr : Bool) : Gives (anyPath n inExpr) fun p => Marked p.tokens := by
  refine Gives.ifLook ?_ (gives_simplePath inExpr)
  refine (gives_seq List.mem_cons_self (gives_op (by decide))).bind fun front hfront => ?_
  refine (gives_pathSegments _ _).bind ?_
  rintro _ ⟨first, rest, rfl, -⟩
  exact gives_pure (marked_ofSegments rest (Or.inl hfront))

/-! ## Bounds -/

theorem gives_capturedParams : Gives capturedParams Marked :=
  (gives_seq List.mem_cons_self (gives_word "use")).bind fun _ hfront =>
    Gives.after _ fun _ => Gives.after _ fun _ =>
      gives_pure ((hfront.append_right _).append_right _)

theorem gives_traitBound (markable : Bool) :
    Gives (traitBound n markable) fun r => Marked r.2.1 := by
  refine Gives.after _ fun _ => Gives.after _ fun _ => Gives.after _ fun _ => Gives.after _ fun _ =>
    Gives.after _ fun _ => ?_
  dsimp only
  split <;>
    · refine Gives.after _ fun _ => (gives_simplePath false).bind fun path hpath =>
        Gives.after _ fun _ => ?_
      split
      · exact gives_failure
      · exact gives_pure ((hpath.append_left _).append_right _)

theorem gives_bound (capturing markable : Bool) :
    Gives (bound n capturing markable) fun b => Marked b.tokens := by
  apply gives_choose
  simp only [List.forall_mem_cons]
  refine ⟨?_, ?_, ?_, ?_, fun _ hb => absurd hb List.not_mem_nil⟩
  · exact gives_lifetime.bind fun _ h => gives_pure h
  · refine gives_capturedParams.bind fun _ h => ?_
    split
    · exact gives_pure h
    · exact gives_failure
  · exact ((gives_traitBound markable).group .paren).bind fun _ h =>
      gives_pure ((h.append_left _).append_right _)
  · exact (gives_traitBound markable).bind fun _ h => gives_pure h

theorem gives_boundSum (plus capturing markable : Bool) :
    Gives (boundSum n plus capturing markable) fun r => Marked r.2 := by
  refine (gives_bound capturing markable).bind fun first hfirst => ?_
  dsimp only
  split <;>
    · refine Gives.after _ fun _ => ?_
      split
      · exact gives_pure (hfirst.append_right _)
      · exact gives_failure

theorem gives_bareObject (plus : Bool) : Gives (bareObject n plus) fun t => Marked t.tokens :=
  (gives_boundSum plus false false).bind fun _ h => gives_pure h

theorem gives_strictBounds : Gives (strictBounds n) fun ts => ts = [] ∨ Marked ts := by
  have hpiece : Gives (seq [op "+", do pure (← bound n false false).tokens]) Marked :=
    gives_seq List.mem_cons_self (gives_op (by decide))
  refine (hpiece.whileLook _).bind fun found hfound => gives_pure ?_
  cases found with
  | nil => exact Or.inl rfl
  | cons ts found => exact Or.inr ((hfound ts List.mem_cons_self).append_right _)

/-! ## Types -/

theorem gives_functionType : Gives (functionType n) Marked :=
  gives_seq (p := word "fn") (by simp) (gives_word "fn")

theorem gives_pathType (plus : Bool) (binder : Tokens) :
    Gives (pathType n plus binder) fun t => Marked t.tokens := by
  refine (gives_anyPath false).bind fun path hpath => ?_
  dsimp only
  split
  · exact gives_pure hpath
  · refine Gives.ifLook ?_ (Gives.ifLook ?_ (gives_pure hpath))
    · exact Gives.after _ fun _ => gives_pure (hpath.append_right _)
    · split <;>
        exact Gives.after _ fun _ => gives_pure ((hpath.append_left _).append_right _)

/-- Where the types inside show something, so does what stands between parentheses, if there is
anything. -/
theorem gives_parenContent (hn : ∀ plus, Gives (n.type plus) fun t => Visible t.tokens) :
    Gives (parenContent n) fun r => Visible r.2 := by
  apply gives_choose
  simp only [List.forall_mem_cons]
  refine ⟨?_, ?_, ?_, ?_, fun _ hb => absurd hb List.not_mem_nil⟩
  · exact gives_pure fun _ => rfl
  · exact (gives_bareObject true).bind fun _ h => gives_pure h.visible
  · exact (gives_traitBound false).bind fun _ h => gives_pure h.visible
  · refine (hn true).bind fun first hfirst => Gives.ifLook ?_ (gives_pure hfirst)
    refine (gives_seq List.mem_cons_self (gives_op (by decide))).bind fun _ h => ?_
    exact gives_pure (h.append_left _).visible

theorem gives_parenType (hn : ∀ plus, Gives (n.type plus) fun t => Visible t.tokens)
    (plus : Bool) : Gives (parenType n plus) fun t => Unmistakable t.tokens := by
  refine ((gives_parenContent hn).group .paren).bind ?_
  rintro ⟨kind, ts⟩ hts
  have halone : Unmistakable ([.opening .paren] ++ ts ++ [.closing .paren]) := by
    have h := unmistakable_parens hts (Or.inl rfl)
    rwa [List.append_nil] at h
  cases kind with
  | relaxedBound =>
    exact gives_strictBounds.bind fun rest hrest => gives_pure (unmistakable_parens hts hrest)
  | bound =>
    dsimp only
    split
    · exact gives_strictBounds.bind fun rest hrest => gives_pure (unmistakable_parens hts hrest)
    · exact gives_pure (unmistakable_parens hts (Or.inl rfl))
  | other => exact gives_pure halone

/-- Among all forms of types only parentheses with nothing between them are shown as such. -/
theorem gives_type (hn : ∀ plus, Gives (n.type plus) fun t => Visible t.tokens) (plus : Bool) :
    Gives (type n plus) fun t => Unmistakable t.tokens := by
  have hmarked {p : Parser Tokens} (hp : Gives p Marked) :
      Gives (do pure ⟨← p, .other⟩ : Parser TypeSyntax) fun t => Unmistakable t.tokens :=
    hp.bind fun _ h => gives_pure h.unmistakable
  refine Gives.after _ fun binder => Gives.guarded (gives_choose ?_)
  simp only [List.forall_mem_cons]
  refine ⟨gives_parenType hn plus, hmarked ?function, ?path, ?dynPointer, hmarked ?dyn,
    hmarked ?bracket, hmarked ?pointer, hmarked ?reference, hmarked ?never, hmarked ?impl,
    hmarked ?placeholder, ?object, fun _ hb => absurd hb List.not_mem_nil⟩
  case function => exact gives_functionType.bind fun _ h => gives_pure (h.append_left binder)
  case path => exact (gives_pathType plus binder).imp fun _ h => h.unmistakable
  case dynPointer =>
    refine (gives_verbatim "dyn" _).bind fun ts hts => gives_pure ?_
    rcases hts with rfl | hts
    · exact ⟨fun _ => rfl, fun h => by cases h⟩
    · exact hts.unmistakable
  case dyn => exact gives_seq List.mem_cons_self (gives_word "dyn")
  case bracket =>
    have hopening : Marked [.opening .bracket] := by decide
    exact Gives.after _ fun _ => gives_pure ((hopening.append_right _).append_right _)
  case pointer => exact gives_seq List.mem_cons_self (gives_op (by decide))
  case reference => exact gives_seq List.mem_cons_self (gives_op (by decide))
  case never => exact gives_op (by decide)
  case impl => exact gives_seq List.mem_cons_self (gives_word "impl")
  case placeholder => exact gives_word "_"
  case object => exact (gives_bareObject plus).imp fun _ h => h.unmistakable

theorem gives_type_ofDepth (depth : Nat) (plus : Bool) :
    Gives ((Nested.ofDepth depth).type plus) fun t => Unmistakable t.tokens := by
  induction depth generalizing plus with
  | zero => exact gives_failure
  | succ depth ih =>
    exact gives_type (fun plus => (ih plus).imp fun _ h => h.visible) plus

end InterfaceRecord.Source.Grammar
