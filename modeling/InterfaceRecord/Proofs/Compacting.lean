/-
  Compact texts. As long as no two blanks stand side by side, which of them `compact` leaves out is
  decided by their neighbours in the text (`compactFrom_eq_filter`), though it looks at what it has
  kept so far. The result is in a form of its own (`isCompact_compactFrom`), and texts in that form
  are left as they are (`compactFrom_of_isCompact`). So a type is void exactly if its text is that
  of two parentheses, blanks aside (`compact_normalForm`).
-/
import InterfaceRecord.Proofs.Rendering
import InterfaceRecord.Trait.Entry
import Mathlib.Data.List.Chain

namespace InterfaceRecord.Source

/-! ## Blanks in a text -/

/-- No two blanks stand side by side. -/
def SingleBlanks (cs : List Char) : Prop :=
  cs.IsChain fun a b => ¬ (a = ' ' ∧ b = ' ')

/-- No blank stands right behind a character that glues the next one, or right before one that
glues the previous one. -/
def IsCompact (cs : List Char) : Prop :=
  cs.IsChain fun a b =>
    ¬ (gluesNext a = true ∧ b = ' ') ∧ ¬ (a = ' ' ∧ gluesPrevious b = true)

/-- At the position `k` of the text stands a blank, and the character before it glues the next
one, or the one behind it the previous one. -/
def isSuperfluous (cs : List Char) (k : Nat) : Bool :=
  cs[k]? == some ' ' && ((cs.take k).getLast?.any gluesNext || cs[k + 1]?.any gluesPrevious)

instance (cs : List Char) : Decidable (SingleBlanks cs) :=
  inferInstanceAs (Decidable (List.IsChain _ cs))

instance (cs : List Char) : Decidable (IsCompact cs) :=
  inferInstanceAs (Decidable (List.IsChain _ cs))

theorem SingleBlanks.tail {c : Char} {cs : List Char} (h : SingleBlanks (c :: cs)) :
    SingleBlanks cs :=
  List.IsChain.tail h

/-- Behind a blank stands none. -/
theorem SingleBlanks.head?_ne {cs : List Char} (h : SingleBlanks (' ' :: cs)) :
    cs.head? ≠ some ' ' := by
  cases cs with
  | nil => exact fun h' => by cases h'
  | cons d cs =>
    intro hd
    cases hd
    exact (List.isChain_cons_cons.mp h).1 ⟨rfl, rfl⟩

theorem compactFrom_of_ne {c : Char} (h : c ≠ ' ') (last : Option Char) (cs : List Char) :
    compactFrom last (c :: cs) = c :: compactFrom (some c) cs := by
  rw [compactFrom, if_neg fun h' => h h'.1]

/-! ## What is left out -/

/-- Nothing but blanks is left out. -/
theorem filter_compactFrom (last : Option Char) (cs : List Char) :
    (compactFrom last cs).filter (· ≠ ' ') = cs.filter (· ≠ ' ') := by
  induction cs generalizing last with
  | nil => rfl
  | cons c cs ih =>
    rw [compactFrom]
    split
    · rename_i h
      rw [ih, h.1]
      rfl
    · rw [List.filter_cons, List.filter_cons, ih]

theorem isSuperfluous_length (front cs : List Char) (c : Char) :
    isSuperfluous (front ++ c :: cs) front.length =
      (c == ' ' && (front.getLast?.any gluesNext || cs.head?.any gluesPrevious)) := by
  rw [isSuperfluous, List.take_left, List.getElem?_append_right (Nat.le_refl _),
    List.getElem?_append_right (Nat.le_add_right _ 1), Nat.sub_self, Nat.add_sub_cancel_left,
    List.getElem?_cons_zero, List.getElem?_cons_succ, ← List.head?_eq_getElem?]
  rfl

/-- The last character kept is the last one read, unless that was a blank that was left out. Then
no blank follows, so either way the neighbours in the text decide. -/
theorem compactFrom_eq_filter (front back : List Char) (h : SingleBlanks back) (last : Option Char)
    (hlast : last = front.getLast? ∨ back.head? ≠ some ' ') :
    compactFrom last back =
      ((back.zipIdx front.length).filter fun p => !isSuperfluous (front ++ back) p.2).map
        Prod.fst := by
  induction back generalizing front last with
  | nil => rfl
  | cons c cs ih =>
    have hsplit : front ++ c :: cs = (front ++ [c]) ++ cs := by simp
    have hlength : front.length + 1 = (front ++ [c]).length := by simp
    have hnext := ih (front ++ [c]) h.tail
    rw [List.zipIdx_cons, List.filter_cons, isSuperfluous_length, hlength, hsplit]
    by_cases hc : c = ' '
    · subst hc
      obtain rfl : last = front.getLast? := hlast.resolve_right fun h' => h' rfl
      have hkept : (!(' ' == ' ' &&
          (front.getLast?.any gluesNext || cs.head?.any gluesPrevious))) = true ↔
          ¬ (front.getLast?.any gluesNext = true ∨ cs.head?.any gluesPrevious = true) := by
        simp
      rw [compactFrom_blank]
      by_cases hglued : front.getLast?.any gluesNext ∨ cs.head?.any gluesPrevious
      · rw [if_pos hglued, if_neg (mt hkept.mp (not_not_intro hglued))]
        exact hnext _ (Or.inr h.head?_ne)
      · rw [if_neg hglued, if_pos (hkept.mpr hglued), List.map_cons,
          hnext (some ' ') (Or.inl List.getLast?_concat.symm)]
    · have hkept : (!(c == ' ' &&
          (front.getLast?.any gluesNext || cs.head?.any gluesPrevious))) = true := by
        rw [beq_eq_false_iff_ne.mpr hc]
        rfl
      rw [compactFrom_of_ne hc, if_pos hkept, List.map_cons,
        hnext (some c) (Or.inl List.getLast?_concat.symm)]

/-! ## The form of the result -/

/-- Behind a blank that was kept, the text goes on with neither a blank nor a character that glues
the previous one. -/
theorem isCompact_compactFrom {cs : List Char} (h : SingleBlanks cs) (last : Option Char)
    (hlast : last = some ' ' → cs.head? ≠ some ' ' ∧ cs.head?.any gluesPrevious = false) :
    IsCompact (last.toList ++ compactFrom last cs) := by
  induction cs generalizing last with
  | nil =>
    rw [compactFrom, List.append_nil]
    cases last with
    | none => exact List.IsChain.nil
    | some l => exact List.IsChain.singleton l
  | cons c cs ih =>
    rw [compactFrom]
    split
    · rename_i hdropped
      obtain ⟨rfl, -⟩ := hdropped
      exact ih h.tail last fun hl => absurd rfl (hlast hl).1
    · rename_i hkept
      have hrest : IsCompact (c :: compactFrom (some c) cs) := by
        refine ih h.tail (some c) fun hc => ?_
        cases hc
        refine ⟨h.head?_ne, ?_⟩
        rw [Bool.eq_false_iff]
        exact fun hglues => hkept ⟨rfl, Or.inr hglues⟩
      cases last with
      | none => exact hrest
      | some l =>
        refine List.isChain_cons_cons.mpr ⟨⟨?_, ?_⟩, hrest⟩
        · rintro ⟨hglues, rfl⟩
          exact hkept ⟨rfl, Or.inl hglues⟩
        · rintro ⟨rfl, hglues⟩
          have hnot := (hlast rfl).2
          rw [List.head?_cons, Option.any_some, hglues] at hnot
          cases hnot

/-- From a text in that form nothing is left out. -/
theorem compactFrom_of_isCompact {cs : List Char} (last : Option Char)
    (h : IsCompact (last.toList ++ cs)) : compactFrom last cs = cs := by
  induction cs generalizing last with
  | nil => rfl
  | cons c cs ih =>
    have hrest : IsCompact (c :: cs) := by
      cases last with
      | none => exact h
      | some l => exact List.IsChain.tail h
    have hkept : ¬ (c = ' ' ∧ (last.any gluesNext ∨ cs.head?.any gluesPrevious)) := by
      rintro ⟨rfl, hglues | hglues⟩
      · cases last with
        | none => cases hglues
        | some l => exact (List.isChain_cons_cons.mp h).1.1 ⟨hglues, rfl⟩
      · cases cs with
        | nil => cases hglues
        | cons d cs => exact (List.isChain_cons_cons.mp hrest).1.2 ⟨rfl, hglues⟩
    rw [compactFrom, if_neg hkept, ih (some c) hrest]

/-! ## Parentheses with nothing in them -/

/-- A text of blanks in which no two stand side by side. -/
theorem SingleBlanks.eq_nil_or_of_blanks {cs rest : List Char} (h : SingleBlanks (cs ++ rest))
    (hblank : ∀ c ∈ cs, c = ' ') : cs = [] ∨ cs = [' '] := by
  cases cs with
  | nil => exact Or.inl rfl
  | cons c cs =>
    obtain rfl := hblank c List.mem_cons_self
    cases cs with
    | nil => exact Or.inr rfl
    | cons d cs =>
      obtain rfl := hblank d (List.mem_cons_of_mem _ List.mem_cons_self)
      exact absurd rfl h.head?_ne

/-- What is compacted to two parentheses is a text of these and of blanks, of which there is none
at the end. -/
theorem compact_eq_parens_iff {cs : List Char} (h : SingleBlanks cs)
    (hend : cs.getLast? ≠ some ' ') :
    compact cs = ['(', ')'] ↔ cs.filter (· ≠ ' ') = ['(', ')'] := by
  constructor
  · intro hcompact
    rw [← filter_compactFrom none cs]
    show (compact cs).filter (· ≠ ' ') = _
    rw [hcompact]
    decide
  · intro hfilter
    obtain ⟨front, back, rfl, hfront, -, hback⟩ := List.filter_eq_cons_iff.mp hfilter
    obtain ⟨middle, rear, rfl, hmiddle, -, hrear⟩ := List.filter_eq_cons_iff.mp hback
    have hblanks {bs : List Char} (hbs : ∀ c ∈ bs, ¬ decide (c ≠ ' ') = true) :
        ∀ c ∈ bs, c = ' ' := fun c hc => by simpa using hbs c hc
    have hinner : SingleBlanks (middle ++ ')' :: rear) := List.IsChain.tail
      (List.IsChain.right_of_append h)
    have hrear' : ∀ c ∈ rear, c = ' ' := hblanks (List.filter_eq_nil_iff.mp hrear)
    have hlast : SingleBlanks (rear ++ []) := by
      rw [List.append_nil]
      exact List.IsChain.tail (List.IsChain.right_of_append hinner)
    -- each run of blanks is empty or one blank, and the last one is empty
    rcases h.eq_nil_or_of_blanks (hblanks hfront) with rfl | rfl <;>
      rcases hinner.eq_nil_or_of_blanks (hblanks hmiddle) with rfl | rfl <;>
      rcases hlast.eq_nil_or_of_blanks hrear' with rfl | rfl <;>
      first
      | exact absurd rfl hend
      | decide

end InterfaceRecord.Source

namespace InterfaceRecord.Trait

open InterfaceRecord.Source

/-- Compacting a text in which no two blanks stand side by side leaves out the blanks behind
characters that glue the next one and before those that glue the previous one, and keeps all else
in place. None of these blanks is left, and compacting again changes nothing. So a type whose text
does not end with a blank is void exactly if the text is that of two parentheses, blanks aside. -/
theorem compact_normalForm :
    (∀ cs : List Char, SingleBlanks cs →
      (compact cs).filter (· ≠ ' ') = cs.filter (· ≠ ' ') ∧
      IsCompact (compact cs) ∧
      compact cs = (cs.zipIdx.filter fun p => !isSuperfluous cs p.2).map Prod.fst ∧
      compact (compact cs) = compact cs) ∧
    ∀ t : TypeTokens, SingleBlanks (spacedText t.tokens) →
      (spacedText t.tokens).getLast? ≠ some ' ' →
      (t.isVoid = true ↔ (spacedText t.tokens).filter (· ≠ ' ') = ['(', ')']) := by
  constructor
  · intro cs h
    have hform : IsCompact (compact cs) := isCompact_compactFrom h none fun hl => by cases hl
    refine ⟨filter_compactFrom none cs, hform, ?_, compactFrom_of_isCompact none hform⟩
    exact compactFrom_eq_filter [] cs h none (Or.inl rfl)
  · intro t h hend
    have hvoid : t.isVoid = true ↔ compact (spacedText t.tokens) = ['(', ')'] := by
      rw [TypeTokens.isVoid, TypeTokens.text, render, beq_iff_eq]
      exact ⟨fun htext => String.ofList_injective htext, fun htext => by rw [htext]⟩
    rw [hvoid, compact_eq_parens_iff h hend]

/-- A type with arguments, and parentheses that were printed with a blank between them. -/
theorem compact_normalForm_map :
    SingleBlanks "Map < K , & 'a [u8 ; 4] >".toList ∧
      compact "Map < K , & 'a [u8 ; 4] >".toList = "Map<K, &'a [u8; 4]>".toList ∧
      compact "Map<K, &'a [u8; 4]>".toList = "Map<K, &'a [u8; 4]>".toList ∧
      (⟨[.punct '(' false, .punct ')' false]⟩ : TypeTokens).isVoid = true := by
  have hblanks : SingleBlanks "Map < K , & 'a [u8 ; 4] >".toList := by decide
  have hcompact : compact "Map < K , & 'a [u8 ; 4] >".toList =
      "Map<K, &'a [u8; 4]>".toList := by
    decide
  obtain ⟨-, -, -, hagain⟩ := compact_normalForm.1 _ hblanks
  rw [hcompact] at hagain
  exact ⟨hblanks, hcompact, hagain, (compact_normalForm.2 _ (by decide) (by decide)).mpr (by decide)⟩

end InterfaceRecord.Trait
