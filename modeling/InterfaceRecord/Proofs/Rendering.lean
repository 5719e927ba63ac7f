/-
  Reading a rendered text. As long as literals are words or quoted without blanks, a blank is only
  left out between tokens that cannot be taken for one. So the spellings of the tokens can be read
  back from the text (`spellings_compactFrom`), and tokens that are rendered the same are spelled
  the same (`map_text_eq_of_render_eq`). Which punctuation characters were joined the text does not
  tell, and a blank inside a literal may get lost.
-/
import InterfaceRecord.Source.Lexer
import InterfaceRecord.Source.Printer
import Mathlib.Data.List.Basic

namespace InterfaceRecord.Source

open InterfaceRecord.Text

/-! ## Plain tokens -/

/-- Word characters and the sign of the raw mark. -/
def isWordPart (c : Char) : Bool := isWordTail c || c == '#'

/-- A word, such as that of an integer. -/
def isPlainWord (cs : List Char) : Bool :=
  !cs.isEmpty && cs.all isWordTail

/-- A quoted text without blanks and without quotes inside. -/
def isQuoted : List Char → Bool
  | '"' :: cs => cs.getLast? == some '"' && cs.dropLast.all fun c => c != '"' && c != ' '
  | _ => false

/-- A token that shows where it ends. Literals do if they are words, or quoted without blanks. -/
def Token.isPlain : Token → Bool
  | .literal _ text => isPlainWord text.toList || isQuoted text.toList
  | .punct c _ => isPunct c
  | _ => true

/-- What the text of a plain token looks like. -/
inductive Spelling : List Char → Prop
  | word {c : Char} {cs : List Char} (hc : isWordTail c = true)
      (hcs : ∀ d ∈ cs, isWordPart d = true) : Spelling (c :: cs)
  | quoted {body : List Char} (h : ∀ d ∈ body, d ≠ '"' ∧ d ≠ ' ') :
      Spelling ('"' :: (body ++ ['"']))
  | mark {c : Char} (hword : isWordTail c = false) (hquote : c ≠ '"') (hblank : c ≠ ' ') :
      Spelling [c]

theorem spelling_of_isPlainWord {cs : List Char} (h : isPlainWord cs = true) : Spelling cs := by
  rw [isPlainWord, Bool.and_eq_true, List.all_eq_true] at h
  obtain ⟨hne, htail⟩ := h
  cases cs with
  | nil => cases hne
  | cons c cs =>
    refine .word (htail c List.mem_cons_self) fun d hd => ?_
    rw [isWordPart, htail d (List.mem_cons_of_mem c hd)]
    rfl

theorem spelling_of_isQuoted {cs : List Char} (h : isQuoted cs = true) : Spelling cs := by
  unfold isQuoted at h
  split at h
  · rename_i cs
    rw [Bool.and_eq_true, beq_iff_eq, List.all_eq_true] at h
    obtain ⟨hlast, hbody⟩ := h
    obtain ⟨body, rfl⟩ := List.getLast?_eq_some_iff.mp hlast
    rw [List.dropLast_concat] at hbody
    refine .quoted fun d hd => ?_
    simpa using hbody d hd
  · cases h

theorem spelling_of_isIdentText {cs : List Char} (h : isIdentText cs = true) : Spelling cs := by
  have hpart (d : Char) (hd : d ∈ cs) : isWordPart d = true := by
    rw [isWordPart, Bool.or_eq_true, beq_iff_eq]
    exact isWordTail_or_hash_of_mem h hd
  cases cs with
  | nil => exact absurd rfl (ne_nil_of_isIdentText h)
  | cons c cs =>
    have hfirst : isWordTail c = true := by
      rcases isWordTail_or_hash_of_mem h List.mem_cons_self with hc | rfl
      · exact hc
      · simp [isIdentText, isWord, isWordStart] at h
    exact .word hfirst fun d hd => hpart d (List.mem_cons_of_mem c hd)

/-- Punctuation is no part of words, quotes and blanks. -/
theorem of_isPunct {c : Char} (h : isPunct c = true) :
    isWordTail c = false ∧ c ≠ '"' ∧ c ≠ ' ' := by
  have hall : ("~!@#$%^&*-=+|;:,<.>/?'".toList.all fun c =>
      !isWordTail c && c != '"' && c != ' ') = true := by decide
  have hc := List.all_eq_true.mp hall c (List.contains_iff_mem.mp h)
  simpa [and_assoc] using hc

theorem Token.spelling {t : Token} (h : t.isPlain = true) : Spelling t.text := by
  cases t with
  | ident name => exact spelling_of_isIdentText name.isIdentText_toList
  | punct c joint =>
    obtain ⟨hword, hquote, hblank⟩ := of_isPunct h
    exact .mark hword hquote hblank
  | literal kind text =>
    rw [Token.isPlain, Bool.or_eq_true] at h
    exact h.elim spelling_of_isPlainWord spelling_of_isQuoted
  | opening d => cases d <;> exact .mark (by decide) (by decide) (by decide)
  | closing d => cases d <;> exact .mark (by decide) (by decide) (by decide)

theorem Spelling.ne_nil {cs : List Char} (h : Spelling cs) : cs ≠ [] := by
  cases h <;> exact List.cons_ne_nil _ _

theorem Spelling.blank_not_mem {cs : List Char} (h : Spelling cs) : ' ' ∉ cs := by
  have hpart : isWordPart ' ' = false := by decide
  intro hmem
  cases h with
  | word hc hcs =>
    rcases List.mem_cons.mp hmem with rfl | hmem
    · cases hc
    · rw [hcs _ hmem] at hpart
      cases hpart
  | quoted h =>
    rcases List.mem_cons.mp hmem with hmem | hmem
    · cases hmem
    · rcases List.mem_append.mp hmem with hmem | hmem
      · exact (h ' ' hmem).2 rfl
      · cases List.mem_singleton.mp hmem
  | mark _ _ hblank => exact hblank (List.mem_singleton.mp hmem).symm

/-! ## Reading back -/

/-- The spelling at the front of a text. -/
def firstSpelling (c : Char) (cs : List Char) : List Char :=
  if isWordTail c then c :: cs.takeWhile isWordPart
  else if c = '"' then c :: (cs.takeWhile (· ≠ '"') ++ ['"'])
  else [c]

/-- The spellings in a text, with the blanks between them left out. -/
def spellings : List Char → List (List Char)
  | [] => []
  | c :: cs =>
    if c = ' ' then spellings cs
    else firstSpelling c cs :: spellings ((c :: cs).drop (firstSpelling c cs).length)
termination_by cs => cs.length
decreasing_by
  · exact Nat.lt_succ_self _
  · have hpos : 0 < (firstSpelling c cs).length := by
      unfold firstSpelling
      split
      · exact Nat.succ_pos _
      · split <;> exact Nat.succ_pos _
    simp only [List.length_drop, List.length_cons]
    omega

theorem spellings_blank (cs : List Char) : spellings (' ' :: cs) = spellings cs := by
  rw [spellings, if_pos rfl]

theorem spellings_of_not_blank {c : Char} (hc : c ≠ ' ') (cs : List Char) :
    spellings (c :: cs) =
      firstSpelling c cs :: spellings ((c :: cs).drop (firstSpelling c cs).length) := by
  rw [spellings, if_neg hc]

theorem takeWhile_append_of_head {p : Char → Bool} {cs rest : List Char}
    (hcs : ∀ d ∈ cs, p d = true) (hrest : ∀ c ∈ rest.head?, p c = false) :
    (cs ++ rest).takeWhile p = cs := by
  rw [List.takeWhile_append_of_pos hcs]
  cases rest with
  | nil => exact List.append_nil cs
  | cons c rest => simp [hrest c rfl]

/-- The text starts a word. -/
def StartsWord (cs : List Char) : Prop := ∃ c ∈ cs.head?, isWordTail c = true

/-- A word in front of the text ends there. -/
def EndsWords (rest : List Char) : Prop := ∀ c ∈ rest.head?, isWordPart c = false

theorem endsWords_nil : EndsWords [] := fun _ hc => by cases hc

theorem firstSpelling_append {c : Char} {cs rest : List Char} (h : Spelling (c :: cs))
    (hrest : isWordTail c = true → EndsWords rest) : firstSpelling c (cs ++ rest) = c :: cs := by
  have hquote : isWordTail '"' = false := by decide
  generalize htext : c :: cs = text at h
  cases h with
  | word hc hcs =>
    cases htext
    rw [firstSpelling, if_pos hc, takeWhile_append_of_head hcs (hrest hc)]
  | @quoted body h =>
    cases htext
    have hbody : (body ++ ['"'] ++ rest).takeWhile (· ≠ '"') = body := by
      rw [List.append_assoc]
      apply takeWhile_append_of_head
      · intro d hd
        exact decide_eq_true (h d hd).1
      · intro d hd
        cases hd
        rfl
    rw [firstSpelling, if_neg (by rw [hquote]; exact Bool.false_ne_true), if_pos rfl, hbody]
  | mark hword hquote hblank =>
    cases htext
    rw [firstSpelling, if_neg (by rw [hword]; exact Bool.false_ne_true), if_neg hquote]

/-- A spelling at the front of a text is read first. A word is read to its end. -/
theorem spellings_append {cs rest : List Char} (h : Spelling cs)
    (hrest : StartsWord cs → EndsWords rest) :
    spellings (cs ++ rest) = cs :: spellings rest := by
  cases cs with
  | nil => exact absurd rfl h.ne_nil
  | cons c cs =>
    have hc : c ≠ ' ' := fun hc => h.blank_not_mem (hc ▸ List.mem_cons_self)
    have hfirst := firstSpelling_append h fun hword => hrest ⟨c, rfl, hword⟩
    rw [List.cons_append, spellings_of_not_blank hc, hfirst, ← List.cons_append,
      List.drop_left]

/-! ## Rendered texts -/

/-- Characters other than blanks are kept. -/
theorem compactFrom_append {cs : List Char} (h : ' ' ∉ cs) (hne : cs ≠ []) (last : Option Char)
    (rest : List Char) :
    compactFrom last (cs ++ rest) = cs ++ compactFrom (some (cs.getLast hne)) rest := by
  induction cs generalizing last with
  | nil => exact absurd rfl hne
  | cons c cs ih =>
    have hc : ¬ (c = ' ' ∧ (last.any gluesNext ∨ (cs ++ rest).head?.any gluesPrevious)) :=
      fun hc => h (hc.1 ▸ List.mem_cons_self)
    rw [List.cons_append, compactFrom, if_neg hc, List.cons_append]
    cases cs with
    | nil => rfl
    | cons d cs =>
      rw [ih (fun hd => h (List.mem_cons_of_mem c hd)) (List.cons_ne_nil d cs)]
      rfl

/-- A blank is kept or left out. -/
theorem compactFrom_blank (last : Option Char) (rest : List Char) :
    compactFrom last (' ' :: rest) =
      if last.any gluesNext ∨ rest.head?.any gluesPrevious then compactFrom last rest
      else ' ' :: compactFrom (some ' ') rest := by
  simp only [compactFrom, true_and]

/-- The blank, if any, between two tokens in a row. -/
def blankBetween (a b : Token) : List Char := if spaced a b then [' '] else []

theorem spacedText_cons_cons (a b : Token) (ts : List Token) :
    spacedText (a :: b :: ts) = a.text ++ (blankBetween a b ++ spacedText (b :: ts)) := by
  rw [spacedText, blankBetween, List.append_assoc]

/-- A text of tokens starts with the first of them. -/
theorem exists_spacedText_eq_append (t : Token) (ts : List Token) :
    ∃ rest, spacedText (t :: ts) = t.text ++ rest := by
  cases ts with
  | nil => exact ⟨[], (List.append_nil _).symm⟩
  | cons b ts => exact ⟨_, spacedText_cons_cons t b ts⟩

theorem head?_spacedText {t : Token} (hne : t.text ≠ []) (ts : List Token) :
    (spacedText (t :: ts)).head? = t.text.head? := by
  obtain ⟨rest, hrest⟩ := exists_spacedText_eq_append t ts
  rw [hrest, List.head?_append_of_ne_nil _ hne]

theorem head?_compactFrom_spacedText {t : Token} (hne : t.text ≠ []) (hblank : ' ' ∉ t.text)
    (ts : List Token) (last : Option Char) :
    (compactFrom last (spacedText (t :: ts))).head? = t.text.head? := by
  obtain ⟨rest, hrest⟩ := exists_spacedText_eq_append t ts
  rw [hrest, compactFrom_append hblank hne, List.head?_append_of_ne_nil _ hne]

theorem isWordPart_of_gluesPrevious {c : Char} (h : gluesPrevious c = true) :
    isWordPart c = false := by
  have hall : ("<>,)]:;(".toList.all fun c => !isWordPart c) = true := by decide
  have hc := List.all_eq_true.mp hall c (List.contains_iff_mem.mp h)
  simpa using hc

theorem gluesNext_of_isWordPart {c : Char} (h : isWordPart c = true) : gluesNext c = false := by
  have hall : ("<([&:".toList.all fun c => !isWordPart c) = true := by decide
  by_contra hglues
  have hmem := List.contains_iff_mem.mp (Bool.of_not_eq_false hglues)
  have hc := List.all_eq_true.mp hall c hmem
  rw [h] at hc
  cases hc

/-- A word is all word. -/
theorem Spelling.isWordPart_of_mem {cs : List Char} (h : Spelling cs)
    (hword : StartsWord cs) {d : Char} (hd : d ∈ cs) :
    isWordPart d = true := by
  obtain ⟨c, hc, hword⟩ := hword
  have htail {e : Char} (he : isWordTail e = true) : isWordPart e = true := by
    rw [isWordPart, he]
    rfl
  cases h with
  | word hfirst hrest =>
    rcases List.mem_cons.mp hd with rfl | hd
    · exact htail hfirst
    · exact hrest d hd
  | quoted h =>
    cases hc
    cases hword
  | mark hmark _ _ =>
    cases hc
    rw [hmark] at hword
    cases hword

/-- Behind a word stands a blank, unless a bracket is closed there. -/
theorem spaced_of_word {a b : Token} (ha : a.isPlain = true)
    (hword : StartsWord a.text) (h : spaced a b = false) :
    b.text.head?.any gluesPrevious = true := by
  obtain ⟨c, hc, hword⟩ := hword
  have hclosing : ∃ d, b = .closing d := by
    cases a with
    | ident name => cases b <;> simp [spaced] at h ⊢
    | literal kind text => cases b <;> simp [spaced] at h ⊢
    | punct c' joint =>
      cases hc
      rw [(of_isPunct ha).1] at hword
      cases hword
    | opening d => cases d <;> cases hc <;> cases hword
    | closing d => cases d <;> cases hc <;> cases hword
  obtain ⟨d, rfl⟩ := hclosing
  cases d with
  | paren => rfl
  | bracket => rfl
  | brace => simp [spaced] at h

/-- A text behind which nothing that stands before it goes on: it is empty or starts with a blank
or with a character that drops the blank before it. -/
def Breaks (rest : List Char) : Prop := ∀ c ∈ rest.head?, c = ' ' ∨ gluesPrevious c = true

theorem Breaks.endsWords {rest : List Char} (h : Breaks rest) : EndsWords rest := by
  intro c hc
  rcases h c hc with rfl | hglues
  · decide
  · exact isWordPart_of_gluesPrevious hglues

/-- The blank between two tokens is kept, or there is a reason to leave it out. -/
theorem compactFrom_blankBetween (last : Option Char) (a b : Token) (ts : List Token) :
    compactFrom last (blankBetween a b ++ spacedText (b :: ts)) =
        ' ' :: compactFrom (some ' ') (spacedText (b :: ts)) ∨
      compactFrom last (blankBetween a b ++ spacedText (b :: ts)) =
          compactFrom last (spacedText (b :: ts)) ∧
        (spaced a b = false ∨ last.any gluesNext = true ∨
          (spacedText (b :: ts)).head?.any gluesPrevious = true) := by
  rw [blankBetween]
  cases hspaced : spaced a b with
  | false => exact .inr ⟨rfl, .inl rfl⟩
  | true =>
    rw [if_pos rfl, List.singleton_append, compactFrom_blank]
    split
    · rename_i hglues
      exact .inr ⟨rfl, .inr hglues⟩
    · exact .inl rfl

/-- Behind a character that glues nothing the text breaks, if a token is only written without a
blank where a bracket is closed. -/
theorem breaks_compactFrom {a b : Token} {last : Char} (hne : b.text ≠ []) (hblank : ' ' ∉ b.text)
    (hlast : gluesNext last = false)
    (hspaced : spaced a b = false → b.text.head?.any gluesPrevious = true) (ts : List Token) :
    Breaks (compactFrom (some last) (blankBetween a b ++ spacedText (b :: ts))) := by
  rcases compactFrom_blankBetween (some last) a b ts with heq | ⟨heq, hglued⟩
  · rw [heq]
    intro c hc
    cases hc
    exact .inl rfl
  · rw [heq]
    intro c hc
    rw [head?_compactFrom_spacedText hne hblank] at hc
    rw [head?_spacedText hne, Option.any_some, hlast] at hglued
    refine .inr ?_
    rcases hglued with hglued | hglued | hglued
    · have hclosed := hspaced hglued
      rwa [Option.mem_def.mp hc] at hclosed
    · cases hglued
    · rwa [Option.mem_def.mp hc] at hglued

/-- What follows a word is no part of it: a blank is only left out in front of a character that
ends words. -/
theorem endsWords_compactFrom {a b : Token} {last : Char} (ha : a.isPlain = true)
    (hb : b.isPlain = true) (hword : StartsWord a.text) (hlast : isWordPart last = true)
    (ts : List Token) :
    EndsWords (compactFrom (some last) (blankBetween a b ++ spacedText (b :: ts))) := by
  have hspelling := Token.spelling hb
  exact (breaks_compactFrom hspelling.ne_nil hspelling.blank_not_mem
    (gluesNext_of_isWordPart hlast) (spaced_of_word ha hword) ts).endsWords

/-- Whether a blank is kept or not, what is read behind it is the same. -/
theorem spellings_compactFrom_blankBetween {a b : Token} {ts : List Token}
    {read : List (List Char)}
    (h : ∀ last, spellings (compactFrom last (spacedText (b :: ts))) = read)
    (last : Option Char) :
    spellings (compactFrom last (blankBetween a b ++ spacedText (b :: ts))) = read := by
  rcases compactFrom_blankBetween last a b ts with heq | ⟨heq, -⟩
  · rw [heq, spellings_blank]
    exact h (some ' ')
  · rw [heq]
    exact h last

/-- The spellings of plain tokens can be read back from their compact text. -/
theorem spellings_compactFrom (ts : List Token) (h : ∀ t ∈ ts, t.isPlain = true)
    (last : Option Char) :
    spellings (compactFrom last (spacedText ts)) = ts.map Token.text := by
  -- the last character kept is not the same with and without the blank, so for any of them
  induction ts generalizing last with
  | nil => rw [spacedText, compactFrom, spellings, List.map_nil]
  | cons a ts ih =>
    have ha : a.isPlain = true := h a List.mem_cons_self
    have hspelling := Token.spelling ha
    cases ts with
    | nil =>
      have hkept := compactFrom_append hspelling.blank_not_mem hspelling.ne_nil last []
      have hread := spellings_append hspelling fun _ => endsWords_nil
      rw [compactFrom, List.append_nil] at hkept
      rw [List.append_nil, spellings] at hread
      rw [spacedText, hkept, hread]
      rfl
    | cons b ts =>
      have hb : b.isPlain = true := h b (List.mem_cons_of_mem a List.mem_cons_self)
      have hrest := spellings_compactFrom_blankBetween (a := a)
        (ih fun t ht => h t (List.mem_cons_of_mem a ht))
      have hends : StartsWord a.text →
          EndsWords (compactFrom (some (a.text.getLast hspelling.ne_nil))
            (blankBetween a b ++ spacedText (b :: ts))) := by
        intro hword
        have hlast := hspelling.isWordPart_of_mem hword (List.getLast_mem hspelling.ne_nil)
        exact endsWords_compactFrom ha hb hword hlast ts
      rw [spacedText_cons_cons, compactFrom_append hspelling.blank_not_mem hspelling.ne_nil,
        spellings_append hspelling hends, hrest]
      rfl

/-- Tokens that are rendered the same are spelled the same, if they are plain. -/
theorem map_text_eq_of_render_eq {ts us : List Token} (hts : ∀ t ∈ ts, t.isPlain = true)
    (hus : ∀ u ∈ us, u.isPlain = true) (h : render ts = render us) :
    ts.map Token.text = us.map Token.text := by
  have hcompact : compact (spacedText ts) = compact (spacedText us) :=
    String.ofList_injective h
  rw [compact, compact] at hcompact
  rw [← spellings_compactFrom ts hts none, hcompact, spellings_compactFrom us hus none]

end InterfaceRecord.Source
