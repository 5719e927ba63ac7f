/-
  Reading a rendered type again. In a compact text every token still stands by itself: a literal or
  a name is followed by a blank or by a character that breaks, a slash by neither a slash nor a
  star, and an apostrophe by the name it marks. So the tokens that are read from the text of a type
  are the tokens of the type, up to which punctuation characters are joint (`tokenize?_text`).
-/
import InterfaceRecord.Proofs.Legibility
import InterfaceRecord.Trait.Entry

namespace InterfaceRecord.Source

open InterfaceRecord.Text

variable {stack stack' : List Delimiter} {cs rest : List Char} {t u : Token} {ts us : List Token}

/-- The token without what is known of its neighbour. An apostrophe stays the mark of a
lifetime. -/
def Token.unjoined : Token → Token
  | .punct c joint => .punct c (joint && c == '\'')
  | t => t

theorem unjoined_punct {c : Char} (hc : c ≠ '\'') (joint : Bool) :
    (Token.punct c joint).unjoined = .punct c false := by
  simp [Token.unjoined, hc]

/-! ## Reading step by step -/

/-- The tokens read from the text are these, up to joints. -/
def Reads (stack : List Delimiter) (cs : List Char) (us : List Token) : Prop :=
  ∀ fuel, cs.length < fuel → (tokensWithin? fuel stack cs).map (·.map Token.unjoined) = some us

theorem reads_nil : Reads [] [] [] := by
  intro fuel hfuel
  cases fuel with
  | zero => cases hfuel
  | succ fuel => rfl

theorem Reads.blank (h : Reads stack cs us) : Reads stack (' ' :: cs) us := by
  intro fuel hfuel
  rw [List.length_cons] at hfuel
  cases fuel with
  | zero => cases hfuel
  | succ fuel => exact h (fuel + 1) (by omega)

/-- One token is read, then the others. -/
theorem Reads.step (hshown : Shown cs) (hstep : scanStep? stack cs = some ([t], stack', rest))
    (hlength : rest.length < cs.length) (h : Reads stack' rest us) :
    Reads stack cs (t.unjoined :: us) := by
  intro fuel hfuel
  cases fuel with
  | zero => cases hfuel
  | succ fuel =>
    cases cs with
    | nil => cases hlength
    | cons c cs =>
      have hread := h fuel (by omega)
      rw [tokensWithin?, hshown.skipBlanks]
      dsimp only
      rw [hstep, Option.bind_some]
      dsimp only
      rw [Option.map_map]
      obtain ⟨later, hlater, rfl⟩ := Option.map_eq_some_iff.mp hread
      rw [hlater]
      rfl

/-! ## What follows a token -/

/-- What follows the first token in the text of the tokens. -/
def spacedRest (t : Token) : List Token → List Char
  | [] => []
  | u :: ts => blankBetween t u ++ spacedText (u :: ts)

theorem spacedText_cons (t : Token) (ts : List Token) :
    spacedText (t :: ts) = t.text ++ spacedRest t ts := by
  cases ts with
  | nil => exact (List.append_nil _).symm
  | cons u ts => exact spacedText_cons_cons t u ts

theorem Reads.spacedRest (h : ∀ last, Reads stack (compactFrom last (spacedText ts)) us)
    (last : Option Char) (t : Token) :
    Reads stack (compactFrom last (Source.spacedRest t ts)) us := by
  cases ts with
  | nil => exact h last
  | cons u ts =>
    rcases compactFrom_blankBetween last t u ts with heq | ⟨heq, -⟩
    · rw [Source.spacedRest, heq]
      exact (h (some ' ')).blank
    · rw [Source.spacedRest, heq]
      exact h last

/-- A comment does not arise behind a token. -/
theorem noBlock_spacedRest (h : ∀ last, Shown (compactFrom last (spacedText ts)))
    (last : Option Char) (t : Token) :
    startsWith (compactFrom last (spacedRest t ts)) "/*" = false := by
  cases ts with
  | nil => rfl
  | cons u ts =>
    rcases compactFrom_blankBetween last t u ts with heq | ⟨heq, -⟩
    · rw [spacedRest, heq]
      rfl
    · rw [spacedRest, heq]
      exact (h last).noBlock

theorem Legible.head (h : Legible stack ts) : ∀ t ∈ ts.head?, t.text ≠ [] ∧ ' ' ∉ t.text := by
  have hfirm {t : Token} (ht : t.Firm) : t.text ≠ [] ∧ ' ' ∉ t.text := by
    obtain ⟨c, front, htext, -⟩ := ht.first
    exact ⟨by rw [htext]; exact List.cons_ne_nil _ _, ht.blank_not_mem⟩
  intro t ht
  cases h with
  | nil => cases ht
  | @opening d =>
    cases ht
    cases d <;> decide
  | @closing d =>
    cases ht
    cases d <;> decide
  | firm hfirst =>
    cases ht
    exact hfirm hfirst
  | placeholder =>
    cases ht
    decide
  | mark _ hpunct =>
    cases ht
    refine ⟨List.cons_ne_nil _ _, fun hblank => ?_⟩
    exact (of_isPunct hpunct).2.2 (List.mem_singleton.mp hblank).symm
  | lifetime =>
    cases ht
    decide

theorem Legible.tail (h : Legible stack (t :: ts)) : ∃ stack', Legible stack' ts := by
  cases h with
  | opening hlater => exact ⟨_, hlater⟩
  | closing hlater => exact ⟨_, hlater⟩
  | firm _ hlater => exact ⟨_, hlater⟩
  | placeholder hlater => exact ⟨_, hlater⟩
  | mark _ _ _ hlater => exact ⟨_, hlater⟩
  | lifetime _ _ hlater => exact ⟨_, hlater⟩

/-- Behind a token that glues nothing the text breaks, if only a bracket is closed there without a
blank. -/
theorem Legible.breaks (h : Legible stack ts) {last : Char} (hlast : gluesNext last = false)
    (hspaced : ∀ u ∈ ts.head?, spaced t u = false → u.text.head?.any gluesPrevious = true) :
    Breaks (compactFrom (some last) (spacedRest t ts)) := by
  cases ts with
  | nil => exact fun c hc => by cases hc
  | cons u ts =>
    obtain ⟨hne, hsolid⟩ := h.head u rfl
    exact breaks_compactFrom hne hsolid hlast (hspaced u rfl) ts

/-! ## Single tokens read again -/

/-- In front of this text the token is read, up to its joint, and leaves the text. -/
def Rereads (stack : List Delimiter) (t : Token) (stack' : List Delimiter) (rest : List Char) :
    Prop :=
  Shown (t.text ++ rest) ∧ ∃ t', t'.unjoined = t.unjoined ∧
    scanStep? stack (t.text ++ rest) = some ([t'], stack', rest)

theorem scanStep?_leaf {c : Char} (hshown : Shown (c :: cs)) (hopening : opening? c = none)
    (hclosing : closing? c = none) (hleaf : scanLeaf? (c :: cs) = some (t, rest)) :
    scanStep? stack (c :: cs) = some ([t], stack, rest) := by
  rw [scanStep?, hshown.scanDocComment?]
  dsimp only
  rw [hopening, hclosing, hleaf]
  split <;> rfl

theorem opening?_eq_none {c : Char} (h : ∀ d : Delimiter, c ≠ d.openingText) :
    opening? c = none := by
  unfold opening?
  split
  · exact absurd rfl (h .paren)
  · exact absurd rfl (h .bracket)
  · exact absurd rfl (h .brace)
  · rfl

theorem closing?_eq_none {c : Char} (h : ∀ d : Delimiter, c ≠ d.closingText) :
    closing? c = none := by
  unfold closing?
  split
  · exact absurd rfl (h .paren)
  · exact absurd rfl (h .bracket)
  · exact absurd rfl (h .brace)
  · rfl

/-- A character of which `p` holds is no delimiter, if `p` fails for each of them. -/
theorem delimiter?_eq_none {p : Char → Bool} (hp : "([{)]}".toList.all (fun c => !p c) = true)
    {c : Char} (hc : p c = true) : opening? c = none ∧ closing? c = none := by
  have hne (d : Char) (hd : d ∈ "([{)]}".toList) : c ≠ d := by
    rintro rfl
    have := List.all_eq_true.mp hp c hd
    rw [hc] at this
    cases this
  constructor
  · exact opening?_eq_none fun d => hne _ (by cases d <;> decide)
  · exact closing?_eq_none fun d => hne _ (by cases d <;> decide)

theorem Token.Firm.rereads (ht : t.Firm) (hrest : Breaks rest) : Rereads stack t stack rest := by
  obtain ⟨c, front, htext, hc⟩ := ht.first
  have hleaf := ht.reads rest hrest
  have hshown : Shown (t.text ++ rest) := by
    rw [htext]
    rcases hc with hc | rfl | rfl
    · exact shown_of_isWordTail hc _
    · exact shown_cons (by decide) (by decide) (by decide) _
    · exact shown_cons (by decide) (by decide) (by decide) _
  have hdelimiter : opening? c = none ∧ closing? c = none := by
    refine delimiter?_eq_none (p := fun c => isWordTail c || c == '"' || c == '\'') (by decide) ?_
    simpa [or_assoc] using hc
  refine ⟨hshown, t, rfl, ?_⟩
  rw [htext] at hshown hleaf ⊢
  exact scanStep?_leaf hshown hdelimiter.1 hdelimiter.2 hleaf

theorem shown_openingText (d : Delimiter) (cs : List Char) : Shown (d.openingText :: cs) := by
  cases d <;> exact shown_cons (by decide) (by decide) (by decide) cs

theorem shown_closingText (d : Delimiter) (cs : List Char) : Shown (d.closingText :: cs) := by
  cases d <;> exact shown_cons (by decide) (by decide) (by decide) cs

theorem rereads_opening (d : Delimiter) (hrest : startsWith rest "/*" = false) :
    Rereads stack (.opening d) (d :: stack) rest := by
  have hplaceholder : startsWith (d.openingText :: rest) placeholder = false := by
    by_contra hstarts
    obtain ⟨later, hlater⟩ := List.isPrefixOf_iff_prefix.mp (Bool.of_not_eq_false hstarts)
    obtain ⟨-, rfl⟩ := List.cons.inj hlater
    cases hrest
  have hopening : opening? d.openingText = some d := by cases d <;> rfl
  refine ⟨shown_openingText d rest, _, rfl, ?_⟩
  show scanStep? stack (d.openingText :: rest) = _
  rw [scanStep?, (shown_openingText d rest).scanDocComment?]
  dsimp only
  rw [hplaceholder, hopening]
  rfl

theorem rereads_closing (d : Delimiter) (rest : List Char) :
    Rereads (d :: stack) (.closing d) stack rest := by
  have hplaceholder : startsWith (d.closingText :: rest) placeholder = false := by
    cases d <;> rfl
  have hopening : opening? d.closingText = none := by cases d <;> rfl
  have hclosing : closing? d.closingText = some d := by cases d <;> rfl
  refine ⟨shown_closingText d rest, _, rfl, ?_⟩
  show scanStep? (d :: stack) (d.closingText :: rest) = _
  rw [scanStep?, (shown_closingText d rest).scanDocComment?]
  dsimp only
  rw [hplaceholder, hopening, hclosing]
  exact if_pos rfl

theorem scanLiteral?_eq_none {c : Char} (hword : isWordTail c = false) (hquote : c ≠ '"')
    (hapostrophe : c ≠ '\'') (cs : List Char) : scanLiteral? (c :: cs) = none := by
  rw [Option.eq_none_iff_forall_ne_some]
  rintro ⟨kind, rest⟩ hscan
  obtain ⟨text, htext, hliteral, -⟩ := scanLiteral?_cut hscan
  obtain ⟨d, front, rfl, hd⟩ := hliteral.first
  obtain ⟨rfl, -⟩ := List.cons.inj htext
  rcases hd with hd | hd | hd
  · rw [hword] at hd
    cases hd
  · exact hquote hd
  · exact hapostrophe hd

theorem scanLeaf?_placeholder (rest : List Char) :
    scanLeaf? (placeholder.toList ++ rest) =
      some (.literal .placeholder placeholder, rest) := by
  have hliteral : scanLiteral? (placeholder.toList ++ rest) = none :=
    scanLiteral?_eq_none (by decide) (by decide) (by decide) _
  have hpunct : scanPunct? (placeholder.toList ++ rest) = none := rfl
  have hident : scanIdent? (placeholder.toList ++ rest) = none := rfl
  have hstarts : startsWith (placeholder.toList ++ rest) placeholder = true :=
    List.isPrefixOf_iff_prefix.mpr (List.prefix_append _ _)
  rw [scanLeaf?, hliteral, hpunct, hident]
  dsimp only [Option.none_or]
  rw [if_pos hstarts, ← String.length_toList, List.drop_left]

theorem rereads_placeholder (rest : List Char) :
    Rereads stack (.literal .placeholder placeholder) stack rest := by
  have hshown : Shown (placeholder.toList ++ rest) :=
    shown_cons (by decide) (by decide) (by decide) _
  have hstarts : startsWith (placeholder.toList ++ rest) placeholder = true :=
    List.isPrefixOf_iff_prefix.mpr (List.prefix_append _ _)
  have hleaf := scanLeaf?_placeholder rest
  have hcons : placeholder.toList ++ rest = '(' :: ("/*ERROR*/)".toList ++ rest) := rfl
  refine ⟨hshown, _, rfl, ?_⟩
  show scanStep? stack (placeholder.toList ++ rest) = _
  rw [hcons] at hshown hstarts hleaf ⊢
  rw [scanStep?, hshown.scanDocComment?]
  dsimp only
  rw [if_pos hstarts, hleaf]
  rfl

theorem punct?_of_shown {c : Char} (hshown : Shown (c :: rest)) (hc : isPunct c = true) :
    punct? (c :: rest) = some (c, rest) := by
  unfold punct?
  rw [hshown.noLine, hshown.noBlock]
  exact if_pos hc

theorem rereads_mark {c : Char} (joint : Bool) (hc : c ≠ '\'') (hpunct : isPunct c = true)
    (hslash : c = '/' → rest.head? ≠ some '/' ∧ rest.head? ≠ some '*') :
    Rereads stack (.punct c joint) stack rest := by
  have hshown : Shown (c :: rest) := by
    by_cases hcomment : c = '/'
    · obtain ⟨hline, hblock⟩ := hslash hcomment
      rw [hcomment]
      exact shown_slash hline hblock
    · obtain ⟨hblank, hmark⟩ := of_isPunct_blank hpunct
      exact shown_cons hcomment hblank hmark rest
  obtain ⟨hopening, hclosing⟩ := delimiter?_eq_none (p := isPunct) (by decide) hpunct
  obtain ⟨hword, hquote, -⟩ := of_isPunct hpunct
  have hleaf : scanLeaf? (c :: rest) = some (.punct c (punct? rest).isSome, rest) := by
    rw [scanLeaf?, scanLiteral?_eq_none hword hquote hc,
      scanPunct?_mark hc (punct?_of_shown hshown hpunct)]
    rfl
  have hunjoined :
      (Token.punct c (punct? rest).isSome).unjoined = (Token.punct c joint).unjoined := by
    rw [unjoined_punct hc, unjoined_punct hc]
  exact ⟨hshown, _, hunjoined, scanStep?_leaf hshown hopening hclosing hleaf⟩

theorem rereads_lifetime (hmarks : MarksLifetime u.text) (hrest : Breaks rest) :
    Rereads stack (.punct '\'' true) stack (u.text ++ rest) := by
  have hshown : Shown ('\'' :: (u.text ++ rest)) :=
    shown_cons (by decide) (by decide) (by decide) _
  exact ⟨hshown, _, rfl, scanStep?_leaf hshown rfl rfl (hmarks rest hrest)⟩

/-! ## All tokens read again -/

theorem compactFrom_spacedText_cons (hne : t.text ≠ []) (hsolid : ' ' ∉ t.text)
    (last : Option Char) (ts : List Token) :
    compactFrom last (spacedText (t :: ts)) =
      t.text ++ compactFrom (some (t.text.getLast hne)) (spacedRest t ts) := by
  rw [spacedText_cons, compactFrom_append hsolid hne]

/-- The tokens are read from their compact text, whatever was kept in front of it. -/
def Kept (stack : List Delimiter) (ts : List Token) : Prop :=
  ∀ last, Shown (compactFrom last (spacedText ts)) ∧
    Reads stack (compactFrom last (spacedText ts)) (ts.map Token.unjoined)

theorem Kept.cons (hne : t.text ≠ []) (hsolid : ' ' ∉ t.text) (h : Kept stack' ts)
    (ht : Rereads stack t stack' (compactFrom (some (t.text.getLast hne)) (spacedRest t ts))) :
    Kept stack (t :: ts) := by
  intro last
  obtain ⟨hshown, t', ht', hstep⟩ := ht
  rw [compactFrom_spacedText_cons hne hsolid]
  refine ⟨hshown, ?_⟩
  rw [List.map_cons, ← ht']
  refine Reads.step hshown hstep ?_ (Reads.spacedRest (fun last => (h last).2) _ t)
  rw [List.length_append]
  have := List.length_pos_iff.mpr hne
  omega

theorem Token.Firm.breaks (ht : t.Firm) (h : Legible stack ts) (hne : t.text ≠ []) :
    Breaks (compactFrom (some (t.text.getLast hne)) (spacedRest t ts)) :=
  h.breaks (ht.last _ (List.getLast?_eq_getLast_of_ne_nil hne)) fun u _ => ht.apart u

/-- Behind a slash neither a slash nor a star comes to stand. -/
theorem Legible.no_comment {joint : Bool} (h : Legible stack ts)
    (hcomment : joint = true → ∀ t ∈ ts.head?,
      t.text.head? ≠ some '/' ∧ t.text.head? ≠ some '*') :
    (compactFrom (some '/') (spacedRest (.punct '/' joint) ts)).head? ≠ some '/' ∧
      (compactFrom (some '/') (spacedRest (.punct '/' joint) ts)).head? ≠ some '*' := by
  cases joint with
  | false =>
    have hglues : gluesNext '/' = false := by decide
    have hbreaks := h.breaks (t := .punct '/' false) hglues fun u _ hspaced =>
      head_of_spaced (by rintro c ⟨⟩) (by rintro d ⟨⟩) hspaced
    exact ⟨hbreaks.ne_head (by decide), hbreaks.ne_head (by decide)⟩
  | true =>
    cases ts with
    | nil => exact ⟨by rintro ⟨⟩, by rintro ⟨⟩⟩
    | cons u ts =>
      rcases compactFrom_blankBetween (some '/') (.punct '/' true) u ts with heq | ⟨heq, -⟩
      · rw [spacedRest, heq]
        exact ⟨by rintro ⟨⟩, by rintro ⟨⟩⟩
      · obtain ⟨hne, hsolid⟩ := h.head u rfl
        rw [spacedRest, heq, head?_compactFrom_spacedText hne hsolid]
        exact hcomment rfl u rfl

theorem Token.Firm.spaced_apostrophe (ht : t.Firm) : spaced (.punct '\'' true) t = false := by
  have hbrace : t ≠ .closing .brace := by
    rintro rfl
    obtain ⟨c, front, htext, hc⟩ := ht.first
    cases htext
    revert hc
    decide
  cases t with
  | closing d =>
    cases d with
    | paren => rfl
    | bracket => rfl
    | brace => exact absurd rfl hbrace
  | _ => rfl

theorem Legible.kept (h : Legible stack ts) : Kept stack ts := by
  induction h with
  | nil => exact fun last => ⟨shown_nil, reads_nil⟩
  | @opening d stack ts hlater ih =>
    refine ih.cons (t := .opening d) (List.cons_ne_nil _ _) (by cases d <;> decide) ?_
    exact rereads_opening d (noBlock_spacedRest (fun last => (ih last).1) _ _)
  | @closing d stack ts hlater ih =>
    refine ih.cons (t := .closing d) (List.cons_ne_nil _ _) (by cases d <;> decide) ?_
    exact rereads_closing d _
  | @firm t stack ts ht hlater ih =>
    obtain ⟨hne, hsolid⟩ := (Legible.firm ht hlater).head t rfl
    exact ih.cons hne hsolid (ht.rereads (ht.breaks hlater hne))
  | placeholder hlater ih =>
    exact ih.cons (t := .literal .placeholder Source.placeholder) (by decide) (by decide)
      (rereads_placeholder _)
  | @mark c joint stack ts hc hpunct hcomment hlater ih =>
    obtain ⟨hne, hsolid⟩ := (Legible.mark hc hpunct hcomment hlater).head _ rfl
    refine ih.cons hne hsolid (rereads_mark joint hc hpunct ?_)
    rintro rfl
    exact hlater.no_comment (hcomment rfl)
  | @lifetime u stack ts hu hmarks hlater ih =>
    obtain ⟨hne, hsolid⟩ := hlater.head u rfl
    obtain ⟨stack', hrest⟩ := hlater.tail
    have hjoined (last : Option Char) :
        compactFrom last (spacedRest (.punct '\'' true) (u :: ts)) =
          u.text ++ compactFrom (some (u.text.getLast hne)) (spacedRest u ts) := by
      rw [spacedRest, blankBetween, hu.spaced_apostrophe]
      exact compactFrom_spacedText_cons hne hsolid last ts
    refine ih.cons (t := .punct '\'' true) (List.cons_ne_nil _ _) (by decide) ?_
    rw [hjoined]
    exact rereads_lifetime hmarks (hu.breaks hrest hne)

theorem tokenize?_of_kept (h : Kept [] ts) :
    (tokenize? (render ts)).map (·.map Token.unjoined) = some (ts.map Token.unjoined) := by
  obtain ⟨hshown, hreads⟩ := h none
  rw [tokenize?_eq, render, String.toList_ofList, compact]
  generalize compactFrom none (spacedText ts) = cs at hshown hreads
  cases cs with
  | nil => exact hreads 1 (by decide)
  | cons c cs =>
    dsimp only
    rw [if_neg (hshown.noMark c rfl)]
    exact hreads (cs.length + 2) (by simp)

end InterfaceRecord.Source

namespace InterfaceRecord.Trait

open InterfaceRecord.Source

/-- A type's text is read as the tokens it was written from, up to which of the punctuation
characters are joint: for all tokens that some source text consists of, if no literal among them
holds a blank. -/
theorem tokenize?_text {t : TypeTokens} {s : String} (h : tokenize? s = some t.tokens)
    (hsolid : ∀ kind text, Token.literal kind text ∈ t.tokens → ' ' ∉ text.toList) :
    (tokenize? t.text).map (·.map Token.unjoined) = some (t.tokens.map Token.unjoined) := by
  refine tokenize?_of_kept (legible_of_tokenize? h fun u hu => ?_).kept
  cases u with
  | literal kind text => exact hsolid kind text hu
  | _ => trivial

/-- A documented reference to a list, with lifetimes, a raw name, literals of four kinds, and a
slash in front of a star. -/
def tangledSource : String :=
  "///\x01\n&'a mut [Vec<r#type::Of<'static, \"x\"s, 1.5e+3, b'\\n', 2.>>; 0x2f_u8]" ++
    " + \x7bfn(A)->B, a / *b (/*ERROR*/)\x7d"

def tangledType : TypeTokens := ⟨(tokenize? tangledSource).getD []⟩

theorem tokenize?_text_tangled :
    tokenize? tangledSource = some tangledType.tokens ∧
      tangledType.text = "# [doc = \"\\u\x7b1\x7d\"] &'a mut [Vec<r#type::Of<'static, " ++
        "\"x\"s, 1.5e+3, b'\\n', 2.>>; 0x2f_u8] + \x7b fn(A) -> B, a / * b(/*ERROR*/) \x7d" ∧
      (tokenize? tangledType.text).map (·.map Token.unjoined) =
        some (tangledType.tokens.map Token.unjoined) := by
  have hread : tokenize? tangledSource = some tangledType.tokens := by decide +kernel
  have hsolid : ∀ t ∈ tangledType.tokens, t.Solid := by decide +kernel
  exact ⟨hread, by decide +kernel, tokenize?_text hread fun _ _ hmem => hsolid _ hmem⟩

end InterfaceRecord.Trait
