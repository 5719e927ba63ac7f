/-
  What a text's tokens look like: delimiters that match, firm tokens, punctuation characters that
  start no comment together, and apostrophes in front of names. This is all of a text that has to
  be known to write its tokens down again, so `Legible` says it of a list of tokens, and the tokens
  of a text are legible unless a literal holds a blank (`legible_of_tokenize?`).
-/
import InterfaceRecord.Proofs.Leaves

namespace InterfaceRecord.Source

open InterfaceRecord.Text

variable {fuel : Nat} {stack stack' : List Delimiter} {cs rest : List Char} {t : Token}
  {ts later : List Token}

/-! ## Tokens without their places -/

/-- The tokens of a text, read in at most `fuel` steps. -/
def tokensWithin? : Nat → List Delimiter → List Char → Option (List Token)
  | 0, _, _ => none
  | fuel + 1, stack, cs =>
    match skipBlanks cs with
    | [] => if stack.isEmpty then some [] else none
    | c :: front =>
      (scanStep? stack (c :: front)).bind fun (tokens, stack, rest) =>
        (tokensWithin? fuel stack rest).map (tokens ++ ·)

theorem map_token_tokenizeWithin? (fuel : Nat) (p : Position) (stack : List Delimiter)
    (cs : List Char) :
    (tokenizeWithin? fuel p stack cs).map (·.map (·.token)) = tokensWithin? fuel stack cs := by
  induction fuel generalizing p stack cs with
  | zero => rfl
  | succ fuel ih =>
    rw [tokenizeWithin?, tokensWithin?]
    dsimp only
    cases hfront : skipBlanks cs with
    | nil =>
      dsimp only [List.isEmpty_nil]
      rw [if_pos rfl]
      split <;> rfl
    | cons c front =>
      dsimp only [List.isEmpty_cons]
      rw [if_neg Bool.false_ne_true]
      cases hstep : scanStep? stack (c :: front) with
      | none => rfl
      | some step =>
        obtain ⟨tokens, stack, rest⟩ := step
        have hlater := ih ((p.advance (between cs (c :: front))).advance
          (between (c :: front) rest)) stack rest
        rw [Option.bind_some]
        dsimp only
        rw [← hlater]
        simp only [Option.bind_eq_bind, Option.bind_some]
        generalize tokenizeWithin? fuel _ stack rest = placed
        cases placed with
        | none => rfl
        | some placed => simp [Function.comp_def]

/-! ## Where a token starts -/

/-- A token starts here: neither a blank nor a comment does, and no mark that stands in front of a
whole text. -/
structure Shown (cs : List Char) : Prop where
  noLine : startsWith cs "//" = false
  noBlock : startsWith cs "/*" = false
  noBlank : ∀ c ∈ cs.head?, isBlank c = false
  noMark : ∀ c ∈ cs.head?, c ≠ byteOrderMark

theorem startsWith_eq_false {short long : String} (h : short.toList.isPrefixOf long.toList = true)
    (hshort : startsWith cs short = false) : startsWith cs long = false := by
  by_contra hlong
  have hprefix := (List.isPrefixOf_iff_prefix.mp h).trans
    (List.isPrefixOf_iff_prefix.mp (Bool.of_not_eq_false hlong))
  rw [startsWith, List.isPrefixOf_iff_prefix.mpr hprefix] at hshort
  cases hshort

theorem Shown.afterComment? (h : Shown cs) : Source.afterComment? cs = none := by
  have hempty : startsWith cs "/**/" = false := startsWith_eq_false (by decide) h.noBlock
  rw [Source.afterComment?, h.noLine, h.noBlock, hempty]
  rfl

theorem Shown.skipBlanks (h : Shown cs) : Source.skipBlanks cs = cs := by
  cases cs with
  | nil => rfl
  | cons c cs =>
    rw [Source.skipBlanks, List.length_cons, skipBlanksWithin, h.afterComment?]
    dsimp only
    rw [h.noBlank c rfl]
    rfl

theorem Shown.scanDocComment? (h : Shown cs) : Source.scanDocComment? cs = none := by
  have hline : isDocLine cs = false := by
    rw [isDocLine, startsWith_eq_false (by decide) h.noLine]
    rfl
  have hblock : isDocBlock cs = false := by
    rw [isDocBlock, startsWith_eq_false (by decide) h.noBlock]
    rfl
  have hinnerLine : startsWith cs "//!" = false := startsWith_eq_false (by decide) h.noLine
  have hinnerBlock : startsWith cs "/*!" = false := startsWith_eq_false (by decide) h.noBlock
  rw [Source.scanDocComment?, hline, hblock, hinnerLine, hinnerBlock]
  rfl

theorem startsWith_of_head {text : String} {c : Char} (hc : cs.head? ≠ some c)
    (htext : text.toList.head? = some c) : startsWith cs text = false := by
  by_contra hstarts
  obtain ⟨later, rfl⟩ := List.isPrefixOf_iff_prefix.mp (Bool.of_not_eq_false hstarts)
  obtain ⟨tail, htail⟩ := List.head?_eq_some_iff.mp htext
  exact hc (by rw [htail]; rfl)

/-- Any character but a slash starts a token, unless it is a blank. -/
theorem shown_cons {c : Char} (hslash : c ≠ '/') (hblank : isBlank c = false)
    (hmark : c ≠ byteOrderMark) (cs : List Char) : Shown (c :: cs) where
  noLine := startsWith_of_head (c := '/') (by simpa using hslash) rfl
  noBlock := startsWith_of_head (c := '/') (by simpa using hslash) rfl
  noBlank := by
    rintro d ⟨⟩
    exact hblank
  noMark := by
    rintro d ⟨⟩
    exact hmark

/-- A slash starts a token unless another one or a star follows. -/
theorem shown_slash (hslash : cs.head? ≠ some '/') (hstar : cs.head? ≠ some '*') :
    Shown ('/' :: cs) where
  noLine := by
    by_contra hstarts
    obtain ⟨later, hlater⟩ := List.isPrefixOf_iff_prefix.mp (Bool.of_not_eq_false hstarts)
    cases hlater
    exact hslash rfl
  noBlock := by
    by_contra hstarts
    obtain ⟨later, hlater⟩ := List.isPrefixOf_iff_prefix.mp (Bool.of_not_eq_false hstarts)
    cases hlater
    exact hstar rfl
  noBlank := by
    rintro d ⟨⟩
    decide
  noMark := by
    rintro d ⟨⟩
    decide

theorem shown_nil : Shown [] :=
  ⟨rfl, rfl, fun _ hc => (by cases hc), fun _ hc => (by cases hc)⟩

/-- The codes of the blanks. -/
def blankCodes : List Nat :=
  [0x09, 0x0A, 0x0B, 0x0C, 0x0D, 0x20, 0x85, 0xA0, 0x1680, 0x2000, 0x2001, 0x2002, 0x2003, 0x2004,
   0x2005, 0x2006, 0x2007, 0x2008, 0x2009, 0x200A, 0x200E, 0x200F, 0x2028, 0x2029, 0x202F, 0x205F,
   0x3000]

theorem isBlank_of_isWordTail {c : Char} (h : isWordTail c = true) : isBlank c = false := by
  by_contra hblank
  have hall : (blankCodes.all fun n => !isWordTail (Char.ofNat n)) = true := by decide +kernel
  have hmem : c.toNat ∈ blankCodes := by
    simp only [isBlank, Bool.not_eq_false, Bool.or_eq_true, Bool.and_eq_true, decide_eq_true_eq,
      beq_iff_eq] at hblank
    simp only [blankCodes, List.mem_cons, List.not_mem_nil]
    omega
  have hword := List.all_eq_true.mp hall c.toNat hmem
  rw [Char.ofNat_toNat, h] at hword
  cases hword

theorem isWordTail_byteOrderMark : isWordTail byteOrderMark = false := by decide +kernel

theorem shown_of_isWordTail {c : Char} (h : isWordTail c = true) (cs : List Char) :
    Shown (c :: cs) := by
  refine shown_cons ?_ (isBlank_of_isWordTail h) ?_ cs
  · rintro rfl
    cases h
  · rintro rfl
    rw [isWordTail_byteOrderMark] at h
    cases h

/-! ## One token after the other -/

/-- The token at the front of a text, what is open behind it, and what follows it. -/
inductive FindsToken : List Delimiter → List Char → Token → List Delimiter → List Char → Prop
  | opening {d : Delimiter} {stack : List Delimiter} {rest : List Char} :
      FindsToken stack (d.openingText :: rest) (.opening d) (d :: stack) rest
  | closing {d : Delimiter} {stack : List Delimiter} {rest : List Char} :
      FindsToken (d :: stack) (d.closingText :: rest) (.closing d) stack rest
  | leaf {stack : List Delimiter} {cs : List Char} {t : Token} {rest : List Char}
      (h : FindsLeaf cs t rest) : FindsToken stack cs t stack rest

theorem FindsLeaf.head? (h : FindsLeaf cs t rest) : t.text.head? = cs.head? := by
  cases h with
  | firm ht =>
    obtain ⟨c, front, htext, -⟩ := ht.first
    rw [htext]
    rfl
  | placeholder => rfl
  | mark _ _ => rfl
  | apostrophe _ => rfl

theorem FindsToken.head? (h : FindsToken stack cs t stack' rest) : t.text.head? = cs.head? := by
  cases h with
  | opening => rfl
  | closing => rfl
  | leaf h => exact h.head?

theorem of_opening? {c : Char} {d : Delimiter} (h : opening? c = some d) : c = d.openingText := by
  unfold opening? at h
  split at h <;> cases h <;> rfl

theorem of_closing? {c : Char} {d : Delimiter} (h : closing? c = some d) : c = d.closingText := by
  unfold closing? at h
  split at h <;> cases h <;> rfl

/-- A step reads a documentation comment or one token. -/
theorem of_scanStep? {tokens : List Token} (h : scanStep? stack cs = some (tokens, stack', rest)) :
    (∃ doc, Source.scanDocComment? cs = some (doc, rest) ∧ tokens = doc.tokens ∧ stack' = stack) ∨
      Source.scanDocComment? cs = none ∧
        ∃ t, tokens = [t] ∧ (t.Solid → FindsToken stack cs t stack' rest) := by
  have hleaf {cs : List Char} (h : ((scanLeaf? cs).map fun x => ([x.1], stack, x.2)) =
      some (tokens, stack', rest)) :
      ∃ t, tokens = [t] ∧ (t.Solid → FindsToken stack cs t stack' rest) := by
    obtain ⟨⟨t, rest⟩, hscan, heq⟩ := Option.map_eq_some_iff.mp h
    cases heq
    exact ⟨t, rfl, fun hsolid => .leaf (findsLeaf_of_scanLeaf? hscan hsolid)⟩
  unfold scanStep? at h
  split at h
  · rename_i doc behind hdoc
    cases h
    exact .inl ⟨doc, hdoc, rfl, rfl⟩
  · rename_i hdoc
    refine .inr ⟨hdoc, ?_⟩
    split at h
    · cases h
    · rename_i c later
      split at h
      · exact hleaf h
      · split at h
        · rename_i d _ hopening
          cases h
          rw [of_opening? hopening]
          exact ⟨_, rfl, fun _ => .opening⟩
        · rename_i d _ hclosing
          split at h
          · split at h
            · rename_i htop
              cases h
              rw [of_closing? hclosing, htop]
              exact ⟨_, rfl, fun _ => .closing⟩
            · cases h
          · cases h
        · exact hleaf h

/-- The tokens of a text, with delimiters of `stack` open in front of them. -/
inductive Legible : List Delimiter → List Token → Prop
  | nil : Legible [] []
  | opening {d : Delimiter} {stack : List Delimiter} {ts : List Token}
      (hlater : Legible (d :: stack) ts) : Legible stack (.opening d :: ts)
  | closing {d : Delimiter} {stack : List Delimiter} {ts : List Token}
      (hlater : Legible stack ts) : Legible (d :: stack) (.closing d :: ts)
  | firm {t : Token} {stack : List Delimiter} {ts : List Token} (ht : t.Firm)
      (hlater : Legible stack ts) : Legible stack (t :: ts)
  | placeholder {stack : List Delimiter} {ts : List Token} (hlater : Legible stack ts) :
      Legible stack (.literal .placeholder placeholder :: ts)
  | mark {c : Char} {joint : Bool} {stack : List Delimiter} {ts : List Token} (hc : c ≠ '\'')
      (hpunct : isPunct c = true)
      (hcomment : c = '/' → joint = true → ∀ t ∈ ts.head?,
        t.text.head? ≠ some '/' ∧ t.text.head? ≠ some '*')
      (hlater : Legible stack ts) : Legible stack (.punct c joint :: ts)
  | lifetime {t : Token} {stack : List Delimiter} {ts : List Token} (ht : t.Firm)
      (hmarks : MarksLifetime t.text) (hlater : Legible stack (t :: ts)) :
      Legible stack (.punct '\'' true :: t :: ts)

/-! ## The tokens of a text are legible -/

theorem of_isPunct_blank {c : Char} (h : isPunct c = true) :
    isBlank c = false ∧ c ≠ byteOrderMark := by
  have hall : ("~!@#$%^&*-=+|;:,<.>/?'".toList.all fun c =>
      !isBlank c && c != byteOrderMark) = true := by decide
  have hc := List.all_eq_true.mp hall c (List.contains_iff_mem.mp h)
  simpa using hc

theorem shown_of_punct? {x : Char × List Char} (h : punct? cs = some x) : Shown cs := by
  obtain ⟨c, rest⟩ := x
  obtain ⟨rfl, hc⟩ := of_punct? h
  obtain ⟨hblank, hmark⟩ := of_isPunct_blank hc
  unfold punct? at h
  split at h
  · cases h
  · rename_i hcomment
    rw [Bool.or_eq_true, not_or, Bool.not_eq_true, Bool.not_eq_true] at hcomment
    refine ⟨hcomment.1, hcomment.2, ?_, ?_⟩
    · rintro d ⟨⟩
      exact hblank
    · rintro d ⟨⟩
      exact hmark

/-- Where a token starts, the first token of the text is found. -/
theorem exists_first (h : tokensWithin? fuel stack cs = some ts) (hshown : Shown cs)
    (hne : cs ≠ []) :
    ∃ t later stack' rest, ts = t :: later ∧
      (t.Solid → FindsToken stack cs t stack' rest) := by
  cases fuel with
  | zero => cases h
  | succ fuel =>
    obtain ⟨c, cs, rfl⟩ := List.exists_cons_of_ne_nil hne
    rw [tokensWithin?, hshown.skipBlanks] at h
    obtain ⟨⟨tokens, stack', rest⟩, hstep, h⟩ := Option.bind_eq_some_iff.mp h
    obtain ⟨later, -, rfl⟩ := Option.map_eq_some_iff.mp h
    rcases of_scanStep? hstep with ⟨doc, hdoc, -⟩ | ⟨-, t, rfl, hfinds⟩
    · rw [hshown.scanDocComment?] at hdoc
      cases hdoc
    · exact ⟨t, later, stack', rest, rfl, hfinds⟩

theorem FindsToken.firm_of_word {c : Char} (h : FindsToken stack (c :: cs) t stack' rest)
    (hc : isWordTail c = true) : t.Firm ∧ c :: cs = t.text ++ rest := by
  generalize htext : c :: cs = text at h
  cases h with
  | @opening d =>
    obtain ⟨rfl, -⟩ := List.cons.inj htext
    cases d <;> cases hc
  | @closing d =>
    obtain ⟨rfl, -⟩ := List.cons.inj htext
    cases d <;> cases hc
  | leaf h =>
    cases h with
    | firm ht => exact ⟨ht, rfl⟩
    | placeholder =>
      cases htext
      cases hc
    | mark _ hpunct =>
      cases htext
      rw [(of_isPunct (of_punct? hpunct).2).1] at hc
      cases hc
    | apostrophe _ =>
      cases htext
      cases hc

theorem Legible.finds (h : FindsToken stack cs t stack' rest)
    (hread : tokensWithin? fuel stack' rest = some later) (hsolid : ∀ u ∈ later, u.Solid)
    (hlater : Legible stack' later) : Legible stack (t :: later) := by
  cases h with
  | opening => exact .opening hlater
  | closing => exact .closing hlater
  | leaf h =>
    cases h with
    | firm ht => exact .firm ht hlater
    | placeholder => exact .placeholder hlater
    | @mark c rest hc hpunct =>
      refine .mark hc (of_punct? hpunct).2 ?_ hlater
      rintro rfl hjoint u hu
      obtain ⟨⟨d, tail⟩, hnext⟩ := Option.isSome_iff_exists.mp hjoint
      obtain ⟨rfl, -⟩ := of_punct? hnext
      obtain ⟨v, later, stack'', rest', rfl, hfinds⟩ :=
        exists_first hread (shown_of_punct? hnext) (List.cons_ne_nil _ _)
      cases hu
      have hslash := shown_of_punct? hpunct
      rw [(hfinds (hsolid u List.mem_cons_self)).head?]
      constructor
      · rintro ⟨⟩
        cases hslash.noLine
      · rintro ⟨⟩
        cases hslash.noBlock
    | apostrophe hpunct =>
      have hname := hpunct
      rw [scanPunct?_apostrophe] at hname
      obtain ⟨⟨word, behind⟩, hword, -⟩ := Option.bind_eq_some_iff.mp hname
      obtain ⟨rfl, hscanned⟩ := of_scanWord? hword
      obtain ⟨c, front, rfl, hc⟩ := hscanned.head
      have htail := isWordTail_of_isWordStart hc
      obtain ⟨u, later, stack'', rest', rfl, hfinds⟩ :=
        exists_first hread (shown_of_isWordTail htail _) (List.cons_ne_nil _ _)
      obtain ⟨hfirm, htext⟩ :=
        (hfinds (hsolid u List.mem_cons_self)).firm_of_word htail
      have hsame : c :: (front ++ behind) = u.text ++ rest' := htext
      rw [List.cons_append, hsame] at hpunct
      exact .lifetime hfirm (marksLifetime_of_scanPunct? hfirm hpunct) hlater

theorem Legible.alone {c : Char} (hc : c ≠ '\'') (hpunct : isPunct c = true)
    (hlater : Legible stack later) : Legible stack (.punct c false :: later) :=
  .mark hc hpunct (fun _ hjoint => by cases hjoint) hlater

theorem Legible.doc {d : DocComment} (hsolid : ∀ u ∈ d.tokens, u.Solid)
    (hlater : Legible stack later) : Legible stack (d.tokens ++ later) := by
  have hliteral : (Token.literal .string
      (String.ofList ('"' :: quoteLiteral d.content ++ ['"']))).Firm := by
    refine firm_docLiteral ?_
    have := hsolid (.literal .string (String.ofList ('"' :: quoteLiteral d.content ++ ['"'])))
      (by simp [DocComment.tokens])
    rwa [Token.Solid, String.toList_ofList] at this
  have hbracket : Legible stack ([Token.opening .bracket, .ident docIdent, .punct '=' false,
      .literal .string (String.ofList ('"' :: quoteLiteral d.content ++ ['"'])),
      .closing .bracket] ++ later) :=
    .opening (.firm firm_docIdent (.alone (by decide) (by decide)
      (.firm hliteral (.closing hlater))))
  rw [DocComment.tokens]
  split
  · exact .alone (by decide) (by decide) (.alone (by decide) (by decide) hbracket)
  · exact .alone (by decide) (by decide) hbracket

/-- The tokens of a text are legible, unless a blank stands in one of them. -/
theorem legible_of_tokensWithin? (h : tokensWithin? fuel stack cs = some ts)
    (hsolid : ∀ t ∈ ts, t.Solid) : Legible stack ts := by
  induction fuel generalizing stack cs ts with
  | zero => cases h
  | succ fuel ih =>
    rw [tokensWithin?] at h
    split at h
    · split at h
      · rename_i hstack
        cases h
        rw [List.isEmpty_iff.mp hstack]
        exact .nil
      · cases h
    · obtain ⟨⟨tokens, stack', rest⟩, hstep, h⟩ := Option.bind_eq_some_iff.mp h
      obtain ⟨later, hread, rfl⟩ := Option.map_eq_some_iff.mp h
      obtain ⟨hfront, hlater⟩ := List.forall_mem_append.mp hsolid
      have hlegible := ih hread hlater
      rcases of_scanStep? hstep with ⟨doc, -, rfl, rfl⟩ | ⟨-, t, rfl, hfinds⟩
      · exact hlegible.doc hfront
      · exact .finds (hfinds (hfront t List.mem_cons_self)) hread hlater hlegible

theorem tokenize?_eq (s : String) :
    tokenize? s = match s.toList with
      | [] => some []
      | c :: cs =>
        if c = byteOrderMark then tokensWithin? (cs.length + 2) [] cs
        else tokensWithin? (cs.length + 2) [] (c :: cs) := by
  rw [tokenize?]
  cases s.toList with
  | nil => rfl
  | cons c cs =>
    unfold tokenizePlaced?
    dsimp only
    split
    · exact map_token_tokenizeWithin? _ _ _ _
    · exact map_token_tokenizeWithin? _ _ _ _

theorem legible_of_tokenize? {s : String} (h : tokenize? s = some ts)
    (hsolid : ∀ t ∈ ts, t.Solid) : Legible [] ts := by
  rw [tokenize?_eq] at h
  split at h
  · cases h
    exact .nil
  · split at h
    · exact legible_of_tokensWithin? h hsolid
    · exact legible_of_tokensWithin? h hsolid

end InterfaceRecord.Source
