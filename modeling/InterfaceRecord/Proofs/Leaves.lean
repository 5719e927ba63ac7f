/-
  Tokens that can be taken out of one text and put into another. A literal, a word or a lifetime
  that the scanners found in front of some text they find again in front of every text that breaks
  (`Token.Firm`, `MarksLifetime`), so what separates the tokens of a type may be shortened as long
  as it breaks.
-/
import InterfaceRecord.Proofs.Numerals
import InterfaceRecord.Proofs.Quoting

namespace InterfaceRecord.Source

open InterfaceRecord.Text

variable {cs rest rest' : List Char}

/-! ## Quoted literals with their suffix -/

/-- A scanner's answer is cut out behind a closing quote and the signs that follow it. -/
def CutsQuote (scan? : List Char → Option (List Char)) : Prop :=
  ∀ {cs rest : List Char}, scan? cs = some rest →
    ∃ body q signs, cs = body ++ q :: (signs ++ rest) ∧ (q = '"' ∨ q = '\'') ∧
      (∀ c ∈ signs, c = '#') ∧ ∀ rest', scan? (body ++ q :: (signs ++ rest')) = some rest'

def behindQuoted? (k : Content) (cs : List Char) : Option (List Char) := (quoted? k cs).map (·.2)

def behindRaw? (k : Content) (cs : List Char) : Option (List Char) := (raw? k cs).map (·.2)

theorem behindQuoted?_cutsQuote (k : Content) : CutsQuote (behindQuoted? k) := by
  intro cs rest h
  obtain ⟨⟨value, rest⟩, hquoted, heq⟩ := Option.map_eq_some_iff.mp h
  cases heq
  obtain ⟨body, rfl, hcut⟩ := quoted?_cut hquoted
  refine ⟨body, '"', [], rfl, .inl rfl, by simp, fun rest' => ?_⟩
  rw [List.nil_append, behindQuoted?, hcut]
  rfl

theorem behindRaw?_cutsQuote (k : Content) : CutsQuote (behindRaw? k) := by
  intro cs rest h
  obtain ⟨⟨value, rest⟩, hraw, heq⟩ := Option.map_eq_some_iff.mp h
  cases heq
  obtain ⟨signs, body, rfl, hcut⟩ := raw?_cut hraw
  refine ⟨List.replicate signs '#' ++ '"' :: body, '"', List.replicate signs '#', by simp,
    .inl rfl, fun c hc => List.eq_of_mem_replicate hc, fun rest' => ?_⟩
  rw [List.append_assoc, List.cons_append, behindRaw?, hcut]
  rfl

theorem apostrophed?_cutsQuote (k : Content) : CutsQuote (apostrophed? k) := by
  intro cs rest h
  obtain ⟨body, rfl, hcut⟩ := apostrophed?_cut h
  exact ⟨body, '\'', [], rfl, .inr rfl, by simp, hcut⟩

/-- How a quoted literal starts, and what reads it behind that. -/
inductive Opens : List Char → LiteralKind → (List Char → Option (List Char)) → Prop
  | string : Opens ['"'] .string (behindQuoted? .text)
  | rawString : Opens ['r'] .rawString (behindRaw? .text)
  | byteString : Opens ['b', '"'] .byteString (behindQuoted? .bytes)
  | rawByteString : Opens ['b', 'r'] .byteString (behindRaw? .bytes)
  | cString : Opens ['c', '"'] .cString (behindQuoted? .nulFree)
  | rawCString : Opens ['c', 'r'] .cString (behindRaw? .nulFree)
  | byte : Opens ['b', '\''] .byte (apostrophed? .bytes)
  | character : Opens ['\''] .character (apostrophed? .text)

variable {opener : List Char} {kind : LiteralKind} {scan? : List Char → Option (List Char)}

theorem Opens.cutsQuote (h : Opens opener kind scan?) : CutsQuote scan? := by
  cases h
  · exact behindQuoted?_cutsQuote _
  · exact behindRaw?_cutsQuote _
  · exact behindQuoted?_cutsQuote _
  · exact behindRaw?_cutsQuote _
  · exact behindQuoted?_cutsQuote _
  · exact behindRaw?_cutsQuote _
  · exact apostrophed?_cutsQuote _
  · exact apostrophed?_cutsQuote _

theorem Opens.scanLiteral? (h : Opens opener kind scan?) (cs : List Char) :
    Source.scanLiteral? (opener ++ cs) = (scan? cs).map fun rest => (kind, afterSuffix rest) := by
  cases h
  case byte => rfl
  case character => rfl
  all_goals
    first
    | rw [behindQuoted?, Option.map_map]
    | rw [behindRaw?, Option.map_map]
    rfl

theorem scanLiteral?_digit {d : Char} (hd : d.isDigit = true) (cs : List Char) :
    scanLiteral? (d :: cs) = numeral? (d :: cs) := by
  unfold scanLiteral?
  split
  case h_9 => rfl
  all_goals
    rename_i heq
    cases heq
    cases hd

/-- A literal is a quoted one or a number. -/
theorem of_scanLiteral? (h : scanLiteral? cs = some (kind, rest)) :
    (∃ opener scan? later behind, Opens opener kind scan? ∧ cs = opener ++ later ∧
        scan? later = some behind ∧ rest = afterSuffix behind) ∨
      numeral? cs = some (kind, rest) := by
  have hopens {opener later : List Char} {kind' : LiteralKind}
      {scan? : List Char → Option (List Char)} (hopen : Opens opener kind' scan?)
      (h : (scan? later).map (fun rest => (kind', afterSuffix rest)) = some (kind, rest)) :
      ∃ opener' scan?' later' behind, Opens opener' kind scan?' ∧
        opener ++ later = opener' ++ later' ∧ scan?' later' = some behind ∧
        rest = afterSuffix behind := by
    obtain ⟨behind, hscan, heq⟩ := Option.map_eq_some_iff.mp h
    cases heq
    exact ⟨opener, scan?, later, behind, hopen, rfl, hscan, rfl⟩
  unfold scanLiteral? at h
  split at h
  · exact .inl (hopens .string ((Opens.string.scanLiteral? _).symm.trans h))
  · exact .inl (hopens .rawString ((Opens.rawString.scanLiteral? _).symm.trans h))
  · exact .inl (hopens .byteString ((Opens.byteString.scanLiteral? _).symm.trans h))
  · exact .inl (hopens .rawByteString ((Opens.rawByteString.scanLiteral? _).symm.trans h))
  · exact .inl (hopens .cString ((Opens.cString.scanLiteral? _).symm.trans h))
  · exact .inl (hopens .rawCString ((Opens.rawCString.scanLiteral? _).symm.trans h))
  · exact .inl (hopens .byte ((Opens.byte.scanLiteral? _).symm.trans h))
  · exact .inl (hopens .character ((Opens.character.scanLiteral? _).symm.trans h))
  · exact .inr h

theorem of_behindRaw? {k : Content} (h : behindRaw? k cs = some rest) :
    (∃ later, cs = '"' :: later) ∨ (∃ later, cs = '#' :: '"' :: later) ∨
      ∃ later, cs = '#' :: '#' :: later := by
  obtain ⟨⟨value, rest⟩, hraw, heq⟩ := Option.map_eq_some_iff.mp h
  obtain ⟨signs, body, rfl, -⟩ := raw?_cut hraw
  match signs with
  | 0 => exact .inl ⟨_, rfl⟩
  | 1 => exact .inr (.inl ⟨_, rfl⟩)
  | signs + 2 => exact .inr (.inr ⟨_, rfl⟩)

/-- A literal that starts as a word does shows that it is one. -/
theorem Opens.startsLiteral {later behind : List Char} (h : Opens opener kind scan?)
    (hscan : scan? later = some behind) (hstart : ∀ c ∈ opener.head?, isWordStart c = true) :
    Source.startsLiteral (opener ++ later) = true := by
  have hraw {k : Content} (hscan : behindRaw? k later = some behind) := of_behindRaw? hscan
  cases h with
  | string => cases hstart _ rfl
  | rawString => rcases hraw hscan with ⟨later, rfl⟩ | ⟨later, rfl⟩ | ⟨later, rfl⟩ <;> rfl
  | byteString => rfl
  | rawByteString => rcases hraw hscan with ⟨later, rfl⟩ | ⟨later, rfl⟩ | ⟨later, rfl⟩ <;> rfl
  | cString => rfl
  | rawCString => rcases hraw hscan with ⟨later, rfl⟩ | ⟨later, rfl⟩ | ⟨later, rfl⟩ <;> rfl
  | byte => rfl
  | character => cases hstart _ rfl

/-! ## Literals -/

/-- A literal's text as its neighbours see it. -/
structure IsLiteralText (text : List Char) : Prop where
  first : ∃ c front, text = c :: front ∧ (isWordTail c = true ∨ c = '"' ∨ c = '\'')
  last : ∀ c ∈ text.getLast?, gluesNext c = false
  starts : (∀ c ∈ text.head?, isWordStart c = true) → startsLiteral text = true

theorem gluesNext_of_isWordTail {c : Char} (h : isWordTail c = true) : gluesNext c = false :=
  gluesNext_of_isWordPart (by rw [isWordPart, h]; rfl)

theorem gluesNext_of_isNumeralPart {c : Char} (h : isNumeralPart c = true) :
    gluesNext c = false := by
  simp only [isNumeralPart, Bool.or_eq_true, beq_iff_eq] at h
  rcases h with ((h | rfl) | rfl) | rfl
  · exact gluesNext_of_isWordTail h
  · decide
  · decide
  · decide

theorem isWordStart_of_isDigit {c : Char} (h : c.isDigit = true) : isWordStart c = false := by
  have hlt : c.toNat < 128 := Nat.lt_of_le_of_lt (toNat_le_of_isDigit h) (by decide)
  have hall := of_ascii (p := fun c => !c.isDigit || !isWordStart c) (by decide) hlt
  simpa [h] using hall

theorem Opens.first (h : Opens opener kind scan?) :
    ∃ c front, opener = c :: front ∧ (isWordTail c = true ∨ c = '"' ∨ c = '\'') := by
  cases h <;> exact ⟨_, _, rfl, by decide⟩

theorem Opens.isLiteralText {body signs word : List Char} {q : Char}
    (h : Opens opener kind scan?) (hq : q = '"' ∨ q = '\'') (hsigns : ∀ c ∈ signs, c = '#')
    (hword : ∀ c ∈ word, isWordTail c = true)
    (hscan : scan? (body ++ q :: (signs ++ word)) = some word) :
    IsLiteralText (opener ++ (body ++ q :: (signs ++ word))) where
  first := by
    obtain ⟨c, front, rfl, hc⟩ := h.first
    exact ⟨c, _, rfl, hc⟩
  last := by
    intro c hc
    rw [← List.append_assoc, List.getLast?_append_of_ne_nil _ (List.cons_ne_nil _ _)] at hc
    have hmem := List.mem_of_getLast? hc
    rw [List.mem_cons, List.mem_append] at hmem
    rcases hmem with rfl | hmem | hmem
    · rcases hq with rfl | rfl <;> decide
    · rw [hsigns c hmem]
      decide
    · exact gluesNext_of_isWordTail (hword c hmem)
  starts := by
    intro hstart
    obtain ⟨c, front, rfl, -⟩ := h.first
    exact h.startsLiteral hscan hstart

theorem isLiteralText_of_digit {d : Char} {front : List Char} (hd : d.isDigit = true)
    (hfront : ∀ c ∈ front, isNumeralPart c = true) : IsLiteralText (d :: front) where
  first := ⟨d, front, rfl, .inl (isWordTail_of_isDigitOrGap (isDigitOrGap_of_isDigit hd))⟩
  last := by
    intro c hc
    rcases List.mem_cons.mp (List.mem_of_getLast? hc) with rfl | hmem
    · exact gluesNext_of_isNumeralPart (isNumeralPart_of_isDigitOrGap (isDigitOrGap_of_isDigit hd))
    · exact gluesNext_of_isNumeralPart (hfront c hmem)
  starts := by
    intro hstart
    have := hstart d rfl
    rw [isWordStart_of_isDigit hd] at this
    cases this

/-- A literal is cut out: it is read in front of every text that breaks. -/
theorem scanLiteral?_cut (h : scanLiteral? cs = some (kind, rest)) :
    ∃ text, cs = text ++ rest ∧ IsLiteralText text ∧
      ∀ rest', Breaks rest' → scanLiteral? (text ++ rest') = some (kind, rest') := by
  rcases of_scanLiteral? h with ⟨opener, scan?, later, behind, hopen, rfl, hscan, rfl⟩ | h
  · obtain ⟨body, q, signs, rfl, hq, hsigns, hcut⟩ := hopen.cutsQuote hscan
    obtain ⟨word, hword, htail, hsuffix⟩ := afterSuffix_cut behind
    refine ⟨opener ++ (body ++ q :: (signs ++ word)), ?_,
      hopen.isLiteralText hq hsigns htail (hcut word), ?_⟩
    · simp [← hword]
    · intro rest' hrest'
      have hread := hcut (word ++ rest')
      simp only [List.append_assoc, List.cons_append]
      rw [hopen.scanLiteral?, hread, Option.map_some, hsuffix rest' hrest'.stopsWord]
  · obtain ⟨d, front, rfl, hd, hfront, hcut⟩ := numeral?_cut h
    refine ⟨d :: front, rfl, isLiteralText_of_digit hd hfront, fun rest' hrest' => ?_⟩
    rw [List.cons_append, scanLiteral?_digit hd, hcut rest' hrest']

/-! ## Words -/

theorem between_append (front rest : List Char) : between (front ++ rest) rest = front := by
  rw [between, List.length_append, Nat.add_sub_cancel, List.take_left]

/-- A word as it is scanned, perhaps marked raw. -/
inductive IsScannedWord : List Char → Prop
  | plain {c : Char} {cs : List Char} (hc : isWordStart c = true)
      (hcs : ∀ d ∈ cs, isWordTail d = true) : IsScannedWord (c :: cs)
  | raw {c : Char} {cs : List Char} (hc : isWordStart c = true)
      (hcs : ∀ d ∈ cs, isWordTail d = true) (hraw : neverRaw (c :: cs) = false) :
      IsScannedWord ('r' :: '#' :: c :: cs)

theorem of_afterWord? (h : afterWord? cs = some rest) :
    ∃ c front, cs = c :: front ++ rest ∧ isWordStart c = true ∧
      ∀ d ∈ front, isWordTail d = true := by
  cases cs with
  | nil => cases h
  | cons c cs =>
    rw [afterWord?] at h
    split at h
    · rename_i hc
      cases h
      refine ⟨c, cs.takeWhile isWordTail, ?_, hc, fun d hd => List.mem_takeWhile_imp hd⟩
      rw [List.cons_append, List.takeWhile_append_dropWhile]
    · cases h

theorem of_scanWord? {word : List Char} (h : scanWord? cs = some (word, rest)) :
    cs = word ++ rest ∧ IsScannedWord word := by
  unfold scanWord? at h
  split at h
  · obtain ⟨rest, hafter, h⟩ := Option.bind_eq_some_iff.mp h
    obtain ⟨c, front, rfl, hc, hfront⟩ := of_afterWord? hafter
    rw [between_append] at h
    split at h
    · cases h
    · rename_i hraw
      have hbetween := between_append ('r' :: '#' :: c :: front) rest
      simp only [List.cons_append] at hbetween h
      rw [hbetween] at h
      cases h
      exact ⟨rfl, .raw hc hfront (Bool.eq_false_iff.mpr hraw)⟩
  · obtain ⟨rest, hafter, h⟩ := Option.bind_eq_some_iff.mp h
    obtain ⟨c, front, rfl, hc, hfront⟩ := of_afterWord? hafter
    rw [between_append] at h
    cases h
    exact ⟨rfl, .plain hc hfront⟩

/-- A word that no raw mark starts is scanned to its end. -/
theorem scanWord?_plain {c : Char} {front : List Char} (hc : isWordStart c = true)
    (hfront : ∀ d ∈ front, isWordTail d = true) (hrest : StopsWord rest)
    (hmark : ∀ tail, c :: front ++ rest ≠ 'r' :: '#' :: tail) :
    scanWord? (c :: front ++ rest) = some (c :: front, rest) := by
  have hafter : afterWord? (c :: front ++ rest) = some rest := by
    rw [List.cons_append, afterWord?_cons hc, hrest.dropWhile_append hfront]
  unfold scanWord?
  split
  · rename_i heq
    exact absurd heq (hmark _)
  · rw [hafter]
    show some (between (c :: front ++ rest) rest, rest) = _
    rw [between_append]

theorem scanWord?_raw {c : Char} {front : List Char} (hc : isWordStart c = true)
    (hfront : ∀ d ∈ front, isWordTail d = true) (hraw : neverRaw (c :: front) = false)
    (hrest : StopsWord rest) :
    scanWord? ('r' :: '#' :: c :: front ++ rest) = some ('r' :: '#' :: c :: front, rest) := by
  have hafter : afterWord? (c :: front ++ rest) = some rest := by
    rw [List.cons_append, afterWord?_cons hc, hrest.dropWhile_append hfront]
  have hword : between ('r' :: '#' :: (c :: front ++ rest)) rest = 'r' :: '#' :: c :: front :=
    between_append ('r' :: '#' :: c :: front) rest
  show ((afterWord? (c :: front ++ rest)).bind fun rest' =>
    if neverRaw (between (c :: front ++ rest) rest') then none
    else some (between ('r' :: '#' :: (c :: front ++ rest)) rest', rest')) = _
  rw [hafter, Option.bind_some, between_append, hraw, hword]
  rfl

theorem Breaks.ne_head {q : Char} (hrest : Breaks rest)
    (hbreak : breakChars.all (· != q) = true) : rest.head? ≠ some q := by
  intro hhead
  have := hrest.head_false (p := (· == q)) hbreak q hhead
  simp at this

/-- What neither goes on with a word nor breaks does not stand behind a word. -/
theorem Breaks.head?_append_ne {front : List Char} {q : Char} (hrest : Breaks rest)
    (hfront : ∀ d ∈ front, isWordTail d = true) (hq : isWordTail q = false)
    (hbreak : breakChars.all (· != q) = true) : (front ++ rest).head? ≠ some q := by
  cases front with
  | nil => exact hrest.ne_head hbreak
  | cons d front =>
    rintro ⟨⟩
    rw [hfront q List.mem_cons_self] at hq
    cases hq

theorem IsScannedWord.scanWord? {word : List Char} (h : IsScannedWord word) (hrest : Breaks rest) :
    Source.scanWord? (word ++ rest) = some (word, rest) := by
  cases h with
  | @plain c cs hc hcs =>
    refine scanWord?_plain hc hcs hrest.stopsWord fun tail heq => ?_
    have htail : cs ++ rest = '#' :: tail := (List.cons.inj heq).2
    exact hrest.head?_append_ne hcs (q := '#') (by decide) (by decide) (by rw [htail]; rfl)
  | raw hc hcs hraw => exact scanWord?_raw hc hcs hraw hrest.stopsWord

theorem startsWith_word {word : List Char} {text : String} (hrest : Breaks rest)
    (hword : ∀ d ∈ word, isWordTail d = true)
    (htext : (text.toList.dropWhile isWordTail).head?.any
      (fun q => breakChars.all (· != q)) = true) :
    startsWith (word ++ rest) text = false := by
  by_contra hstarts
  obtain ⟨q, hq, hbreak⟩ := (Option.any_eq_true _ _).mp htext
  obtain ⟨later, hlater⟩ := List.isPrefixOf_iff_prefix.mp (Bool.of_not_eq_false hstarts)
  obtain ⟨tail, htail⟩ := List.head?_eq_some_iff.mp hq
  have hdrop := congrArg (List.dropWhile isWordTail) hlater
  rw [hrest.stopsWord.dropWhile_append hword, List.dropWhile_append, htail] at hdrop
  exact hrest.ne_head hbreak (by rw [← hdrop]; rfl)

theorem IsScannedWord.startsLiteral {word : List Char} (h : IsScannedWord word)
    (hrest : Breaks rest) : Source.startsLiteral (word ++ rest) = false := by
  cases h with
  | @plain c cs hc hcs =>
    have hword : ∀ d ∈ c :: cs, isWordTail d = true :=
      List.forall_mem_cons.mpr ⟨isWordTail_of_isWordStart hc, hcs⟩
    have hall : ["r\"", "r#\"", "r##", "b\"", "b'", "br\"", "br#", "c\"", "cr\"", "cr#"].all
        (fun text => (text.toList.dropWhile isWordTail).head?.any
          (fun q => breakChars.all (· != q))) = true := by decide
    rw [Source.startsLiteral, List.any_eq_false]
    intro text htext
    rw [startsWith_word hrest hword (List.all_eq_true.mp hall text htext)]
    exact Bool.false_ne_true
  | @raw c cs hc hcs hraw =>
    have hquote : c ≠ '"' := by
      rintro rfl
      cases hc
    have hsign : c ≠ '#' := by
      rintro rfl
      cases hc
    simp [Source.startsLiteral, startsWith, List.isPrefixOf, hquote.symm, hsign.symm]

theorem IsScannedWord.head {word : List Char} (h : IsScannedWord word) :
    ∃ c front, word = c :: front ∧ isWordStart c = true := by
  cases h with
  | plain hc _ => exact ⟨_, _, rfl, hc⟩
  | raw _ _ _ => exact ⟨_, _, rfl, by decide⟩

theorem IsScannedWord.scanLiteral? {word : List Char} (h : IsScannedWord word)
    (hrest : Breaks rest) : Source.scanLiteral? (word ++ rest) = none := by
  obtain ⟨c, front, hword, hc⟩ := h.head
  rw [Option.eq_none_iff_forall_ne_some]
  rintro ⟨kind, behind⟩ hscan
  rcases of_scanLiteral? hscan with ⟨opener, scan?, later, behind, hopen, heq, hscan, -⟩ | hnumeral
  · have hstart : ∀ d ∈ opener.head?, isWordStart d = true := by
      obtain ⟨d, front', rfl, -⟩ := hopen.first
      intro e he
      cases he
      rw [hword] at heq
      rwa [(List.cons.inj heq).1] at hc
    have := hopen.startsLiteral hscan hstart
    rw [← heq, h.startsLiteral hrest] at this
    cases this
  · obtain ⟨d, front', heq, hd, -⟩ := numeral?_cut hnumeral
    rw [hword] at heq
    rw [(List.cons.inj heq).1, isWordStart_of_isDigit hd] at hc
    cases hc

/-! ## Firm tokens -/

/-- No blank stands in the token if it is a literal. -/
def Token.Solid : Token → Prop
  | .literal _ text => ' ' ∉ text.toList
  | _ => True

instance : DecidablePred Token.Solid
  | .literal _ text => inferInstanceAs (Decidable (' ' ∉ text.toList))
  | .ident _ | .punct _ _ | .opening _ | .closing _ => inferInstanceAs (Decidable True)

/-- Behind a token that is neither joint nor opens a delimiter a blank is only left out where a
bracket is closed. -/
theorem head_of_spaced {t u : Token} (hpunct : ∀ c, t ≠ .punct c true)
    (hopening : ∀ d, t ≠ .opening d) (h : spaced t u = false) :
    u.text.head?.any gluesPrevious = true := by
  unfold spaced at h
  split at h
  · cases h
  · rename_i hbrace
    split at h
    · exact absurd rfl (hopening _)
    · rename_i d _
      cases d with
      | paren => rfl
      | bracket => rfl
      | brace => exact absurd (.inr rfl) hbrace
    · rename_i c joint _
      cases joint with
      | true => exact absurd rfl (hpunct c)
      | false => cases h
    · cases h

/-- A token that is found again in front of every text that breaks. -/
structure Token.Firm (t : Token) : Prop where
  shape : IsScannedWord t.text ∨ IsLiteralText t.text
  blank_not_mem : ' ' ∉ t.text
  apart : ∀ u, spaced t u = false → u.text.head?.any gluesPrevious = true
  reads : ∀ rest, Breaks rest → scanLeaf? (t.text ++ rest) = some (t, rest)

theorem IsScannedWord.isWordPart_of_mem {word : List Char} (h : IsScannedWord word) {c : Char}
    (hc : c ∈ word) : isWordPart c = true := by
  rw [isWordPart, Bool.or_eq_true, beq_iff_eq]
  cases h with
  | plain hstart htail =>
    rcases List.mem_cons.mp hc with rfl | hc
    · exact .inl (isWordTail_of_isWordStart hstart)
    · exact .inl (htail c hc)
  | raw hstart htail _ =>
    simp only [List.mem_cons] at hc
    rcases hc with rfl | rfl | rfl | hc
    · exact .inl (by decide)
    · exact .inr rfl
    · exact .inl (isWordTail_of_isWordStart hstart)
    · exact .inl (htail c hc)

theorem Token.Firm.first {t : Token} (h : t.Firm) :
    ∃ c front, t.text = c :: front ∧ (isWordTail c = true ∨ c = '"' ∨ c = '\'') := by
  rcases h.shape with hword | hliteral
  · obtain ⟨c, front, htext, hc⟩ := hword.head
    exact ⟨c, front, htext, .inl (isWordTail_of_isWordStart hc)⟩
  · exact hliteral.first

theorem Token.Firm.last {t : Token} (h : t.Firm) : ∀ c ∈ t.text.getLast?, gluesNext c = false := by
  rcases h.shape with hword | hliteral
  · intro c hc
    exact gluesNext_of_isWordPart (hword.isWordPart_of_mem (List.mem_of_getLast? hc))
  · exact hliteral.last

theorem firm_literal {text : List Char} {kind : LiteralKind} (htext : IsLiteralText text)
    (hsolid : ' ' ∉ text)
    (hcut : ∀ rest, Breaks rest → scanLiteral? (text ++ rest) = some (kind, rest)) :
    (Token.literal kind (String.ofList text)).Firm where
  shape := .inr (by simpa [Token.text] using htext)
  blank_not_mem := by simpa [Token.text] using hsolid
  apart := fun u h => head_of_spaced (by rintro c ⟨⟩) (by rintro d ⟨⟩) h
  reads := by
    intro rest hrest
    rw [Token.text, String.toList_ofList, scanLeaf?, hcut rest hrest]
    show some (Token.literal kind (String.ofList (between (text ++ rest) rest)), rest) = _
    rw [between_append]

theorem punct?_eq_none {c : Char} (hc : isPunct c = false) (cs : List Char) :
    punct? (c :: cs) = none := by
  rw [punct?]
  split
  · rfl
  · exact if_neg (by rw [hc]; exact Bool.false_ne_true)

theorem isPunct_of_isWordTail {c : Char} (hc : isWordTail c = true) : isPunct c = false := by
  by_contra hpunct
  have := (of_isPunct (Bool.of_not_eq_false hpunct)).1
  rw [hc] at this
  cases this

theorem firm_ident {name : Ident} (hword : IsScannedWord name.text.toList) :
    (Token.ident name).Firm where
  shape := .inl hword
  blank_not_mem := by
    intro hblank
    have := hword.isWordPart_of_mem hblank
    cases this
  apart := fun u h => head_of_spaced (by rintro c ⟨⟩) (by rintro d ⟨⟩) h
  reads := by
    intro rest hrest
    obtain ⟨c, front, htext, hc⟩ := hword.head
    have hpunct : scanPunct? (c :: (front ++ rest)) = none := by
      rw [scanPunct?, punct?_eq_none (isPunct_of_isWordTail (isWordTail_of_isWordStart hc))]
      rfl
    have hident : scanIdent? (name.text.toList ++ rest) = some (.ident name, rest) := by
      rw [scanIdent?, hword.startsLiteral hrest, hword.scanWord? hrest]
      simp [Ident.ofList?, name.isIdentText_toList]
    rw [Token.text, scanLeaf?, hword.scanLiteral? hrest, hident]
    rw [htext, List.cons_append, hpunct]
    rfl

/-- A literal that is found in some text is firm, unless there is a blank in it. -/
theorem firm_of_scanLiteral? (h : scanLiteral? cs = some (kind, rest)) :
    ∃ text, cs = text ++ rest ∧
      (' ' ∉ text → (Token.literal kind (String.ofList text)).Firm) := by
  obtain ⟨text, rfl, htext, hcut⟩ := scanLiteral?_cut h
  exact ⟨text, rfl, fun hsolid => firm_literal htext hsolid hcut⟩

theorem firm_of_scanIdent? {t : Token} (h : scanIdent? cs = some (t, rest)) :
    cs = t.text ++ rest ∧ t.Firm := by
  rw [scanIdent?] at h
  split at h
  · cases h
  · obtain ⟨⟨word, rest⟩, hword, h⟩ := Option.bind_eq_some_iff.mp h
    obtain ⟨name, hname, heq⟩ := Option.bind_eq_some_iff.mp h
    cases heq
    obtain ⟨rfl, hscanned⟩ := of_scanWord? hword
    have htext := Ident.text_toList_of_ofList? hname
    rw [← htext] at hscanned ⊢
    exact ⟨rfl, firm_ident hscanned⟩

/-- The content of a documentation comment is written as a firm literal. -/
theorem firm_docLiteral {content : List Char}
    (hsolid : ' ' ∉ '"' :: quoteLiteral content ++ ['"']) :
    (Token.literal .string (String.ofList ('"' :: quoteLiteral content ++ ['"']))).Firm := by
  have hread : scanLiteral? ('"' :: quoteLiteral content ++ ['"']) = some (.string, []) := by
    have hscan := Opens.string.scanLiteral? (quoteLiteral content ++ ['"'])
    rw [behindQuoted?, quoted?_quoteLiteral] at hscan
    exact hscan
  obtain ⟨text, htext, hfirm⟩ := firm_of_scanLiteral? hread
  rw [List.append_nil] at htext
  rw [htext] at hsolid ⊢
  exact hfirm hsolid

theorem firm_docIdent : (Token.ident docIdent).Firm := by
  have htail : ['o', 'c'].all isWordTail = true := by decide
  exact firm_ident (.plain (by decide) (List.all_eq_true.mp htail))

/-! ## Lifetimes -/

theorem scanPunct?_apostrophe (cs : List Char) : scanPunct? ('\'' :: cs) =
    (scanWord? cs).bind fun p =>
      match p.2 with
      | '\'' :: _ => none
      | '#' :: _ => if startsWith cs "r#" then some (.punct '\'' true, cs) else none
      | _ => some (.punct '\'' true, cs) := by
  rfl

/-- The apostrophe is read as the mark of a lifetime that `text` names. -/
def MarksLifetime (text : List Char) : Prop :=
  ∀ rest, Breaks rest →
    scanLeaf? ('\'' :: (text ++ rest)) = some (.punct '\'' true, text ++ rest)

theorem scanLiteral?_apostrophe {c : Char} (hc : c ≠ '\\') (h : cs.head? ≠ some '\'') :
    scanLiteral? ('\'' :: c :: cs) = none := by
  have hclose : afterApostrophe? cs = none := by
    unfold afterApostrophe?
    split
    · exact absurd rfl h
    · rfl
  have hnone : apostrophed? .text (c :: cs) = none := by
    rw [apostrophed?_eq_bind, afterCharacter?_of_ne hc]
    exact hclose
  have hscan := Opens.character.scanLiteral? (c :: cs)
  rwa [hnone] at hscan

theorem marksLifetime_of_isScannedWord {word : List Char} (h : IsScannedWord word) :
    MarksLifetime word := by
  intro rest hrest
  have hpunct : scanPunct? ('\'' :: (word ++ rest)) = some (.punct '\'' true, word ++ rest) := by
    rw [scanPunct?_apostrophe, h.scanWord? hrest, Option.bind_some]
    split
    · rename_i heq
      exact absurd (congrArg List.head? heq) (hrest.ne_head (by decide))
    · rename_i heq
      exact absurd (congrArg List.head? heq) (hrest.ne_head (by decide))
    · rfl
  have hliteral : scanLiteral? ('\'' :: (word ++ rest)) = none := by
    obtain ⟨c, front, rfl, hc⟩ := h.head
    refine scanLiteral?_apostrophe (by rintro rfl; cases hc) ?_
    cases front with
    | nil => exact hrest.ne_head (by decide)
    | cons d front =>
      rintro ⟨⟩
      have := h.isWordPart_of_mem (c := '\'') (by simp)
      cases this
  rw [scanLeaf?, hliteral, hpunct]
  rfl

/-- The letters that start a quoted literal behind the mark of a lifetime. -/
def quoteLetters : List (List Char) := [['r'], ['b'], ['b', 'r'], ['c'], ['c', 'r']]

theorem exists_quoteLetters {text : List Char} {x : Token × List Char}
    (hstarts : startsLiteral text = true) (h : scanPunct? ('\'' :: (text ++ rest)) = some x) :
    ∃ letters ∈ quoteLetters, ∃ later, text = letters ++ '"' :: later := by
  obtain ⟨front, hfront, hstarts⟩ := List.any_eq_true.mp hstarts
  obtain ⟨later, rfl⟩ := List.isPrefixOf_iff_prefix.mp hstarts
  simp only [List.mem_cons, List.not_mem_nil, or_false] at hfront
  have hnone {front : List Char} (hfront : scanPunct? ('\'' :: (front ++ later ++ rest)) = none)
      (h : scanPunct? ('\'' :: (front ++ later ++ rest)) = some x) :
      ∃ letters ∈ quoteLetters, ∃ after, front ++ later = letters ++ '"' :: after := by
    rw [hfront] at h
    cases h
  rcases hfront with rfl | rfl | rfl | rfl | rfl | rfl | rfl | rfl | rfl | rfl
  · exact ⟨['r'], by decide, later, rfl⟩
  · exact hnone rfl h
  · exact hnone rfl h
  · exact ⟨['b'], by decide, later, rfl⟩
  · exact hnone rfl h
  · exact ⟨['b', 'r'], by decide, later, rfl⟩
  · exact hnone rfl h
  · exact ⟨['c'], by decide, later, rfl⟩
  · exact ⟨['c', 'r'], by decide, later, rfl⟩
  · exact hnone rfl h

theorem marksLifetime_of_quoteLetters {letters : List Char} (h : letters ∈ quoteLetters)
    (later : List Char) : MarksLifetime (letters ++ '"' :: later) := by
  intro rest hrest
  simp only [quoteLetters, List.mem_cons, List.not_mem_nil, or_false] at h
  rcases h with rfl | rfl | rfl | rfl | rfl <;> rfl

/-- An apostrophe that marks a lifetime in some text marks it in front of every text that
breaks. -/
theorem marksLifetime_of_scanPunct? {t : Token} (ht : t.Firm) {x : Token × List Char}
    (h : scanPunct? ('\'' :: (t.text ++ rest)) = some x) : MarksLifetime t.text := by
  rcases ht.shape with hword | hliteral
  · exact marksLifetime_of_isScannedWord hword
  · have hstart : ∀ c ∈ t.text.head?, isWordStart c = true := by
      rw [scanPunct?_apostrophe] at h
      obtain ⟨⟨word, behind⟩, hscan, -⟩ := Option.bind_eq_some_iff.mp h
      obtain ⟨heq, hscanned⟩ := of_scanWord? hscan
      obtain ⟨c, front, rfl, hc⟩ := hscanned.head
      obtain ⟨d, front', htext, -⟩ := ht.first
      rw [htext] at heq ⊢
      rintro e ⟨⟩
      rwa [(List.cons.inj heq).1]
    obtain ⟨letters, hletters, later, htext⟩ := exists_quoteLetters (hliteral.starts hstart) h
    rw [htext]
    exact marksLifetime_of_quoteLetters hletters later

/-! ## What is found at the front of a text -/

/-- The token at the front of a text that is no delimiter, and what follows it. -/
inductive FindsLeaf : List Char → Token → List Char → Prop
  | firm {t : Token} {rest : List Char} (ht : t.Firm) : FindsLeaf (t.text ++ rest) t rest
  | placeholder {rest : List Char} : FindsLeaf (placeholder.toList ++ rest)
      (.literal .placeholder placeholder) rest
  | mark {c : Char} {rest : List Char} (hc : c ≠ '\'')
      (hpunct : punct? (c :: rest) = some (c, rest)) :
      FindsLeaf (c :: rest) (.punct c (punct? rest).isSome) rest
  | apostrophe {rest : List Char}
      (hpunct : scanPunct? ('\'' :: rest) = some (.punct '\'' true, rest)) :
      FindsLeaf ('\'' :: rest) (.punct '\'' true) rest

theorem of_punct? {c : Char} (h : punct? cs = some (c, rest)) :
    cs = c :: rest ∧ isPunct c = true := by
  unfold punct? at h
  split at h
  · cases h
  · split at h
    · cases h
    · split at h
      · cases h
        exact ⟨rfl, ‹_›⟩
      · cases h

theorem scanPunct?_mark {c : Char} (hc : c ≠ '\'') (hpunct : punct? (c :: rest) = some (c, rest)) :
    scanPunct? (c :: rest) = some (.punct c (punct? rest).isSome, rest) := by
  rw [scanPunct?, hpunct]
  exact if_neg hc

theorem findsLeaf_of_scanPunct? {t : Token} (h : scanPunct? cs = some (t, rest)) :
    FindsLeaf cs t rest := by
  obtain ⟨⟨c, later⟩, hpunct, -⟩ := Option.bind_eq_some_iff.mp h
  obtain ⟨rfl, -⟩ := of_punct? hpunct
  by_cases hc : c = '\''
  · subst hc
    have hfound := h
    rw [scanPunct?_apostrophe] at hfound
    obtain ⟨⟨word, behind⟩, -, hname⟩ := Option.bind_eq_some_iff.mp hfound
    have heq : (Token.punct '\'' true, later) = (t, rest) := by
      dsimp only at hname
      split at hname
      · cases hname
      · split at hname
        · exact Option.some.inj hname
        · cases hname
      · exact Option.some.inj hname
    cases heq
    exact .apostrophe h
  · rw [scanPunct?_mark hc hpunct] at h
    cases h
    exact .mark hc hpunct

theorem findsLeaf_of_scanLeaf? {t : Token} (h : scanLeaf? cs = some (t, rest))
    (hsolid : t.Solid) : FindsLeaf cs t rest := by
  unfold scanLeaf? at h
  split at h
  · rename_i kind behind hliteral
    obtain ⟨text, rfl, hfirm⟩ := firm_of_scanLiteral? hliteral
    rw [between_append] at h
    cases h
    rw [Token.Solid, String.toList_ofList] at hsolid
    have hfound := (FindsLeaf.firm (hfirm hsolid) : FindsLeaf _ _ rest)
    rwa [Token.text, String.toList_ofList] at hfound
  · rw [Option.or_eq_some_iff, Option.or_eq_some_iff] at h
    rcases h with (h | ⟨-, h⟩) | ⟨-, h⟩
    · exact findsLeaf_of_scanPunct? h
    · obtain ⟨rfl, hfirm⟩ := firm_of_scanIdent? h
      exact .firm hfirm
    · split at h
      · rename_i hstarts
        obtain ⟨behind, rfl⟩ := List.isPrefixOf_iff_prefix.mp hstarts
        cases h
        rw [← String.length_toList, List.drop_left]
        exact .placeholder
      · cases h

end InterfaceRecord.Source
