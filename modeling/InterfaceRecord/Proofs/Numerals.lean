/-
  Where numbers end. A number goes on behind its digits with a point, an exponent or a suffix, and
  the scanners look at the text behind it to see that it does not. What they see there is the same
  in front of every text that breaks (`Breaks`): neither a point nor a sign nor a word stands at its
  front, so a number is cut out like the other literals (`numeral?_cut`).
-/
import InterfaceRecord.Proofs.Scanning

namespace InterfaceRecord.Source

open InterfaceRecord.Text

variable {cs cs' rest rest' : List Char}

/-! ## Texts that start with one word -/

/-- The characters at which a text breaks. -/
def breakChars : List Char := " <>,)]:;(".toList

/-- What is false of the characters a text may break at is false at the front of one that does. -/
theorem Breaks.head_false {p : Char → Bool} (hp : breakChars.all (fun c => !p c) = true)
    (h : Breaks rest) : ∀ c ∈ rest.head?, p c = false := by
  intro c hc
  have hall := List.all_eq_true.mp hp
  have hmem : c ∈ breakChars := by
    rcases h c hc with rfl | hglues
    · decide
    · exact List.mem_cons_of_mem _ (List.contains_iff_mem.mp hglues)
  simpa using hall c hmem

/-- Two texts start with the same word; in the first the word ends there, and in the second the
text breaks behind it. -/
inductive SameWord : List Char → List Char → Prop
  | intro {word rest rest' : List Char} (hword : ∀ c ∈ word, isWordTail c = true)
      (hrest : StopsWord rest) (hrest' : Breaks rest') : SameWord (word ++ rest) (word ++ rest')

theorem SameWord.head_false {p : Char → Bool}
    (hp : breakChars.all (fun c => !p c) = true) (h : SameWord cs cs')
    (hcs : ∀ c ∈ cs.head?, p c = false) : ∀ c ∈ cs'.head?, p c = false := by
  obtain ⟨hword, hrest, hrest'⟩ := h
  rename_i word rest rest'
  cases word with
  | nil => exact hrest'.head_false hp
  | cons d word => exact hcs

theorem SameWord.cons {c : Char} (h : SameWord (c :: cs) cs') (hc : isWordTail c = true) :
    ∃ word rest rest', cs = word ++ rest ∧ cs' = c :: (word ++ rest') ∧
      (∀ d ∈ word, isWordTail d = true) ∧ StopsWord rest ∧ Breaks rest' := by
  generalize hfront : c :: cs = front at h
  obtain ⟨hword, hrest, hrest'⟩ := h
  rename_i word rest rest'
  cases word with
  | nil =>
    subst hfront
    rw [hrest c rfl] at hc
    cases hc
  | cons d word =>
    cases hfront
    exact ⟨word, rest, rest', rfl, rfl, (List.forall_mem_cons.mp hword).2, hrest, hrest'⟩

theorem isDigitOrGap_of_isDigit {c : Char} (h : c.isDigit = true) : isDigitOrGap c = true := by
  simp [isDigitOrGap, h]

/-- What holds of every ASCII character can be decided. -/
theorem of_ascii {p : Char → Bool}
    (hp : ((List.range 128).all fun n => p (Char.ofNat n)) = true) {c : Char}
    (hc : c.toNat < 128) : p c = true := by
  have h := List.all_eq_true.mp hp c.toNat (List.mem_range.mpr hc)
  rwa [Char.ofNat_toNat] at h

theorem toNat_le_of_isDigit {c : Char} (h : c.isDigit = true) : c.toNat ≤ '9'.toNat := by
  rw [Char.isDigit, Bool.and_eq_true, decide_eq_true_eq, decide_eq_true_eq] at h
  exact h.2

theorem isWordTail_of_isDigitOrGap {c : Char} (h : isDigitOrGap c = true) :
    isWordTail c = true := by
  have hall := of_ascii (p := fun c => !isDigitOrGap c || isWordTail c) (by decide) (c := c)
  rw [isDigitOrGap, Bool.or_eq_true, beq_iff_eq] at h
  rcases h with h | rfl
  · have hlt : c.toNat < 128 := Nat.lt_of_le_of_lt (toNat_le_of_isDigit h) (by decide)
    simpa [isDigitOrGap_of_isDigit h] using hall hlt
  · decide

/-- Only digits and letters have a value. -/
theorem toNat_lt_of_hexValue? {c : Char} {n : Nat} (h : hexValue? c = some n) : c.toNat < 128 := by
  unfold hexValue? at h
  split at h
  · rename_i hc
    exact Nat.lt_of_le_of_lt (m := '9'.toNat) hc.2 (by decide)
  · split at h
    · rename_i hc
      exact Nat.lt_of_le_of_lt (m := 'f'.toNat) hc.2 (by decide)
    · split at h
      · rename_i hc
        exact Nat.lt_of_le_of_lt (m := 'F'.toNat) hc.2 (by decide)
      · cases h

theorem isWordTail_of_hexValue? {c : Char} {n : Nat} (h : hexValue? c = some n) :
    isWordTail c = true := by
  have hall := of_ascii (p := fun c => !(hexValue? c).isSome || isWordTail c) (by decide)
    (toNat_lt_of_hexValue? h)
  simpa [h] using hall

theorem isDigit_of_hexValue?_lt {c : Char} {n : Nat} (h : hexValue? c = some n) (hn : n < 10) :
    c.isDigit = true := by
  have hall := of_ascii (p := fun c => !(hexValue? c).any (· < 10) || c.isDigit) (by decide)
    (toNat_lt_of_hexValue? h)
  simpa [h, hn] using hall

theorem isDigitOrGap_eq_false_of_stops (h : StopsWord rest) :
    ∀ c ∈ rest.head?, isDigitOrGap c = false := by
  intro c hc
  by_contra hdigit
  have hword := isWordTail_of_isDigitOrGap (Bool.of_not_eq_false hdigit)
  rw [h c hc] at hword
  cases hword

/-! ## Word ends -/

theorem wordBreak?_of_stops (h : StopsWord rest) : wordBreak? rest = some rest := by
  cases rest with
  | nil => rfl
  | cons c rest => simp [wordBreak?, h c rfl]

theorem of_wordBreak? (h : wordBreak? cs = some rest) : cs = rest ∧ StopsWord rest := by
  unfold wordBreak? at h
  split at h
  · split at h
    · cases h
    · rename_i hword
      cases h
      refine ⟨rfl, fun d hd => ?_⟩
      cases hd
      exact Bool.eq_false_iff.mpr hword
  · cases h
    exact ⟨rfl, fun d hd => by cases hd⟩

/-- Whether the word behind a number may be its suffix is seen on the word. -/
theorem wordBreak?_afterSuffix_eq_none {word : List Char} (hword : ∀ c ∈ word, isWordTail c = true)
    (hrest : StopsWord rest) (h : wordBreak? (afterSuffix (word ++ rest)) = none)
    (rest' : List Char) : wordBreak? (afterSuffix (word ++ rest')) = none := by
  cases word with
  | nil =>
    rw [List.nil_append, hrest.afterSuffix, wordBreak?_of_stops hrest] at h
    cases h
  | cons c word =>
    by_cases hc : isWordStart c = true
    · have htail (d : Char) (hd : d ∈ word) := hword d (List.mem_cons_of_mem c hd)
      rw [List.cons_append, afterSuffix, afterWord?_cons hc, Option.getD_some,
        hrest.dropWhile_append htail, wordBreak?_of_stops hrest] at h
      cases h
    · have hnone : afterWord? (c :: (word ++ rest')) = none := if_neg hc
      rw [List.cons_append, afterSuffix, hnone, Option.getD_none, wordBreak?,
        if_pos (hword c List.mem_cons_self)]

/-! ## Exponents -/

/-- A character of a number: of its digits, its suffix, its point or its exponent's sign. -/
def isNumeralPart (c : Char) : Bool :=
  isWordTail c || c == '.' || c == '+' || c == '-'

theorem isNumeralPart_of_isWordTail {c : Char} (h : isWordTail c = true) :
    isNumeralPart c = true := by
  simp [isNumeralPart, h]

theorem isNumeralPart_of_isDigitOrGap {c : Char} (h : isDigitOrGap c = true) :
    isNumeralPart c = true :=
  isNumeralPart_of_isWordTail (isWordTail_of_isDigitOrGap h)

theorem isDigitOrGap_eq_false_iff {c : Char} :
    isDigitOrGap c = false ↔ c.isDigit = false ∧ c ≠ '_' := by
  simp [isDigitOrGap]

/-- Behind a digit an exponent ends where no digit follows. -/
theorem exponent?_valued {signed : Bool} (h : ∀ c ∈ cs.head?, isDigitOrGap c = false) :
    exponent? signed true cs = some cs := by
  cases cs with
  | nil => rfl
  | cons c cs =>
    obtain ⟨hdigit, hgap⟩ := isDigitOrGap_eq_false_iff.mp (h c rfl)
    simp [exponent?, hdigit, hgap]

theorem SameWord.isDigitOrGap_false (h : SameWord cs cs')
    (hcs : ∀ c ∈ cs.head?, isDigitOrGap c = false) : ∀ c ∈ cs'.head?, isDigitOrGap c = false :=
  h.head_false (by decide) hcs

theorem exponent?_cut {signed valued : Bool} (h : exponent? signed valued cs = some rest) :
    ∃ front, cs = front ++ rest ∧ (∀ c ∈ front, isNumeralPart c = true) ∧
      ∀ rest', SameWord rest rest' → exponent? signed valued (front ++ rest') = some rest' := by
  fun_induction exponent? signed valued cs with
  | case1 =>
    cases h
    exact ⟨[], rfl, by simp, fun rest' hsame =>
      exponent?_valued (hsame.isDigitOrGap_false fun c hc => by cases hc)⟩
  | case2 => cases h
  | case3 signed c cs hsign =>
    cases h
    refine ⟨[], rfl, by simp, fun rest' hsame => exponent?_valued (hsame.isDigitOrGap_false ?_)⟩
    intro d hd
    cases hd
    rcases hsign with rfl | rfl <;> rfl
  | case4 => cases h
  | case5 signed valued c cs hsign hvalued hsigned ih =>
    obtain ⟨front, rfl, hfront, hcut⟩ := ih h
    refine ⟨c :: front, rfl, ?_, fun rest' hrest => ?_⟩
    · rw [List.forall_mem_cons]
      exact ⟨by rcases hsign with rfl | rfl <;> rfl, hfront⟩
    · rw [List.cons_append, exponent?, if_pos hsign, if_neg hvalued, if_neg hsigned,
        hcut rest' hrest]
  | case6 signed valued c cs hsign hdigit ih =>
    obtain ⟨front, rfl, hfront, hcut⟩ := ih h
    refine ⟨c :: front, rfl, ?_, fun rest' hrest => ?_⟩
    · rw [List.forall_mem_cons]
      exact ⟨isNumeralPart_of_isDigitOrGap (isDigitOrGap_of_isDigit hdigit), hfront⟩
    · rw [List.cons_append, exponent?, if_neg hsign, if_pos hdigit, hcut rest' hrest]
  | case7 signed valued cs hsign hdigit ih =>
    obtain ⟨front, rfl, hfront, hcut⟩ := ih h
    refine ⟨'_' :: front, rfl, ?_, fun rest' hrest => ?_⟩
    · rw [List.forall_mem_cons]
      exact ⟨by decide, hfront⟩
    · rw [List.cons_append, exponent?, if_neg hsign, if_neg hdigit, if_pos rfl, hcut rest' hrest]
  | case8 signed c cs hsign hdigit hgap =>
    cases h
    refine ⟨[], rfl, by simp, fun rest' hsame => exponent?_valued (hsame.isDigitOrGap_false ?_)⟩
    intro d hd
    cases hd
    exact isDigitOrGap_eq_false_iff.mpr ⟨Bool.eq_false_iff.mpr hdigit, hgap⟩
  | case9 => cases h

/-- A word behind an exponent's letter either holds the exponent or shows that there is none. -/
theorem exponent?_word {signed valued : Bool} {word : List Char}
    (hword : ∀ c ∈ word, isWordTail c = true) :
    (∃ later, (∀ c ∈ later, isWordTail c = true) ∧ ∀ rest, StopsWord rest →
        exponent? signed valued (word ++ rest) = some (later ++ rest)) ∨
      ∀ rest, Breaks rest → exponent? signed valued (word ++ rest) = none := by
  induction word generalizing valued with
  | nil =>
    cases valued with
    | true =>
      refine .inl ⟨[], by simp, fun rest hrest => ?_⟩
      exact exponent?_valued (isDigitOrGap_eq_false_of_stops hrest)
    | false =>
      refine .inr fun rest hrest => ?_
      have hhead := hrest.head_false (p := fun c => isDigitOrGap c || c == '+' || c == '-')
        (by decide)
      cases rest with
      | nil => rfl
      | cons c rest =>
        have hc := hhead c rfl
        simp only [Bool.or_eq_false_iff, isDigitOrGap_eq_false_iff, beq_eq_false_iff_ne] at hc
        simp [exponent?, hc]
  | cons c word ih =>
    obtain ⟨hc, hword⟩ := List.forall_mem_cons.mp hword
    have hsign : ¬ (c = '+' ∨ c = '-') := by
      rintro (rfl | rfl) <;> cases hc
    have hstep (rest : List Char) : exponent? signed valued (c :: word ++ rest) =
        if c.isDigit then exponent? signed true (word ++ rest)
        else if c = '_' then exponent? signed valued (word ++ rest)
        else if valued then some (c :: word ++ rest) else none := by
      rw [List.cons_append, exponent?, if_neg hsign]
    simp only [hstep]
    by_cases hdigit : c.isDigit = true
    · simp only [if_pos hdigit]
      exact ih hword
    by_cases hgap : c = '_'
    · simp only [if_neg hdigit, if_pos hgap]
      exact ih hword
    simp only [if_neg hdigit, if_neg hgap]
    cases valued with
    | true => exact .inl ⟨c :: word, List.forall_mem_cons.mpr ⟨hc, hword⟩, fun rest _ => rfl⟩
    | false => exact .inr fun rest _ => rfl

theorem perhapsExponent?_of_ne {bare : Option (List Char)}
    (h : ∀ c ∈ cs.head?, c ≠ 'e' ∧ c ≠ 'E') : perhapsExponent? bare cs = bare := by
  cases cs with
  | nil => rfl
  | cons c cs => simp [perhapsExponent?, h c rfl]

theorem SameWord.perhapsExponent?_of_ne {bare : Option (List Char)} (h : SameWord cs cs')
    (hcs : ∀ c ∈ cs.head?, c ≠ 'e' ∧ c ≠ 'E') : perhapsExponent? bare cs' = bare := by
  refine Source.perhapsExponent?_of_ne fun c hc => ?_
  have hhead := h.head_false (p := fun c => c == 'e' || c == 'E') (by decide)
    (fun d hd => by simpa using hcs d hd) c hc
  simpa using hhead

/-- An exponent behind digits is cut out; where there is none, none arises. -/
theorem perhapsExponent?_cut {bare : Option (List Char)}
    (h : perhapsExponent? bare cs = some rest) :
    (∃ e front, cs = e :: (front ++ rest) ∧ isWordTail e = true ∧ isDigitOrGap e = false ∧
        (∀ c ∈ front, isNumeralPart c = true) ∧
        ∀ bare' rest', SameWord rest rest' →
          perhapsExponent? bare' (e :: (front ++ rest')) = some rest') ∨
      bare = some rest ∧ ∀ bare' cs', SameWord cs cs' → perhapsExponent? bare' cs' = bare' := by
  by_cases hhead : ∀ c ∈ cs.head?, c ≠ 'e' ∧ c ≠ 'E'
  · rw [perhapsExponent?_of_ne hhead] at h
    exact .inr ⟨h, fun bare' cs' hcs => hcs.perhapsExponent?_of_ne hhead⟩
  obtain ⟨e, he, hletter⟩ : ∃ e ∈ cs.head?, e = 'e' ∨ e = 'E' := by
    by_contra hnone
    exact hhead fun c hc => ⟨fun h => hnone ⟨c, hc, .inl h⟩, fun h => hnone ⟨c, hc, .inr h⟩⟩
  obtain ⟨cs, rfl⟩ := List.head?_eq_some_iff.mp he
  have hword : isWordTail e = true := by rcases hletter with rfl | rfl <;> decide
  have hstep (bare : Option (List Char)) (cs : List Char) :
      perhapsExponent? bare (e :: cs) = (exponent? false false cs).or bare := if_pos hletter
  rw [hstep] at h
  cases hexponent : exponent? false false cs with
  | some later =>
    rw [hexponent, Option.some_or] at h
    cases h
    obtain ⟨front, rfl, hfront, hcut⟩ := exponent?_cut hexponent
    refine .inl ⟨e, front, rfl, hword, by rcases hletter with rfl | rfl <;> decide, hfront, ?_⟩
    intro bare' rest' hrest
    rw [hstep, hcut rest' hrest]
    rfl
  | none =>
    rw [hexponent, Option.none_or] at h
    refine .inr ⟨h, fun bare' cs' hsame => ?_⟩
    obtain ⟨word, stop, stop', rfl, rfl, htail, hstop, hstop'⟩ := hsame.cons hword
    rcases exponent?_word htail with ⟨later, -, hsome⟩ | hnone
    · rw [hsome stop hstop] at hexponent
      cases hexponent
    · rw [hstep, hnone stop' hstop']
      rfl

/-! ## Digits with a point or an exponent -/

/-- What stands behind a point for it to be part of a number. -/
def FollowsPoint (tail : List Char) : Prop := ∀ c ∈ tail.head?, c ≠ '.' ∧ isWordStart c = false

theorem floatDigits?_point {d : Char} {digits tail : List Char} (hd : d.isDigit = true)
    (hdigits : ∀ c ∈ digits, isDigitOrGap c = true) (htail : FollowsPoint tail) :
    floatDigits? (d :: (digits ++ '.' :: tail)) =
      perhapsExponent? (some (tail.dropWhile isDigitOrGap)) (tail.dropWhile isDigitOrGap) := by
  have hdrop : (digits ++ '.' :: tail).dropWhile isDigitOrGap = '.' :: tail :=
    dropWhile_append_of_head hdigits fun c hc => by cases hc; rfl
  rw [floatDigits?, if_pos hd, hdrop]
  cases tail with
  | nil => rfl
  | cons c tail => simp [htail c rfl]

theorem floatDigits?_plain {d : Char} {digits tail : List Char} (hd : d.isDigit = true)
    (hdigits : ∀ c ∈ digits, isDigitOrGap c = true)
    (htail : ∀ c ∈ tail.head?, isDigitOrGap c = false) (hpoint : ∀ c ∈ tail.head?, c ≠ '.') :
    floatDigits? (d :: (digits ++ tail)) = perhapsExponent? none tail := by
  rw [floatDigits?, if_pos hd, dropWhile_append_of_head hdigits htail]
  split
  · exact absurd rfl (hpoint _ rfl)
  · exact absurd rfl (hpoint _ rfl)
  · rfl

theorem of_floatDigits? (h : floatDigits? cs = some rest) :
    ∃ d digits tail, d.isDigit = true ∧ (∀ c ∈ digits, isDigitOrGap c = true) ∧
      (cs = d :: (digits ++ '.' :: tail) ∧ FollowsPoint tail ∨
        cs = d :: (digits ++ tail) ∧ (∀ c ∈ tail.head?, isDigitOrGap c = false) ∧
          ∀ c ∈ tail.head?, c ≠ '.') := by
  unfold floatDigits? at h
  split at h
  · cases h
  · rename_i d cs
    split at h
    · rename_i hd
      have htake (c : Char) (hc : c ∈ cs.takeWhile isDigitOrGap) : isDigitOrGap c = true :=
        List.mem_takeWhile_imp hc
      refine ⟨d, cs.takeWhile isDigitOrGap, ?_⟩
      split at h
      · rename_i c tail hdrop
        split at h
        · cases h
        · rename_i hpoint
          rw [not_or, Bool.not_eq_true] at hpoint
          refine ⟨c :: tail, hd, htake, .inl ⟨?_, ?_⟩⟩
          · rw [← hdrop, List.takeWhile_append_dropWhile]
          · intro e he
            cases he
            exact hpoint
      · rename_i hdrop
        refine ⟨[], hd, htake, .inl ⟨?_, ?_⟩⟩
        · rw [← hdrop, List.takeWhile_append_dropWhile]
        · intro e he
          cases he
      · rename_i hpoint hlone
        refine ⟨cs.dropWhile isDigitOrGap, hd, htake, .inr ⟨?_, ?_, ?_⟩⟩
        · rw [List.takeWhile_append_dropWhile]
        · exact head?_dropWhile_false _ _
        · rintro c hc rfl
          obtain ⟨tail, htail⟩ := List.head?_eq_some_iff.mp hc
          cases tail with
          | nil => exact hlone htail
          | cons e tail => exact hpoint e tail htail
    · cases h

/-- A scanner's answer is cut out: the digits it reads, of characters in `p`, are read in front of
every text that starts with the same word. -/
def CutsDigits (digits? : List Char → Option (List Char)) (p : Char → Bool) : Prop :=
  ∀ {cs rest : List Char}, digits? cs = some rest →
    ∃ d front, cs = d :: (front ++ rest) ∧ d.isDigit = true ∧ (∀ c ∈ front, p c = true) ∧
      ∀ rest', SameWord rest rest' → digits? (d :: (front ++ rest')) = some rest'

theorem FollowsPoint.sameWord (h : FollowsPoint cs) (hsame : SameWord cs cs') :
    FollowsPoint cs' := by
  intro c hc
  have hhead := hsame.head_false (p := fun c => c == '.' || isWordStart c) (by decide)
    (fun d hd => by simpa using h d hd) c hc
  simpa using hhead

/-- Behind a point stand digits and perhaps an exponent. -/
theorem floatDigits?_point_cut {d : Char} {digits fraction later : List Char}
    (hd : d.isDigit = true) (hdigits : ∀ c ∈ digits, isDigitOrGap c = true)
    (hfraction : ∀ c ∈ fraction, isDigitOrGap c = true)
    (hlater : ∀ c ∈ later.head?, isDigitOrGap c = false) (hpoint : FollowsPoint (fraction ++ later))
    (h : floatDigits? (d :: (digits ++ '.' :: (fraction ++ later))) = some rest) :
    ∃ front, later = front ++ rest ∧ (∀ c ∈ front, isNumeralPart c = true) ∧
      ∀ rest', SameWord rest rest' →
        floatDigits? (d :: (digits ++ '.' :: (fraction ++ (front ++ rest')))) = some rest' := by
  rw [floatDigits?_point hd hdigits hpoint, dropWhile_append_of_head hfraction hlater] at h
  rcases perhapsExponent?_cut h with ⟨e, front, rfl, he, hstop, hfront, hcut⟩ | ⟨hbare, hcut⟩
  · refine ⟨e :: front, rfl, ?_, fun rest' hsame => ?_⟩
    · exact List.forall_mem_cons.mpr ⟨isNumeralPart_of_isWordTail he, hfront⟩
    · have hpoint' : FollowsPoint (fraction ++ (e :: front ++ rest')) := by
        cases fraction <;> exact hpoint
      rw [floatDigits?_point hd hdigits hpoint', dropWhile_append_of_head hfraction]
      · exact hcut _ rest' hsame
      · intro c hc
        cases hc
        exact hstop
  · cases hbare
    refine ⟨[], rfl, by simp, fun rest' hsame => ?_⟩
    have hpoint' : FollowsPoint (fraction ++ rest') := by
      cases fraction with
      | nil => exact hpoint.sameWord hsame
      | cons c fraction => exact hpoint
    have hstop := hsame.isDigitOrGap_false hlater
    rw [List.nil_append, floatDigits?_point hd hdigits hpoint',
      dropWhile_append_of_head hfraction hstop]
    exact hcut _ rest' hsame

theorem floatDigits?_cut : CutsDigits floatDigits? isNumeralPart := by
  intro cs rest h
  have hgap {c : Char} {digits : List Char} (hdigits : ∀ c ∈ digits, isDigitOrGap c = true)
      (hc : c ∈ digits) : isNumeralPart c = true := isNumeralPart_of_isDigitOrGap (hdigits c hc)
  obtain ⟨d, digits, tail, hd, hdigits, ⟨rfl, hpoint⟩ | ⟨rfl, htail, hpoint⟩⟩ := of_floatDigits? h
  · obtain ⟨fraction, later, rfl, hfraction, hlater⟩ : ∃ fraction later, tail = fraction ++ later ∧
        (∀ c ∈ fraction, isDigitOrGap c = true) ∧ ∀ c ∈ later.head?, isDigitOrGap c = false :=
      ⟨_, _, List.takeWhile_append_dropWhile.symm, fun _ hc => List.mem_takeWhile_imp hc,
        head?_dropWhile_false _ _⟩
    obtain ⟨front, rfl, hfront, hcut⟩ :=
      floatDigits?_point_cut hd hdigits hfraction hlater hpoint h
    refine ⟨d, digits ++ '.' :: (fraction ++ front), by simp, hd, ?_, fun rest' hsame => ?_⟩
    · simp only [List.mem_append, List.mem_cons]
      rintro c (hc | rfl | hc | hc)
      · exact hgap hdigits hc
      · rfl
      · exact hgap hfraction hc
      · exact hfront c hc
    · simpa using hcut rest' hsame
  · rw [floatDigits?_plain hd hdigits htail hpoint] at h
    rcases perhapsExponent?_cut h with ⟨e, front, rfl, he, hstop, hfront, hcut⟩ | ⟨hbare, -⟩
    · refine ⟨d, digits ++ e :: front, by simp, hd, ?_, fun rest' hsame => ?_⟩
      · simp only [List.mem_append, List.mem_cons]
        rintro c (hc | rfl | hc)
        · exact hgap hdigits hc
        · exact isNumeralPart_of_isWordTail he
        · exact hfront c hc
      · rw [List.append_assoc, List.cons_append, floatDigits?_plain hd hdigits]
        · exact hcut none rest' hsame
        · exact htail
        · exact hpoint
    · cases hbare

/-! ## Integers -/

/-- The base that a letter behind a zero marks. -/
def markedBase? : Char → Option Nat
  | 'x' => some 16
  | 'o' => some 8
  | 'b' => some 2
  | _ => none

theorem integer?_marked {mark : Char} {base : Nat} (h : markedBase? mark = some base) :
    integer? ('0' :: mark :: cs) = integerDigits? base true cs := by
  unfold markedBase? at h
  split at h <;> cases h <;> rfl

theorem integer?_plain {d : Char} (h : d = '0' → ∀ c ∈ cs.head?, markedBase? c = none) :
    integer? (d :: cs) = integerDigits? 10 true (d :: cs) := by
  unfold integer?
  split
  · rename_i heq
    cases heq
    cases h rfl _ rfl
  · rename_i heq
    cases heq
    cases h rfl _ rfl
  · rename_i heq
    cases heq
    cases h rfl _ rfl
  · rfl

theorem integerDigits?_ten {d : Char} (hd : d.isDigit = true) (cs : List Char) :
    integerDigits? 10 true (d :: cs) = integerDigits? 10 false cs := by
  have hle := toNat_le_of_isDigit hd
  have hlt : d.toNat - '0'.toNat < 10 := Nat.lt_succ_of_le (Nat.sub_le_sub_right hle _)
  rw [integerDigits?, if_pos hd, if_pos hlt]

/-- A decimal integer starts with a digit. -/
theorem of_integerDigits?_ten (h : integerDigits? 10 true cs = some rest) :
    ∃ d later, cs = d :: later ∧ d.isDigit = true ∧ integerDigits? 10 false later = some rest := by
  cases cs with
  | nil => cases h
  | cons d later =>
    refine ⟨d, later, rfl, ?_⟩
    by_cases hd : d.isDigit = true
    · exact ⟨hd, (integerDigits?_ten hd later).symm.trans h⟩
    · rw [integerDigits?, if_neg hd] at h
      split at h
      · cases h
      · cases hvalue : hexValue? d with
        | none => simp [hvalue] at h
        | some n =>
          rw [hvalue] at h
          by_cases hn : n < 10
          · exact absurd (isDigit_of_hexValue?_lt hvalue hn) hd
          · simp [hn] at h

theorem of_integer? (h : integer? cs = some rest) :
    (∃ mark base later, cs = '0' :: mark :: later ∧ markedBase? mark = some base ∧
        integerDigits? base true later = some rest) ∨
      ∃ d later, cs = d :: later ∧ d.isDigit = true ∧ integerDigits? 10 false later = some rest ∧
        (d = '0' → ∀ c ∈ later.head?, markedBase? c = none) := by
  unfold integer? at h
  split at h
  · exact .inl ⟨'x', 16, _, rfl, rfl, h⟩
  · exact .inl ⟨'o', 8, _, rfl, rfl, h⟩
  · exact .inl ⟨'b', 2, _, rfl, rfl, h⟩
  · rename_i hx ho hb
    obtain ⟨d, later, rfl, hd, h⟩ := of_integerDigits?_ten h
    refine .inr ⟨d, later, rfl, hd, h, ?_⟩
    rintro rfl c hc
    obtain ⟨later, rfl⟩ := List.head?_eq_some_iff.mp hc
    unfold markedBase?
    split
    · exact absurd rfl (hx later)
    · exact absurd rfl (ho later)
    · exact absurd rfl (hb later)
    · rfl

/-- Digits end where neither a digit of the base nor a gap follows. -/
theorem integerDigits?_stop {base : Nat} (h : ∀ c ∈ cs.head?, isDigitOrGap c = false)
    (hbase : ∀ c ∈ cs.head?, (hexValue? c).any (· < base) = false) :
    integerDigits? base false cs = some cs := by
  cases cs with
  | nil => rfl
  | cons c cs =>
    obtain ⟨hdigit, hgap⟩ := isDigitOrGap_eq_false_iff.mp (h c rfl)
    simp [integerDigits?, hdigit, hgap, hbase c rfl]

theorem integerDigits?_cut {base : Nat} {empty : Bool}
    (h : integerDigits? base empty cs = some rest) :
    ∃ front, cs = front ++ rest ∧ (∀ c ∈ front, isWordTail c = true) ∧
      ∀ rest', SameWord rest rest' → integerDigits? base empty (front ++ rest') = some rest' := by
  have hstop {rest rest' : List Char} (hsame : SameWord rest rest')
      (hrest : ∀ c ∈ rest.head?, isDigitOrGap c = false)
      (hbase : ∀ c ∈ rest.head?, (hexValue? c).any (· < base) = false) :
      integerDigits? base false rest' = some rest' :=
    integerDigits?_stop (hsame.isDigitOrGap_false hrest) (hsame.head_false (by rfl) hbase)
  fun_induction integerDigits? base empty cs with
  | case1 => cases h
  | case2 empty hempty =>
    cases h
    rw [Bool.not_eq_true] at hempty
    rw [hempty]
    exact ⟨[], rfl, by simp, fun rest' hsame => hstop hsame (by simp) (by simp)⟩
  | case3 empty c cs hdigit hlt ih =>
    obtain ⟨front, rfl, hfront, hcut⟩ := ih h
    have hc := isWordTail_of_isDigitOrGap (isDigitOrGap_of_isDigit hdigit)
    refine ⟨c :: front, rfl, List.forall_mem_cons.mpr ⟨hc, hfront⟩, fun rest' hsame => ?_⟩
    rw [List.cons_append, integerDigits?, if_pos hdigit, if_pos hlt, hcut rest' hsame]
  | case4 => cases h
  | case5 => cases h
  | case6 empty cs hdigit hempty ih =>
    obtain ⟨front, rfl, hfront, hcut⟩ := ih h
    refine ⟨'_' :: front, rfl, List.forall_mem_cons.mpr ⟨by decide, hfront⟩, fun rest' hsame => ?_⟩
    rw [List.cons_append, integerDigits?, if_neg hdigit, if_pos rfl, if_neg hempty,
      hcut rest' hsame]
  | case7 empty c cs hdigit hgap hvalue ih =>
    obtain ⟨front, rfl, hfront, hcut⟩ := ih h
    obtain ⟨n, hn, -⟩ := (Option.any_eq_true _ _).mp hvalue
    have hc := isWordTail_of_hexValue? hn
    refine ⟨c :: front, rfl, List.forall_mem_cons.mpr ⟨hc, hfront⟩, fun rest' hsame => ?_⟩
    rw [List.cons_append, integerDigits?, if_neg hdigit, if_neg hgap, if_pos hvalue,
      hcut rest' hsame]
  | case8 => cases h
  | case9 empty c cs hdigit hgap hvalue hempty =>
    cases h
    refine ⟨[], rfl, by simp, fun rest' hsame => ?_⟩
    rw [Bool.not_eq_true] at hempty
    rw [hempty]
    refine hstop hsame ?_ ?_
    · intro d hd
      cases hd
      exact isDigitOrGap_eq_false_iff.mpr ⟨Bool.eq_false_iff.mpr hdigit, hgap⟩
    · intro d hd
      cases hd
      exact Bool.eq_false_iff.mpr hvalue

theorem SameWord.append {front : List Char} (h : SameWord cs cs')
    (hfront : ∀ c ∈ front, isWordTail c = true) : SameWord (front ++ cs) (front ++ cs') := by
  obtain ⟨hword, hrest, hrest'⟩ := h
  rename_i word rest rest'
  rw [← List.append_assoc, ← List.append_assoc]
  exact .intro (List.forall_mem_append.mpr ⟨hfront, hword⟩) hrest hrest'

theorem integer?_cut : CutsDigits integer? isWordTail := by
  intro cs rest h
  rcases of_integer? h with ⟨mark, base, later, rfl, hmark, h⟩ | ⟨d, later, rfl, hd, h, hplain⟩
  · obtain ⟨front, rfl, hfront, hcut⟩ := integerDigits?_cut h
    have hword : isWordTail mark = true := by
      unfold markedBase? at hmark
      split at hmark <;> first | decide | cases hmark
    refine ⟨'0', mark :: front, rfl, by decide, ?_, fun rest' hsame => ?_⟩
    · exact List.forall_mem_cons.mpr ⟨hword, hfront⟩
    · rw [List.cons_append, integer?_marked hmark, hcut rest' hsame]
  · obtain ⟨front, rfl, hfront, hcut⟩ := integerDigits?_cut h
    refine ⟨d, front, rfl, hd, hfront, fun rest' hsame => ?_⟩
    -- no mark of a base comes to stand behind a zero
    have hplain' : d = '0' → ∀ c ∈ (front ++ rest').head?, markedBase? c = none := by
      intro hzero c hc
      have hmark := (hsame.append hfront).head_false (p := fun c => (markedBase? c).isSome)
        (by decide) (fun e he => by simp [hplain hzero e he]) c hc
      simpa using hmark
    rw [integer?_plain hplain', integerDigits?_ten hd, hcut rest' hsame]

/-! ## Numbers with their suffix -/

theorem number?_cut {digits? : List Char → Option (List Char)} {p : Char → Bool}
    (hdigits : CutsDigits digits? p) (hp : ∀ c, isWordTail c = true → p c = true) :
    number? digits? cs = some rest →
      ∃ d front, cs = d :: (front ++ rest) ∧ d.isDigit = true ∧ (∀ c ∈ front, p c = true) ∧
        StopsWord rest ∧
        ∀ rest', Breaks rest' → number? digits? (d :: (front ++ rest')) = some rest' := by
  intro h
  obtain ⟨later, hlater, hbreak⟩ := Option.bind_eq_some_iff.mp h
  obtain ⟨hrest, hstops⟩ := of_wordBreak? hbreak
  obtain ⟨word, hword, htail, hcutword⟩ := afterSuffix_cut later
  obtain ⟨d, front, rfl, hd, hfront, hcut⟩ := hdigits hlater
  rw [hrest] at hword
  refine ⟨d, front ++ word, by rw [hword]; simp, hd, ?_, hstops, fun rest' hrest' => ?_⟩
  · intro c hc
    exact (List.mem_append.mp hc).elim (hfront c) fun hc => hp c (htail c hc)
  · have hread : digits? (d :: (front ++ (word ++ rest'))) = some (word ++ rest') := by
      apply hcut
      rw [hword]
      exact .intro htail hstops hrest'
    rw [List.append_assoc, number?, hread]
    show wordBreak? (afterSuffix (word ++ rest')) = some rest'
    rw [hcutword rest' hrest'.stopsWord, wordBreak?_of_stops hrest'.stopsWord]

/-- In front of a text that breaks, an integer is not taken for a number with an exponent. -/
theorem number?_floatDigits?_eq_none {d : Char} {word : List Char} (hd : d.isDigit = true)
    (hword : ∀ c ∈ word, isWordTail c = true) (hrest : StopsWord rest) (hrest' : Breaks rest')
    (h : number? floatDigits? (d :: (word ++ rest)) = none) :
    number? floatDigits? (d :: (word ++ rest')) = none := by
  obtain ⟨digits, later, rfl, hdigits, hlater⟩ : ∃ digits later, word = digits ++ later ∧
      (∀ c ∈ digits, isDigitOrGap c = true) ∧ ∀ c ∈ later.head?, isDigitOrGap c = false :=
    ⟨_, _, List.takeWhile_append_dropWhile.symm, fun _ hc => List.mem_takeWhile_imp hc,
      head?_dropWhile_false _ _⟩
  obtain ⟨-, hword⟩ := List.forall_mem_append.mp hword
  rw [List.append_assoc] at h ⊢
  cases later with
  | nil =>
    have hhead : ∀ c ∈ rest'.head?, c ≠ '.' ∧ c ≠ 'e' ∧ c ≠ 'E' := by
      intro c hc
      have hbreak := hrest'.head_false (p := fun c => c == '.' || c == 'e' || c == 'E')
        (by decide) c hc
      simpa [and_assoc] using hbreak
    have hplain := floatDigits?_plain hd hdigits
      (isDigitOrGap_eq_false_of_stops hrest'.stopsWord) fun c hc => (hhead c hc).1
    rw [List.nil_append, number?, hplain, perhapsExponent?_of_ne fun c hc => (hhead c hc).2]
    rfl
  | cons e later =>
    obtain ⟨he, htail⟩ := List.forall_mem_cons.mp hword
    have hplain (rest : List Char) : floatDigits? (d :: (digits ++ (e :: later ++ rest))) =
        perhapsExponent? none (e :: later ++ rest) := by
      refine floatDigits?_plain hd hdigits hlater ?_
      rintro c hc rfl
      cases hc
      cases he
    simp only [number?, hplain] at h ⊢
    by_cases hletter : e = 'e' ∨ e = 'E'
    · have hstep (rest : List Char) : perhapsExponent? none (e :: later ++ rest) =
          exponent? false false (later ++ rest) := (if_pos hletter).trans Option.or_none
      simp only [hstep] at h ⊢
      rcases exponent?_word htail with ⟨last, hlast, hsome⟩ | hnone
      · rw [hsome _ hrest] at h
        rw [hsome _ hrest'.stopsWord]
        exact wordBreak?_afterSuffix_eq_none hlast hrest h rest'
      · rw [hnone rest' hrest']
        rfl
    · rw [perhapsExponent?_of_ne]
      · rfl
      · intro c hc
        cases hc
        exact not_or.mp hletter

/-- A number, with or without a point. -/
def numeral? (cs : List Char) : Option (LiteralKind × List Char) :=
  ((number? floatDigits? cs).map fun rest => (.float, rest)).or
    ((number? integer? cs).map fun rest => (.integer, rest))

/-- A number is cut out: it is read in front of every text that breaks. -/
theorem numeral?_cut {kind : LiteralKind} (h : numeral? cs = some (kind, rest)) :
    ∃ d front, cs = d :: (front ++ rest) ∧ d.isDigit = true ∧
      (∀ c ∈ front, isNumeralPart c = true) ∧
      ∀ rest', Breaks rest' → numeral? (d :: (front ++ rest')) = some (kind, rest') := by
  rw [numeral?, Option.or_eq_some_iff] at h
  rcases h with h | ⟨hnone, h⟩
  · obtain ⟨rest, hfloat, heq⟩ := Option.map_eq_some_iff.mp h
    cases heq
    obtain ⟨d, front, rfl, hd, hfront, -, hcut⟩ :=
      number?_cut floatDigits?_cut (fun _ => isNumeralPart_of_isWordTail) hfloat
    refine ⟨d, front, rfl, hd, hfront, fun rest' hrest' => ?_⟩
    rw [numeral?, hcut rest' hrest']
    rfl
  · obtain ⟨rest, hinteger, heq⟩ := Option.map_eq_some_iff.mp h
    cases heq
    obtain ⟨d, front, rfl, hd, hfront, hstops, hcut⟩ :=
      number?_cut integer?_cut (fun _ => id) hinteger
    refine ⟨d, front, rfl, hd, fun c hc => isNumeralPart_of_isWordTail (hfront c hc), ?_⟩
    intro rest' hrest'
    have hfloat := number?_floatDigits?_eq_none hd hfront hstops hrest'
      (Option.map_eq_none_iff.mp hnone)
    rw [numeral?, hfloat, hcut rest' hrest']
    rfl

end InterfaceRecord.Source
