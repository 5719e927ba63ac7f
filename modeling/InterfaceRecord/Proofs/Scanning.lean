/-
  Where quoted literals end. A scanner that answers the text behind a literal has looked at no
  more of that text than its first character. So the literal can be cut out: with another text
  behind it the same scanner finds the same literal (`quoted?_cut`, `raw?_cut`, `apostrophed?_cut`,
  and `afterSuffix_cut` for the suffix behind it).
-/
import InterfaceRecord.Proofs.Rendering
import Mathlib.Data.List.TakeWhile

namespace InterfaceRecord.Source

open InterfaceRecord.Text

/-- A word before the text ends there. -/
def StopsWord (rest : List Char) : Prop := ∀ c ∈ rest.head?, isWordTail c = false

theorem EndsWords.stopsWord {rest : List Char} (h : EndsWords rest) : StopsWord rest := by
  intro c hc
  have := h c hc
  rw [isWordPart, Bool.or_eq_false_iff] at this
  exact this.1

theorem Breaks.stopsWord {rest : List Char} (h : Breaks rest) : StopsWord rest :=
  h.endsWords.stopsWord

variable {k : Content} {cs rest : List Char}

/-! ## Characters of a quoted literal -/

/-- An escape by one character is none of the longer ones. -/
theorem ne_of_simpleEscape? {c d e : Char} (h : simpleEscape? c = some d)
    (he : simpleEscape? e = none) : c ≠ e := by
  rintro rfl
  rw [he] at h
  cases h

theorem bracedEscape?_cut {count value : Nat} {c : Char}
    (h : bracedEscape? count value cs = some (c, rest)) :
    ∃ front, cs = front ++ rest ∧
      ∀ rest', bracedEscape? count value (front ++ rest') = some (c, rest') := by
  induction cs generalizing count value with
  | nil => cases h
  | cons d cs ih =>
    rw [bracedEscape?.eq_def] at h
    split at h
    · cases h
    · rename_i heq
      cases heq
      split at h
      · cases h
      · rename_i hcount
        obtain ⟨front, rfl, hfront⟩ := ih h
        refine ⟨'_' :: front, rfl, fun rest' => ?_⟩
        rw [List.cons_append, bracedEscape?, if_neg hcount, hfront]
    · rename_i heq
      cases heq
      split at h
      · rename_i hvalid
        cases h
        exact ⟨['}'], rfl, fun rest' => if_pos hvalid⟩
      · cases h
    · rename_i hgap hclose heq
      cases heq
      split at h
      · rename_i n hn
        split at h
        · cases h
        · rename_i hcount
          obtain ⟨front, rfl, hfront⟩ := ih h
          refine ⟨d :: front, rfl, fun rest' => ?_⟩
          rw [List.cons_append, bracedEscape?, hn]
          · dsimp only
            rw [if_neg hcount, hfront]
          · exact hgap
          · exact hclose
      · cases h

theorem afterContinuation?_cut {cr : Bool} (h : afterContinuation? cr cs = some rest) :
    ∃ front, cs = front ++ rest ∧
      ∀ rest', rest'.head? = rest.head? → afterContinuation? cr (front ++ rest') = some rest' := by
  induction cs generalizing cr with
  | nil => cases h
  | cons c cs ih =>
    rw [afterContinuation?] at h
    split at h
    · rename_i hcr
      split at h
      · rename_i hc
        obtain ⟨front, rfl, hfront⟩ := ih h
        refine ⟨c :: front, rfl, fun rest' hrest => ?_⟩
        rw [List.cons_append, afterContinuation?, if_pos hcr, if_pos hc, hfront rest' hrest]
      · cases h
    · rename_i hcr
      split at h
      · rename_i hc
        obtain ⟨front, rfl, hfront⟩ := ih h
        refine ⟨c :: front, rfl, fun rest' hrest => ?_⟩
        rw [List.cons_append, afterContinuation?, if_neg hcr, if_pos hc, hfront rest' hrest]
      · rename_i hreturn
        split at h
        · rename_i hc
          obtain ⟨front, rfl, hfront⟩ := ih h
          refine ⟨c :: front, rfl, fun rest' hrest => ?_⟩
          rw [List.cons_append, afterContinuation?, if_neg hcr, if_neg hreturn, if_pos hc,
            hfront rest' hrest]
        · rename_i hblank
          cases h
          refine ⟨[], rfl, fun rest' hrest => ?_⟩
          obtain ⟨cs', rfl⟩ := List.head?_eq_some_iff.mp hrest
          rw [List.nil_append, afterContinuation?, if_neg hcr, if_neg hreturn, if_neg hblank]

/-- A character that starts no escape stands for itself. -/
theorem quotedUnit?_of_ne {c : Char} (hreturn : c ≠ '\r') (hescape : c ≠ '\\') (cs : List Char) :
    quotedUnit? k (c :: cs) = if k.allows c then some (some c, cs) else none := by
  rw [quotedUnit?] <;> simp [hreturn, hescape]

theorem quotedUnit?_escape {c d : Char} (h : simpleEscape? c = some d) (cs : List Char) :
    quotedUnit? k ('\\' :: c :: cs) = if k.allows d then some (some d, cs) else none := by
  rw [quotedUnit?, h]
  · rfl
  · exact fun _ _ _ heq => absurd heq (ne_of_simpleEscape? h rfl)
  · exact fun _ heq => absurd heq (ne_of_simpleEscape? h rfl)
  · exact ne_of_simpleEscape? h rfl
  · exact ne_of_simpleEscape? h rfl

theorem quotedUnit?_braced {c : Char} (hk : k ≠ .bytes) (hallows : k.allows c = true)
    (h : bracedEscape? 0 0 cs = some (c, rest)) :
    quotedUnit? k ('\\' :: 'u' :: '\x7b' :: cs) = some (some c, rest) := by
  show (if k = .bytes then none else (bracedEscape? 0 0 cs).bind _) = _
  rw [if_neg hk, h]
  exact if_pos hallows

/-- A continuation is read up to the next character that is no blank, the same one in front of
every text that starts as this one does. -/
theorem quotedUnit?_continuation_cut {start : Char} {cr : Bool}
    (hunit : ∀ cs, quotedUnit? k ('\\' :: start :: cs) =
      (afterContinuation? cr cs).map fun rest => (none, rest))
    (h : afterContinuation? cr cs = some rest) :
    ∃ front, front ≠ [] ∧ '\\' :: start :: cs = front ++ rest ∧
      ∀ rest', rest'.head? = rest.head? → quotedUnit? k (front ++ rest') = some (none, rest') := by
  obtain ⟨front, rfl, hfront⟩ := afterContinuation?_cut h
  refine ⟨'\\' :: start :: front, List.cons_ne_nil _ _, rfl, fun rest' hrest => ?_⟩
  rw [List.cons_append, List.cons_append, hunit, hfront rest' hrest, Option.map_some]

theorem quotedUnit?_cut {c : Option Char} (h : quotedUnit? k cs = some (c, rest)) :
    ∃ front, front ≠ [] ∧ cs = front ++ rest ∧
      ∀ rest', rest'.head? = rest.head? → quotedUnit? k (front ++ rest') = some (c, rest') := by
  unfold quotedUnit? at h
  split at h
  · cases h
  · cases h
    exact ⟨['\r', '\n'], List.cons_ne_nil _ _, rfl, fun rest' _ => rfl⟩
  · cases h
  · rename_i a b cs
    obtain ⟨n, hn, heq⟩ := Option.bind_eq_some_iff.mp h
    cases heq
    refine ⟨['\\', 'x', a, b], List.cons_ne_nil _ _, rfl, fun rest' _ => ?_⟩
    show (k.hexEscape? a b).bind _ = _
    rw [hn]
    rfl
  · split at h
    · cases h
    · rename_i cs hk
      obtain ⟨⟨d, cs'⟩, hd, h⟩ := Option.bind_eq_some_iff.mp h
      dsimp only at h
      split at h
      · rename_i hallows
        cases h
        obtain ⟨front, rfl, hfront⟩ := bracedEscape?_cut hd
        exact ⟨'\\' :: 'u' :: '\x7b' :: front, List.cons_ne_nil _ _, rfl,
          fun rest' _ => quotedUnit?_braced hk hallows (hfront rest')⟩
      · cases h
  · obtain ⟨rest, hafter, heq⟩ := Option.bind_eq_some_iff.mp h
    cases heq
    exact quotedUnit?_continuation_cut (fun cs => (Option.map_eq_bind).symm) hafter
  · obtain ⟨rest, hafter, heq⟩ := Option.bind_eq_some_iff.mp h
    cases heq
    exact quotedUnit?_continuation_cut (fun cs => (Option.map_eq_bind).symm) hafter
  · rename_i d cs _ _ _ _
    obtain ⟨e, hd, h⟩ := Option.bind_eq_some_iff.mp h
    split at h
    · rename_i hallows
      cases h
      exact ⟨['\\', d], List.cons_ne_nil _ _, rfl,
        fun rest' _ => (quotedUnit?_escape hd rest').trans (if_pos hallows)⟩
    · cases h
  · cases h
  · rename_i d cs _ hreturn _ _ _ _ hescape hlone
    split at h
    · rename_i hallows
      cases h
      have hne : d ≠ '\\' := by
        intro hd
        cases rest with
        | nil => exact hlone hd rfl
        | cons e rest => exact hescape e rest hd rfl
      exact ⟨[d], List.cons_ne_nil _ _, rfl,
        fun rest' _ => (quotedUnit?_of_ne hreturn hne rest').trans (if_pos hallows)⟩
    · cases h

/-- A quoted literal ends at its closing quote, whatever follows. -/
theorem quotedWithin?_cut {fuel : Nat} {value : List Char}
    (h : quotedWithin? k fuel cs = some (value, rest)) :
    ∃ body, cs = body ++ '"' :: rest ∧ ∀ rest' fuel', body.length < fuel' →
      quotedWithin? k fuel' (body ++ '"' :: rest') = some (value, rest') := by
  induction fuel generalizing cs value with
  | zero => cases h
  | succ fuel ih =>
    rw [quotedWithin?.eq_def] at h
    split at h
    · cases h
    · rename_i cs heq
      cases heq
      cases h
      refine ⟨[], rfl, fun rest' fuel' hfuel => ?_⟩
      cases fuel' with
      | zero => exact absurd hfuel (Nat.lt_irrefl 0)
      | succ fuel' => rfl
    · rename_i fuel hfuel hquote
      cases hfuel
      obtain ⟨⟨c, cs⟩, hunit, h⟩ := Option.bind_eq_some_iff.mp h
      obtain ⟨⟨value, rest⟩, hrest, h⟩ := Option.bind_eq_some_iff.mp h
      cases h
      obtain ⟨front, hne, rfl, hfront⟩ := quotedUnit?_cut hunit
      obtain ⟨body, rfl, hbody⟩ := ih hrest
      refine ⟨front ++ body, (List.append_assoc _ _ _).symm, fun rest' fuel' hfuel => ?_⟩
      have hpos := List.length_pos_iff.mpr hne
      rw [List.length_append] at hfuel
      cases fuel' with
      | zero => exact absurd hfuel (Nat.not_lt_zero _)
      | succ fuel' =>
        have hhead : (body ++ '"' :: rest').head? = (body ++ '"' :: rest).head? := by
          cases body <;> rfl
        rw [List.append_assoc, quotedWithin?, hfront _ hhead]
        · show (quotedWithin? k fuel' (body ++ '"' :: rest')).bind _ = _
          rw [hbody rest' fuel' (by omega)]
          rfl
        · intro cs hcs
          obtain ⟨d, front, rfl⟩ := List.exists_cons_of_ne_nil hne
          cases hcs
          exact hquote _ rfl

theorem quoted?_cut {value : List Char} (h : quoted? k cs = some (value, rest)) :
    ∃ body, cs = body ++ '"' :: rest ∧
      ∀ rest', quoted? k (body ++ '"' :: rest') = some (value, rest') := by
  obtain ⟨body, rfl, hbody⟩ := quotedWithin?_cut h
  refine ⟨body, rfl, fun rest' => hbody rest' _ ?_⟩
  rw [List.length_append]
  omega

/-! ## Raw literals -/

/-- Whether the signs stand at the front is seen on that many characters. -/
theorem isPrefixOf_append_iff {signs front : List Char} (h : signs.length ≤ front.length)
    (rest : List Char) :
    signs.isPrefixOf (front ++ rest) = signs.isPrefixOf front := by
  rw [Bool.eq_iff_iff, List.isPrefixOf_iff_prefix, List.isPrefixOf_iff_prefix]
  exact ⟨fun hp => List.prefix_of_prefix_length_le hp (List.prefix_append _ _) h,
    fun hp => hp.trans (List.prefix_append _ _)⟩

theorem rawBody?_cons {c : Char} (hreturn : c ≠ '\r') (signs : Nat) (cs : List Char) :
    rawBody? k signs (c :: cs) =
      if c = '"' ∧ (List.replicate signs '#').isPrefixOf cs then some ([], cs.drop signs)
      else if k.allows c then (rawBody? k signs cs).map fun p => (c :: p.1, p.2)
      else none := by
  rw [rawBody?]
  · cases rawBody? k signs cs <;> rfl
  · exact fun _ heq => absurd heq hreturn
  · exact hreturn

theorem rawBody?_cut {signs : Nat} {value : List Char}
    (h : rawBody? k signs cs = some (value, rest)) :
    ∃ body, cs = body ++ '"' :: (List.replicate signs '#' ++ rest) ∧
      ∀ rest', rawBody? k signs (body ++ '"' :: (List.replicate signs '#' ++ rest')) =
        some (value, rest') := by
  fun_induction rawBody? k signs cs generalizing value with
  | case1 => cases h
  | case2 cs ih =>
    obtain ⟨⟨value, rest⟩, hrest, h⟩ := Option.bind_eq_some_iff.mp h
    cases h
    obtain ⟨body, rfl, hbody⟩ := ih hrest
    refine ⟨'\r' :: '\n' :: body, rfl, fun rest' => ?_⟩
    show (rawBody? k signs (body ++ '"' :: (List.replicate signs '#' ++ rest'))).bind _ = _
    rw [hbody]
    rfl
  | case3 => cases h
  | case4 c cs _ hreturn hclose =>
    cases h
    obtain ⟨rfl, hsigns⟩ := hclose
    obtain ⟨rest, rfl⟩ := List.isPrefixOf_iff_prefix.mp hsigns
    have hdrop (rest : List Char) :
        (List.replicate signs '#' ++ rest).drop signs = rest := by
      rw [List.drop_append_of_le_length (by simp), List.drop_replicate, Nat.sub_self]
      rfl
    rw [hdrop]
    refine ⟨[], rfl, fun rest' => ?_⟩
    have hprefix : (List.replicate signs '#').isPrefixOf (List.replicate signs '#' ++ rest') :=
      List.isPrefixOf_iff_prefix.mpr (List.prefix_append _ _)
    rw [List.nil_append, rawBody?_cons hreturn, if_pos ⟨rfl, hprefix⟩, hdrop]
  | case5 c cs _ hreturn hopen hallows ih =>
    obtain ⟨⟨value, rest⟩, hrest, h⟩ := Option.bind_eq_some_iff.mp h
    cases h
    obtain ⟨body, rfl, hbody⟩ := ih hrest
    refine ⟨c :: body, rfl, fun rest' => ?_⟩
    -- the signs are looked for in front of what follows the literal
    have hfront (rest : List Char) : body ++ '"' :: (List.replicate signs '#' ++ rest) =
        (body ++ '"' :: List.replicate signs '#') ++ rest := by
      simp
    have hlength : (List.replicate signs '#').length ≤
        (body ++ '"' :: List.replicate signs '#').length := by
      simp only [List.length_append, List.length_cons]
      omega
    rw [hfront, isPrefixOf_append_iff hlength] at hopen
    rw [List.cons_append, rawBody?_cons hreturn, hbody, if_neg, if_pos hallows]
    · rfl
    · rwa [hfront, isPrefixOf_append_iff hlength]
  | case6 => cases h

/-- A raw literal ends with its signs. -/
theorem raw?_cut {value : List Char} (h : raw? k cs = some (value, rest)) :
    ∃ signs body, cs = List.replicate signs '#' ++ '"' ::
        (body ++ '"' :: (List.replicate signs '#' ++ rest)) ∧
      ∀ rest', raw? k (List.replicate signs '#' ++ '"' ::
        (body ++ '"' :: (List.replicate signs '#' ++ rest'))) = some (value, rest') := by
  have hsigns (signs : Nat) (cs : List Char) :
      (List.replicate signs '#' ++ '"' :: cs).takeWhile (· == '#') = List.replicate signs '#' := by
    apply takeWhile_append_of_head
    · exact fun d hd => beq_iff_eq.mpr (List.eq_of_mem_replicate hd)
    · intro c hc
      cases hc
      rfl
  rw [raw?] at h
  split at h
  · rename_i cs' hquote
    split at h
    · rename_i hcount
      have htake : cs.takeWhile (· == '#') =
          List.replicate (cs.takeWhile (· == '#')).length '#' :=
        List.eq_replicate_iff.mpr ⟨rfl, fun d hd => by simpa using List.mem_takeWhile_imp hd⟩
      have hfront : cs.takeWhile (· == '#') = cs.take (cs.takeWhile (· == '#')).length :=
        List.prefix_iff_eq_take.mp (List.takeWhile_prefix _)
      obtain ⟨body, rfl, hbody⟩ := rawBody?_cut h
      generalize (cs.takeWhile (· == '#')).length = signs at *
      have hcs : cs = List.replicate signs '#' ++ '"' ::
          (body ++ '"' :: (List.replicate signs '#' ++ rest)) := by
        rw [← hquote, ← htake, hfront, List.take_append_drop]
      refine ⟨signs, body, hcs, fun rest' => ?_⟩
      rw [raw?, hsigns, List.length_replicate, List.drop_left' (List.length_replicate)]
      exact (if_pos hcount).trans (hbody rest')
    · cases h
  · cases h

/-! ## Characters between apostrophes -/

/-- What follows the closing apostrophe. -/
def afterApostrophe? : List Char → Option (List Char)
  | '\'' :: cs => some cs
  | _ => none

theorem eq_of_afterApostrophe? (h : afterApostrophe? cs = some rest) : cs = '\'' :: rest := by
  unfold afterApostrophe? at h
  split at h
  · cases h
    rfl
  · cases h

/-- The text behind one character, written as itself or as an escape. -/
def afterCharacter? (k : Content) : List Char → Option (List Char)
  | '\\' :: 'x' :: a :: b :: cs => (k.hexEscape? a b).map fun _ => cs
  | '\\' :: 'u' :: '\x7b' :: cs =>
    if k = .bytes then none else (bracedEscape? 0 0 cs).map (·.2)
  | '\\' :: c :: cs => (simpleEscape? c).map fun _ => cs
  | '\\' :: [] => none
  | c :: cs => if k.allows c then some cs else none
  | [] => none

theorem apostrophed?_eq_bind (k : Content) (cs : List Char) :
    apostrophed? k cs = (afterCharacter? k cs).bind afterApostrophe? := by
  unfold apostrophed?
  split
  · rfl
  · rw [afterCharacter?]
    split <;> rfl
  · rename_i hx hu
    rw [afterCharacter?]
    · rfl
    · exact hx
    · exact hu
  · rfl
  · rename_i hx hu hescape hlone
    rw [afterCharacter?]
    · split <;> rfl
    · exact hx
    · exact hu
    · exact hescape
    · exact hlone
  · rfl

theorem afterCharacter?_of_ne {c : Char} (hc : c ≠ '\\') (cs : List Char) :
    afterCharacter? k (c :: cs) = if k.allows c then some cs else none := by
  rw [afterCharacter?] <;> simp [hc]

theorem afterCharacter?_escape {c d : Char} (h : simpleEscape? c = some d) (cs : List Char) :
    afterCharacter? k ('\\' :: c :: cs) = some cs := by
  rw [afterCharacter?, h]
  · rfl
  · exact fun _ _ _ heq => absurd heq (ne_of_simpleEscape? h rfl)
  · exact fun _ heq => absurd heq (ne_of_simpleEscape? h rfl)

theorem afterCharacter?_cut (h : afterCharacter? k cs = some rest) :
    ∃ front, cs = front ++ rest ∧ ∀ rest', afterCharacter? k (front ++ rest') = some rest' := by
  unfold afterCharacter? at h
  split at h
  · rename_i a b cs
    obtain ⟨n, hn, heq⟩ := Option.map_eq_some_iff.mp h
    cases heq
    refine ⟨['\\', 'x', a, b], rfl, fun rest' => ?_⟩
    show (k.hexEscape? a b).map (fun _ => rest') = _
    rw [hn]
    rfl
  · split at h
    · cases h
    · rename_i cs hk
      obtain ⟨⟨c, rest⟩, hcode, heq⟩ := Option.map_eq_some_iff.mp h
      cases heq
      obtain ⟨front, rfl, hfront⟩ := bracedEscape?_cut hcode
      refine ⟨'\\' :: 'u' :: '\x7b' :: front, rfl, fun rest' => ?_⟩
      show (if k = .bytes then none else (bracedEscape? 0 0 (front ++ rest')).map (·.2)) = _
      rw [if_neg hk, hfront]
      rfl
  · rename_i c cs _ _
    obtain ⟨d, hd, heq⟩ := Option.map_eq_some_iff.mp h
    cases heq
    exact ⟨['\\', c], rfl, fun rest' => afterCharacter?_escape hd rest'⟩
  · cases h
  · rename_i c cs _ _ hescape hlone
    split at h
    · rename_i hallows
      cases h
      have hne : c ≠ '\\' := by
        intro hc
        cases rest with
        | nil => exact hlone hc rfl
        | cons d rest => exact hescape d rest hc rfl
      exact ⟨[c], rfl, fun rest' => (afterCharacter?_of_ne hne rest').trans (if_pos hallows)⟩
    · cases h
  · cases h

theorem apostrophed?_cut (h : apostrophed? k cs = some rest) :
    ∃ body, cs = body ++ '\'' :: rest ∧
      ∀ rest', apostrophed? k (body ++ '\'' :: rest') = some rest' := by
  rw [apostrophed?_eq_bind] at h
  obtain ⟨mid, hmid, hclose⟩ := Option.bind_eq_some_iff.mp h
  cases eq_of_afterApostrophe? hclose
  obtain ⟨body, rfl, hbody⟩ := afterCharacter?_cut hmid
  refine ⟨body, rfl, fun rest' => ?_⟩
  rw [apostrophed?_eq_bind, hbody]
  rfl

/-! ## Suffixes -/

theorem dropWhile_append_of_head {p : Char → Bool} (hcs : ∀ c ∈ cs, p c = true)
    (hrest : ∀ c ∈ rest.head?, p c = false) : (cs ++ rest).dropWhile p = rest := by
  rw [List.dropWhile_append_of_pos hcs]
  cases rest with
  | nil => rfl
  | cons c rest => simp [hrest c rfl]

theorem head?_dropWhile_false (p : Char → Bool) (cs : List Char) :
    ∀ c ∈ (cs.dropWhile p).head?, p c = false := by
  intro c hc
  have := List.head?_dropWhile_not p cs
  rw [Option.mem_def.mp hc] at this
  simpa using this

theorem StopsWord.dropWhile_append {word : List Char} (hrest : StopsWord rest)
    (hword : ∀ c ∈ word, isWordTail c = true) : (word ++ rest).dropWhile isWordTail = rest :=
  dropWhile_append_of_head hword hrest

theorem afterWord?_cons {c : Char} (hc : isWordStart c = true) (cs : List Char) :
    afterWord? (c :: cs) = some (cs.dropWhile isWordTail) :=
  if_pos hc

theorem afterWord?_eq_none (hrest : ∀ c ∈ cs.head?, isWordStart c = false) :
    afterWord? cs = none := by
  cases cs with
  | nil => rfl
  | cons c cs => exact if_neg (by rw [hrest c rfl]; exact Bool.false_ne_true)

theorem StopsWord.afterWord? (hrest : StopsWord rest) : Source.afterWord? rest = none :=
  afterWord?_eq_none fun c hc => by
    by_contra hstart
    have hword := isWordTail_of_isWordStart (Bool.of_not_eq_false hstart)
    rw [hrest c hc] at hword
    cases hword

theorem StopsWord.afterSuffix (hrest : StopsWord rest) : Source.afterSuffix rest = rest := by
  rw [Source.afterSuffix, hrest.afterWord?]
  rfl

/-- A suffix is a word, or nothing. -/
theorem afterSuffix_cut (cs : List Char) :
    ∃ word, cs = word ++ afterSuffix cs ∧ (∀ c ∈ word, isWordTail c = true) ∧
      ∀ rest', StopsWord rest' → afterSuffix (word ++ rest') = rest' := by
  cases cs with
  | nil => exact ⟨[], rfl, by simp, fun rest' hrest => hrest.afterSuffix⟩
  | cons c cs =>
    by_cases hc : isWordStart c = true
    · have htake (d : Char) (hd : d ∈ cs.takeWhile isWordTail) : isWordTail d = true :=
        List.mem_takeWhile_imp hd
      refine ⟨c :: cs.takeWhile isWordTail, ?_, ?_, fun rest' hrest => ?_⟩
      · rw [afterSuffix, afterWord?_cons hc, Option.getD_some, List.cons_append,
          List.takeWhile_append_dropWhile]
      · intro d hd
        rcases List.mem_cons.mp hd with rfl | hd
        · exact isWordTail_of_isWordStart hc
        · exact htake d hd
      · rw [List.cons_append, afterSuffix, afterWord?_cons hc, Option.getD_some,
          hrest.dropWhile_append htake]
    · refine ⟨[], ?_, by simp, fun rest' hrest => ?_⟩
      · rw [afterSuffix, afterWord?, if_neg hc]
        rfl
      · exact hrest.afterSuffix

end InterfaceRecord.Source
