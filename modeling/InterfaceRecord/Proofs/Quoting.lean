/-
  Reading a quoted text back. The content of a documentation comment is written as a string
  literal, each character by itself or by an escape, and what is read from that literal is the
  content again (`quoted?_quoteLiteral`).
-/
import InterfaceRecord.Proofs.Scanning

namespace InterfaceRecord.Source

open InterfaceRecord.Text

variable {cs rest : List Char}

/-! ## Escapes by number -/

theorem hexValue?_digitChar {d : Nat} (hd : d < 16) : hexValue? d.digitChar = some d := by
  have hall : ∀ d < 16, hexValue? (Nat.digitChar d) = some d := by decide
  exact hall d hd

theorem bracedEscape?_digit {count value d : Nat} (hd : d < 16) (hcount : count ≠ 6) :
    bracedEscape? count value (d.digitChar :: cs) =
      bracedEscape? (count + 1) (value * 16 + d) cs := by
  have hvalue := hexValue?_digitChar hd
  rw [bracedEscape?, hvalue]
  · exact if_neg hcount
  · intro heq
    rw [heq] at hvalue
    cases hvalue
  · intro heq
    rw [heq] at hvalue
    cases hvalue

/-- Six digits are read as the number they show. -/
theorem bracedEscape?_hexDigits {n : Nat} (h : (hexDigits n).length ≤ 6) (cs : List Char) :
    bracedEscape? 0 0 (hexDigits n ++ cs) = bracedEscape? (hexDigits n).length n cs := by
  induction n using Nat.strong_induction_on generalizing cs with
  | _ n ih =>
    have hdigits := Nat.toDigits_eq_if (b := 16) (n := n) (by decide)
    rw [← hexDigits, ← hexDigits] at hdigits
    split at hdigits
    · rename_i hlt
      rw [hdigits, List.singleton_append, bracedEscape?_digit hlt (by decide)]
      simp
    · rename_i hge
      have hlength : (hexDigits n).length = (hexDigits (n / 16)).length + 1 := by
        rw [hdigits, List.length_append]
        rfl
      have hlt : n % 16 < 16 := Nat.mod_lt n (by decide)
      rw [hlength, hdigits, List.append_assoc, ih (n / 16) (by omega) (by omega),
        List.singleton_append, bracedEscape?_digit hlt (by omega)]
      congr 1
      omega

/-- A character's code is read back from its digits. -/
theorem bracedEscape?_toNat (c : Char) (rest : List Char) :
    bracedEscape? 0 0 (hexDigits c.toNat ++ '\x7d' :: rest) = some (c, rest) := by
  have hlt : c.toNat < 16 ^ 6 := by
    have hvalid := c.valid
    simp only [UInt32.isValidChar, Nat.isValidChar] at hvalid
    have : c.toNat = c.val.toNat := rfl
    omega
  have hlength : (hexDigits c.toNat).length ≤ 6 :=
    (Nat.length_toDigits_le_iff (by decide) (by decide)).mpr hlt
  have hpos : (hexDigits c.toNat).length ≠ 0 := Nat.ne_of_gt Nat.length_toDigits_pos
  rw [bracedEscape?_hexDigits hlength, bracedEscape?, if_pos ⟨hpos, c.valid⟩,
    Char.ofNat_toNat]

/-! ## Quoted texts -/

/-- One character of a quoted text is read as that character. -/
theorem quotedUnit?_escapeChar (c : Char) (rest : List Char) :
    quotedUnit? .text (escapeChar c ++ rest) = some (some c, rest) := by
  unfold escapeChar
  split
  · rfl
  · rfl
  · rfl
  · rfl
  · rfl
  · rfl
  · rename_i hreturn _ _ hescape
    split
    · have hcode : bracedEscape? 0 0 (hexDigits c.toNat ++ ['\x7d'] ++ rest) = some (c, rest) := by
        rw [List.append_assoc, List.singleton_append, bracedEscape?_toNat]
      exact quotedUnit?_braced (by decide) rfl hcode
    · exact quotedUnit?_of_ne hreturn hescape rest

/-- A quote in a quoted text is escaped. -/
theorem escapeChar_head (c : Char) : ∃ d unit, escapeChar c = d :: unit ∧ d ≠ '"' := by
  unfold escapeChar
  split
  · exact ⟨_, _, rfl, by decide⟩
  · exact ⟨_, _, rfl, by decide⟩
  · exact ⟨_, _, rfl, by decide⟩
  · exact ⟨_, _, rfl, by decide⟩
  · exact ⟨_, _, rfl, by decide⟩
  · exact ⟨_, _, rfl, by decide⟩
  · split
    · exact ⟨_, _, rfl, by decide⟩
    · exact ⟨c, [], rfl, ‹_›⟩

theorem quotedWithin?_unit {k : Content} {fuel : Nat} {c d : Char} {unit : List Char}
    (hd : d ≠ '"') (hunit : quotedUnit? k (d :: unit ++ cs) = some (some c, cs)) :
    quotedWithin? k (fuel + 1) (d :: unit ++ cs) =
      (quotedWithin? k fuel cs).map fun p => (c :: p.1, p.2) := by
  rw [quotedWithin?, hunit]
  · show (quotedWithin? k fuel cs).bind _ = _
    cases quotedWithin? k fuel cs <;> rfl
  · exact fun cs heq => absurd (List.cons.inj heq).1 hd

/-- Each character of a literal's content is written as one unit. -/
theorem quoteLiteral_cons (c : Char) (content : List Char) :
    ∃ d unit, quoteLiteral (c :: content) = d :: unit ++ quoteLiteral content ∧ d ≠ '"' ∧
      ∀ rest, quotedUnit? .text (d :: unit ++ rest) = some (some c, rest) := by
  rw [quoteLiteral.eq_def]
  split
  · rename_i heq
    cases heq
  · rename_i c cs heq
    cases heq
    split
    · exact ⟨'\\', ['x', '0', '0'], rfl, by decide, fun rest => rfl⟩
    · exact ⟨'\\', ['0'], rfl, by decide, fun rest => rfl⟩
  · rename_i heq
    cases heq
    obtain ⟨d, unit, hunit, hd⟩ := escapeChar_head c
    refine ⟨d, unit, by rw [hunit], hd, fun rest => ?_⟩
    rw [← hunit, quotedUnit?_escapeChar]

/-- A quoted text is read back up to its closing quote. -/
theorem quotedWithin?_quoteLiteral (content rest : List Char) {fuel : Nat}
    (hfuel : content.length < fuel) :
    quotedWithin? .text fuel (quoteLiteral content ++ '"' :: rest) = some (content, rest) := by
  induction content generalizing fuel with
  | nil =>
    cases fuel with
    | zero => cases hfuel
    | succ fuel => rfl
  | cons c content ih =>
    cases fuel with
    | zero => cases hfuel
    | succ fuel =>
      obtain ⟨d, unit, hquoted, hd, hunit⟩ := quoteLiteral_cons c content
      rw [hquoted, List.append_assoc, quotedWithin?_unit hd (hunit _),
        ih (Nat.lt_of_succ_lt_succ hfuel)]
      rfl

theorem length_le_quoteLiteral (content : List Char) :
    content.length ≤ (quoteLiteral content).length := by
  induction content with
  | nil => exact Nat.zero_le _
  | cons c content ih =>
    obtain ⟨d, unit, hquoted, -⟩ := quoteLiteral_cons c content
    rw [hquoted, List.length_append, List.length_cons, List.length_cons]
    omega

theorem quoted?_quoteLiteral (content rest : List Char) :
    quoted? .text (quoteLiteral content ++ '"' :: rest) = some (content, rest) := by
  refine quotedWithin?_quoteLiteral content rest ?_
  have := length_le_quoteLiteral content
  rw [List.length_append]
  omega

end InterfaceRecord.Source
