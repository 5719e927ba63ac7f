/-
  Which characters start and continue an identifier. ASCII is decided by the rule itself, so that
  facts about punctuation need no table.
-/
import InterfaceRecord.Text.IdentifierTable

namespace InterfaceRecord.Text

/-- Whether `n` lies in one of the inclusive ranges. -/
def inRanges (ranges : List (Nat × Nat)) (n : Nat) : Bool :=
  ranges.any fun r => r.1 ≤ n && n ≤ r.2

/-- An identifier starts with an underscore or a character of XID_Start. -/
def isWordStart (c : Char) : Bool :=
  if c.toNat < 128 then c.isAlpha || c == '_' else inRanges wordStartRanges c.toNat

/-- An identifier goes on with characters of XID_Continue, the underscore and digits among them. -/
def isWordTail (c : Char) : Bool :=
  if c.toNat < 128 then c.isAlphanum || c == '_'
  else inRanges wordStartRanges c.toNat || inRanges wordTailRanges c.toNat

/-- One start character, then continuing characters. -/
def isWord : List Char → Bool
  | [] => false
  | c :: cs => isWordStart c && cs.all isWordTail

/-- The text of an identifier: a word, perhaps marked raw by `r#`. -/
def isIdentText : List Char → Bool
  | 'r' :: '#' :: cs => isWord cs
  | cs => isWord cs

theorem isWordTail_of_isWordStart {c : Char} (h : isWordStart c = true) : isWordTail c = true := by
  unfold isWordStart at h
  unfold isWordTail
  split at h <;> simp_all [Char.isAlphanum]
  cases h <;> simp [*]

theorem isWordTail_of_mem {cs : List Char} (h : isWord cs = true) {c : Char} (hc : c ∈ cs) :
    isWordTail c = true := by
  cases cs with
  | nil => simp at hc
  | cons d ds =>
    simp only [isWord, Bool.and_eq_true, List.all_eq_true] at h
    rcases List.mem_cons.1 hc with rfl | hc
    · exact isWordTail_of_isWordStart h.1
    · exact h.2 c hc

/-- Besides the raw mark's sign, an identifier holds only word characters. -/
theorem isWordTail_or_hash_of_mem {cs : List Char} (h : isIdentText cs = true) {c : Char}
    (hc : c ∈ cs) : isWordTail c = true ∨ c = '#' := by
  unfold isIdentText at h
  split at h
  · rcases List.mem_cons.1 hc with rfl | hc
    · exact .inl (by decide)
    · rcases List.mem_cons.1 hc with rfl | hc
      · exact .inr rfl
      · exact .inl (isWordTail_of_mem h hc)
  · exact .inl (isWordTail_of_mem h hc)

theorem colon_not_mem {cs : List Char} (h : isIdentText cs = true) : ':' ∉ cs := fun hc => by
  rcases isWordTail_or_hash_of_mem h hc with h | h
  · exact absurd h (by decide)
  · exact absurd h (by decide)

theorem ne_nil_of_isIdentText {cs : List Char} (h : isIdentText cs = true) : cs ≠ [] := by
  rintro rfl
  simp [isIdentText, isWord] at h

end InterfaceRecord.Text
