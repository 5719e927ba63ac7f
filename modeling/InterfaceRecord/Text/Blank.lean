/-
  The characters that separate tokens without being part of one.
-/
namespace InterfaceRecord.Text

/-- Whether `c` counts as white space in a source text: the Unicode property White_Space, and the
two marks that only set a writing direction. -/
def isBlank (c : Char) : Bool :=
  let n := c.toNat
  (0x09 ≤ n && n ≤ 0x0D) || n == 0x20 || n == 0x85 || n == 0xA0 || n == 0x1680
    || (0x2000 ≤ n && n ≤ 0x200A) || n == 0x200E || n == 0x200F || n == 0x2028 || n == 0x2029
    || n == 0x202F || n == 0x205F || n == 0x3000

theorem isBlank_of_isWhitespace {c : Char} (h : c.isWhitespace = true) : isBlank c = true := by
  simp only [Char.isWhitespace, Bool.or_eq_true, decide_eq_true_eq] at h
  rcases h with ((rfl | rfl) | rfl) | rfl <;> decide

end InterfaceRecord.Text
