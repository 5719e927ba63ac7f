/-
  A text as it is shown between double quotes: the quote, the backslash and whatever would not be
  seen are written as escapes.
-/
import InterfaceRecord.Text.Identifier
import InterfaceRecord.Text.UnprintableTable

namespace InterfaceRecord.Text

/-- Whether `c` would not be seen if written as it is. -/
def isUnprintable (c : Char) : Bool :=
  if c.toNat < 0x7F then c.toNat < 0x20
  else inRanges unprintableRanges c.toNat || inRanges graphemeExtendRanges c.toNat

/-- A number in lower case hexadecimal digits, without leading zeros. -/
def hexDigits (n : Nat) : List Char :=
  Nat.toDigits 16 n

/-- One character of a quoted text. -/
def escapeChar (c : Char) : List Char :=
  match c with
  | '\t' => ['\\', 't']
  | '\n' => ['\\', 'n']
  | '\r' => ['\\', 'r']
  | '\x00' => ['\\', '0']
  | '"' => ['\\', '"']
  | '\\' => ['\\', '\\']
  | c => if isUnprintable c then ['\\', 'u', '\x7b'] ++ hexDigits c.toNat ++ ['\x7d'] else [c]

/-- The quoted form of a text. -/
def quote (s : String) : String :=
  String.ofList ('"' :: s.toList.flatMap escapeChar ++ ['"'])

/-- The quoted form that reads back as the same text: before an octal digit the short escape of
the NUL character would be misread, so the long one is written. -/
def quoteLiteral : List Char → List Char
  | [] => []
  | '\x00' :: c :: cs =>
    if '0' ≤ c ∧ c ≤ '7' then ['\\', 'x', '0', '0'] ++ quoteLiteral (c :: cs)
    else ['\\', '0'] ++ quoteLiteral (c :: cs)
  | c :: cs => escapeChar c ++ quoteLiteral cs

end InterfaceRecord.Text
