/-
  From tokens back to text: first with a blank between any two tokens, then without the blanks
  that a reader of types would leave out.
-/
import InterfaceRecord.Source.Token

namespace InterfaceRecord.Source

def Delimiter.openingText : Delimiter → Char
  | .paren => '('
  | .bracket => '['
  | .brace => '{'

def Delimiter.closingText : Delimiter → Char
  | .paren => ')'
  | .bracket => ']'
  | .brace => '}'

/-- A token as it is written. -/
def Token.text : Token → List Char
  | .ident name => name.text.toList
  | .punct c _ => [c]
  | .literal _ text => text.toList
  | .opening d => [d.openingText]
  | .closing d => [d.closingText]

/-- Whether a blank stands between two neighbouring tokens: always inside braces, never inside
other delimiters, and elsewhere unless the first is joint to the second. -/
def spaced (a b : Token) : Bool :=
  if a = .opening .brace ∨ b = .closing .brace then true
  else
    match a, b with
    | .opening _, _ => false
    | _, .closing _ => false
    | .punct _ joint, _ => !joint
    | _, _ => true

/-- The tokens as a text with blanks between them. -/
def spacedText : List Token → List Char
  | [] => []
  | [t] => t.text
  | a :: b :: ts => a.text ++ (if spaced a b then [' '] else []) ++ spacedText (b :: ts)

/-- No blank is kept right behind one of these. -/
def gluesNext (c : Char) : Bool :=
  "<([&:".toList.contains c

/-- No blank is kept right before one of these. -/
def gluesPrevious (c : Char) : Bool :=
  "<>,)]:;(".toList.contains c

/-- Drops the blanks that stand behind a character that glues the next one, or before one that
glues the previous one; `last` is the last character kept so far. -/
def compactFrom (last : Option Char) : List Char → List Char
  | [] => []
  | c :: cs =>
    if c = ' ' ∧ (last.any gluesNext ∨ cs.head?.any gluesPrevious) then compactFrom last cs
    else c :: compactFrom (some c) cs

/-- A text of tokens without the blanks that a reader of types would leave out. -/
def compact (cs : List Char) : List Char :=
  compactFrom none cs

/-- How a sequence of tokens is shown. -/
def render (ts : List Token) : String :=
  String.ofList (compact (spacedText ts))

end InterfaceRecord.Source
