/-
  Tokens of a source text: identifiers, literals, punctuation characters and delimiters.
  A delimited group is kept flat, as its two delimiters and what lies between.
-/
import InterfaceRecord.Text.Identifier

namespace InterfaceRecord.Source

open InterfaceRecord.Text

/-- An identifier, with its raw mark if it has one. -/
structure Ident where
  text : String
  isIdentText_toList : isIdentText text.toList = true
deriving DecidableEq

/-- The identifier of that spelling, if the characters spell one. -/
def Ident.ofList? (cs : List Char) : Option Ident :=
  if h : isIdentText cs = true then some ⟨String.ofList cs, by simpa using h⟩ else none

theorem Ident.text_toList_of_ofList? {cs : List Char} {i : Ident} (h : Ident.ofList? cs = some i) :
    i.text.toList = cs := by
  unfold Ident.ofList? at h
  split at h
  · cases h; simp
  · cases h

theorem Ident.colon_not_mem (i : Ident) : ':' ∉ i.text.toList :=
  Text.colon_not_mem i.isIdentText_toList

theorem Ident.toList_ne_nil (i : Ident) : i.text.toList ≠ [] :=
  ne_nil_of_isIdentText i.isIdentText_toList

inductive Delimiter
  | paren
  | bracket
  | brace
deriving DecidableEq, Repr

/-- What a literal denotes. -/
inductive LiteralKind
  | string
  | rawString
  | byteString
  | cString
  | byte
  | character
  | integer
  | float
  | placeholder
deriving DecidableEq, Repr

/-- One token. A punctuation character is joint when it is to be read together with the next
one. A lifetime is a joint apostrophe before an identifier. -/
inductive Token
  | ident (name : Ident)
  | punct (char : Char) (joint : Bool)
  | literal (kind : LiteralKind) (text : String)
  | opening (delimiter : Delimiter)
  | closing (delimiter : Delimiter)
deriving DecidableEq

/-- A place in a source text; lines and columns count from one, columns in characters. -/
structure Position where
  line : Nat
  column : Nat
deriving DecidableEq, Repr

/-- The place behind the character `c` that stands at `p`. -/
def Position.next (p : Position) (c : Char) : Position :=
  if c = '\n' then ⟨p.line + 1, 1⟩ else ⟨p.line, p.column + 1⟩

/-- The place behind a run of characters. -/
def Position.advance (p : Position) (cs : List Char) : Position :=
  cs.foldl Position.next p

/-- A token and the place where it starts. -/
structure Placed where
  token : Token
  position : Position
deriving DecidableEq

end InterfaceRecord.Source
