/-
  From source text to tokens. Blanks and plain comments separate tokens, a documentation comment
  stands for an attribute, and delimiters have to match.
-/
import InterfaceRecord.Source.Literal
import InterfaceRecord.Text.Blank
import InterfaceRecord.Text.Quoted

namespace InterfaceRecord.Source

open InterfaceRecord.Text

/-- Whether `text` stands at the front of `cs`. -/
def startsWith (cs : List Char) (text : String) : Bool :=
  text.toList.isPrefixOf cs

/-- What a line holds and what follows it; the line end stays in front of the rest, without its
carriage return. -/
def splitLine : List Char → List Char × List Char
  | [] => ([], [])
  | '\n' :: cs => ([], '\n' :: cs)
  | '\r' :: '\n' :: cs => ([], '\n' :: cs)
  | c :: cs => let (line, rest) := splitLine cs; (c :: line, rest)

/-- The text behind the end of a block comment inside which `depth` comments are open. -/
def afterBlock? (depth : Nat) : List Char → Option (List Char)
  | '/' :: '*' :: cs => afterBlock? (depth + 1) cs
  | '*' :: '/' :: cs => if depth ≤ 1 then some cs else afterBlock? (depth - 1) cs
  | _ :: cs => afterBlock? depth cs
  | [] => none

/-- Three slashes or a slash and two stars document; one more slash or star takes that back. -/
def isDocLine (cs : List Char) : Bool :=
  startsWith cs "///" && !startsWith cs "////"

def isDocBlock (cs : List Char) : Bool :=
  startsWith cs "/**" && !startsWith cs "/***"

/-- The text behind the plain comment that stands at the front, if one does and it ends. -/
def afterComment? (cs : List Char) : Option (List Char) :=
  if startsWith cs "//" then
    if isDocLine cs || startsWith cs "//!" then none else some (splitLine cs).2
  else if startsWith cs "/**/" then some (cs.drop 4)
  else if startsWith cs "/*" then
    if isDocBlock cs || startsWith cs "/*!" then none else afterBlock? 0 cs
  else none

/-- Drops blanks and plain comments, at most `fuel` of them. -/
def skipBlanksWithin : Nat → List Char → List Char
  | 0, cs => cs
  | fuel + 1, cs =>
    match afterComment? cs with
    | some rest => skipBlanksWithin fuel rest
    | none =>
      match cs with
      | [] => []
      | c :: rest => if isBlank c then skipBlanksWithin fuel rest else cs

/-- The text from the first token on. -/
def skipBlanks (cs : List Char) : List Char :=
  skipBlanksWithin cs.length cs

/-- The part of `cs` in front of its end `rest`. -/
def between (cs rest : List Char) : List Char :=
  cs.take (cs.length - rest.length)

/-- Every carriage return stands in front of a line feed. -/
def noBareReturn : List Char → Bool
  | [] => true
  | '\r' :: '\n' :: cs => noBareReturn cs
  | '\r' :: _ => false
  | _ :: cs => noBareReturn cs

/-- A documentation comment. -/
structure DocComment where
  /-- It documents the item around it. -/
  inner : Bool
  content : List Char

/-- The documentation comment at the front and the text behind it. -/
def scanDocComment? (cs : List Char) : Option (DocComment × List Char) := do
  let block (inner : Bool) : Option (DocComment × List Char) := do
    let rest ← afterBlock? 0 cs
    let text := between cs rest
    some (⟨inner, (text.take (text.length - 2)).drop 3⟩, rest)
  let line (inner : Bool) : DocComment × List Char :=
    let (content, rest) := splitLine (cs.drop 3)
    (⟨inner, content⟩, rest)
  let found ←
    if startsWith cs "//!" then some (line true)
    else if startsWith cs "/*!" then block true
    else if isDocLine cs then some (line false)
    else if isDocBlock cs then block false
    else none
  if noBareReturn found.1.content then some found else none

def docIdent : Ident := ⟨"doc", by decide⟩

/-- The attribute a documentation comment stands for. -/
def DocComment.tokens (d : DocComment) : List Token :=
  [.punct '#' false] ++ (if d.inner then [.punct '!' false] else []) ++
    [.opening .bracket, .ident docIdent, .punct '=' false,
     .literal .string (String.ofList ('"' :: quoteLiteral d.content ++ ['"'])), .closing .bracket]

def isPunct (c : Char) : Bool :=
  "~!@#$%^&*-=+|;:,<.>/?'".toList.contains c

/-- The punctuation character at the front; the slash of a comment is none. -/
def punct? (cs : List Char) : Option (Char × List Char) :=
  if startsWith cs "//" || startsWith cs "/*" then none
  else
    match cs with
    | [] => none
    | c :: rest => if isPunct c then some (c, rest) else none

/-- The words that cannot be marked raw. -/
def neverRaw (word : List Char) : Bool :=
  ["_", "super", "self", "Self", "crate"].any (·.toList == word)

/-- The word at the front, raw or not, and the text behind it. -/
def scanWord? (cs : List Char) : Option (List Char × List Char) :=
  match cs with
  | 'r' :: '#' :: tail => do
    let rest ← afterWord? tail
    if neverRaw (between tail rest) then none else some (between cs rest, rest)
  | cs => do
    let rest ← afterWord? cs
    some (between cs rest, rest)

/-- Beginnings of raw and prefixed literals, which are no identifiers even where no literal
follows. -/
def startsLiteral (cs : List Char) : Bool :=
  ["r\"", "r#\"", "r##", "b\"", "b'", "br\"", "br#", "c\"", "cr\"", "cr#"].any (startsWith cs)

/-- A punctuation token: an apostrophe marks a lifetime and is joint to its name, any other
character is joint to a punctuation character that follows at once. -/
def scanPunct? (cs : List Char) : Option (Token × List Char) := do
  let (c, rest) ← punct? cs
  if c = '\'' then
    let (_, behind) ← scanWord? rest
    match behind with
    | '\'' :: _ => none
    | '#' :: _ => if startsWith rest "r#" then some (.punct c true, rest) else none
    | _ => some (.punct c true, rest)
  else some (.punct c (punct? rest).isSome, rest)

def scanIdent? (cs : List Char) : Option (Token × List Char) := do
  if startsLiteral cs then none
  else
    let (word, rest) ← scanWord? cs
    some (.ident (← Ident.ofList? word), rest)

/-- What stands where a broken expression was left out. -/
def placeholder : String := "(/*ERROR*/)"

/-- The token at the front that is no delimiter. -/
def scanLeaf? (cs : List Char) : Option (Token × List Char) :=
  match scanLiteral? cs with
  | some (kind, rest) => some (.literal kind (String.ofList (between cs rest)), rest)
  | none =>
    ((scanPunct? cs).or (scanIdent? cs)).or
      (if startsWith cs placeholder then
        some (.literal .placeholder placeholder, cs.drop placeholder.length)
      else none)

def opening? : Char → Option Delimiter
  | '(' => some .paren
  | '[' => some .bracket
  | '{' => some .brace
  | _ => none

def closing? : Char → Option Delimiter
  | ')' => some .paren
  | ']' => some .bracket
  | '}' => some .brace
  | _ => none

/-- One step: the tokens at the front, the delimiters that are open behind them, and the rest. -/
def scanStep? (stack : List Delimiter) (cs : List Char) :
    Option (List Token × List Delimiter × List Char) :=
  match scanDocComment? cs with
  | some (doc, rest) => some (doc.tokens, stack, rest)
  | none =>
    match cs with
    | [] => none
    | c :: rest =>
      if startsWith cs placeholder then (scanLeaf? cs).map fun (t, rest) => ([t], stack, rest)
      else
        match opening? c, closing? c with
        | some d, _ => some ([.opening d], d :: stack, rest)
        | none, some d =>
          match stack with
          | top :: below => if top = d then some ([.closing d], below, rest) else none
          | [] => none
        | none, none => (scanLeaf? cs).map fun (t, rest) => ([t], stack, rest)

/-- The tokens of a text that starts at `p` inside the delimiters of `stack`, in at most `fuel`
steps. -/
def tokenizeWithin? : Nat → Position → List Delimiter → List Char → Option (List Placed)
  | 0, _, _, _ => none
  | fuel + 1, p, stack, cs => do
    let front := skipBlanks cs
    let p := p.advance (between cs front)
    if front.isEmpty then
      if stack.isEmpty then some [] else none
    else
      let (tokens, stack, rest) ← scanStep? stack front
      let later ← tokenizeWithin? fuel (p.advance (between front rest)) stack rest
      some (tokens.map (⟨·, p⟩) ++ later)

/-- The mark that may stand in front of a text and is no part of it. -/
def byteOrderMark : Char := Char.ofNat 0xFEFF

/-- The tokens of a text with their places, or nothing if it is no sequence of tokens. -/
def tokenizePlaced? (cs : List Char) : Option (List Placed) :=
  match cs with
  | c :: rest =>
    if c = byteOrderMark then tokenizeWithin? (cs.length + 1) ⟨1, 2⟩ [] rest
    else tokenizeWithin? (cs.length + 1) ⟨1, 1⟩ [] cs
  | [] => some []

/-- The tokens of a text. -/
def tokenize? (s : String) : Option (List Token) :=
  (tokenizePlaced? s.toList).map (·.map (·.token))

end InterfaceRecord.Source
