/-
  A whole source text: its items, or the one type it consists of.
-/
import InterfaceRecord.Source.Grammar.Items
import InterfaceRecord.Source.Lexer

namespace InterfaceRecord.Source.Grammar

/-- The parsers one level above `n`. -/
def Nested.next (n : Nested) : Nested where
  type := Grammar.type n
  bound := Grammar.bound n false true
  expr := Grammar.expr n
  unary := Grammar.unary n
  climb := Grammar.climb n
  body := Grammar.body n
  pattern := Grammar.pattern n
  statements := Grammar.statements n
  item := Grammar.item n

/-- The parsers of what nests at most `depth` levels deep. -/
def Nested.ofDepth (depth : Nat) : Nested :=
  Nat.repeat Nested.next depth Nested.none

/-- The parsers for that many tokens: every few levels take at least one of them. -/
def Nested.forLength (length : Nat) : Nested :=
  Nested.ofDepth (4 * length + 16)

/-- Everything up to the end of the input. -/
def whole {α : Type} (p : Parser α) (ts : List Placed) : Option α :=
  match p ts with
  | some (a, []) => some a
  | _ => none

/-- The items of a file behind the file's own attributes. -/
def fileItems (n : Nested) : Parser (List Item) := do
  let _ ← innerAttributes n
  untilDone do
    let _ ← outerAttributes n
    n.item

/-- Drops a first line that names an interpreter. A line that goes on with a bracket, blanks and
comments aside, is the beginning of an attribute instead. -/
def dropShebang (cs : List Char) : List Char :=
  if startsWith cs "#!" && (skipBlanks (cs.drop 2)).head? != some '[' then
    cs.dropWhile (· != '\n')
  else cs

def dropByteOrderMark : List Char → List Char
  | [] => []
  | c :: cs => if c = byteOrderMark then cs else c :: cs

/-- The items of a source file. -/
def parseFile? (source : String) : Option (List Item) := do
  let ts ← tokenizePlaced? (dropShebang (dropByteOrderMark source.toList))
  whole (fileItems (Nested.forLength ts.length)) ts

/-- The tokens of a text that is exactly one type. -/
def parseType? (source : String) : Option (List Token) := do
  let ts ← tokenizePlaced? source.toList
  whole ((Nested.forLength ts.length).typeTokens true) ts

end InterfaceRecord.Source.Grammar
