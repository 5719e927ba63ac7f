/-
  Attributes, and the plain paths that name attributes and macros.
-/
import InterfaceRecord.Source.Grammar.Nested

namespace InterfaceRecord.Source.Grammar

/-- The keywords that may stand in a path. -/
def pathWords : Look := Look.words ["super", "self", "Self", "crate"]

/-- A path without arguments. -/
structure PlainPath where
  absolute : Bool
  segments : List Ident
  tokens : Tokens

def pathSegmentTokens (segments : List Ident) : Tokens :=
  ((segments.map fun i => [Token.ident i]).intersperse (opTokens "::".toList)).flatten

def plainPath : Parser PlainPath := do
  let absolute ← test (Look.op "::")
  let lead ← optOp "::"
  let first ← identAt (Look.name ||| pathWords)
  let rest ← whileLook (Look.op "::") do
    let _ ← op "::"
    identAt (Look.name ||| pathWords)
  let segments := first.1 :: rest.map (·.1)
  pure ⟨absolute, segments, lead ++ pathSegmentTokens segments⟩

/-- The path of an attribute, which may also be the keyword `unsafe` alone. -/
def attributePath : Parser PlainPath :=
  ifLook (Look.word "unsafe")
    (do
      let i ← anyWord
      pure ⟨false, [i], [.ident i]⟩)
    plainPath

def anyOpening : Look :=
  Look.opens .paren ||| Look.opens .bracket ||| Look.opens .brace

/-- A literal that fills the rest of the group. -/
def wholeLiteral : Parser Tokens := do
  let t ← literal
  require Look.done
  pure t

/-- What stands between the brackets of an attribute. -/
def attributeContent (n : Nested) : Parser (Attribute × Tokens) := do
  let path ← attributePath
  let withArgs (args : AttributeArgs) : Attribute := ⟨path.absolute, path.segments, args⟩
  choose [
    (anyOpening, do
      let g ← anyGroup
      pure (withArgs (.list g.2), path.tokens ++ groupTokens g)),
    (Look.op "=", do
      let eq ← op "="
      let value ← wholeLiteral <|> (do
        require (Look.not (Look.op "#" &&& Look.second (Look.opens .bracket)))
        n.exprTokens true)
      pure (withArgs .value, path.tokens ++ eq ++ value)),
    (Look.not Look.none, pure (withArgs .absent, path.tokens))]

def bracketed (p : Parser (Attribute × Tokens)) : Parser (Attribute × Tokens) := do
  let (a, ts) ← group .bracket p
  pure (a, [.opening .bracket] ++ ts ++ [.closing .bracket])

/-- Attributes of what follows, with their tokens. -/
def outerAttributes (n : Nested) : Parser (List Attribute × Tokens) := do
  let found ← whileLook (Look.op "#") do
    let sign ← op "#"
    let (a, ts) ← bracketed (attributeContent n)
    pure (a, sign ++ ts)
  pure (found.map (·.1), found.flatMap (·.2))

/-- Attributes of what they stand in, with their tokens. -/
def innerAttributes (n : Nested) : Parser (List Attribute × Tokens) := do
  let found ← whileLook (Look.op "#" &&& Look.second (Look.op "!")) do
    let sign ← op "#"
    let bang ← op "!"
    let (a, ts) ← bracketed (attributeContent n)
    pure (a, sign ++ bang ++ ts)
  pure (found.map (·.1), found.flatMap (·.2))

def outerTokens (n : Nested) : Parser Tokens := do
  pure (← outerAttributes n).2

/-- A block: its attributes and its statements in braces. -/
def block (n : Nested) : Parser Tokens :=
  grouped .brace (seq [(do pure (← innerAttributes n).2), n.statements])

/-- A block whose statements may not be preceded by attributes of the block. -/
def plainBlock (n : Nested) : Parser Tokens :=
  grouped .brace n.statements

end InterfaceRecord.Source.Grammar
