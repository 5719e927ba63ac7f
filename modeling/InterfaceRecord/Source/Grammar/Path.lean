/-
  Paths with their arguments.
-/
import InterfaceRecord.Source.Grammar.Attribute

namespace InterfaceRecord.Source.Grammar

/-- A path: the names of its segments, and which of them have arguments. -/
structure PathSyntax where
  tokens : Tokens
  absolute : Bool
  segments : List Ident
  /-- No segment has arguments. -/
  bare : Bool
  /-- The last segment has none. -/
  lastBare : Bool
  /-- The path starts from a type. -/
  qualified : Bool

/-- A constant as an argument: a literal, a name or a block. -/
def constArgument (n : Nested) : Parser Tokens :=
  choose [
    (Look.literal, literal),
    (Look.name, identTokens name),
    (Look.opens .brace, block n)]

/-- The bounds behind the name of an associated type. -/
def constraintBounds (n : Nested) : Parser Tokens := do
  let bounds ← separated (Look.op "," ||| Look.op ">") (Look.not (Look.op "+"))
    (do pure (← n.bound).tokens) (op "+")
  pure (joinTokens bounds)

/-- One argument between angle brackets, and whether it is a lifetime. -/
def angleArgument (n : Nested) : Parser (Bool × Tokens) :=
  choose [
    (Look.butNot Look.lifetime (Look.second (Look.op "+")), do pure (true, ← lifetime)),
    (Look.literal ||| Look.opens .brace, do pure (false, ← constArgument n)),
    (Look.not Look.none, do
      let t ← n.type true
      if t.form = .segment then
        let more ← choose [
          (Look.op "=", seq [op "=",
            ifLook (Look.literal ||| Look.opens .brace) (constArgument n) (n.typeTokens true)]),
          (Look.op ":", seq [op ":", constraintBounds n]),
          (Look.not Look.none, pure [])]
        pure (false, t.tokens ++ more)
      else pure (false, t.tokens))]

/-- The arguments in their regular order, lifetimes first; a comma is added where the order puts
one argument behind another that had none. -/
def arrangeArguments (args : List ((Bool × Tokens) × Tokens)) : Tokens :=
  let (lifetimes, others) := args.partition (·.1.1)
  let (front, open_) := lifetimes.foldl
    (fun (ts, _) ((_, t), s) => (ts ++ t ++ s, s.isEmpty)) (([] : Tokens), false)
  (others.foldl
    (fun (ts, o) ((_, t), s) =>
      (ts ++ (if o then opTokens [','] else []) ++ t ++ s, s.isEmpty)) (front, open_)).1

def angleArguments (n : Nested) : Parser Tokens := do
  let lt ← op "<"
  let args ← separated (Look.op ">") (Look.op ">") (angleArgument n) (op ",")
  let gt ← op ">"
  pure (lt ++ arrangeArguments args ++ gt)

/-- One segment of a path: its name, its tokens, and whether it has arguments. Inside an
expression, arguments need a double colon in front. -/
def pathSegment (n : Nested) (inExpr : Bool) : Parser (Ident × Tokens × Bool) :=
  ifLook (Look.words ["super", "self", "crate", "try"])
    (do
      let i ← anyWord
      pure (i, [.ident i], false))
    (do
      let (i, _) ← identAt (Look.name ||| Look.word "Self")
      let angle : Look := fun ts =>
        (!inExpr && Look.butNot (Look.op "<") (Look.op "<=") ts) ||
          (Look.op "::" &&& Look.third (Look.op "<")) ts
      let hasArguments ← test angle
      let args ← perhaps angle (seq [optOp "::", angleArguments n])
      pure (i, .ident i :: args, hasArguments))

def ofSegments (absolute qualified : Bool) (front : Tokens)
    (segments : List (Ident × Tokens × Bool)) : PathSyntax where
  tokens := front ++
    ((segments.map (·.2.1)).intersperse (opTokens "::".toList)).flatten
  absolute := absolute
  segments := segments.map (·.1)
  bare := segments.all (!·.2.2)
  lastBare := segments.getLast?.any (!·.2.2)
  qualified := qualified

/-- Segments with double colons between them, as long as `more` holds. -/
def pathSegments (n : Nested) (inExpr : Bool) (more : Look) :
    Parser (List (Ident × Tokens × Bool)) := do
  let first ← pathSegment n inExpr
  let rest ← whileLook more do
    let _ ← op "::"
    pathSegment n inExpr
  pure (first :: rest)

/-- A path that does not start from a type. -/
def simplePath (n : Nested) (inExpr : Bool) : Parser PathSyntax := do
  let absolute ← test (Look.op "::")
  let lead ← optOp "::"
  let segments ← pathSegments n inExpr
    (Look.butNot (Look.op "::") (Look.third (Look.opens .paren)))
  pure (ofSegments absolute false lead segments)

/-- A path that may start from a type in angle brackets. -/
def anyPath (n : Nested) (inExpr : Bool) : Parser PathSyntax :=
  ifLook (Look.op "<")
    (do
      let front ← seq [op "<", n.typeTokens true,
        perhaps (Look.word "as") (seq [word "as", do pure (← simplePath n false).tokens]),
        op ">", op "::"]
      pure (ofSegments true true front (← pathSegments n inExpr (Look.op "::"))))
    (simplePath n inExpr)

/-- A macro call behind its path: the sign and the group. -/
def macroCall : Parser (Delimiter × Tokens) := do
  let bang ← op "!"
  let g ← anyGroup
  pure (g.1, bang ++ groupTokens g)

/-- A macro call may follow the path. -/
def callsMacro : Look := Look.butNot (Look.op "!") (Look.op "!=")

end InterfaceRecord.Source.Grammar
