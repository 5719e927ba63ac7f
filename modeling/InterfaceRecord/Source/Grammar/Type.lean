/-
  Types and the bounds on them.
-/
import InterfaceRecord.Source.Grammar.Path

namespace InterfaceRecord.Source.Grammar

/-- The type behind an arrow, if there is an arrow. -/
def arrowType (n : Nested) (plus : Bool) : Parser Tokens :=
  perhaps (Look.op "->") (seq [op "->", n.typeTokens plus])

/-- The lifetimes that a `for` binds. -/
def boundLifetimes (n : Nested) : Parser Tokens := do
  let front ← seq [word "for", op "<"]
  let params ← separated (Look.op ">") (Look.op ">")
    (seq [outerTokens n, lifetime]) (op ",")
  let gt ← op ">"
  pure (front ++ joinTokens params ++ gt)

def optBoundLifetimes (n : Nested) : Parser Tokens :=
  perhaps (Look.word "for") (boundLifetimes n)

/-- The list of parameters that a type captures. -/
def capturedParams : Parser Tokens := do
  let front ← seq [word "use", op "<"]
  let params ← separated (Look.op ">") (Look.op ">")
    (ifLook Look.lifetime lifetime (identTokens do
      pure (← identAt (Look.name ||| Look.word "Self")).1))
    (op ",")
  let gt ← op ">"
  pure (front ++ joinTokens params ++ gt)

/-- The arguments of a function trait. -/
def functionTraitArguments (n : Nested) : Parser Tokens :=
  seq [grouped .paren (commaTokens (n.typeTokens true)), arrowType n false]

/-- A trait as a bound, and whether it is marked constant; the mark needs `markable`. -/
def traitBound (n : Nested) (markable : Bool) : Parser (PathSyntax × Tokens × Bool) := do
  let binder ← optBoundLifetimes n
  let marked ← test (Look.opens .bracket ||| Look.word "const")
  let mark ← choose [
    (Look.opens .bracket, grouped .bracket (word "const")),
    (Look.word "const", word "const"),
    (Look.not Look.none, pure [])]
  let relaxed ← test (Look.op "?")
  let sign ← optOp "?"
  let late ← if binder.isEmpty && relaxed then optBoundLifetimes n else pure []
  let path ← simplePath n false
  let functionLike : Look := fun ts =>
    path.lastBare && (Look.opens .paren ||| (Look.op "::" &&& Look.third (Look.opens .paren))) ts
  let args ← perhaps functionLike do
    let _ ← optOp "::"
    functionTraitArguments n
  if marked && !markable then failure
  else pure (path, binder ++ mark ++ sign ++ late ++ path.tokens ++ args, marked)

/-- One bound. Where `capturing` it may list captured parameters, and where `markable` a trait may
be marked constant. -/
def bound (n : Nested) (capturing markable : Bool) : Parser BoundSyntax :=
  choose [
    (Look.lifetime, do pure ⟨← lifetime, .other, false⟩),
    (Look.word "use", do
      let ts ← capturedParams
      if capturing then pure ⟨ts, .other, false⟩ else failure),
    (Look.opens .paren, do
      let (path, ts, marked) ← group .paren (traitBound n markable)
      pure (result path ([.opening .paren] ++ ts ++ [.closing .paren]) marked)),
    (Look.not Look.none, do
      let (path, ts, marked) ← traitBound n markable
      pure (result path ts marked))]
where
  result (path : PathSyntax) (ts : Tokens) (marked : Bool) : BoundSyntax :=
    ⟨ts, if marked then .other else .trait path.segments, true⟩

/-- Where bounds stop: `stop` holds, or no plus sign follows. -/
def boundsUntil (n : Nested) (stop : Look) : Parser (List Bound × Tokens) := do
  let found ← separated stop (Look.not (Look.op "+")) (bound n false true) (op "+")
  pure (found.map (·.1.bound), found.flatMap fun (b, s) => b.tokens ++ s)

/-- Bounds with plus signs between them up to `stop`, where nothing else may stand. -/
def boundsUpTo (n : Nested) (stop : Look) : Parser (List Bound × Tokens) := do
  let found ← separated stop stop (bound n false true) (op "+")
  pure (found.map (·.1.bound), found.flatMap fun (b, s) => b.tokens ++ s)

/-- What a further bound of a sum starts with. -/
def startsBound : Look :=
  Look.anyWord ||| Look.op "::" ||| Look.op "?" ||| Look.lifetime ||| Look.opens .paren

def constMark : Look := Look.opens .bracket ||| Look.word "const"

/-- The bounds behind the plus signs of a sum; behind the last sign no bound has to follow. -/
def furtherBounds (capturing markable : Bool) (n : Nested) :
    Parser (List BoundSyntax × Tokens) := do
  let next : Look := fun ts => startsBound ts || (markable && constMark ts)
  let found ← whileLook (Look.op "+" &&& Look.second next) do
    let plus ← op "+"
    let b ← bound n capturing markable
    pure (b, plus ++ b.tokens)
  let last ← optOp "+"
  pure (found.map (·.1), found.flatMap (·.2) ++ last)

/-- A sum of bounds that has a trait among them; with `false` one bound only. -/
def boundSum (n : Nested) (plus capturing markable : Bool) :
    Parser (List BoundSyntax × Tokens) := do
  let first ← bound n capturing markable
  let (rest, ts) ← if plus then furtherBounds capturing markable n else pure ([], [])
  if (first :: rest).any (·.isTrait) then pure (first :: rest, first.tokens ++ ts) else failure

/-- A trait object without a keyword. -/
def bareObject (n : Nested) (plus : Bool) : Parser TypeSyntax := do
  let (bounds, ts) ← boundSum n plus false false
  let single := bounds.length == 1 && ts.getLast? != some (.punct '+' false)
  pure ⟨ts, if single then .soleBound else .other⟩

/-- The parameter at the front of a function type may be a receiver. -/
def functionTypeArgument (n : Nested) (first : Bool) : Parser Tokens := fun ts =>
  let attributes := outerTokens n
  let mutSelf := Look.word "mut" &&& Look.second (Look.word "self")
  let named : Look := fun ts =>
    ((Look.name ||| Look.word "_") ts || (first && Look.word "self" ts)) &&
      (Look.second (Look.op ":") ts && !Look.second (Look.op "::") ts)
  let receiver : Parser Tokens := verbatim do
    let _ ← word "mut"
    ifLook named
      (seq [identTokens anyWord, op ":", n.typeTokens true])
      (word "self")
  seq [attributes,
    ifLook (fun ts => first && mutSelf ts) receiver
      (seq [perhaps named (seq [identTokens anyWord, op ":"]), n.typeTokens true])] ts

/-- The open end of a function type's parameters. -/
def openEnd : Look :=
  Look.op "..." |||
    ((Look.name ||| Look.word "_") &&& Look.second (Look.op ":") &&& Look.third (Look.op "..."))

/-- The parameters of a function type behind their number so far. -/
def functionTypeArguments (n : Nested) : Parser Tokens := fun ts =>
  go (ts.length + 1) true ts
where
  go : Nat → Bool → Parser Tokens
    | 0, _ => failure
    | fuel + 1, first => ifLook Look.done (pure []) do
      let attributes ← outerTokens n
      ifLook openEnd
        (do
          let rest ← seq [perhaps (Look.name ||| Look.word "_") (seq [identTokens anyWord, op ":"]),
            op "...", optOp ","]
          pure (attributes ++ rest))
        (do
          let arg ← functionTypeArgument n first
          ifLook Look.done (pure (attributes ++ arg)) do
            let comma ← op ","
            let rest ← go fuel false
            pure (attributes ++ arg ++ comma ++ rest))

/-- The calling convention of a function, if one is named. -/
def optAbi : Parser Tokens :=
  perhaps (Look.word "extern") (seq [word "extern", perhaps Look.string literal])

def functionType (n : Nested) : Parser Tokens :=
  seq [optWord "unsafe", optAbi, word "fn", grouped .paren (functionTypeArguments n),
    arrowType n false]

/-- What stands between the parentheses at the front of a type. -/
inductive ParenContent
  /-- A relaxed bound, with which a sum begins. -/
  | relaxedBound
  /-- A type with which a sum may begin. -/
  | bound
  | other
deriving DecidableEq

def parenContent (n : Nested) : Parser (ParenContent × Tokens) :=
  choose [
    (Look.done, pure (.other, [])),
    (Look.lifetime, do pure (.other, (← bareObject n true).tokens)),
    (Look.op "?", do pure (.relaxedBound, (← traitBound n false).2.1)),
    (Look.not Look.none, do
      let first ← n.type true
      ifLook (Look.op ",")
        (do pure (.other, first.tokens ++ (← seq [op ",", commaTokens (n.typeTokens true)])))
        (pure (if first.form = .other then .other else .bound, first.tokens)))]

/-- Plus signs, each with a bound behind it. -/
def strictBounds (n : Nested) : Parser Tokens := do
  let found ← whileLook (Look.op "+") (seq [op "+", do pure (← bound n false false).tokens])
  pure found.flatten

/-- A type in parentheses, a tuple, or a sum of bounds whose first one is in parentheses. -/
def parenType (n : Nested) (plus : Bool) : Parser TypeSyntax := do
  let (kind, ts) ← group .paren (parenContent n)
  let inside := [.opening .paren] ++ ts ++ [.closing .paren]
  match kind with
  | .relaxedBound =>
    let rest ← strictBounds n
    pure ⟨inside ++ rest, if rest.isEmpty then .soleBound else .other⟩
  | .bound =>
    let rest ← if plus then strictBounds n else pure []
    pure ⟨inside ++ rest, .other⟩
  | .other => pure ⟨inside, .other⟩

/-- A path as a type: a macro call, the first bound of a sum, or just the path. -/
def pathType (n : Nested) (plus : Bool) (binder : Tokens) : Parser TypeSyntax := do
  let path ← anyPath n false
  let form : TypeForm :=
    if path.qualified then .other
    else if !path.absolute && path.segments.length == 1 then .segment
    else .path
  if path.qualified then pure ⟨path.tokens, .other⟩
  else
    ifLook (fun ts => callsMacro ts && path.bare)
      (do
        let (_, call) ← macroCall
        pure ⟨path.tokens ++ call, .other⟩)
      (ifLook (fun ts => !binder.isEmpty || (plus && Look.op "+" ts))
        (do
          let (rest, ts) ← if plus then furtherBounds false false n else pure ([], [])
          let sole := rest.isEmpty && ts.isEmpty
          pure ⟨binder ++ path.tokens ++ ts, if sole then .soleBound else .other⟩)
        (pure ⟨path.tokens, form⟩))

/-- A type; with `plus` also a sum of bounds. -/
def type (n : Nested) (plus : Bool) : Parser TypeSyntax := do
  let other (p : Parser Tokens) : Parser TypeSyntax := do pure ⟨← p, .other⟩
  let binder ← optBoundLifetimes n
  if !binder.isEmpty then
    require (Look.name ||| Look.words
      ["fn", "unsafe", "extern", "super", "self", "Self", "crate"])
  choose [
    (Look.opens .paren, parenType n plus),
    (Look.words ["fn", "unsafe", "extern"], other do pure (binder ++ (← functionType n))),
    (Look.name ||| pathWords ||| Look.op "::" ||| Look.op "<", pathType n plus binder),
    (Look.word "dyn" &&& Look.second (Look.op "*"), other (verbatim do
      let _ ← word "dyn"
      let _ ← op "*"
      boundSum n plus false false)),
    (Look.word "dyn", other (seq [word "dyn", do pure (← boundSum n plus false false).2])),
    (Look.opens .bracket, other (grouped .bracket (seq [n.typeTokens true,
      perhaps (Look.not Look.done) (seq [op ";", n.exprTokens true])]))),
    (Look.op "*", other (seq [op "*", word "const" <|> word "mut", n.typeTokens false])),
    (Look.op "&", other (seq [op "&", perhaps Look.lifetime lifetime, optWord "mut",
      n.typeTokens false])),
    (Look.op "!", other (op "!")),
    (Look.word "impl", other (seq [word "impl", do pure (← boundSum n plus true true).2])),
    (Look.word "_", other (word "_")),
    (Look.lifetime, bareObject n plus)]

end InterfaceRecord.Source.Grammar
