/-
  Patterns.
-/
import InterfaceRecord.Source.Grammar.Type

namespace InterfaceRecord.Source.Grammar

/-- A single bar, which separates alternatives. -/
def alternativeBar : Look :=
  Look.butNot (Look.op "|") (Look.op "||" ||| Look.op "|=")

/-- A pattern with its alternatives, perhaps with a bar in front. -/
def alternatives (n : Nested) : Parser PatternSyntax := do
  let lead ← optOp "|"
  let first ← n.pattern
  let rest ← whileLook alternativeBar (seq [op "|", n.patternTokens])
  if lead.isEmpty && rest.isEmpty then pure first
  else pure ⟨lead ++ first.tokens ++ rest.flatten, false⟩

def alternativesTokens (n : Nested) : Parser Tokens := do
  pure (← alternatives n).tokens

/-- A constant block. -/
def constBlock (n : Nested) : Parser Tokens :=
  seq [word "const", block n]

/-- Where the upper bound of a range is missing. -/
def noUpperBound : Look :=
  Look.done ||| Look.op "|" ||| Look.op "=" ||| Look.butNot (Look.op ":") (Look.op "::") |||
    Look.op "," ||| Look.op ";" ||| Look.word "if"

/-- A bound of a range: nothing, a literal, a path or a constant block. -/
def rangeBound (n : Nested) : Parser Tokens :=
  choose [
    (noUpperBound, pure []),
    (Look.literal, literal),
    (Look.name ||| Look.op "::" ||| Look.op "<" ||| pathWords,
      do pure (← anyPath n true).tokens),
    (Look.word "const", constBlock n)]

/-- The sign of a range, old spelling included, and whether it includes its end. -/
def rangeSign : Parser (Tokens × Bool) :=
  choose [
    (Look.op "..=", do pure (← op "..=", true)),
    (Look.op "...", do
      let _ ← op "..."
      pure (opTokens "..=".toList, true)),
    (Look.op "..", do pure (← op "..", false))]

/-- The sign and the upper bound of a range; a range that includes its end has one. -/
def rangeEnd (n : Nested) (lower : Tokens) : Parser PatternSyntax := do
  let (sign, closed) ← rangeSign
  let upper ← rangeBound n
  if closed && upper.isEmpty then failure
  else pure ⟨lower ++ sign ++ upper, upper.isEmpty⟩

def memberTokens : Parser Tokens :=
  ifLook Look.integer literal (identTokens name)

/-- One field of a record pattern. -/
def fieldPattern (n : Nested) : Parser Tokens := do
  let marks ← seq [optWord "box", optWord "ref", optWord "mut"]
  let indexed ← test Look.integer
  let member ← if marks.isEmpty then memberTokens else identTokens name
  ifLook (fun ts => (marks.isEmpty && Look.op ":" ts) || indexed)
    (do
      let rest ← seq [op ":", alternativesTokens n]
      pure (marks ++ member ++ rest))
    (pure (marks ++ member))

/-- The fields of a record pattern, ended by two dots or by the brace. -/
def recordPattern (n : Nested) : Parser Tokens := fun ts =>
  grouped .brace (go (ts.length + 1)) ts
where
  go : Nat → Parser Tokens
    | 0 => failure
    | fuel + 1 => ifLook Look.done (pure []) do
      let attributes ← outerTokens n
      ifLook (Look.op "..") (do pure (attributes ++ (← op ".."))) do
        let field ← fieldPattern n
        ifLook Look.done (pure (attributes ++ field)) do
          let comma ← op ","
          let rest ← go fuel
          pure (attributes ++ field ++ comma ++ rest)

def closedPattern (p : Parser Tokens) : Parser PatternSyntax := do
  pure ⟨← p, false⟩

/-- A pattern that starts with a path. -/
def pathPattern (n : Nested) : Parser PatternSyntax := do
  let path ← anyPath n true
  let andThen (p : Parser Tokens) : Parser PatternSyntax := do
    pure ⟨path.tokens ++ (← p), false⟩
  ifLook (fun ts => callsMacro ts && !path.qualified && path.bare)
    (andThen do pure (← macroCall).2)
    (choose [
      (Look.opens .brace, andThen (recordPattern n)),
      (Look.opens .paren, andThen (grouped .paren (commaTokens (alternativesTokens n)))),
      (Look.op "..", rangeEnd n path.tokens),
      (Look.not Look.none, pure ⟨path.tokens, false⟩)])

/-- A pattern that binds a name. -/
def bindingPattern (n : Nested) : Parser Tokens :=
  seq [optWord "ref", optWord "mut",
    ifLook (Look.word "self") (word "self") (identTokens name),
    perhaps (Look.op "@") (seq [op "@", n.patternTokens])]

/-- The elements of a slice; a range that lacks an end stands in parentheses there. -/
def slicePattern (n : Nested) : Parser Tokens :=
  grouped .bracket (commaTokens do
    let p ← alternatives n
    if p.openRange then failure else pure p.tokens)

/-- A range without a lower bound, or the dots that stand for the rest. -/
def halfOpenPattern (n : Nested) : Parser PatternSyntax := do
  require (Look.not (Look.op "..."))
  let p ← rangeEnd n []
  pure ⟨p.tokens, p.openRange = false⟩

/-- A pattern without alternatives. -/
def pattern (n : Nested) : Parser PatternSyntax :=
  let follows : Look :=
    Look.op "::" ||| Look.op "!" ||| Look.opens .brace ||| Look.opens .paren ||| Look.op ".."
  choose [
    ((Look.name &&& Look.second follows) |||
      (Look.word "self" &&& Look.second (Look.op "::")) ||| Look.op "::" ||| Look.op "<" |||
      Look.words ["Self", "super", "crate"], pathPattern n),
    (Look.word "_", closedPattern (word "_")),
    (Look.word "box", closedPattern (seq [word "box", n.patternTokens])),
    (Look.op "-" ||| Look.literal ||| Look.word "const", do
      let lower ← rangeBound n
      ifLook (Look.op "..") (rangeEnd n lower) (pure ⟨lower, false⟩)),
    (Look.words ["ref", "mut", "self"] ||| Look.name, closedPattern (bindingPattern n)),
    (Look.op "&", closedPattern (seq [op "&", optWord "mut", n.patternTokens])),
    (Look.opens .paren,
      closedPattern (grouped .paren (commaTokens (alternativesTokens n)))),
    (Look.opens .bracket, closedPattern (slicePattern n)),
    (Look.op "..", halfOpenPattern n)]

end InterfaceRecord.Source.Grammar
