/-
  Generic parameters and the clauses that bound them.
-/
import InterfaceRecord.Source.Grammar.Type

namespace InterfaceRecord.Source.Grammar

/-- The lifetimes with which a lifetime is bounded, up to `stop`. -/
def lifetimeBounds (stop : Look) : Parser Tokens := do
  pure (joinTokens (← separated stop (Look.not (Look.op "+")) lifetime (op "+")))

/-- One generic parameter with its bounds and its default. -/
def genericParam (n : Nested) : Parser (GenericParam × Tokens) := do
  let attributes ← outerTokens n
  let close := Look.op "," ||| Look.op ">"
  choose [
    (Look.lifetime, do
      let i ← lifetimeName
      let rest ← perhaps (Look.op ":") (seq [op ":", lifetimeBounds close])
      pure (.lifetime i, attributes ++ lifetimeTokens i ++ rest)),
    (Look.name, do
      let i ← name
      let rest ← seq [
        perhaps (Look.op ":")
          (seq [op ":", do pure (← boundsUntil n (close ||| Look.op "=")).2]),
        perhaps (Look.op "=") (seq [op "=", n.typeTokens true])]
      pure (.type i, attributes ++ [.ident i] ++ rest)),
    (Look.word "const", do
      let kw ← word "const"
      let i ← name
      let rest ← seq [op ":", n.typeTokens true,
        perhaps (Look.op "=") (seq [op "=", constArgument n])]
      pure (.const i, attributes ++ kw ++ [.ident i] ++ rest)),
    (Look.word "_", do
      let i ← anyWord
      pure (.type i, attributes ++ [.ident i]))]

/-- The parameters between angle brackets, if there are any. -/
def generics (n : Nested) : Parser (List GenericParam × Tokens) :=
  ifLook (Look.op "<")
    (do
      let lt ← op "<"
      let params ← separated (Look.op ">") (Look.op ">") (genericParam n) (op ",")
      let gt ← op ">"
      pure (params.map (·.1.1), lt ++ params.flatMap (fun (p, s) => p.2 ++ s) ++ gt))
    (pure ([], []))

/-- What ends a clause of bounds; a double colon belongs to a path and does not. -/
def clauseEnd : Look :=
  Look.done ||| Look.opens .brace ||| Look.op "," ||| Look.op ";" |||
    Look.butNot (Look.op ":") (Look.op "::") ||| Look.op "="

def predicate (n : Nested) : Parser Predicate :=
  ifLook (Look.lifetime &&& Look.second (Look.op ":"))
    (do
      let _ ← seq [lifetime, op ":",
        lifetimeBounds (Look.done ||| Look.opens .brace ||| Look.op "," ||| Look.op ";" |||
          Look.op ":" ||| Look.op "=")]
      pure .lifetime)
    (do
      let _ ← optBoundLifetimes n
      let subject ← n.typeTokens true
      let _ ← op ":"
      let (bounds, _) ← boundsUntil n clauseEnd
      pure (.type subject bounds))

/-- Whether an angle bracket here opens parameters and not a path that starts from a type. -/
def opensGenerics : Look :=
  Look.op "<" &&&
    (Look.second (Look.op ">") ||| Look.second (Look.op "#") |||
      ((Look.second Look.lifetime ||| Look.second Look.name) &&&
        (Look.third (Look.op ">") ||| Look.third (Look.op ",") |||
          Look.third (Look.butNot (Look.op ":") (Look.op "::")) ||| Look.third (Look.op "="))) |||
      Look.second (Look.word "const"))

/-- The predicates behind `where`, if it is there. No parameters may follow the word. -/
def whereClause (n : Nested) : Parser (List Predicate) :=
  ifLook (Look.word "where")
    (do
      let _ ← word "where"
      require (Look.not opensGenerics)
      let found ← separated clauseEnd (Look.not (Look.op ",")) (predicate n) (op ",")
      pure (found.map (·.1)))
    (pure [])

end InterfaceRecord.Source.Grammar
