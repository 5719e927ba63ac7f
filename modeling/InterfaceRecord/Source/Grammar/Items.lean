/-
  Items: the traits and inline modules with what they hold, all others by their form alone.
-/
import InterfaceRecord.Source.Grammar.Expr

namespace InterfaceRecord.Source.Grammar

/-- A visibility, and whether one is written. What stands in parentheses behind `pub` belongs to
it only if it is a place in the module tree. -/
def visibility : Parser Bool :=
  ifLook (Look.word "pub")
    (do
      let _ ← word "pub"
      ifLook (Look.opens .paren) (restricted <|> pure true) (pure true))
    (pure false)
where
  restricted : Parser Bool := fun ts =>
    let place := Look.words ["crate", "self", "super"]
    match ts with
    | _ :: inside =>
      if place inside then group .paren (do let _ ← anyWord; pure true) ts
      else if Look.word "in" inside then
        group .paren (do let _ ← word "in"; let _ ← plainPath; pure true) ts
      else none
    | [] => none

/-- The argument list of a function: the receiver, and the types of the other arguments. -/
structure ArgumentList where
  receiver : Option Tokens
  arguments : List Tokens

/-- An argument through which the function is called. -/
def receiver (n : Nested) : Parser Tokens := do
  let reference ← perhaps (Look.op "&") (seq [op "&", perhaps Look.lifetime lifetime])
  let rest ← seq [optWord "mut", word "self"]
  let annotation ← if reference.isEmpty then
    perhaps (Look.op ":") (seq [op ":", n.typeTokens true]) else pure []
  pure (reference ++ rest ++ annotation)

/-- The open end of an argument list, behind which nothing but a comma stands. -/
def variadicEnd : Parser Unit := do
  let _ ← op "..."
  let _ ← perhaps (Look.not Look.done) (op ",")
  require Look.done

/-- One argument. -/
inductive ArgumentSyntax
  | receiver (tokens : Tokens)
  | typed (type : Tokens)
  | variadic

def argument (n : Nested) : Parser ArgumentSyntax := do
  let _ ← outerAttributes n
  ifLook (Look.op "...") (do variadicEnd; pure .variadic)
    ((do pure (.receiver (← receiver n))) <|>
      ifLook (Look.name &&& Look.second (Look.op "<"))
        (do pure (.typed (← n.typeTokens true)))
        (do
          let _ ← n.pattern
          let _ ← op ":"
          ifLook (Look.op "...") (do variadicEnd; pure .variadic)
            (do pure (.typed (← n.typeTokens true)))))

/-- The arguments up to the end of the group. Only the first one may be a receiver. -/
def argumentList (n : Nested) : Parser ArgumentList := fun ts =>
  go (ts.length + 1) true ts
where
  go : Nat → Bool → Parser ArgumentList
    | 0, _ => failure
    | fuel + 1, first => ifLook Look.done (pure ⟨none, []⟩) do
      let a ← argument n
      let rest : Parser ArgumentList := ifLook Look.done (pure ⟨none, []⟩) do
        let _ ← op ","
        go fuel false
      match a with
      | .variadic => pure ⟨none, []⟩
      | .receiver r =>
        if first then do
          let l ← rest
          pure ⟨some r, l.arguments⟩
        else failure
      | .typed t => do
        let l ← rest
        pure ⟨l.receiver, t :: l.arguments⟩

/-- Whether a function's keyword comes, perhaps behind its qualifiers. -/
def startsFunction (safe : Bool) : Look := fun ts =>
  let qualifiers : Parser Tokens := seq [optWord "const", optWord "async",
    ifLook (fun ts => safe && Look.word "safe" ts) (word "safe") (optWord "unsafe"), optAbi]
  match qualifiers ts with
  | some (_, rest) => Look.word "fn" rest
  | none => false

/-- The head of a function, without its attributes and its body. -/
def signature (n : Nested) (safe : Bool) : Parser FnItem := do
  let qualifiers ← seq [optWord "const", optWord "async",
    ifLook (fun ts => safe && Look.word "safe" ts) (word "safe") (optWord "unsafe"), optAbi,
    word "fn"]
  let (name, position) ← nameAt
  let (params, _) ← generics n
  let args ← group .paren (argumentList n)
  let output ← arrowType n true
  let predicates ← whereClause n
  pure {
    attributes := []
    qualifiers := qualifiers.dropLast
    name := name
    position := position
    generics := params
    predicates := predicates
    receiver := args.receiver
    arguments := args.arguments
    output := if output.isEmpty then none else some (output.drop 2)
    hasBody := false }

/-- The attributes inside a body; the statements are read and left out. -/
def bodyAttributes (n : Nested) : Parser (List Attribute) :=
  group .brace do
    let (attributes, _) ← innerAttributes n
    let _ ← n.statements
    pure attributes

def other {α : Type} (p : Parser α) : Parser Item := do
  let _ ← p
  pure .other

def semicolon : Parser Tokens := op ";"

/-- Where the bounds of an associated type end. -/
def definitionEnd : Look := Look.word "where" ||| Look.op "=" ||| Look.op ";"

/-- A type item; the two flags say whether its clause of bounds may stand before and behind what
it is defined to be. -/
def typeItem (n : Nested) (clauseBefore clauseBehind : Bool) : Parser Unit := do
  let _ ← word "type"
  let _ ← name
  let _ ← generics n
  let _ ← perhaps (Look.op ":") (seq [op ":", do pure (← boundsUpTo n definitionEnd).2])
  let before ← if clauseBefore then test (Look.word "where") else pure false
  let _ ← if clauseBefore then whereClause n else pure []
  let _ ← perhaps (Look.op "=") (seq [op "=", n.typeTokens true])
  let _ ← if clauseBehind && !before then whereClause n else pure []
  let _ ← semicolon

/-- A constant behind its visibility: its name, its type, and whether it is plain, that is
without parameters and clauses. -/
def constItem (n : Nested) : Parser (Ident × Tokens × Bool) := do
  let _ ← word "const"
  let (i, _) ← identAt (Look.name ||| Look.word "_")
  let angle ← test (Look.op "<")
  let _ ← generics n
  let _ ← op ":"
  let ty ← n.typeTokens true
  let _ ← perhaps (Look.op "=") (seq [op "=", n.exprTokens true])
  let clause ← test (Look.word "where")
  let _ ← whereClause n
  let _ ← semicolon
  pure (i, ty, !angle && !clause)

/-- A macro call as an item or a member; only a brace ends it without a semicolon. -/
def macroItem (named : Bool) : Parser Unit := do
  let _ ← plainPath
  let _ ← op "!"
  let _ ← if named then
    perhaps (Look.name ||| Look.word "try") (identTokens anyWord) else pure []
  let (d, _) ← anyGroup
  let _ ← if d = .brace then pure [] else semicolon

/-- Where a path starts that may name a macro. -/
def startsPath : Look :=
  Look.name ||| Look.words ["self", "super", "crate"] ||| Look.op "::"

/-- A constant in a trait; one with parameters or a clause of its own is not counted. -/
def traitConst (n : Nested) : Parser Member := do
  let (i, ty, plain) ← constItem n
  pure (if plain then .const i ty else .other)

def traitFunction (n : Nested) (attributes : List Attribute) : Parser Member := do
  let f ← signature n false
  ifLook (Look.opens .brace)
    (do
      let inside ← bodyAttributes n
      pure (.function { f with attributes := attributes ++ inside, hasBody := true }))
    (do
      let _ ← semicolon
      pure (.function { f with attributes := attributes }))

/-- A member of a trait. -/
def traitMember (n : Nested) : Parser Member := do
  let (attributes, _) ← outerAttributes n
  let visible ← visibility
  let mark ← optWord "default"
  let plain := !visible && mark.isEmpty
  let found ← choose [
    (startsFunction false, traitFunction n attributes),
    (Look.word "const", traitConst n),
    (Look.word "type", do
      typeItem n false true
      pure .other),
    (fun ts => plain && startsPath ts, do
      macroItem false
      pure .other)]
  pure (if plain then found else .other)

/-- A trait behind its name and parameters. -/
def traitRest (n : Nested) (name : Ident) (position : Position) (params : List GenericParam) :
    Parser Item := do
  let supertraits ← ifLook (Look.op ":")
    (do
      let _ ← op ":"
      boundsUpTo n (Look.word "where" ||| Look.opens .brace))
    (pure ([], []))
  let predicates ← whereClause n
  let members ← group .brace do
    let _ ← innerAttributes n
    untilDone (traitMember n)
  pure (.interface ⟨name, position, params, supertraits.1, predicates, members⟩)

/-- A trait, or a name for a sum of traits. -/
def traitItem (n : Nested) (aliasAllowed : Bool) : Parser Item := do
  let _ ← word "trait"
  let (name, position) ← nameAt
  let (params, _) ← generics n
  choose [
    (fun ts => aliasAllowed && Look.op "=" ts, do
      let _ ← op "="
      let _ ← boundsUpTo n (Look.word "where" ||| Look.op ";")
      let _ ← whereClause n
      let _ ← semicolon
      pure .other),
    (fun ts => !aliasAllowed || (Look.opens .brace ||| Look.op ":" ||| Look.word "where") ts,
      traitRest n name position params)]

/-- A module behind its visibility. -/
def moduleItem (n : Nested) : Parser Item := do
  let _ ← optWord "unsafe"
  let _ ← word "mod"
  let (name, _) ← identAt (Look.name ||| Look.word "try")
  choose [
    (Look.op ";", do
      let _ ← semicolon
      pure (.fileModule name)),
    (Look.opens .brace, do
      let items ← group .brace do
        let _ ← innerAttributes n
        untilDone do
          let _ ← outerAttributes n
          n.item
      pure (.inlineModule name items))]

/-- The branches of an import. -/
def useTree : Nat → Bool → Parser Unit
  | 0, _ => failure
  | fuel + 1, rooted => choose [
    (Look.name ||| Look.words ["self", "super", "crate", "try"], do
      let _ ← anyWord
      choose [
        (Look.op "::", do
          let _ ← op "::"
          useTree fuel false),
        (Look.word "as", do
          let _ ← word "as"
          let _ ← identAt (Look.name ||| Look.word "_")),
        (Look.not Look.none, pure ())]),
    (Look.op "*", do let _ ← op "*"),
    (Look.opens .brace, group .brace do
      let _ ← commaList do
        let lead ← if rooted then optOp "::" else pure []
        useTree fuel (rooted && lead.isEmpty))]

def useItem : Parser Unit := fun ts =>
  (do
    let _ ← word "use"
    let lead ← optOp "::"
    useTree (ts.length + 1) lead.isEmpty
    let _ ← semicolon : Parser Unit) ts

def staticItem (n : Nested) : Parser Unit := do
  let _ ← seq [word "static", optWord "mut", identTokens name]
  ifLook (Look.op "=")
    (do let _ ← seq [op "=", n.exprTokens true, semicolon])
    (do let _ ← seq [op ":", n.typeTokens true,
          perhaps (Look.not (Look.op ";")) (seq [op "=", n.exprTokens true]), semicolon])

/-- The named fields of a record. -/
def namedFieldsWithin (n : Nested) : Nat → Parser Unit
  | 0 => failure
  | fuel + 1 => do
    let _ ← group .brace (commaList do
      let _ ← outerAttributes n
      let _ ← visibility
      let unnamed ← test (Look.word "_")
      let _ ← identAt (Look.name ||| Look.word "_")
      let _ ← op ":"
      let nestedRecord : Look := fun ts => unnamed && (Look.word "struct" |||
        (Look.word "union" &&& Look.second (Look.opens .brace))) ts
      ifLook nestedRecord
        (do
          let _ ← anyWord
          namedFieldsWithin n fuel)
        (do let _ ← n.type true))

def namedFields (n : Nested) : Parser Unit := fun ts =>
  namedFieldsWithin n (ts.length + 1) ts

def unnamedFields (n : Nested) : Parser Unit := do
  let _ ← group .paren (commaList do
    let _ ← outerAttributes n
    let _ ← visibility
    n.type true)

def structItem (n : Nested) : Parser Unit := do
  let _ ← seq [word "struct", identTokens name]
  let _ ← generics n
  let clause ← test (Look.word "where")
  let _ ← whereClause n
  choose [
    (fun ts => !clause && Look.opens .paren ts, do
      unnamedFields n
      let _ ← whereClause n
      let _ ← semicolon),
    (Look.opens .brace, namedFields n),
    (Look.op ";", do let _ ← semicolon)]

def enumItem (n : Nested) : Parser Unit := do
  let _ ← seq [word "enum", identTokens name]
  let _ ← generics n
  let _ ← whereClause n
  let _ ← group .brace (commaList do
    let _ ← outerAttributes n
    let _ ← visibility
    let _ ← name
    choose [
      (Look.opens .brace, namedFields n),
      (Look.opens .paren, unnamedFields n),
      (Look.not Look.none, pure ())]
    let _ ← perhaps (Look.op "=") (seq [op "=", n.exprTokens true]))

def unionItem (n : Nested) : Parser Unit := do
  let _ ← seq [word "union", identTokens name]
  let _ ← generics n
  let _ ← whereClause n
  namedFields n

/-- A member of an implementation. -/
def implMember (n : Nested) : Parser Unit := do
  let _ ← outerAttributes n
  let visible ← visibility
  let mark ← perhaps (Look.butNot (Look.word "default") (Look.second (Look.op "!")))
    (word "default")
  choose [
    (startsFunction false, do
      let _ ← signature n false
      ifLook (Look.op ";") (do let _ ← semicolon) (do let _ ← bodyAttributes n)),
    (Look.word "const", do let _ ← constItem n),
    (Look.word "type", typeItem n false true),
    (fun ts => !visible && mark.isEmpty && startsPath ts, macroItem false)]

/-- An implementation behind its visibility. -/
def implItem (n : Nested) : Parser Unit := do
  let _ ← seq [optWord "default", optWord "unsafe", word "impl"]
  let _ ← ifLook opensGenerics (generics n) (pure ([], []))
  let _ ← perhaps (Look.word "const" ||| (Look.op "?" &&& Look.second (Look.word "const")))
    (seq [optOp "?", word "const"])
  let _ ← perhaps (Look.butNot (Look.op "!") (Look.second (Look.opens .brace))) (op "!")
  let _ ← seq [n.typeTokens true, perhaps (Look.word "for") (seq [word "for", n.typeTokens true])]
  let _ ← whereClause n
  group .brace do
    let _ ← innerAttributes n
    let _ ← untilDone (implMember n)

/-- A member of a block of foreign items. -/
def foreignMember (n : Nested) : Parser Unit := do
  let _ ← outerAttributes n
  let visible ← visibility
  let safety := Look.words ["unsafe", "safe"]
  choose [
    (startsFunction true, do
      let _ ← signature n true
      ifLook (Look.opens .brace) (do let _ ← bodyAttributes n) (do let _ ← semicolon)),
    (Look.word "static" ||| (safety &&& Look.second (Look.word "static")), do
      let _ ← perhaps safety (identTokens anyWord)
      let _ ← seq [word "static", optWord "mut", identTokens name, op ":", n.typeTokens true,
        perhaps (Look.op "=") (seq [op "=", n.exprTokens true]), semicolon]),
    (Look.word "type", typeItem n true true),
    (fun ts => !visible && startsPath ts, macroItem false)]

def foreignItem (n : Nested) : Parser Unit := do
  let _ ← optWord "unsafe"
  let _ ← seq [word "extern", perhaps Look.string literal]
  group .brace do
    let _ ← innerAttributes n
    let _ ← untilDone (foreignMember n)

def externCrate : Parser Unit := do
  let _ ← seq [word "extern", word "crate"]
  let _ ← identAt (Look.name ||| Look.word "self")
  let _ ← perhaps (Look.word "as")
    (seq [word "as", identTokens do pure (← identAt (Look.name ||| Look.word "_")).1])
  let _ ← semicolon

/-- A macro defined by the keyword. -/
def macroDefinition : Parser Unit := do
  let _ ← seq [word "macro", identTokens name]
  let _ ← perhaps (Look.opens .paren) (do pure (groupTokens (← anyGroup)))
  require (Look.opens .brace)
  let _ ← anyGroup

/-- An item behind its attributes. -/
def item (n : Nested) : Parser Item := do
  let visible ← visibility
  let unsafeThen (l : Look) : Look := Look.word "unsafe" &&& Look.second l
  let auto : Look := Look.word "auto" &&& Look.second (Look.word "trait")
  choose [
    (startsFunction false, do
      let _ ← signature n false
      ifLook (Look.op ";") (other semicolon) (other (bodyAttributes n))),
    (Look.word "extern" &&& Look.second (Look.word "crate"), other externCrate),
    (fun ts => !visible && Look.word "extern" ts, other (foreignItem n)),
    (Look.word "use", other useItem),
    (Look.word "static", other (staticItem n)),
    (Look.word "const", other (constItem n)),
    (unsafeThen (Look.word "trait"), do
      let _ ← word "unsafe"
      traitItem n false),
    (unsafeThen (Look.word "auto") &&& Look.third (Look.word "trait"), do
      let _ ← seq [word "unsafe", word "auto"]
      traitItem n false),
    (unsafeThen (Look.word "impl"), other (implItem n)),
    (fun ts => !visible && unsafeThen (Look.word "extern") ts, other (foreignItem n)),
    (Look.word "mod" ||| unsafeThen (Look.word "mod"), moduleItem n),
    (Look.word "type", other (typeItem n true false)),
    (Look.word "struct", other (structItem n)),
    (Look.word "enum", other (enumItem n)),
    (Look.word "union" &&& Look.second Look.name, other (unionItem n)),
    (Look.word "trait", traitItem n true),
    (auto, do
      let _ ← word "auto"
      traitItem n false),
    (Look.word "impl" ||| Look.butNot (Look.word "default") (Look.second (Look.op "!")),
      other (implItem n)),
    (Look.word "macro", other macroDefinition),
    (fun ts => !visible && startsPath ts, other (macroItem true))]

end InterfaceRecord.Source.Grammar
