/-
  Expressions and statements.
-/
import InterfaceRecord.Source.Grammar.Generics
import InterfaceRecord.Source.Grammar.Pattern

namespace InterfaceRecord.Source.Grammar

/-- The operators between two operands; of two that start alike the longer one comes first. -/
def binaryOperators : List (String × Precedence) :=
  [("+=", .assign), ("-=", .assign), ("*=", .assign), ("/=", .assign), ("%=", .assign),
   ("^=", .assign), ("&=", .assign), ("|=", .assign), ("<<=", .assign), (">>=", .assign),
   ("&&", .and), ("||", .or), ("<<", .shift), (">>", .shift), ("==", .comparison),
   ("<=", .comparison), ("!=", .comparison), (">=", .comparison), ("+", .sum), ("-", .sum),
   ("*", .product), ("/", .product), ("%", .product), ("^", .bitXor), ("&", .bitAnd),
   ("|", .bitOr), ("<", .comparison), (">", .comparison)]

def binaryOperator? (ts : List Placed) : Option (String × Precedence) :=
  binaryOperators.find? fun o => Look.op o.1 ts

def assigns : Look := Look.butNot (Look.op "=") (Look.op "=>")

/-- How tightly the operator ahead binds. -/
def precedenceAhead (ts : List Placed) : Precedence :=
  match binaryOperator? ts with
  | some (_, p) => p
  | none =>
    if assigns ts then .assign
    else if Look.op ".." ts then .range
    else if Look.word "as" ts then .cast
    else .min

/-- The operand behind an operator, with all that binds tighter. -/
def rightOperand (n : Nested) (records : Bool) (p : Precedence) : Parser ExprSyntax := do
  let first ← n.unary records
  fun ts => go (ts.length + 1) first ts
where
  go : Nat → ExprSyntax → Parser ExprSyntax
    | 0, _ => failure
    | fuel + 1, e => fun ts =>
      let ahead := precedenceAhead ts
      if p.rank < ahead.rank ∨ (ahead = p ∧ p = .assign) then do
        let (e, rest) ← n.climb records ahead e ts
        if rest.length = ts.length then some (e, rest) else go fuel e rest
      else some (e, ts)

/-- Where a range has no upper end. -/
def noRangeEnd (records : Bool) : Look :=
  Look.done ||| Look.op "," ||| Look.op ";" ||| Look.butNot (Look.op ".") (Look.op "..") |||
    Look.ops ["?", "=>"] ||| (fun ts => !records && Look.opens .brace ts) |||
    Look.ops ["=", "+", "/", "%", "^", ">", "<=", "!=", "-=", "*=", "&=", "|=", "<<="] |||
    Look.word "as"

/-- The dots of a range and its upper end. -/
def rangeTail (n : Nested) (records : Bool) : Parser Tokens :=
  let upper : Parser Tokens := do pure (← rightOperand n records .range).tokens
  choose [
    (Look.op "..=", seq [op "..=", upper]),
    (Look.op "...", failure),
    (Look.op "..", seq [op "..", ifLook (noRangeEnd records) (pure []) upper])]

/-- What may not follow a cast without parentheses. -/
def followsCast : Look :=
  Look.butNot (Look.op ".") (Look.op "..") ||| Look.op "?" ||| Look.opens .bracket |||
    Look.opens .paren

/-- The operators behind an operand that bind at least as tightly as `base`. -/
def climb (n : Nested) (records : Bool) (base : Precedence) (lhs : ExprSyntax) :
    Parser ExprSyntax := fun ts => go (ts.length + 1) lhs ts
where
  go : Nat → ExprSyntax → Parser ExprSyntax
    | 0, _ => failure
    | fuel + 1, lhs => fun ts =>
      let goOn (form : ExprForm) (p : Parser Tokens) : Parser ExprSyntax := do
        go fuel ⟨lhs.tokens ++ (← p), form⟩
      let operand (p : Precedence) : Parser Tokens := do
        pure (← rightOperand n records p).tokens
      if lhs.form = .range then some (lhs, ts)
      else
        match binaryOperator? ts with
        | some (sign, p) =>
          if p.rank < base.rank then some (lhs, ts)
          else if p = .comparison then
            if lhs.form = .comparison then none
            else goOn .comparison (seq [op sign, operand p]) ts
          else goOn .other (seq [op sign, operand p]) ts
        | none =>
          if base.rank ≤ Precedence.assign.rank ∧ assigns ts then
            goOn .other (seq [op "=", operand .assign]) ts
          else if base.rank ≤ Precedence.range.rank ∧ Look.op ".." ts then
            goOn .range (rangeTail n records) ts
          else if base.rank ≤ Precedence.cast.rank ∧ Look.word "as" ts then
            goOn .other (seq [word "as", n.typeTokens false,
              do require (Look.not followsCast); pure []]) ts
          else some (lhs, ts)

/-- The value of a number's digits, for a number without a suffix. -/
def indexDigits? (digits : List Char) : Option Nat :=
  match digits with
  | '0' :: 'x' :: cs => value? 16 cs
  | '0' :: 'o' :: cs => value? 8 cs
  | '0' :: 'b' :: cs => value? 2 cs
  | cs => value? 10 cs
where
  value? (base : Nat) (cs : List Char) : Option Nat := do
    if cs.all (· == '_') then none
    else
      let n ← (cs.filter (· != '_')).foldlM (fun n c => do
        let d ← hexValue? c
        if d < base then some (n * base + d) else none) 0
      if n < 0x100000000 then some n else none

/-- The number of a tuple's member. -/
def indexToken? (text : List Char) : Option Token :=
  (indexDigits? text).map fun n => .literal .integer (toString n)

/-- The numbers of several members that were read as one number with points. -/
def indexTokens? (text : List Char) : Option Tokens := do
  let parts := (splitAtPoints text).filter (!·.isEmpty)
  let indices ← parts.mapM indexToken?
  some (indices.intersperse (.punct '.' false))
where
  splitAtPoints : List Char → List (List Char)
    | [] => [[]]
    | '.' :: cs => [] :: splitAtPoints cs
    | c :: cs =>
      match splitAtPoints cs with
      | [] => [[c]]
      | part :: parts => (c :: part) :: parts

def index : Parser Tokens := do
  match (← next).token with
  | .literal .integer text =>
    match indexToken? text.toList with
    | some t => pure [t]
    | none => failure
  | _ => failure

def callArguments (n : Nested) : Parser Tokens :=
  grouped .paren (commaTokens (n.exprTokens true))

/-- A member behind its point: its name or number, and for a name perhaps a call. -/
def member (n : Nested) : Parser Tokens :=
  choose [
    (Look.word "await", word "await"),
    (Look.integer, index),
    (Look.name, do
      let i ← identTokens name
      let fish ← perhaps (Look.op "::") (seq [op "::", angleArguments n])
      let args ← if fish.isEmpty then perhaps (Look.opens .paren) (callArguments n)
        else callArguments n
      pure (i ++ fish ++ args))]

/-- A point and the member behind it, or the several members read as one number. -/
def pointAndMember (n : Nested) : Parser Tokens := do
  let point ← op "."
  ifLook Look.float
    (do
      match (← next).token with
      | .literal .float text =>
        match indexTokens? text.toList with
        | some ts =>
          if text.toList.getLast? = some '.' then
            pure (point ++ ts ++ [.punct '.' false] ++ (← member n))
          else pure (point ++ ts)
        | none => failure
      | _ => failure)
    (do pure (point ++ (← member n)))

/-- Calls, members, indices and question marks behind an operand. -/
def trailers (n : Nested) (e : ExprSyntax) : Parser ExprSyntax := fun ts =>
  go (ts.length + 1) e ts
where
  go : Nat → ExprSyntax → Parser ExprSyntax
    | 0, _ => failure
    | fuel + 1, e =>
      let andThen (p : Parser Tokens) : Parser ExprSyntax := do
        go fuel ⟨e.tokens ++ (← p), .other⟩
      let closed : Look := fun _ => e.form ≠ .range
      choose [
        (Look.opens .paren, andThen (callArguments n)),
        (closed &&& Look.butNot (Look.op ".") (Look.op ".."), andThen (pointAndMember n)),
        (Look.opens .bracket, andThen (grouped .bracket (n.exprTokens true))),
        (closed &&& Look.op "?", andThen (op "?")),
        (Look.not Look.none, pure e)]

/-- What an expression can start with. -/
def startsExpr : Look :=
  Look.butNot Look.anyWord (Look.word "as") ||| Look.opens .paren ||| Look.opens .bracket |||
    Look.opens .brace ||| Look.literal ||| Look.butNot (Look.op "!") (Look.op "!=") |||
    Look.butNot (Look.op "-") (Look.ops ["-=", "->"]) |||
    Look.butNot (Look.op "*") (Look.op "*=") ||| Look.butNot (Look.op "|") (Look.op "|=") |||
    Look.butNot (Look.op "&") (Look.op "&=") ||| Look.op ".." |||
    Look.butNot (Look.op "<") (Look.ops ["<=", "<<="]) ||| Look.op "::" ||| Look.lifetime |||
    Look.op "#"

/-- One field of a record expression. -/
def fieldValue (n : Nested) : Parser Tokens := do
  let attributes ← outerTokens n
  let indexed ← test Look.integer
  let member ← ifLook Look.integer index (identTokens name)
  let value ← perhaps (fun ts => indexed || Look.op ":" ts) (seq [op ":", n.exprTokens true])
  pure (attributes ++ member ++ value)

/-- The fields of a record expression, ended by the brace or by a base behind two dots. -/
def recordFields (n : Nested) : Parser Tokens := fun ts =>
  grouped .brace (go (ts.length + 1)) ts
where
  go : Nat → Parser Tokens
    | 0 => failure
    | fuel + 1 => choose [
      (Look.done, pure []),
      (Look.op "..", seq [op "..", perhaps (Look.not Look.done) (n.exprTokens true)]),
      (Look.not Look.none, do
        let field ← fieldValue n
        ifLook Look.done (pure field) do
          let comma ← op ","
          pure (field ++ comma ++ (← go fuel)))]

/-- An expression that starts with a path: a macro call, a record, or the path alone. -/
def pathExpr (n : Nested) (records : Bool) : Parser ExprSyntax := do
  let path ← anyPath n true
  choose [
    (fun ts => callsMacro ts && !path.qualified && path.bare, do
      let (d, call) ← macroCall
      pure ⟨path.tokens ++ call, if d = .brace then .braceMacro else .other⟩),
    (fun ts => records && Look.opens .brace ts, do
      pure ⟨path.tokens ++ (← recordFields n), .other⟩),
    (Look.not Look.none, pure ⟨path.tokens, .other⟩)]

/-- The branches behind an `if`. -/
def ifBranches (n : Nested) : Parser Tokens := fun ts => go (ts.length + 1) ts
where
  go : Nat → Parser Tokens
    | 0 => failure
    | fuel + 1 => do
      let first ← seq [word "if", n.exprTokens false, plainBlock n]
      let rest ← perhaps (Look.word "else") (seq [word "else",
        ifLook (Look.word "if") (go fuel) (plainBlock n)])
      pure (first ++ rest)

/-- A loop behind its label. -/
def whileExpr (n : Nested) : Parser Tokens :=
  seq [word "while", n.exprTokens false, block n]

def forExpr (n : Nested) : Parser Tokens :=
  seq [word "for", alternativesTokens n, word "in", n.exprTokens false, block n]

def loopExpr (n : Nested) : Parser Tokens :=
  seq [word "loop", block n]

/-- A loop or a block with a label in front. -/
def labeledExpr (n : Nested) : Parser Tokens :=
  seq [lifetime, op ":", choose [
    (Look.word "while", whileExpr n),
    (Look.word "for", forExpr n),
    (Look.word "loop", loopExpr n),
    (Look.opens .brace, block n)]]

/-- An angle bracket behind the keyword `for` opens the lifetimes of a closure. -/
def forBinder : Look := Look.word "for" &&& Look.second opensGenerics

def tryBlock : Look := Look.word "try" &&& Look.second (Look.opens .brace)

def constBlockAhead : Look := Look.word "const" &&& Look.second (Look.opens .brace)

/-- The arms of a match. -/
def arms (n : Nested) : Parser Tokens := do
  let found ← untilDone do
    let front ← seq [outerTokens n, alternativesTokens n,
      perhaps (Look.word "if") (seq [word "if", n.exprTokens true]), op "=>"]
    let e ← n.body
    let comma ← ifLook (fun ts => e.form ≠ .block && !Look.done ts) (op ",") (optOp ",")
    pure (front ++ e.tokens ++ comma)
  pure found.flatten

/-- The expressions that end in a block, if one starts here. -/
def blockLike (n : Nested) : Parser (Option ExprSyntax) :=
  let ending (p : Parser Tokens) : Parser (Option ExprSyntax) := do
    pure (some ⟨← p, .block⟩)
  choose [
    (Look.word "if", ending (ifBranches n)),
    (Look.word "while", ending (whileExpr n)),
    (Look.butNot (Look.word "for") forBinder, ending (forExpr n)),
    (Look.word "loop", ending (loopExpr n)),
    (Look.word "match", ending (seq [word "match", n.exprTokens false,
      grouped .brace (seq [(do pure (← innerAttributes n).2), arms n])])),
    (tryBlock, ending (seq [word "try", plainBlock n])),
    (Look.word "unsafe", ending (seq [word "unsafe", block n])),
    (constBlockAhead, ending (constBlock n)),
    (Look.opens .brace, ending (block n)),
    (Look.lifetime, ending (labeledExpr n)),
    (Look.not Look.none, pure none)]

/-- An expression as a statement or as the body of an arm: a block ends it, unless a member or a
question mark follows. -/
def body (n : Nested) : Parser ExprSyntax := do
  let attributes ← outerTokens n
  match ← blockLike n with
  | some e =>
    ifLook (Look.butNot (Look.op ".") (Look.op "..") ||| Look.op "?")
      (do
        let e ← trailers n e
        n.climb true .min ⟨attributes ++ e.tokens, e.form⟩)
      (pure ⟨attributes ++ e.tokens, e.form⟩)
  | none =>
    let e ← n.unary true
    n.climb true .min ⟨attributes ++ e.tokens, e.form⟩

def startsClosure : Look :=
  Look.op "|" ||| Look.word "move" ||| forBinder |||
    Look.butNot (Look.word "const") (Look.second (Look.opens .brace)) ||| Look.word "static" |||
    (Look.word "async" &&& (Look.second (Look.op "|") ||| Look.second (Look.word "move")))

def closure (n : Nested) (records : Bool) : Parser Tokens := do
  let front ← seq [optBoundLifetimes n, optWord "const", optWord "static", optWord "async",
    optWord "move", op "|"]
  let args ← separated (Look.op "|") (Look.op "|")
    (seq [outerTokens n, n.patternTokens, perhaps (Look.op ":") (seq [op ":", n.typeTokens true])])
    (op ",")
  let bar ← op "|"
  let body ← ifLook (Look.op "->")
    (seq [op "->", n.typeTokens true, plainBlock n]) (n.exprTokens records)
  pure (front ++ joinTokens args ++ bar ++ body)

/-- The elements of an array, or one element and their number. -/
def arrayContent (n : Nested) : Parser Tokens :=
  ifLook Look.done (pure []) do
    let first ← n.exprTokens true
    let rest ← choose [
      (Look.done, pure []),
      (Look.op ",", seq [op ",", commaTokens (n.exprTokens true)]),
      (Look.op ";", seq [op ";", n.exprTokens true])]
    pure (first ++ rest)

def asyncBlock : Look :=
  Look.word "async" &&&
    (Look.second (Look.opens .brace) |||
      (Look.second (Look.word "move") &&& Look.third (Look.opens .brace)))

/-- A jump: its keyword, and the value it takes along if one starts there. -/
def jump (n : Nested) (w : String) : Parser Tokens :=
  seq [word w, perhaps startsExpr (n.exprTokens true)]

def breakExpr (n : Nested) (records : Bool) : Parser Tokens := do
  let kw ← word "break"
  require (Look.not (Look.lifetime &&& Look.second (Look.op ":")))
  let rest ← seq [perhaps Look.lifetime lifetime,
    perhaps (fun ts => startsExpr ts && (records || !Look.opens .brace ts))
      (n.exprTokens records)]
  pure (kw ++ rest)

def letExpr (n : Nested) (records : Bool) : Parser Tokens := do
  let front ← seq [word "let", alternativesTokens n, op "="]
  let lhs ← n.unary records
  let e ← n.climb records .comparison lhs
  pure (front ++ e.tokens)

/-- An operand without signs in front and trailers behind. -/
def atom (n : Nested) (records : Bool) : Parser ExprSyntax :=
  let plain (p : Parser Tokens) : Parser ExprSyntax := do pure ⟨← p, .other⟩
  let ending : Parser ExprSyntax := do
    match ← blockLike n with
    | some e => pure e
    | none => failure
  choose [
    (Look.literal, plain literal),
    (asyncBlock, plain (seq [word "async", optWord "move", plainBlock n])),
    (tryBlock, ending),
    (startsClosure, plain (closure n records)),
    (Look.word "builtin" &&& Look.second (Look.op "#"), plain (verbatim (seq [
      word "builtin", op "#", identTokens name, do
        require (Look.opens .paren)
        pure (groupTokens (← anyGroup))]))),
    (Look.name ||| Look.op "::" ||| Look.op "<" ||| pathWords |||
      (Look.word "try" &&& (Look.second (Look.op "!") ||| Look.second (Look.op "::"))),
      pathExpr n records),
    (Look.opens .paren, plain (grouped .paren (commaTokens (n.exprTokens true)))),
    (Look.word "break", plain (breakExpr n records)),
    (Look.word "continue", plain (seq [word "continue", perhaps Look.lifetime lifetime])),
    (Look.word "return", plain (jump n "return")),
    (Look.word "become", plain (seq [word "become", n.exprTokens true])),
    (Look.opens .bracket, plain (grouped .bracket (arrayContent n))),
    (Look.word "let", plain (letExpr n records)),
    (Look.word "yield", plain (jump n "yield")),
    (Look.op "..", do pure ⟨← rangeTail n records, .range⟩),
    (Look.word "_", plain (word "_")),
    (Look.not Look.none, ending)]

/-- An operand with its signs in front. -/
def unary (n : Nested) (records : Bool) : Parser ExprSyntax := do
  let attributes ← outerTokens n
  let signed (sign : Parser Tokens) : Parser ExprSyntax := do
    let sign ← sign
    let e ← n.unary records
    pure ⟨attributes ++ sign ++ e.tokens, .other⟩
  let rawMark := Look.word "raw" &&&
    (Look.second (Look.word "mut") ||| Look.second (Look.word "const"))
  choose [
    (Look.op "&", signed (seq [op "&",
      ifLook rawMark (seq [word "raw", word "mut" <|> word "const"]) (optWord "mut")])),
    (Look.op "*", signed (op "*")),
    (Look.op "!", signed (op "!")),
    (Look.op "-", signed (op "-")),
    (Look.not Look.none, do
      let e ← trailers n (← atom n records)
      if !attributes.isEmpty && e.form = .range then failure
      else pure ⟨attributes ++ e.tokens, e.form⟩)]

/-- An expression with all its operators. -/
def expr (n : Nested) (records : Bool) : Parser ExprSyntax := do
  let lhs ← n.unary records
  n.climb records .min lhs

/-- A statement, and whether a semicolon has to follow if another statement does. -/
structure StatementSyntax where
  tokens : Tokens
  needsSemicolon : Bool

def letStatement (n : Nested) : Parser Tokens := do
  let front ← seq [word "let", n.patternTokens,
    perhaps (Look.op ":") (seq [op ":", n.typeTokens true])]
  let init ← perhaps (Look.op "=") do
    let eq ← op "="
    let e ← n.exprTokens true
    let diverge ← perhaps
      (fun ts => e.getLast? ≠ some (.closing .brace) && Look.word "else" ts)
      (seq [word "else", plainBlock n])
    pure (eq ++ e ++ diverge)
  let semi ← op ";"
  pure (front ++ init ++ semi)

/-- A plain path and the sign of a macro call; the answers are whether an item macro and whether
a macro statement starts here. -/
def macroAhead : Parser (Bool × Bool) := fun ts =>
  match plainPath ts with
  | some (_, rest) =>
    if Look.op "!" rest then
      let defines := (Look.second Look.name ||| Look.second (Look.word "try")) rest
      let dotted := (Look.third (Look.butNot (Look.op ".") (Look.op "..")) |||
        Look.third (Look.op "?")) rest
      some ((defines, !defines && Look.second (Look.opens .brace) rest && !dotted), ts)
    else some ((false, false), ts)
  | none => some ((false, false), ts)

/-- Whether an item starts here rather than an expression. -/
def startsItem : Look :=
  let w := Look.word
  let w2 (s : String) := Look.second (Look.word s)
  let w3 (s : String) := Look.third (Look.word s)
  let bar2 := Look.second (Look.op "|")
  let bar3 := Look.third (Look.op "|")
  Look.words ["pub", "extern", "use", "fn", "mod", "type", "struct", "enum", "trait", "impl",
    "macro"] |||
  Look.butNot (w "crate") (Look.second (Look.op "::")) |||
  (w "static" &&& (w2 "mut" |||
    Look.butNot (Look.second Look.name) (w2 "async" &&& (w3 "move" ||| bar3)))) |||
  Look.butNot (w "const") (Look.second (Look.opens .brace) ||| w2 "static" |||
    Look.butNot (w2 "async") (w3 "unsafe" ||| w3 "extern" ||| w3 "fn") ||| w2 "move" ||| bar2) |||
  Look.butNot (w "unsafe") (Look.second (Look.opens .brace)) |||
  (w "async" &&& (w2 "unsafe" ||| w2 "extern" ||| w2 "fn")) |||
  (w "union" &&& Look.second Look.name) |||
  (w "auto" &&& w2 "trait") |||
  (w "default" &&& (w2 "unsafe" ||| w2 "impl"))

/-- A statement other than an empty one. -/
def statement (n : Nested) : Parser StatementSyntax := do
  let attributes ← outerTokens n
  let (definesMacro, macroStatement) ← macroAhead
  let always : Look := fun _ => true
  let withFront (p : Parser StatementSyntax) : Parser StatementSyntax := do
    let s ← p
    pure { s with tokens := attributes ++ s.tokens }
  withFront <| choose [
    (fun _ => macroStatement, do
      let path ← plainPath
      let (_, call) ← macroCall
      pure ⟨path.tokens ++ call ++ (← optOp ";"), false⟩),
    (Look.word "let", do pure ⟨← letStatement n, false⟩),
    (fun ts => startsItem ts || definesMacro, do
      pure ⟨← verbatim n.item, false⟩),
    (always, do
      let e ← n.body
      let semi ← optOp ";"
      pure ⟨e.tokens ++ semi, semi.isEmpty && e.form ≠ .block && e.form ≠ .braceMacro⟩)]

/-- The statements of a block. -/
def statements (n : Nested) : Parser Tokens := do
  let found ← loop do
    let empty ← whileLook (Look.op ";") (op ";")
    ifLook Look.done (pure (if empty.isEmpty then none else some empty.flatten)) do
      let s ← statement n
      if s.needsSemicolon then require Look.done
      pure (some (empty.flatten ++ s.tokens))
  pure found.flatten

end InterfaceRecord.Source.Grammar
