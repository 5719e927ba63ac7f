/-
  Parsers over placed tokens, and tests of what comes next. A parser of a piece of source text
  answers the tokens of that piece in their regular form: the characters of an operator are joint
  inside it, and joint to nothing behind it.
-/
import InterfaceRecord.Source.Item

namespace InterfaceRecord.Source.Grammar

abbrev Parser := StateT (List Placed) Option

abbrev Tokens := List Token

/-- A test of the tokens to come. -/
abbrev Look := List Placed → Bool

/-- The tokens behind the group in which `depth` more groups are open. -/
def dropGroup (depth : Nat) : List Placed → List Placed
  | [] => []
  | ⟨.opening _, _⟩ :: ts => dropGroup (depth + 1) ts
  | ⟨.closing _, _⟩ :: ts => if depth = 0 then ts else dropGroup (depth - 1) ts
  | _ :: ts => dropGroup depth ts

/-- The tokens behind the first one; a lifetime and a group count as one. -/
def dropTree : List Placed → List Placed
  | ⟨.opening _, _⟩ :: ts => dropGroup 0 ts
  | ⟨.punct '\'' _, _⟩ :: _ :: ts => ts
  | ts@(⟨.closing _, _⟩ :: _) => ts
  | _ :: ts => ts
  | [] => []

namespace Look

def none : Look := fun _ => false

def or (a b : Look) : Look := fun ts => a ts || b ts

def and (a b : Look) : Look := fun ts => a ts && b ts

def not (a : Look) : Look := fun ts => !a ts

instance : OrOp Look := ⟨or⟩

instance : AndOp Look := ⟨and⟩

/-- `a` holds and `b` does not. -/
def butNot (a b : Look) : Look := fun ts => a ts && !b ts

/-- The test one token later. -/
def second (a : Look) : Look := fun ts => a (dropTree ts)

/-- The test two tokens later. -/
def third (a : Look) : Look := fun ts => a (dropTree (dropTree ts))

/-- The input or the group ends here. -/
def done : Look
  | [] => true
  | ⟨.closing _, _⟩ :: _ => true
  | _ => false

def opens (d : Delimiter) : Look
  | ⟨.opening e, _⟩ :: _ => d = e
  | _ => false

/-- Exactly this word. -/
def word (w : String) : Look
  | ⟨.ident i, _⟩ :: _ => i.text == w
  | _ => false

def words (ws : List String) : Look := fun ts => ws.any (word · ts)

/-- Any identifier, keywords included. -/
def anyWord : Look
  | ⟨.ident _, _⟩ :: _ => true
  | _ => false

/-- An identifier that is no keyword. -/
def name : Look
  | ⟨.ident i, _⟩ :: _ => !i.isReserved
  | _ => false

def lifetime : Look
  | ⟨.punct '\'' true, _⟩ :: ⟨.ident _, _⟩ :: _ => true
  | _ => false

/-- The characters of an operator, each joint to the next one. -/
def opChars : List Char → Look
  | [], _ => true
  | [c], ⟨.punct d _, _⟩ :: _ => c == d
  | c :: cs, ⟨.punct d true, _⟩ :: ts => c == d && opChars cs ts
  | _, _ => false

def op (s : String) : Look := opChars s.toList

def ops (ss : List String) : Look := fun ts => ss.any (op · ts)

def number : Look
  | ⟨.literal .integer _, _⟩ :: _ => true
  | ⟨.literal .float _, _⟩ :: _ => true
  | _ => false

/-- A literal, a truth value, or a number with a minus sign. -/
def literal : Look
  | ⟨.literal _ _, _⟩ :: _ => true
  | ⟨.ident i, _⟩ :: _ => i.text == "true" || i.text == "false"
  | ⟨.punct '-' _, _⟩ :: ts => number ts
  | _ => false

/-- A string literal. -/
def string : Look
  | ⟨.literal .string _, _⟩ :: _ => true
  | ⟨.literal .rawString _, _⟩ :: _ => true
  | _ => false

def integer : Look
  | ⟨.literal .integer _, _⟩ :: _ => true
  | _ => false

def float : Look
  | ⟨.literal .float _, _⟩ :: _ => true
  | _ => false

end Look

def ifLook {α : Type} (l : Look) (p q : Parser α) : Parser α := fun ts =>
  if l ts then p ts else q ts

def test (l : Look) : Parser Bool := fun ts => some (l ts, ts)

/-- Succeeds, taking nothing, where the test holds. -/
def require (l : Look) : Parser Unit := fun ts => if l ts then some ((), ts) else none

/-- The first parser whose test holds. -/
def choose {α : Type} : List (Look × Parser α) → Parser α
  | [] => failure
  | (l, p) :: rest => ifLook l p (choose rest)

/-- The tokens of all the parsers, one after another. -/
def seq : List (Parser Tokens) → Parser Tokens
  | [] => pure []
  | p :: ps => do
    let a ← p
    let b ← seq ps
    pure (a ++ b)

/-- The piece if its test holds, and no tokens otherwise. -/
def perhaps (l : Look) (p : Parser Tokens) : Parser Tokens :=
  ifLook l p (pure [])

/-- Any one token. -/
def next : Parser Placed
  | [] => none
  | t :: ts => some (t, ts)

def word (w : String) : Parser Tokens := do
  require (Look.word w)
  pure [(← next).token]

def optWord (w : String) : Parser Tokens :=
  perhaps (Look.word w) (word w)

/-- An identifier that passes the test, with its place. -/
def identAt (l : Look) : Parser (Ident × Position) := do
  require l
  match ← next with
  | ⟨.ident i, p⟩ => pure (i, p)
  | _ => failure

def nameAt : Parser (Ident × Position) := identAt Look.name

def name : Parser Ident := do pure (← nameAt).1

def anyWord : Parser Ident := do pure (← identAt Look.anyWord).1

def identTokens (p : Parser Ident) : Parser Tokens := do pure [.ident (← p)]

/-- An operator's characters as tokens: joint to one another, and not to what follows. -/
def opTokens : List Char → Tokens
  | [] => []
  | [c] => [.punct c false]
  | c :: cs => .punct c true :: opTokens cs

def op (s : String) : Parser Tokens := fun ts =>
  if Look.op s ts then some (opTokens s.toList, ts.drop s.length) else none

def optOp (s : String) : Parser Tokens :=
  perhaps (Look.op s) (op s)

def lifetimeName : Parser Ident := do
  require Look.lifetime
  let _ ← next
  anyWord

def lifetime : Parser Tokens := do pure (lifetimeTokens (← lifetimeName))

/-- A literal; the sign of a negative number is a token of its own. -/
def literal : Parser Tokens := do
  require Look.literal
  match (← next).token with
  | .punct c _ => pure [.punct c false, (← next).token]
  | t => pure [t]

/-- A group of that delimiter with the given content and nothing else. -/
def group {α : Type} (d : Delimiter) (content : Parser α) : Parser α := do
  require (Look.opens d)
  let _ ← next
  let a ← content
  match ← next with
  | ⟨.closing _, _⟩ => pure a
  | _ => failure

/-- The tokens of such a group. -/
def grouped (d : Delimiter) (content : Parser Tokens) : Parser Tokens := do
  pure ([.opening d] ++ (← group d content) ++ [.closing d])

/-- The part of `ts` in front of its end `rest`, token by token. -/
def taken (ts rest : List Placed) : Tokens :=
  (ts.take (ts.length - rest.length)).map (·.token)

/-- A group with any content, which is kept as it stands. -/
def anyGroup : Parser (Delimiter × Tokens) := fun ts =>
  match ts with
  | ⟨.opening d, _⟩ :: content =>
    let rest := dropGroup 0 content
    some ((d, (taken content rest).dropLast), rest)
  | _ => none

def groupTokens (g : Delimiter × Tokens) : Tokens :=
  [.opening g.1] ++ g.2 ++ [.closing g.1]

/-- The tokens as they stand in the source instead of their regular form. -/
def verbatim {α : Type} (p : Parser α) : Parser Tokens := fun ts =>
  (p ts).map fun (_, rest) => (taken ts rest, rest)

/-- Goes on as long as `p` answers something, at most `fuel` times. -/
def loopWithin {α : Type} (p : Parser (Option α)) : Nat → Parser (List α)
  | 0 => failure
  | fuel + 1 => do
    match ← p with
    | none => pure []
    | some a => do
      let rest ← loopWithin p fuel
      pure (a :: rest)

/-- Goes on as long as `p` answers something. Each answer but the last takes a token. -/
def loop {α : Type} (p : Parser (Option α)) : Parser (List α) := fun ts =>
  loopWithin p (ts.length + 1) ts

/-- One piece after another as long as the test holds. -/
def whileLook {α : Type} (l : Look) (p : Parser α) : Parser (List α) :=
  loop (ifLook l (do pure (some (← p))) (pure none))

/-- One piece after another up to the end of the group or the input. -/
def untilDone {α : Type} (p : Parser α) : Parser (List α) :=
  whileLook (Look.not Look.done) p

/-- Pieces with separators between them, each piece with the separator behind it. No piece
follows where `before` holds, and no separator where `after` holds. -/
def separatedWithin {α : Type} (before after : Look) (piece : Parser α) (sep : Parser Tokens) :
    Nat → Parser (List (α × Tokens))
  | 0 => failure
  | fuel + 1 => ifLook before (pure []) do
    let a ← piece
    ifLook after (pure [(a, [])]) do
      let s ← sep
      let rest ← separatedWithin before after piece sep fuel
      pure ((a, s) :: rest)

def separated {α : Type} (before after : Look) (piece : Parser α) (sep : Parser Tokens) :
    Parser (List (α × Tokens)) := fun ts =>
  separatedWithin before after piece sep (ts.length + 1) ts

/-- The tokens of pieces with their separators. -/
def joinTokens (pieces : List (Tokens × Tokens)) : Tokens :=
  pieces.flatMap fun (a, s) => a ++ s

/-- Pieces with commas between them up to the end of the group; the last one may have a comma. -/
def commaList {α : Type} (piece : Parser α) : Parser (List (α × Tokens)) :=
  separated Look.done Look.done piece (op ",")

def commaTokens (piece : Parser Tokens) : Parser Tokens := do
  pure (joinTokens (← commaList piece))

end InterfaceRecord.Source.Grammar
