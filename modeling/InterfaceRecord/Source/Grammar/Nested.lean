/-
  What types, expressions, patterns and items answer when they are parsed, and the record of
  parsers through which each of them reaches the others. The parsers of the following modules are
  not recursive: they take such a record, and `Grammar.File` closes the circle.
-/
import InterfaceRecord.Source.Grammar.Parser

namespace InterfaceRecord.Source.Grammar

/-- What a type looks like from outside. -/
inductive TypeForm
  /-- A path of one segment. -/
  | segment
  /-- Another path that does not start from a type. -/
  | path
  /-- A single bound without a keyword. -/
  | soleBound
  | other
deriving DecidableEq

structure TypeSyntax where
  tokens : Tokens
  form : TypeForm

/-- A bound, and whether it makes a trait object. -/
structure BoundSyntax where
  tokens : Tokens
  bound : Bound
  isTrait : Bool

/-- What an expression looks like from outside. -/
inductive ExprForm
  /-- Ends in a block and needs no semicolon as a statement. -/
  | block
  /-- A macro with braces. -/
  | braceMacro
  | range
  | comparison
  | other
deriving DecidableEq

structure ExprSyntax where
  tokens : Tokens
  form : ExprForm

/-- A pattern, and whether it is a range that lacks an end. -/
structure PatternSyntax where
  tokens : Tokens
  openRange : Bool

/-- How tightly operators bind, from the loosest on. -/
inductive Precedence
  | min
  | assign
  | range
  | or
  | and
  | comparison
  | bitOr
  | bitXor
  | bitAnd
  | shift
  | sum
  | product
  | cast
deriving DecidableEq

def Precedence.rank : Precedence → Nat
  | .min => 0
  | .assign => 1
  | .range => 2
  | .or => 3
  | .and => 4
  | .comparison => 5
  | .bitOr => 6
  | .bitXor => 7
  | .bitAnd => 8
  | .shift => 9
  | .sum => 10
  | .product => 11
  | .cast => 12

/-- The parsers of what lies one level deeper. -/
structure Nested where
  /-- A type; with `false` a sum of bounds is not taken. -/
  type : Bool → Parser TypeSyntax
  /-- A bound as it may stand behind the name of an associated type. -/
  bound : Parser BoundSyntax
  /-- An expression; with `false` a brace does not open a record. -/
  expr : Bool → Parser ExprSyntax
  /-- An operand with its signs in front. -/
  unary : Bool → Parser ExprSyntax
  /-- The operators of at least the given precedence behind an operand. -/
  climb : Bool → Precedence → ExprSyntax → Parser ExprSyntax
  /-- An expression as a statement or as the body of an arm. -/
  body : Parser ExprSyntax
  pattern : Parser PatternSyntax
  statements : Parser Tokens
  /-- An item behind its attributes. -/
  item : Parser Item

/-- The record whose parsers all fail. -/
def Nested.none : Nested where
  type _ := failure
  bound := failure
  expr _ := failure
  unary _ := failure
  climb _ _ _ := failure
  body := failure
  pattern := failure
  statements := failure
  item := failure

def Nested.typeTokens (n : Nested) (plus : Bool) : Parser Tokens := do
  pure (← n.type plus).tokens

def Nested.exprTokens (n : Nested) (records : Bool) : Parser Tokens := do
  pure (← n.expr records).tokens

def Nested.patternTokens (n : Nested) : Parser Tokens := do
  pure (← n.pattern).tokens

end InterfaceRecord.Source.Grammar
