/-
  Where a literal ends. Each scanner takes the text from the literal's first character on and
  answers the text behind it, or nothing when no such literal stands there.
-/
import InterfaceRecord.Source.Token

namespace InterfaceRecord.Source

open InterfaceRecord.Text

/-- What a quoted literal may hold: any text, bytes, or text without the NUL character. -/
inductive Content
  | text
  | bytes
  | nulFree
deriving DecidableEq, Repr

/-- Whether `c` may stand for itself. -/
def Content.allows (k : Content) (c : Char) : Bool :=
  match k with
  | .text => true
  | .bytes => c.toNat < 128
  | .nulFree => c != '\x00'

def hexValue? (c : Char) : Option Nat :=
  if '0' ≤ c ∧ c ≤ '9' then some (c.toNat - '0'.toNat)
  else if 'a' ≤ c ∧ c ≤ 'f' then some (10 + (c.toNat - 'a'.toNat))
  else if 'A' ≤ c ∧ c ≤ 'F' then some (10 + (c.toNat - 'A'.toNat))
  else none

/-- The code of a two digit escape: in text it is ASCII, and where NUL is barred it is not zero. -/
def Content.hexEscape? (k : Content) (a b : Char) : Option Nat := do
  let n := (← hexValue? a) * 16 + (← hexValue? b)
  match k with
  | .text => if n < 128 then some n else none
  | .bytes => some n
  | .nulFree => if n ≠ 0 then some n else none

/-- A character escaped by a single letter or sign. -/
def simpleEscape? : Char → Option Char
  | 'n' => some '\n'
  | 'r' => some '\r'
  | 't' => some '\t'
  | '\\' => some '\\'
  | '\'' => some '\''
  | '"' => some '"'
  | '0' => some '\x00'
  | _ => none

/-- The digits of a braced escape, of which there are `count` so far with the value `value`. There
are one to six; underscores may follow the first, and the value is a character's code. -/
def bracedEscape? (count value : Nat) : List Char → Option (Char × List Char)
  | [] => none
  | '_' :: cs => if count = 0 then none else bracedEscape? count value cs
  | '}' :: cs =>
    if count ≠ 0 ∧ value.isValidChar then some (Char.ofNat value, cs) else none
  | c :: cs =>
    match hexValue? c with
    | some d => if count = 6 then none else bracedEscape? (count + 1) (value * 16 + d) cs
    | none => none

/-- The text behind an escaped line end: blanks and further line ends are dropped, and something
follows. With `cr` a carriage return was just read, which only a line feed may follow. -/
def afterContinuation? (cr : Bool) : List Char → Option (List Char)
  | [] => none
  | c :: cs =>
    if cr then if c = '\n' then afterContinuation? false cs else none
    else if c = '\r' then afterContinuation? true cs
    else if c = '\n' ∨ c = ' ' ∨ c = '\t' then afterContinuation? false cs
    else some (c :: cs)

/-- One unit of a quoted literal: the character it denotes, if any, and the text behind it. -/
def quotedUnit? (k : Content) : List Char → Option (Option Char × List Char)
  | [] => none
  | '\r' :: '\n' :: cs => some (some '\n', cs)
  | '\r' :: _ => none
  | '\\' :: 'x' :: a :: b :: cs => do some (some (Char.ofNat (← k.hexEscape? a b)), cs)
  | '\\' :: 'u' :: '{' :: cs =>
    if k = .bytes then none
    else do
      let (c, cs) ← bracedEscape? 0 0 cs
      if k.allows c then some (some c, cs) else none
  | '\\' :: '\n' :: cs => do some (none, ← afterContinuation? false cs)
  | '\\' :: '\r' :: cs => do some (none, ← afterContinuation? true cs)
  | '\\' :: c :: cs => do
    let d ← simpleEscape? c
    if k.allows d then some (some d, cs) else none
  | '\\' :: [] => none
  | c :: cs => if k.allows c then some (some c, cs) else none

/-- The characters a quoted literal denotes and the text behind its closing quote; at most `fuel`
units are read. -/
def quotedWithin? (k : Content) : Nat → List Char → Option (List Char × List Char)
  | 0, _ => none
  | _ + 1, '"' :: cs => some ([], cs)
  | fuel + 1, cs => do
    let (c, cs) ← quotedUnit? k cs
    let (value, rest) ← quotedWithin? k fuel cs
    some (c.toList ++ value, rest)

/-- The same, from behind the opening quote. -/
def quoted? (k : Content) (cs : List Char) : Option (List Char × List Char) :=
  quotedWithin? k (cs.length + 1) cs

/-- The text of a raw literal from behind its opening quote, and what follows its closing quote
and the same number of signs as before. -/
def rawBody? (k : Content) (hashes : Nat) : List Char → Option (List Char × List Char)
  | [] => none
  | '\r' :: '\n' :: cs => do
    let (value, rest) ← rawBody? k hashes cs
    some ('\r' :: '\n' :: value, rest)
  | '\r' :: _ => none
  | c :: cs =>
    if c = '"' ∧ (List.replicate hashes '#').isPrefixOf cs then some ([], cs.drop hashes)
    else if k.allows c then do
      let (value, rest) ← rawBody? k hashes cs
      some (c :: value, rest)
    else none

/-- A raw literal from behind its letters: up to 255 signs, a quote, and the text. -/
def raw? (k : Content) (cs : List Char) : Option (List Char × List Char) :=
  let hashes := (cs.takeWhile (· == '#')).length
  match cs.drop hashes with
  | '"' :: cs => if hashes ≤ 255 then rawBody? k hashes cs else none
  | _ => none

/-- One character between apostrophes, from behind the first one. -/
def apostrophed? (k : Content) (cs : List Char) : Option (List Char) := do
  let rest ← match cs with
    | '\\' :: 'x' :: a :: b :: cs => (k.hexEscape? a b).map fun _ => cs
    | '\\' :: 'u' :: '{' :: cs => if k = .bytes then none else (bracedEscape? 0 0 cs).map (·.2)
    | '\\' :: c :: cs => (simpleEscape? c).map fun _ => cs
    | '\\' :: [] => none
    | c :: cs => if k.allows c then some cs else none
    | [] => none
  match rest with
  | '\'' :: cs => some cs
  | _ => none

/-- The text behind a word, if one stands there. -/
def afterWord? : List Char → Option (List Char)
  | [] => none
  | c :: cs => if isWordStart c then some (cs.dropWhile isWordTail) else none

/-- The text behind a suffix, which may be missing. -/
def afterSuffix (cs : List Char) : List Char :=
  (afterWord? cs).getD cs

/-- A number ends where no word character follows. -/
def wordBreak? : List Char → Option (List Char)
  | c :: cs => if isWordTail c then none else some (c :: cs)
  | [] => some []

def isDigitOrGap (c : Char) : Bool :=
  c.isDigit || c == '_'

/-- The text behind an exponent, from behind its letter: perhaps a sign, and at least one digit
among underscores. -/
def exponent? (signed valued : Bool) : List Char → Option (List Char)
  | [] => if valued then some [] else none
  | c :: cs =>
    if c = '+' ∨ c = '-' then
      if valued then some (c :: cs) else if signed then none else exponent? true valued cs
    else if c.isDigit then exponent? signed true cs
    else if c = '_' then exponent? signed valued cs
    else if valued then some (c :: cs) else none

/-- What follows the digits before or behind a point: an exponent, or no more. `bare` is the
answer without an exponent. -/
def perhapsExponent? (bare : Option (List Char)) : List Char → Option (List Char)
  | c :: cs => if c = 'e' ∨ c = 'E' then (exponent? false false cs).or bare else bare
  | [] => bare

/-- The digits of a number with a point or an exponent. Behind a point stands neither a second
one nor a word, so that ranges and members of integers are read as such. -/
def floatDigits? : List Char → Option (List Char)
  | [] => none
  | d :: cs =>
    if d.isDigit then
      match cs.dropWhile isDigitOrGap with
      | '.' :: c :: rest =>
        if c = '.' ∨ isWordStart c then none
        else
          let rest := (c :: rest).dropWhile isDigitOrGap
          perhapsExponent? (some rest) rest
      | '.' :: [] => some []
      | rest => perhapsExponent? none rest
    else none

/-- The digits of an integer in the given base; a decimal one starts with a digit. With `empty`
no digit has been read so far. -/
def integerDigits? (base : Nat) (empty : Bool) : List Char → Option (List Char)
  | [] => if empty then none else some []
  | c :: cs =>
    if c.isDigit then
      if c.toNat - '0'.toNat < base then integerDigits? base false cs else none
    else if c = '_' then
      if empty && base == 10 then none else integerDigits? base empty cs
    else if (hexValue? c).any (· < base) then integerDigits? base false cs
    else if empty then none else some (c :: cs)

/-- An integer's digits with the mark of its base. -/
def integer? : List Char → Option (List Char)
  | '0' :: 'x' :: cs => integerDigits? 16 true cs
  | '0' :: 'o' :: cs => integerDigits? 8 true cs
  | '0' :: 'b' :: cs => integerDigits? 2 true cs
  | cs => integerDigits? 10 true cs

/-- A number with its suffix. -/
def number? (digits? : List Char → Option (List Char)) (cs : List Char) : Option (List Char) := do
  wordBreak? (afterSuffix (← digits? cs))

/-- The text behind the literal that stands at the front, and its kind. -/
def scanLiteral? (cs : List Char) : Option (LiteralKind × List Char) :=
  let suffixed (kind : LiteralKind) (rest : List Char) := (kind, afterSuffix rest)
  (match cs with
    | '"' :: cs => (quoted? .text cs).map (suffixed .string ·.2)
    | 'r' :: cs => (raw? .text cs).map (suffixed .rawString ·.2)
    | 'b' :: '"' :: cs => (quoted? .bytes cs).map (suffixed .byteString ·.2)
    | 'b' :: 'r' :: cs => (raw? .bytes cs).map (suffixed .byteString ·.2)
    | 'c' :: '"' :: cs => (quoted? .nulFree cs).map (suffixed .cString ·.2)
    | 'c' :: 'r' :: cs => (raw? .nulFree cs).map (suffixed .cString ·.2)
    | 'b' :: '\'' :: cs => (apostrophed? .bytes cs).map (suffixed .byte)
    | '\'' :: cs => (apostrophed? .text cs).map (suffixed .character)
    | cs => ((number? floatDigits? cs).map fun r => (.float, r)).or
        ((number? integer? cs).map fun r => (.integer, r)))

/-- The text a string literal denotes. -/
def stringValue? (kind : LiteralKind) (text : String) : Option String :=
  match kind, text.toList with
  | .string, '"' :: cs => (quoted? .text cs).map (String.ofList ·.1)
  | .rawString, 'r' :: cs => (raw? .text cs).map (String.ofList ·.1)
  | _, _ => none

end InterfaceRecord.Source
