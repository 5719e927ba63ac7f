/-
  Reading JSON text piece by piece. A reader takes the piece it expects from the front; at the
  first problem in text order it stops, and says of what kind that problem is.
-/
import InterfaceRecord.Decimal.Shortest
import InterfaceRecord.Text.Quoted

namespace InterfaceRecord.Json

/-- Why a text was not read. -/
inductive ReadError
  /-- The text ends too early. -/
  | eof
  /-- The text is not JSON, or not JSON of a kind that any reader takes. -/
  | malformed
  /-- The text is JSON with another content than expected. -/
  | data (message : String)
deriving DecidableEq, Repr

abbrev Reader := StateT (List Char) (Except ReadError)

def fail {α : Type} (e : ReadError) : Reader α := fun _ => .error e

/-- A value as messages name it. -/
inductive Unexpected
  | null
  | boolean (value : Bool)
  | integer (negative : Bool) (value : Nat)
  | float (negative : Bool) (value : Decimal.Binary64)
  | string (value : String)
  | sequence
  | map

/-- Some text in the signs that set it off inside a message. -/
def ticked (s : String) : String := "\x60" ++ s ++ "\x60"

def signed (negative : Bool) (s : String) : String := if negative then "-" ++ s else s

def Unexpected.text : Unexpected → String
  | null => "null"
  | boolean b => "boolean " ++ ticked (if b then "true" else "false")
  | integer neg n => "integer " ++ ticked (signed neg (toString n))
  | float neg x => "floating point " ++ ticked (signed neg (Decimal.shortest x).text)
  | string s => "string " ++ Text.quote s
  | sequence => "sequence"
  | map => "map"

def invalidType {α : Type} (found : Unexpected) (expected : String) : Reader α :=
  fail (.data ("invalid type: " ++ found.text ++ ", expected " ++ expected))

def isSpace (c : Char) : Bool := c == ' ' || c == '\n' || c == '\t' || c == '\r'

/-- The next character, which stays. -/
def peek : Reader (Option Char) := fun cs => .ok (cs.head?, cs)

/-- The next character behind white space; both the character and what follows stay. -/
def peekToken : Reader (Option Char) := fun cs =>
  let cs := cs.dropWhile isSpace
  .ok (cs.head?, cs)

/-- Takes the next character. -/
def skip : Reader Unit := fun cs => .ok ((), cs.drop 1)

/-- The next character behind white space, where the text may not end. -/
def peekSome : Reader Char := do
  match ← peekToken with
  | some c => pure c
  | none => fail .eof

/-- Takes exactly these characters. -/
def exactly : List Char → Reader Unit
  | [] => pure ()
  | c :: cs => do
    match ← peek with
    | none => fail .eof
    | some d =>
      if c = d then
        skip
        exactly cs
      else fail .malformed

/-- Takes the digits at the front. -/
def digits : Reader (List Char) := fun cs =>
  .ok (cs.takeWhile Char.isDigit, cs.dropWhile Char.isDigit)

def digitValue (c : Char) : Nat := c.toNat - '0'.toNat

/-- The largest significand that is kept exactly; digits behind it only count. -/
def maxSignificand : Nat := 0xFFFFFFFFFFFFFFFF

/-- The largest exponent that is kept exactly. -/
def maxPower : Nat := 0x7FFFFFFF

/-- The largest significand of a negative integer. -/
def maxNegated : Nat := 0x8000000000000000

/-- Appends digits as long as the significand stays in its limit; the answers are the significand
and how many digits were not appended. -/
def appendDigits (significand : Nat) : List Char → Nat × Nat
  | [] => (significand, 0)
  | c :: cs =>
    let next := significand * 10 + digitValue c
    if next ≤ maxSignificand then appendDigits next cs else (significand, cs.length + 1)

/-- A floating point number, unless it is too large. -/
def float (negative : Bool) (significand : Nat) (exponent : Int) : Reader Unexpected :=
  match Decimal.Binary64.ofDecimal? significand exponent with
  | some x => pure (.float negative x)
  | none => fail .malformed

/-- An exponent from its letter on, for a number with the given significand. -/
def exponentPart (negative : Bool) (significand : Nat) (start : Int) : Reader Unexpected := do
  skip
  let sign ← peek
  let down := sign = some '-'
  if sign = some '+' ∨ sign = some '-' then skip
  match ← peek with
  | none => fail .eof
  | some c =>
    if c.isDigit then
      let power := (← digits).foldl (fun n d => n * 10 + digitValue d) 0
      if power ≤ maxPower then
        float negative significand (if down then start - power else start + power)
      else if significand ≠ 0 ∧ ¬ down then fail .malformed
      else pure (.float negative .zero)
    else fail .malformed

/-- What follows the digits in front of the point: an exponent, or the end. -/
def afterDigits (negative : Bool) (significand : Nat) (exponent : Int) : Reader Unexpected := do
  let c ← peek
  if c = some 'e' ∨ c = some 'E' then exponentPart negative significand exponent
  else float negative significand exponent

/-- A fraction from its point on. Digits that do not fit are left out. -/
def fractionPart (negative : Bool) (significand : Nat) (exponent : Int) : Reader Unexpected := do
  skip
  let ds ← digits
  if ds.isEmpty then
    match ← peek with
    | none => fail .eof
    | some _ => fail .malformed
  else
    let (significand, left) := appendDigits significand ds
    afterDigits negative significand (exponent - ((ds.length - left : Nat) : Int))

/-- A number behind its sign. An integer that does not fit becomes a floating point number, and so
does a negative zero. -/
def number (negative : Bool) : Reader Unexpected := do
  match ← peek with
  | none => fail .eof
  | some c =>
    if !c.isDigit then fail .malformed
    else
      let ds ← digits
      if c = '0' ∧ ds.length ≠ 1 then fail .malformed
      else
        let (significand, left) := appendDigits 0 ds
        let next ← peek
        if next = some '.' then fractionPart negative significand left
        else if next = some 'e' ∨ next = some 'E' then exponentPart negative significand left
        else if left ≠ 0 then float negative significand left
        else if negative ∧ (significand = 0 ∨ maxNegated < significand) then
          float negative significand 0
        else pure (.integer negative significand)

/-- The code unit that four hexadecimal digits stand for. -/
def hexUnit : Reader Nat := fun cs =>
  let ds := cs.take 4
  if (String.ofList ds).utf8ByteSize < 4 then .error .eof
  else
    match ds.foldlM (fun n c => (hexValue? c).map (n * 16 + ·)) 0 with
    | some n => if ds.length = 4 then .ok (n, cs.drop 4) else .error .malformed
    | none => .error .malformed
where
  hexValue? (c : Char) : Option Nat :=
    if c.isDigit then some (digitValue c)
    else if 'a' ≤ c ∧ c ≤ 'f' then some (10 + (c.toNat - 'a'.toNat))
    else if 'A' ≤ c ∧ c ≤ 'F' then some (10 + (c.toNat - 'A'.toNat))
    else none

/-- The next character must be this one; inside a string the text may not end here. -/
def expectInString (c : Char) : Reader Unit := do
  match ← peek with
  | none => fail .eof
  | some d => if c = d then skip else fail .malformed

/-- The character of a numeric escape. A character beyond the first plane is written as two units,
and neither of them stands alone. -/
def unicodeEscape : Reader Char := do
  let high ← hexUnit
  if 0xDC00 ≤ high ∧ high ≤ 0xDFFF then fail .malformed
  else if high < 0xD800 ∨ 0xDBFF < high then pure (Char.ofNat high)
  else
    expectInString '\\'
    expectInString 'u'
    let low ← hexUnit
    if low < 0xDC00 ∨ 0xDFFF < low then fail .malformed
    else pure (Char.ofNat ((high - 0xD800) * 0x400 + (low - 0xDC00) + 0x10000))

/-- The character of an escape behind its backslash; with `exact` off a numeric escape is only
looked over. -/
def escape (exact : Bool) : Reader Char := do
  match ← peek with
  | none => fail .eof
  | some c =>
    skip
    match c with
    | '"' => pure '"'
    | '\\' => pure '\\'
    | '/' => pure '/'
    | 'b' => pure '\x08'
    | 'f' => pure '\x0c'
    | 'n' => pure '\n'
    | 'r' => pure '\r'
    | 't' => pure '\t'
    | 'u' =>
      if exact then unicodeEscape
      else do
        let _ ← hexUnit
        pure ' '
    | _ => fail .malformed

/-- The rest of a string, in at most `fuel` characters. -/
def stringWithin (exact : Bool) : Nat → Reader (List Char)
  | 0 => fail .eof
  | fuel + 1 => do
    match ← peek with
    | none => fail .eof
    | some '"' => do
      skip
      pure []
    | some '\\' => do
      skip
      let c ← escape exact
      let rest ← stringWithin exact fuel
      pure (c :: rest)
    | some c =>
      if c.toNat < 0x20 then fail .malformed
      else do
        skip
        let rest ← stringWithin exact fuel
        pure (c :: rest)

/-- A string behind its opening quote. -/
def stringRest (exact : Bool) : Reader String := fun cs =>
  (stringWithin exact (cs.length + 1) cs).map fun (value, rest) => (String.ofList value, rest)

/-- Reads as much of a value as it takes to name it, and rejects it. -/
def reject {α : Type} (c : Char) (expected : String) : Reader α := do
  let literal (rest : String) (found : Unexpected) : Reader α := do
    skip
    exactly rest.toList
    invalidType found expected
  match c with
  | 'n' => literal "ull" .null
  | 't' => literal "rue" (.boolean true)
  | 'f' => literal "alse" (.boolean false)
  | '-' => do
    skip
    invalidType (← number true) expected
  | '"' => do
    skip
    invalidType (.string (← stringRest true)) expected
  | '[' => invalidType .sequence expected
  | '{' => invalidType .map expected
  | c => if c.isDigit then do invalidType (← number false) expected else fail .malformed

def boolean : Reader Bool := do
  match ← peekSome with
  | 't' => do
    skip
    exactly "rue".toList
    pure true
  | 'f' => do
    skip
    exactly "alse".toList
    pure false
  | c => reject c "a boolean"

/-- A string; `expected` is what messages say should have stood there. -/
def stringFor (expected : String) : Reader String := do
  match ← peekSome with
  | '"' => do
    skip
    stringRest true
  | c => reject c expected

def string : Reader String := stringFor "a string"

/-- A string, or null for none. -/
def optionalString : Reader (Option String) := do
  match ← peekToken with
  | some 'n' => do
    skip
    exactly "ull".toList
    pure none
  | _ => do pure (some (← string))

def nullFor (expected : String) : Reader Unit := do
  match ← peekSome with
  | 'n' => do
    skip
    exactly "ull".toList
  | c => reject c expected

/-- The colon behind a key. -/
def colon : Reader Unit := do
  match ← peekSome with
  | ':' => skip
  | _ => fail .malformed

/-- The rest of a fraction or exponent that nobody asks for: at least one digit. -/
def someDigits : Reader Unit := do
  if (← digits).isEmpty then fail .malformed

/-- A number that nobody asks for, behind its sign. -/
def ignoredNumber : Reader Unit := do
  let ds ← digits
  if ds.isEmpty ∨ (ds.head? = some '0' ∧ ds.length ≠ 1) then fail .malformed
  if (← peek) = some '.' then
    skip
    if (← digits).isEmpty then fail .malformed
  let c ← peek
  if c = some 'e' ∨ c = some 'E' then
    skip
    let sign ← peek
    if sign = some '+' ∨ sign = some '-' then skip
    someDigits

/-- What an ignored value stands in. -/
inductive Frame
  | list
  | object
deriving DecidableEq, Repr

/-- A key that nobody asks for, with its colon. -/
def ignoredKey : Reader Unit := do
  match ← peekSome with
  | '"' => do
    skip
    let _ ← stringRest false
    colon
  | _ => fail .malformed

/-- Passes over a value inside the given frames and over all that closes them. Where `inner` is
set a value comes next; otherwise what follows one does. -/
def ignoredWithin : Nat → Bool → List Frame → Reader Unit
  | 0, _, _ => fail .eof
  | fuel + 1, true, frames => do
    let open_ (f : Frame) (close : Char) : Reader Unit := do
      skip
      match ← peekSome with
      | c =>
        if c = close then do
          skip
          ignoredWithin fuel false frames
        else do
          if f = .object then ignoredKey
          ignoredWithin fuel true (f :: frames)
    match ← peekSome with
    | 'n' => do
      skip
      exactly "ull".toList
      ignoredWithin fuel false frames
    | 't' => do
      skip
      exactly "rue".toList
      ignoredWithin fuel false frames
    | 'f' => do
      skip
      exactly "alse".toList
      ignoredWithin fuel false frames
    | '-' => do
      skip
      ignoredNumber
      ignoredWithin fuel false frames
    | '"' => do
      skip
      let _ ← stringRest false
      ignoredWithin fuel false frames
    | '[' => open_ .list ']'
    | '{' => open_ .object '}'
    | c =>
      if c.isDigit then do
        ignoredNumber
        ignoredWithin fuel false frames
      else fail .malformed
  | _ + 1, false, [] => pure ()
  | fuel + 1, false, f :: frames => do
    let close := match f with
      | .list => ']'
      | .object => '}'
    match ← peekSome with
    | ',' => do
      skip
      if f = .object then ignoredKey
      ignoredWithin fuel true (f :: frames)
    | c =>
      if c = close then do
        skip
        ignoredWithin fuel false frames
      else fail .malformed

/-- A value that nobody asks for. -/
def ignored : Reader Unit := fun cs => ignoredWithin (2 * cs.length + 2) true [] cs

/-- Goes on to the next element of a list, if there is one. -/
def nextElement (first : Bool) : Reader Bool := do
  match ← peekSome with
  | ']' => pure false
  | ',' =>
    if first then pure true
    else do
      skip
      match ← peekSome with
      | ']' => fail .malformed
      | _ => pure true
  | _ => if first then pure true else fail .malformed

/-- The end of a list. -/
def endList : Reader Unit := do
  match ← peekSome with
  | ']' => skip
  | _ => fail .malformed

/-- Goes on to the next key of an object, if there is one. -/
def nextKey (first : Bool) : Reader (Option String) := do
  let key (c : Char) : Reader (Option String) := do
    match c with
    | '"' => do
      skip
      pure (some (← stringRest true))
    | _ => fail .malformed
  match ← peekSome with
  | '}' => pure none
  | ',' =>
    if first then fail .malformed
    else do
      skip
      key (← peekSome)
  | c => if first then key c else fail .malformed

/-- Reads a whole text. -/
def readAll {α : Type} (r : Reader α) (s : String) : Except ReadError α := do
  let (a, cs) ← r s.toList
  if cs.all isSpace then .ok a else .error .malformed

end InterfaceRecord.Json
