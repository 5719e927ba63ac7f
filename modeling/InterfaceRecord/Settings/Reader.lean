/-
  Settings from JSON text: an object of named settings or a list of them in order. Settings that
  are missing keep their defaults.
-/
import InterfaceRecord.Json.Reader
import InterfaceRecord.Settings

namespace InterfaceRecord.Settings

open InterfaceRecord.Json

/-- The keys of the settings in the order of a list. -/
inductive Key
  | addBuilder
  | package
  | recordSuffix
  | builderSuffix
  | conflicts
deriving DecidableEq, Repr

def Key.all : List Key := [.addBuilder, .package, .recordSuffix, .builderSuffix, .conflicts]

def Key.text : Key → String
  | addBuilder => "add_builder"
  | package => "package_override"
  | recordSuffix => "interface_suffix"
  | builderSuffix => "builder_suffix"
  | conflicts => "override_policy"

/-- The text that stands for a conflict policy. -/
def policyText : ConflictPolicy → String
  | .firstWins => "first_wins"
  | .reject => "reject"

def policyOf (name : String) : Reader ConflictPolicy :=
  match [ConflictPolicy.firstWins, .reject].find? (policyText · == name) with
  | some p => pure p
  | none => fail (.data ("unknown variant " ++ ticked name ++ ", expected "
      ++ ticked (policyText .firstWins) ++ " or " ++ ticked (policyText .reject)))

/-- A conflict policy: its name, or an object whose only key is its name. -/
def conflictPolicy : Reader ConflictPolicy := do
  match ← peekSome with
  | '"' => do policyOf (← string)
  | '{' => do
    skip
    let p ← policyOf (← stringFor "variant identifier")
    colon
    nullFor "unit"
    match ← peekSome with
    | '}' => do
      skip
      pure p
    | _ => fail .malformed
  | _ => fail .malformed

/-- Reads the value of a setting. -/
def readValue (s : Settings) : Key → Reader Settings
  | .addBuilder => do pure { s with addBuilder := ← boolean }
  | .package => do pure { s with package := ← optionalString }
  | .recordSuffix => do pure { s with recordSuffix := ← string }
  | .builderSuffix => do pure { s with builderSuffix := ← string }
  | .conflicts => do pure { s with conflicts := ← conflictPolicy }

/-- The settings of an object; a known key comes once, and others are passed over. -/
def readObject : Nat → Bool → List Key → Settings → Reader Settings
  | 0, _, _, _ => fail .eof
  | fuel + 1, first, seen, s => do
    match ← nextKey first with
    | none => do
      skip
      pure s
    | some name =>
      match Key.all.find? (·.text == name) with
      | some k =>
        if seen.contains k then fail (.data ("duplicate field " ++ ticked name))
        else do
          colon
          readObject fuel false (k :: seen) (← readValue s k)
      | none => do
        colon
        ignored
        readObject fuel false seen s

/-- The settings of a list. -/
def readList : Bool → List Key → Settings → Reader Settings
  | _, [], s => do
    endList
    pure s
  | first, k :: ks, s => do
    if ← nextElement first then readList false ks (← readValue s k)
    else do
      endList
      pure s

def reader : Reader Settings := fun cs =>
  (do
    match ← peekSome with
    | '[' => do
      skip
      readList true Key.all {}
    | '{' => do
      skip
      readObject (cs.length + 1) true [] {}
    | c => reject c "struct DeriveConfig" : Reader Settings) cs

/-- Reads settings from JSON text. -/
def ofJson (text : String) : Except ReadError Settings := readAll reader text

end InterfaceRecord.Settings
