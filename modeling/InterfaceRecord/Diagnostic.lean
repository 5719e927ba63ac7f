/-
  What can be wrong with an interface, and the list in which the findings of a derivation are kept.
-/
namespace InterfaceRecord

/-- A structural problem. -/
inductive Fault
  /-- A method takes arguments or returns nothing. -/
  | signature (interface method : String)
  /-- A method has type parameters of its own. -/
  | genericMethod (interface method : String)
  /-- No component was found. -/
  | noComponents
  /-- A component has two types. -/
  | conflict (name first firstInterface second secondInterface : String)
  /-- No member fits the name that an annotation gives as initializer. -/
  | missingInitializer (name : String)
  /-- The derivation contradicts itself. -/
  | internal (text : String)
deriving DecidableEq, Repr

inductive Severity
  | error
  | internalError
deriving DecidableEq, Repr

namespace Fault

/-- The text shown to the user. -/
def message : Fault → String
  | signature interface method =>
    "Non-static, non-default methods must take no arguments and must return a value. Bad method: "
      ++ interface ++ "." ++ method ++ "()"
  | genericMethod interface method =>
    "Interface methods cannot have type parameters. Bad method: "
      ++ interface ++ "." ++ method ++ "()"
  | noComponents => "Annotated interface has no component methods"
  | conflict name first firstInterface second secondInterface =>
    "Conflicting types for component " ++ name ++ "(): " ++ first ++ " in " ++ firstInterface
      ++ ", " ++ second ++ " in " ++ secondInterface
  | missingInitializer name =>
    "No matching public static field or method found for initializer named: " ++ name
  | internal text => "Internal error: " ++ text

def severity : Fault → Severity
  | internal _ => .internalError
  | _ => .error

end Fault

def Severity.text : Severity → String
  | error => "error"
  | internalError => "internal error"

/-- A fault and the site to which it is pinned. -/
structure Diagnostic (S : Type) where
  fault : Fault
  site : S
deriving DecidableEq, Repr

namespace Diagnostic

variable {S : Type}

def severity (d : Diagnostic S) : Severity := d.fault.severity

def message (d : Diagnostic S) : String := d.fault.message

/-- Severity, message and site in one line, for a given text of sites. -/
def display (siteText : S → String) (d : Diagnostic S) : String :=
  d.severity.text ++ ": " ++ d.message ++ " (" ++ siteText d.site ++ ")"

end Diagnostic

/-- The findings of a derivation in the order in which they were made. -/
abbrev Diagnostics (S : Type) := List (Diagnostic S)

namespace Diagnostics

variable {S : Type}

def add (ds : Diagnostics S) (fault : Fault) (site : S) : Diagnostics S :=
  ds ++ [⟨fault, site⟩]

/-- Any finding ends a derivation without a result. -/
def failed (ds : Diagnostics S) : Bool := !ds.isEmpty

def hasInternal (ds : Diagnostics S) : Bool :=
  ds.any (·.severity = .internalError)

end Diagnostics

end InterfaceRecord
