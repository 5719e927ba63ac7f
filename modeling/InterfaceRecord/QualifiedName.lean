/-
  Qualified names and the place where they split into a package and a simple name.
-/
namespace InterfaceRecord

/-- The texts before and behind the last place where `sep` occurs. -/
def splitLast? (sep : List Char) : List Char → Option (List Char × List Char)
  | [] => if sep.isEmpty then some ([], []) else none
  | c :: cs =>
    match splitLast? sep cs with
    | some (front, back) => some (c :: front, back)
    | none => if sep.isPrefixOf (c :: cs) then some ([], (c :: cs).drop sep.length) else none

/-- A name whose parts are divided by a separator. -/
structure QualifiedName where
  text : String
  separator : String
deriving DecidableEq, Repr

namespace QualifiedName

def split? (n : QualifiedName) : Option (List Char × List Char) :=
  splitLast? n.separator.toList n.text.toList

/-- All that stands before the last separator; nothing if there is none. -/
def package (n : QualifiedName) : String :=
  match n.split? with
  | some (front, _) => String.ofList front
  | none => ""

/-- What stands behind the last separator; the whole name if there is none. -/
def simple (n : QualifiedName) : String :=
  match n.split? with
  | some (_, back) => String.ofList back
  | none => n.text

end QualifiedName

/-- The two pieces and the separator between them make up the text again. -/
theorem eq_append_of_splitLast? {sep cs front back : List Char}
    (h : splitLast? sep cs = some (front, back)) : cs = front ++ sep ++ back := by
  induction cs generalizing front back with
  | nil =>
    unfold splitLast? at h
    split at h
    · rename_i hs
      cases h
      simp_all
    · cases h
  | cons c cs ih =>
    unfold splitLast? at h
    split at h
    · rename_i f b hf
      cases h
      simp [ih hf]
    · split at h
      · rename_i hp
        cases h
        obtain ⟨t, ht⟩ := List.isPrefixOf_iff_prefix.1 hp
        rw [← ht]
        simp
      · cases h

end InterfaceRecord
