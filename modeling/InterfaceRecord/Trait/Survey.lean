/-
  The traits of a file in source order, those in inline modules among them.
-/
import InterfaceRecord.Trait.Entry

namespace InterfaceRecord.Trait

open InterfaceRecord.Source

/-- The module in which the survey is, and the traits it has found. -/
structure Survey where
  home : List Ident := []
  found : List TraitEntry := []

namespace Survey

def enter (s : Survey) (name : Ident) : Survey :=
  { s with home := s.home ++ [name] }

/-- Back to the module around the present one. -/
def leave (s : Survey) : Survey :=
  { s with home := s.home.dropLast }

def add (s : Survey) (t : TraitItem) : Survey :=
  { s with found := s.found ++ [.ofItem s.home t] }

mutual

/-- Surveys an item: a trait is added, an inline module is gone through, all else is passed. -/
def item (s : Survey) : Item → Survey
  | .interface t => s.add t
  | .inlineModule name its => ((s.enter name).items its).leave
  | .fileModule _ => s
  | .other => s

/-- Surveys items one after another. -/
def items (s : Survey) : List Item → Survey
  | [] => s
  | i :: is => (s.item i).items is

end

end Survey

/-- The traits among the items of a file. -/
def traitsOf (items : List Item) : List TraitEntry :=
  (({} : Survey).items items).found

end InterfaceRecord.Trait
