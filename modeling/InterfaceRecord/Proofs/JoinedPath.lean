/-
  Paths as texts. No identifier holds a colon, so the double colons of a joined path are those that
  were put in: two paths that are joined to the same text are the same (`joinPath_injective`), and a
  trait's qualified name splits into the path of its module and its own name (`split?_joinPath`).
-/
import InterfaceRecord.QualifiedName
import InterfaceRecord.Trait.Entry
import Mathlib.Data.List.TakeWhile

namespace InterfaceRecord

/-! ## Where a text splits -/

/-- A separator does not occur where its first character does not. -/
theorem splitLast?_eq_none_of_not_mem {c : Char} {sep cs : List Char} (h : c ∉ cs) :
    splitLast? (c :: sep) cs = none := by
  induction cs with
  | nil => rfl
  | cons d cs ih =>
    have hne : c ≠ d := fun hc => h (hc ▸ List.mem_cons_self)
    rw [splitLast?, ih fun hc => h (List.mem_cons_of_mem d hc)]
    simp [List.isPrefixOf, hne]

/-- A text splits at a place where the separator stands, if it stands nowhere further right. -/
theorem splitLast?_append {c : Char} {sep back : List Char}
    (h : splitLast? (c :: sep) (sep ++ back) = none) (front : List Char) :
    splitLast? (c :: sep) (front ++ c :: sep ++ back) = some (front, back) := by
  induction front with
  | nil =>
    rw [List.nil_append, List.cons_append, splitLast?, h]
    simp [List.isPrefixOf]
  | cons d front ih =>
    rw [List.cons_append, List.cons_append, splitLast?, ih]

/-- An identifier is its text. -/
theorem Source.Ident.text_injective : Function.Injective Source.Ident.text := by
  intro i j h
  cases i
  cases j
  simpa using h

namespace Trait

open InterfaceRecord.Source

/-! ## Joined paths -/

/-- The segments of a path, each with a double colon in front. -/
def linked (path : List Ident) : List Char :=
  path.flatMap fun i => ':' :: ':' :: i.text.toList

theorem linked_cons (i : Ident) (path : List Ident) :
    linked (i :: path) = ':' :: ':' :: (i.text.toList ++ linked path) := by
  simp [linked]

theorem toList_joinPath_cons (i : Ident) (path : List Ident) :
    (joinPath (i :: path)).toList = i.text.toList ++ linked path := by
  induction path generalizing i with
  | nil => simp [joinPath, linked]
  | cons j path ih =>
    have h : joinPath (i :: j :: path) = i.text ++ "::" ++ joinPath (j :: path) := by
      simp [joinPath]
    rw [h, String.toList_append, String.toList_append, ih, linked_cons]
    simp

theorem joinPath_concat {home : List Ident} (h : home ≠ []) (name : Ident) :
    joinPath (home ++ [name]) = joinPath home ++ "::" ++ name.text := by
  have hhome : home.map (·.text) ≠ [] := by simpa using h
  rw [joinPath, List.map_append, String.intercalate_append_of_ne_nil hhome (by simp)]
  simp [joinPath]

/-- The first segment of a joined path ends at the first colon. -/
theorem takeWhile_text_append_linked (i : Ident) (path : List Ident) :
    (i.text.toList ++ linked path).takeWhile (· ≠ ':') = i.text.toList := by
  have hi : i.text.toList.takeWhile (· ≠ ':') = i.text.toList := by
    rw [List.takeWhile_eq_self_iff]
    intro c hc
    exact decide_eq_true fun he => i.colon_not_mem (he ▸ hc)
  rw [List.takeWhile_append, if_pos (by rw [hi]), List.append_right_eq_self]
  cases path with
  | nil => rfl
  | cons j path => simp [linked_cons]

theorem text_append_linked_inj {i j : Ident} {path path' : List Ident}
    (h : i.text.toList ++ linked path = j.text.toList ++ linked path') :
    i = j ∧ linked path = linked path' := by
  have hfirst := congrArg (List.takeWhile (· ≠ ':')) h
  rw [takeWhile_text_append_linked, takeWhile_text_append_linked] at hfirst
  have hij : i = j := Ident.text_injective (String.toList_inj.mp hfirst)
  rw [hfirst] at h
  exact ⟨hij, List.append_cancel_left h⟩

theorem linked_injective : Function.Injective linked := by
  intro path
  induction path with
  | nil =>
    intro path' h
    cases path' with
    | nil => rfl
    | cons j path' => simp [linked] at h
  | cons i path ih =>
    intro path' h
    cases path' with
    | nil => simp [linked] at h
    | cons j path' =>
      rw [linked_cons, linked_cons, List.cons.injEq, List.cons.injEq] at h
      obtain ⟨hij, hrest⟩ := text_append_linked_inj h.2.2
      rw [hij, ih hrest]

/-- Paths that are joined to the same text are the same. -/
theorem joinPath_injective : Function.Injective joinPath := by
  have hne (i : Ident) (path : List Ident) : joinPath (i :: path) ≠ joinPath [] := by
    intro h
    have hlist := congrArg String.toList h
    rw [toList_joinPath_cons] at hlist
    exact i.toList_ne_nil (List.append_eq_nil_iff.mp hlist).1
  intro path path' h
  cases path with
  | nil =>
    cases path' with
    | nil => rfl
    | cons j path' => exact absurd h.symm (hne j path')
  | cons i path =>
    cases path' with
    | nil => exact absurd h (hne i path)
    | cons j path' =>
      have hlist := congrArg String.toList h
      rw [toList_joinPath_cons, toList_joinPath_cons] at hlist
      obtain ⟨hij, hrest⟩ := text_append_linked_inj hlist
      rw [hij, linked_injective hrest]

/-- A joined path splits in front of its last segment, unless that is its only one. -/
theorem split?_joinPath (home : List Ident) (name : Ident) :
    QualifiedName.split? ⟨joinPath (home ++ [name]), "::"⟩ =
      if home = [] then none else some ((joinPath home).toList, name.text.toList) := by
  have hsep : "::".toList = [':', ':'] := rfl
  have hname : splitLast? [':', ':'] name.text.toList = none :=
    splitLast?_eq_none_of_not_mem name.colon_not_mem
  rw [QualifiedName.split?]
  dsimp only
  rw [hsep]
  by_cases hhome : home = []
  · have hjoin : joinPath (home ++ [name]) = name.text := by simp [hhome, joinPath]
    rw [hjoin, hname, if_pos hhome]
  · have hbehind : splitLast? [':', ':'] ([':'] ++ name.text.toList) = none := by
      rw [List.singleton_append, splitLast?, hname]
      cases h : name.text.toList with
      | nil => rfl
      | cons c cs =>
        have hc : ':' ≠ c := fun hc => name.colon_not_mem (by rw [h, hc]; exact List.mem_cons_self)
        simp [List.isPrefixOf, hc]
    have hjoin : (joinPath (home ++ [name])).toList =
        (joinPath home).toList ++ ':' :: [':'] ++ name.text.toList := by
      rw [joinPath_concat hhome, String.toList_append, String.toList_append, hsep]
    rw [hjoin, splitLast?_append hbehind, if_neg hhome]

/-- The name behind the last double colon of a qualified name is the trait's own. -/
theorem simple_joinPath (home : List Ident) (name : Ident) :
    QualifiedName.simple ⟨joinPath (home ++ [name]), "::"⟩ = name.text := by
  rw [QualifiedName.simple, split?_joinPath]
  by_cases hhome : home = []
  · simp [hhome, joinPath]
  · simp [hhome]

/-- What stands before the last double colon is the path of the trait's module. -/
theorem package_joinPath (home : List Ident) (name : Ident) :
    QualifiedName.package ⟨joinPath (home ++ [name]), "::"⟩ = joinPath home := by
  rw [QualifiedName.package, split?_joinPath]
  by_cases hhome : home = []
  · simp [hhome, joinPath]
  · simp [hhome]

end Trait

end InterfaceRecord
