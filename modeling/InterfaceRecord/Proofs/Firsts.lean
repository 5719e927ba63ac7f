/-
  The first element of each key of a list. `firsts_append`: what comes behind only counts where its
  key is new, so that the lists can be reduced one by one and merged (`firsts_append_eq_merge`).
  `find?_firsts`: looking up a key finds what it finds in the whole list.
-/
import Mathlib.Data.List.Basic
import Mathlib.Data.List.Induction
import Mathlib.Data.List.Nodup

namespace InterfaceRecord

variable {α β : Type}

/-- The first element of each key, in order. -/
def firsts (key : α → String) (xs : List α) : List α :=
  xs.eraseDupsBy fun a b => key a == key b

@[simp] theorem firsts_nil (key : α → String) : firsts key ([] : List α) = [] := rfl

theorem firsts_cons (key : α → String) (x : α) (xs : List α) :
    firsts key (x :: xs) = x :: firsts key (xs.filter (key · ≠ key x)) := by
  rw [firsts, List.eraseDupsBy_cons, firsts]
  congr 2
  apply List.filter_congr
  intro y _
  simp only [beq_eq_false_iff_ne]

/-- Choosing by key does not lose a key that is chosen. -/
theorem mem_map_filter (key : α → String) (p : String → Bool) (xs : List α) {k : String}
    (hp : p k = true) : k ∈ (xs.filter (p <| key ·)).map key ↔ k ∈ xs.map key := by
  rw [List.mem_map, List.mem_map]
  constructor
  · rintro ⟨x, hx, rfl⟩
    exact ⟨x, (List.mem_filter.mp hx).1, rfl⟩
  · rintro ⟨x, hx, rfl⟩
    exact ⟨x, List.mem_filter.mpr ⟨hx, hp⟩, rfl⟩

/-- What comes behind counts where its key is new. -/
theorem firsts_append (key : α → String) (xs ys : List α) :
    firsts key (xs ++ ys) =
      firsts key xs ++ firsts key (ys.filter (key · ∉ xs.map key)) := by
  -- Taking the first of a key shortens the rest to those of other keys.
  induction h : xs.length using Nat.strongRecOn generalizing xs ys with
  | _ n ih =>
    cases xs with
    | nil =>
      simp only [List.nil_append, firsts_nil, List.map_nil, List.not_mem_nil,
        not_false_eq_true, decide_true, List.filter_true]
    | cons x xs =>
      have hlt : (xs.filter (key · ≠ key x)).length < n := by
        have := List.length_filter_le (key · ≠ key x) xs
        rw [← h, List.length_cons]
        omega
      rw [List.cons_append, firsts_cons, List.filter_append, ih _ hlt _ _ rfl, firsts_cons,
        List.cons_append, List.filter_filter]
      congr 3
      apply List.filter_congr
      intro y _
      by_cases hne : key y = key x
      · simp only [hne, ne_eq, not_true_eq_false, decide_false, Bool.and_false, List.map_cons,
          List.mem_cons, true_or]
      · have hmem := mem_map_filter key (fun k => decide (k ≠ key x)) xs (decide_eq_true hne)
        simp only [hmem, ne_eq, hne, not_false_eq_true, decide_true, Bool.and_true,
          List.map_cons, List.mem_cons, false_or]

theorem firsts_eq_nil_iff {key : α → String} {xs : List α} : firsts key xs = [] ↔ xs = [] := by
  cases xs with
  | nil => exact ⟨fun _ => rfl, fun _ => rfl⟩
  | cons x xs =>
    rw [firsts_cons]
    exact ⟨fun h => absurd h (List.cons_ne_nil _ _), fun h => absurd h (List.cons_ne_nil _ _)⟩

/-- One element more counts if its key is new. -/
theorem firsts_concat (key : α → String) (xs : List α) (x : α) :
    firsts key (xs ++ [x]) =
      if key x ∈ xs.map key then firsts key xs else firsts key xs ++ [x] := by
  rw [firsts_append, List.filter_singleton]
  split
  · rename_i h
    rw [decide_eq_false (not_not.mpr h), cond_false, firsts_nil, List.append_nil]
  · rename_i h
    rw [decide_eq_true h, cond_true, firsts_cons, List.filter_nil, firsts_nil]

/-- Choosing by key may come before or after. -/
theorem firsts_filter (key : α → String) (p : String → Bool) (xs : List α) :
    firsts key (xs.filter (p <| key ·)) = (firsts key xs).filter (p <| key ·) := by
  induction xs using List.reverseRecOn with
  | nil => rfl
  | append_singleton xs x ih =>
    rw [List.filter_append, List.filter_singleton, firsts_concat]
    cases hp : p (key x) with
    | false =>
      rw [cond_false, List.append_nil, ih]
      split
      · rfl
      · rw [List.filter_append, List.filter_singleton, hp, cond_false, List.append_nil]
    | true =>
      rw [cond_true, firsts_concat, ih]
      simp only [mem_map_filter key p xs hp]
      split
      · rfl
      · rw [List.filter_append, List.filter_singleton, hp, cond_true]

theorem firsts_sublist (key : α → String) (xs : List α) : (firsts key xs).Sublist xs := by
  induction xs using List.reverseRecOn with
  | nil => exact List.Sublist.refl _
  | append_singleton xs x ih =>
    rw [firsts_concat]
    split
    · exact ih.trans (List.sublist_append_left xs [x])
    · exact ih.append (List.Sublist.refl [x])

theorem nodup_map_firsts (key : α → String) (xs : List α) : ((firsts key xs).map key).Nodup := by
  induction xs using List.reverseRecOn with
  | nil => exact List.nodup_nil
  | append_singleton xs x ih =>
    rw [firsts_concat]
    split
    · exact ih
    · rename_i h
      rw [List.map_append, List.map_singleton, ← List.concat_eq_append]
      exact ih.concat fun hx => h (((firsts_sublist key xs).map key).subset hx)

theorem find?_firsts (key : α → String) (xs : List α) (k : String) :
    (firsts key xs).find? (key · == k) = xs.find? (key · == k) := by
  induction xs using List.reverseRecOn with
  | nil => rfl
  | append_singleton xs x ih =>
    rw [firsts_concat, List.find?_append]
    split
    · rename_i h
      obtain ⟨y, hy, hyx⟩ := List.mem_map.mp h
      rw [ih]
      cases hf : xs.find? (key · == k) with
      | some z => rfl
      | none =>
        have hne : key y ≠ k := by
          have := List.find?_eq_none.mp hf y hy
          simpa using this
        rw [hyx] at hne
        rw [Option.none_or, List.find?_singleton, beq_eq_false_iff_ne.mpr hne]
        rfl
    · rw [List.find?_append, ih]

/-- A key occurs among the first elements if it occurs at all. -/
theorem mem_map_firsts {key : α → String} {xs : List α} {k : String} :
    k ∈ (firsts key xs).map key ↔ k ∈ xs.map key := by
  have hfind (ys : List α) : k ∈ ys.map key ↔ (ys.find? (key · == k)).isSome := by
    rw [List.find?_isSome, List.mem_map]
    simp only [beq_iff_eq]
  rw [hfind, hfind, find?_firsts]

/-- Elements that are not the first ones of their keys may be left out. -/
theorem firsts_filter_of_forall {key : α → String} {p : α → Bool} {xs : List α}
    (h : ∀ x ∈ firsts key xs, p x = true) : firsts key (xs.filter p) = firsts key xs := by
  induction xs using List.reverseRecOn with
  | nil => rfl
  | append_singleton xs x ih =>
    have hkeys (hxs : ∀ y ∈ firsts key xs, p y = true) :
        key x ∈ (xs.filter p).map key ↔ key x ∈ xs.map key := by
      rw [← mem_map_firsts, ih hxs, mem_map_firsts]
    rw [firsts_concat] at h ⊢
    rw [List.filter_append, List.filter_singleton]
    by_cases hx : key x ∈ xs.map key
    · rw [if_pos hx] at h ⊢
      cases p x with
      | false => rw [cond_false, List.append_nil, ih h]
      | true => rw [cond_true, firsts_concat, if_pos ((hkeys h).mpr hx), ih h]
    · rw [if_neg hx] at h ⊢
      have hxs : ∀ y ∈ firsts key xs, p y = true := fun y hy => h y (List.mem_append_left _ hy)
      rw [h x (List.mem_append_right _ (List.mem_singleton_self x)), cond_true, firsts_concat,
        if_neg (mt (hkeys hxs).mp hx), ih hxs]

/-- The first elements of renamed elements are the renamed first elements, if the renaming keeps
keys. -/
theorem firsts_map {key : β → String} {key' : α → String} {f : α → β} {xs : List α}
    (h : ∀ x ∈ xs, key (f x) = key' x) : firsts key (xs.map f) = (firsts key' xs).map f := by
  induction xs using List.reverseRecOn with
  | nil => rfl
  | append_singleton xs x ih =>
    have hxs : ∀ y ∈ xs, key (f y) = key' y := fun y hy => h y (List.mem_append_left _ hy)
    have hx : key (f x) = key' x := h x (List.mem_append_right _ (List.mem_singleton_self x))
    have hkeys : (xs.map f).map key = xs.map key' := by
      rw [List.map_map]
      exact List.map_congr_left hxs
    rw [List.map_append, List.map_singleton, firsts_concat, firsts_concat, hkeys, hx, ih hxs]
    split
    · rfl
    · rw [List.map_append, List.map_singleton]

/-! ## Merging -/

/-- What is in `xs`, then what is in `ys` and has another key. -/
def merge (key : α → String) (xs ys : List α) : List α :=
  xs ++ ys.filter (key · ∉ xs.map key)

@[simp] theorem merge_nil (key : α → String) (xs : List α) : merge key xs [] = xs := by
  rw [merge, List.filter_nil, List.append_nil]

theorem mem_merge {key : α → String} {xs ys : List α} {x : α} :
    x ∈ merge key xs ys ↔ x ∈ xs ∨ x ∈ ys ∧ key x ∉ xs.map key := by
  rw [merge, List.mem_append, List.mem_filter, decide_eq_true_iff]

/-- A key occurs in a merger if it occurs in one of the two lists. -/
theorem mem_map_merge {key : α → String} {xs ys : List α} {k : String} :
    k ∈ (merge key xs ys).map key ↔ k ∈ xs.map key ∨ k ∈ ys.map key := by
  constructor
  · intro h
    obtain ⟨x, hx, rfl⟩ := List.mem_map.mp h
    rcases mem_merge.mp hx with hx | hx
    · exact Or.inl (List.mem_map_of_mem hx)
    · exact Or.inr (List.mem_map_of_mem hx.1)
  · intro h
    by_cases hk : k ∈ xs.map key
    · rw [merge, List.map_append]
      exact List.mem_append_left _ hk
    · obtain ⟨y, hy, rfl⟩ := List.mem_map.mp (h.resolve_left hk)
      exact List.mem_map_of_mem (mem_merge.mpr (Or.inr ⟨hy, hk⟩))

theorem merge_concat_of_mem {key : α → String} {xs ys : List α} {y : α}
    (h : key y ∈ xs.map key) : merge key xs (ys ++ [y]) = merge key xs ys := by
  rw [merge, List.filter_append, List.filter_singleton, decide_eq_false (not_not.mpr h),
    cond_false, List.append_nil, merge]

theorem merge_concat_of_not_mem {key : α → String} {xs ys : List α} {y : α}
    (h : key y ∉ xs.map key) : merge key xs (ys ++ [y]) = merge key xs ys ++ [y] := by
  rw [merge, List.filter_append, List.filter_singleton, decide_eq_true h, cond_true,
    ← List.append_assoc, merge]

theorem map_merge (key : β → String) (f : α → β) (xs ys : List α) :
    (merge (fun x => key (f x)) xs ys).map f = merge key (xs.map f) (ys.map f) := by
  rw [merge, merge, List.map_append, List.filter_map, List.map_map]
  rfl

/-- Of two lists the first elements of keys come together by merging. -/
theorem firsts_append_eq_merge (key : α → String) (xs ys : List α) :
    firsts key (xs ++ ys) = merge key (firsts key xs) (firsts key ys) := by
  rw [firsts_append, firsts_filter key (fun k => decide (k ∉ xs.map key)), merge]
  congr 1
  apply List.filter_congr
  intro y _
  simp only [mem_map_firsts]

/-- Elements that are there already add nothing. -/
theorem firsts_append_of_subset {key : α → String} {xs ys : List α} (h : ∀ y ∈ ys, y ∈ xs) :
    firsts key (xs ++ ys) = firsts key xs := by
  have hnone : ys.filter (key · ∉ xs.map key) = [] := by
    rw [List.filter_eq_nil_iff]
    intro y hy hn
    exact of_decide_eq_true hn (List.mem_map_of_mem (h y hy))
  rw [firsts_append, hnone, firsts_nil, List.append_nil]

/-! ## Look-up -/

/-- Where keys tell members apart, a member is found by its key. -/
theorem find?_of_nodup_map (key : α → String) {xs : List α}
    (h : (xs.map key).Nodup) {x : α} (hx : x ∈ xs) : xs.find? (key · == key x) = some x := by
  induction xs with
  | nil => cases hx
  | cons y xs ih =>
    rw [List.map_cons, List.nodup_cons] at h
    rcases List.mem_cons.mp hx with rfl | hx
    · simp
    · have hne : key y ≠ key x := fun hkey => h.1 (hkey ▸ List.mem_map_of_mem hx)
      rw [List.find?_cons_of_neg (by simpa using hne)]
      exact ih h.2 hx

/-- A look-up in pairs of keys and values. -/
theorem lookup_map (key : α → String) (value : α → β) (xs : List α) (k : String) :
    (xs.map fun x => (key x, value x)).lookup k = (xs.find? (key · == k)).map value := by
  induction xs with
  | nil => rfl
  | cons x xs ih =>
    rw [List.map_cons, List.lookup_cons, List.find?_cons, ih]
    by_cases h : key x = k
    · simp [h]
    · have h' : (k == key x) = false := beq_eq_false_iff_ne.mpr (Ne.symm h)
      rw [h', beq_eq_false_iff_ne.mpr h]

end InterfaceRecord
