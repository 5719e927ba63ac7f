/-
  A traversal as one loop over what is still to be entered. `traverse_eq_sweep`: the recursion does
  what the loop does, and the depth it is given is enough on every set of interfaces.
-/
import InterfaceRecord.Proofs.Examination
import InterfaceRecord.Proofs.Preorder

namespace InterfaceRecord

namespace Catalog

open Traversal

variable {I M T S V : Type} (g : Catalog I M T S V)

/-- Enters an interface and examines its methods. -/
def visit (policy : ConflictPolicy) (i : I) (w : Traversal I M T S V) : Traversal I M T S V :=
  g.examineAll policy i (g.methods i) (w.enter i (g.qualifiedName i))

theorem visited_visit (policy : ConflictPolicy) (i : I) (w : Traversal I M T S V) :
    (g.visit policy i w).visited = w.visited ++ [g.qualifiedName i] :=
  (g.sameEntered_examineAll policy i _ _).1

theorem entered_visit (policy : ConflictPolicy) (i : I) (w : Traversal I M T S V) :
    (g.visit policy i w).entered = w.entered ++ [i] :=
  (g.sameEntered_examineAll policy i _ _).2.trans (entered_enter w i _)

/-- Meets the interfaces in `todo` in turn. One of a new name is visited, and its direct supertypes
come before the rest of `todo`. A failure ends all. -/
def sweep (policy : ConflictPolicy) : List I → Traversal I M T S V → Traversal I M T S V
  | [], w => w
  | i :: todo, w =>
    if w.failed then w
    else if g.qualifiedName i ∈ w.visited then sweep policy todo (w.note (.revisited i))
    else if (g.visit policy i w).hasInternal then g.visit policy i w
    else sweep policy (g.supertypes i ++ todo) ((g.visit policy i w).note (.expanded i))
termination_by todo w => ((g.unmet todo w.visited).card, todo.length)
decreasing_by
  · rw [Prod.lex_def]
    have hle := Finset.card_le_card (g.unmet_tail_subset i todo w.visited)
    simp only [visited_note, List.length_cons]
    omega
  · rename_i h _
    apply Prod.Lex.left
    rw [visited_note, visited_visit]
    exact g.unmet_enter_card_lt todo h

variable (policy : ConflictPolicy)

@[simp] theorem sweep_nil (w : Traversal I M T S V) : g.sweep policy [] w = w := by
  rw [sweep]

theorem sweep_of_failed (todo : List I) {w : Traversal I M T S V} (h : w.failed = true) :
    g.sweep policy todo w = w := by
  cases todo with
  | nil => rw [sweep_nil]
  | cons i todo => rw [sweep, if_pos h]

variable {policy}

theorem sweep_cons_of_mem {i : I} {w : Traversal I M T S V} (todo : List I)
    (hf : w.failed = false) (h : g.qualifiedName i ∈ w.visited) :
    g.sweep policy (i :: todo) w = g.sweep policy todo (w.note (.revisited i)) := by
  rw [sweep, if_neg (Bool.eq_false_iff.mp hf), if_pos h]

theorem sweep_cons_of_hasInternal {i : I} {w : Traversal I M T S V} (todo : List I)
    (hf : w.failed = false) (h : g.qualifiedName i ∉ w.visited)
    (hi : (g.visit policy i w).hasInternal = true) :
    g.sweep policy (i :: todo) w = g.visit policy i w := by
  rw [sweep, if_neg (Bool.eq_false_iff.mp hf), if_neg h, if_pos hi]

theorem sweep_cons_of_not_mem {i : I} {w : Traversal I M T S V} (todo : List I)
    (hf : w.failed = false) (h : g.qualifiedName i ∉ w.visited)
    (hi : (g.visit policy i w).hasInternal = false) :
    g.sweep policy (i :: todo) w =
      g.sweep policy (g.supertypes i ++ todo) ((g.visit policy i w).note (.expanded i)) := by
  rw [sweep, if_neg (Bool.eq_false_iff.mp hf), if_neg h, if_neg (Bool.eq_false_iff.mp hi)]

variable (policy)

theorem sweep_append (front back : List I) (w : Traversal I M T S V) :
    g.sweep policy (front ++ back) w = g.sweep policy back (g.sweep policy front w) := by
  induction front, w using sweep.induct g policy with
  | case1 w => rw [sweep_nil, List.nil_append]
  | case2 i todo w hf => rw [sweep_of_failed g _ _ hf, sweep_of_failed g _ _ hf,
      sweep_of_failed g _ _ hf]
  | case3 i todo w hf h ih =>
    have hf' := Bool.eq_false_iff.mpr hf
    rw [List.cons_append, sweep_cons_of_mem g _ hf' h, sweep_cons_of_mem g _ hf' h, ih]
  | case4 i todo w hf h hi =>
    have hf' := Bool.eq_false_iff.mpr hf
    rw [List.cons_append, sweep_cons_of_hasInternal g _ hf' h hi,
      sweep_cons_of_hasInternal g _ hf' h hi, sweep_of_failed g _ _ (failed_of_hasInternal hi)]
  | case5 i todo w hf h hi ih =>
    have hf' := Bool.eq_false_iff.mpr hf
    have hi' := Bool.eq_false_iff.mpr hi
    rw [List.cons_append, sweep_cons_of_not_mem g _ hf' h hi',
      sweep_cons_of_not_mem g _ hf' h hi', ← List.append_assoc, ih]

theorem sweep_cons (i : I) (todo : List I) (w : Traversal I M T S V) :
    g.sweep policy (i :: todo) w = g.sweep policy todo (g.sweep policy [i] w) :=
  g.sweep_append policy [i] todo w

/-- Names that were entered stay entered. -/
theorem visited_subset_sweep (todo : List I) (w : Traversal I M T S V) :
    w.visited ⊆ (g.sweep policy todo w).visited := by
  induction todo, w using sweep.induct g policy with
  | case1 w => rw [sweep_nil]; exact List.Subset.refl _
  | case2 i todo w hf => rw [sweep_of_failed g _ _ hf]; exact List.Subset.refl _
  | case3 i todo w hf h ih =>
    rw [sweep_cons_of_mem g _ (Bool.eq_false_iff.mpr hf) h]
    exact ih
  | case4 i todo w hf h hi =>
    rw [sweep_cons_of_hasInternal g _ (Bool.eq_false_iff.mpr hf) h hi, visited_visit]
    exact List.subset_append_left _ _
  | case5 i todo w hf h hi ih =>
    rw [sweep_cons_of_not_mem g _ (Bool.eq_false_iff.mpr hf) h (Bool.eq_false_iff.mpr hi)]
    apply List.Subset.trans _ ih
    rw [visited_note, visited_visit]
    exact List.subset_append_left _ _

/-! ## The recursion and the loop -/

/-- One level of the recursion. -/
theorem descend_succ (depth : Nat) (i : I) (w : Traversal I M T S V) :
    g.descend policy (depth + 1) i w =
      if g.qualifiedName i ∈ w.visited then w.note (.revisited i)
      else if (g.visit policy i w).hasInternal then g.visit policy i w
      else (g.supertypes i).foldl
        (fun w p => if w.failed then w else g.descend policy depth p w)
        ((g.visit policy i w).note (.expanded i)) := by
  rw [descend]
  simp only [List.contains_iff_mem]
  rfl

/-- Supertypes in turn, where from each of them on the recursion does what the loop does. -/
theorem foldl_descend_eq_sweep {depth : Nat} {todo : List I} {w : Traversal I M T S V}
    (h : ∀ p ∈ todo, ∀ w', w.visited ⊆ w'.visited → w'.failed = false →
      g.descend policy depth p w' = g.sweep policy [p] w') :
    todo.foldl (fun w p => if w.failed then w else g.descend policy depth p w) w =
      g.sweep policy todo w := by
  induction todo generalizing w with
  | nil => rw [List.foldl_nil, sweep_nil]
  | cons p todo ih =>
    have hp : (if w.failed then w else g.descend policy depth p w) = g.sweep policy [p] w := by
      split
      · rename_i hf
        rw [sweep_of_failed g _ _ hf]
      · rename_i hf
        exact h p List.mem_cons_self w (List.Subset.refl _) (Bool.eq_false_iff.mpr hf)
    rw [List.foldl_cons, hp, sweep_cons g policy p todo]
    apply ih
    intro q hq w' hw
    exact h q (List.mem_cons_of_mem p hq) w'
      (List.Subset.trans (g.visited_subset_sweep policy [p] w) hw)

/-- With more levels than there are names left, the recursion does what the loop does. Each level
enters a name, so the levels below it have one name less. -/
theorem descend_eq_sweep {depth : Nat} {i : I} {w : Traversal I M T S V}
    (hf : w.failed = false) (hd : (g.unmet [i] w.visited).card < depth) :
    g.descend policy depth i w = g.sweep policy [i] w := by
  induction depth generalizing i w with
  | zero => exact absurd hd (Nat.not_lt_zero _)
  | succ depth ih =>
    rw [descend_succ]
    by_cases hv : g.qualifiedName i ∈ w.visited
    · rw [if_pos hv, sweep_cons_of_mem g _ hf hv, sweep_nil]
    · rw [if_neg hv]
      cases hi : (g.visit policy i w).hasInternal with
      | true => rw [if_pos rfl, sweep_cons_of_hasInternal g _ hf hv hi]
      | false =>
        rw [if_neg Bool.false_ne_true, sweep_cons_of_not_mem g _ hf hv hi, List.append_nil]
        apply foldl_descend_eq_sweep
        intro p hp w' hw hf'
        apply ih hf'
        have hlt := g.unmet_enter_card_lt [] hv
        have hle : g.unmet [p] w'.visited ⊆
            g.unmet (g.supertypes i ++ []) (w.visited ++ [g.qualifiedName i]) := by
          apply g.unmet_mono
          · intro q hq
            rw [List.mem_singleton.mp hq]
            exact ⟨p, List.mem_append_left _ hp, List.Subset.refl _⟩
          · rw [visited_note, visited_visit] at hw
            exact hw
        have := Finset.card_le_card hle
        omega

/-- A traversal is the loop that starts with its root. -/
theorem traverse_eq_sweep (root : I) (v : V) :
    g.traverse policy root v = g.sweep policy [root] { void := v } := by
  rw [traverse]
  apply g.descend_eq_sweep policy rfl
  have hle : (g.unmet [root] []).card ≤ (g.names root).length := by
    rw [unmet, List.flatMap_singleton]
    exact (Finset.card_le_card Finset.sdiff_subset).trans (List.toFinset_card_le _)
  exact Nat.lt_succ_of_le hle

end Catalog

end InterfaceRecord
