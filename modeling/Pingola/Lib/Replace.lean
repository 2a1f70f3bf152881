import Mathlib.Data.List.Infix

/-!
# Replacing a part of a text

Every occurrence of a pattern is replaced, from left to right and without overlaps.
-/

namespace Replace

variable {α : Type} [DecidableEq α]

/-- The replacement in the rest of a text; each round takes an occurrence or one letter. -/
def loop (pattern by' : List α) : ℕ → List α → List α
  | 0, text => text
  | _ + 1, [] => []
  | fuel + 1, a :: text =>
    if pattern.isPrefixOf (a :: text) then by' ++ loop pattern by' fuel ((a :: text).drop pattern.length)
    else a :: loop pattern by' fuel text

def replaceAll (pattern by' text : List α) : List α := loop pattern by' text.length text

variable {pattern by' text : List α}

/-- A text without the pattern stays as it is. -/
lemma loop_of_not_infix (fuel : ℕ) (h : ¬pattern <:+: text) : loop pattern by' fuel text = text := by
  induction fuel generalizing text with
  | zero => rfl
  | succ fuel ih =>
    cases text with
    | nil => rfl
    | cons a text =>
      have hhere : pattern.isPrefixOf (a :: text) = false := by
        rw [Bool.eq_false_iff]
        exact fun hp => h (List.isPrefixOf_iff_prefix.mp hp).isInfix
      have hlater : ¬pattern <:+: text := fun hp => h (hp.trans (List.infix_cons (List.infix_refl text)))
      rw [loop, hhere, if_neg Bool.false_ne_true, ih hlater]

/-- Extra rounds find nothing more. -/
lemma loop_congr (hpattern : pattern ≠ []) {m n : ℕ} (hm : text.length ≤ m) (hn : text.length ≤ n) :
    loop pattern by' m text = loop pattern by' n text := by
  have hpos : 0 < pattern.length := List.length_pos_iff.mpr hpattern
  induction m generalizing n text with
  | zero =>
    obtain rfl := List.length_eq_zero_iff.mp (Nat.le_zero.mp hm)
    cases n <;> rfl
  | succ m ih =>
    cases text with
    | nil => cases n <;> rfl
    | cons a text =>
      obtain ⟨n, rfl⟩ : ∃ k, n = k + 1 := ⟨n - 1, by rw [List.length_cons] at hn; omega⟩
      rw [List.length_cons] at hm hn
      have hrest : ((a :: text).drop pattern.length).length ≤ text.length := by
        rw [List.length_drop, List.length_cons]
        omega
      rw [loop, loop, ih (hrest.trans (Nat.le_of_succ_le_succ hm)) (hrest.trans (Nat.le_of_succ_le_succ hn)),
        ih (Nat.le_of_succ_le_succ hm) (Nat.le_of_succ_le_succ hn)]

lemma replaceAll_of_not_infix (h : ¬pattern <:+: text) : replaceAll pattern by' text = text :=
  loop_of_not_infix text.length h

/-- The pattern at the front is the first occurrence. -/
lemma replaceAll_append (hpattern : pattern ≠ []) (rest : List α) :
    replaceAll pattern by' (pattern ++ rest) = by' ++ replaceAll pattern by' rest := by
  obtain ⟨a, pattern, rfl⟩ := List.exists_cons_of_ne_nil hpattern
  have hfront : (a :: pattern).isPrefixOf (a :: (pattern ++ rest)) = true :=
    List.isPrefixOf_iff_prefix.mpr (List.prefix_append (a :: pattern) rest)
  have hdrop : (a :: (pattern ++ rest)).drop (a :: pattern).length = rest :=
    List.drop_left' rfl
  rw [replaceAll, List.cons_append, List.length_cons, loop, if_pos hfront, hdrop]
  refine congrArg (by' ++ ·) (loop_congr hpattern ?_ (Nat.le_refl _))
  rw [List.length_append]
  exact Nat.le_add_left _ _

end Replace
