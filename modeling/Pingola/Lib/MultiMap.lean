import Mathlib.Data.List.Dedup
import Mathlib.Data.List.Induction

/-!
# Multimaps

A multimap is the list of its pairs in iteration order. `insert` replaces every value of a
key and keeps the position of the first one.
-/

namespace MultiMap

variable {K V : Type} [DecidableEq K]

def insert : List (K × V) → K → V → List (K × V)
  | [], k, v => [(k, v)]
  | p :: m, k, v => if p.1 = k then (k, v) :: m.filter (fun q => q.1 ≠ k) else p :: insert m k v

def getAll (m : List (K × V)) (k : K) : List V := (m.filter fun p => p.1 = k).map Prod.snd

/-- Removes every value of a key. -/
def remove (m : List (K × V)) (k : K) : List (K × V) := m.filter fun p => p.1 ≠ k

/-- The keys are removed in order. -/
def removeAll (m : List (K × V)) (ks : List K) : List (K × V) := ks.foldl remove m

/-- Each key once. -/
def keys (m : List (K × V)) : List K := (m.map Prod.fst).dedup

/-- The pairs are inserted in order. -/
def insertAll (m : List (K × V)) (ps : List (K × V)) : List (K × V) :=
  ps.foldl (fun m p => insert m p.1 p.2) m

lemma getAll_insert_self (m : List (K × V)) (k : K) (v : V) : getAll (insert m k v) k = [v] := by
  induction m with
  | nil => simp [insert, getAll]
  | cons p m ih =>
    unfold insert
    split_ifs with hp
    · simp [getAll, List.filter_filter]
    · unfold getAll at ih ⊢
      rw [List.filter_cons_of_neg (by simpa using hp), ih]

lemma getAll_insert_of_ne {k l : K} (h : l ≠ k) (m : List (K × V)) (v : V) :
    getAll (insert m k v) l = getAll m l := by
  induction m with
  | nil => simp [insert, getAll, h.symm]
  | cons p m ih =>
    unfold insert
    split_ifs with hp
    · have hpl : p.1 ≠ l := fun he => h (he.symm.trans hp)
      have hkeep : ∀ q : K × V, (decide (q.1 = l) && decide (q.1 ≠ k)) = decide (q.1 = l) := by
        intro q
        by_cases hq : q.1 = l
        · simp [hq, h]
        · simp [hq]
      simp only [getAll, List.filter_cons, h.symm, hpl, decide_false, Bool.false_eq_true, if_false,
        List.filter_filter, hkeep]
    · simp only [getAll, List.filter_cons] at ih ⊢
      split_ifs <;> simp [ih]

lemma getAll_insert (m : List (K × V)) (k : K) (v : V) (l : K) :
    getAll (insert m k v) l = if l = k then [v] else getAll m l := by
  split_ifs with h
  · rw [h, getAll_insert_self]
  · exact getAll_insert_of_ne h m v

/-- After a series of insertions a key holds the last value inserted for it. -/
lemma getAll_insertAll (m ps : List (K × V)) (k : K) :
    getAll (insertAll m ps) k =
      ((getAll ps k).getLast?.map fun v => [v]).getD (getAll m k) := by
  induction ps using List.reverseRecOn with
  | nil => simp [insertAll, getAll]
  | append_singleton ps p ih =>
    simp only [insertAll, List.foldl_append, List.foldl_cons, List.foldl_nil] at ih ⊢
    by_cases hp : p.1 = k
    · rw [← hp, getAll_insert_self]
      simp [getAll]
    · rw [getAll_insert_of_ne (Ne.symm hp), ih]
      simp [getAll, hp]

/-- Insertions under names of their own. -/
lemma getAll_insertAll_of_nodup {ps : List (K × V)} (h : (ps.map Prod.fst).Nodup) (m : List (K × V)) (k : K) :
    getAll (insertAll m ps) k = if getAll ps k = [] then getAll m k else getAll ps k := by
  have hlength : (getAll ps k).length ≤ 1 := by
    rw [getAll, List.length_map, ← List.countP_eq_length_filter]
    have hcount := List.nodup_iff_count_le_one.mp h k
    rwa [List.count_eq_countP, List.countP_map] at hcount
  rw [getAll_insertAll]
  rcases hvalues : getAll ps k with - | ⟨v, - | ⟨w, values⟩⟩
  · rfl
  · rfl
  · rw [hvalues] at hlength
    exact absurd hlength (by simp)

lemma getAll_remove (m : List (K × V)) (k l : K) :
    getAll (remove m k) l = if l = k then [] else getAll m l := by
  unfold getAll remove
  rw [List.filter_filter]
  by_cases h : l = k
  · subst h
    simp
  · rw [if_neg h]
    congr 2
    funext p
    by_cases hp : p.1 = l
    · simp [hp, h]
    · simp [hp]

lemma getAll_removeAll (m : List (K × V)) (ks : List K) (l : K) :
    getAll (removeAll m ks) l = if l ∈ ks then [] else getAll m l := by
  induction ks generalizing m with
  | nil => simp [removeAll]
  | cons k ks ih =>
    rw [removeAll, List.foldl_cons, ← removeAll, ih, getAll_remove]
    by_cases hl : l ∈ ks
    · simp [hl]
    · simp [hl]

lemma mem_keys_iff {m : List (K × V)} {k : K} : k ∈ keys m ↔ getAll m k ≠ [] := by
  rw [keys, List.mem_dedup, List.mem_map, getAll, ne_eq, List.map_eq_nil_iff, List.filter_eq_nil_iff]
  constructor
  · rintro ⟨p, hmem, rfl⟩ hnone
    exact hnone p hmem (by simp)
  · intro hsome
    by_contra hnone
    exact hsome fun p hmem hp => hnone ⟨p, hmem, by simpa using hp⟩

lemma nodup_keys (m : List (K × V)) : (keys m).Nodup := List.nodup_dedup _

end MultiMap
