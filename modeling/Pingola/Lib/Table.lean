import Mathlib.Data.List.AList
import Mathlib.Algebra.GroupWithZero.Nat
import Mathlib.Algebra.Order.BigOperators.Group.List
import Mathlib.Algebra.Order.Group.Nat
import Mathlib.Algebra.Order.BigOperators.Group.Finset

/-!
# Tables and their totals

A table is an association list without repeated keys. The total of a table under a measure of
its values is the sum over its entries; it is a function of the lookups alone.
-/

abbrev Table (K V : Type) := AList fun _ : K => V

namespace Table

variable {K V W : Type}

def total (f : V → ℕ) (t : Table K V) : ℕ := (t.entries.map fun e => f e.2).sum

@[simp] lemma total_empty (f : V → ℕ) : total f (∅ : Table K V) = 0 := rfl

lemma total_one (t : Table K V) : total (fun _ => 1) t = t.entries.length := by
  simp [total]

lemma total_mono {f g : V → ℕ} (h : ∀ v, f v ≤ g v) (t : Table K V) : total f t ≤ total g t :=
  List.sum_le_sum fun e _ => h e.2

variable [DecidableEq K]

lemma total_insert (f : V → ℕ) (t : Table K V) (k : K) (v : V) :
    total f (t.insert k v) = f v + total f (t.erase k) := by
  rw [total, AList.entries_insert, List.map_cons, List.sum_cons]
  rfl

lemma total_eq_sum (f : V → ℕ) (t : Table K V) :
    total f t = ∑ k ∈ t.keys.toFinset, ((t.lookup k).map f).getD 0 := by
  rw [List.sum_toFinset _ t.keys_nodup, AList.keys, List.keys, List.map_map, total]
  refine congrArg List.sum (List.map_congr_left fun e he => ?_)
  have hlookup : t.lookup e.1 = some e.2 := AList.mem_lookup_iff.mpr he
  simp [hlookup]

/-- Tables with corresponding lookups have equal totals. -/
lemma total_congr {f : V → ℕ} {g : W → ℕ} {t : Table K V} {u : Table K W}
    (h : ∀ k, (t.lookup k).map f = (u.lookup k).map g) : total f t = total g u := by
  have hkeys : t.keys.toFinset = u.keys.toFinset := by
    ext k
    rw [List.mem_toFinset, List.mem_toFinset, ← AList.mem_keys, ← AList.mem_keys, ← AList.lookup_isSome,
      ← AList.lookup_isSome, ← Option.isSome_map (f := f), h, Option.isSome_map]
  rw [total_eq_sum, total_eq_sum, hkeys]
  exact Finset.sum_congr rfl fun k _ => by rw [h]

/-- A table whose entries recur in another one has the smaller total. -/
lemma total_le_of_lookup {f : V → ℕ} {g : W → ℕ} {t : Table K V} {u : Table K W}
    (h : ∀ k v, t.lookup k = some v → (u.lookup k).map g = some (f v)) : total f t ≤ total g u := by
  have hsub : t.keys.toFinset ⊆ u.keys.toFinset := by
    intro k hk
    rw [List.mem_toFinset, ← AList.mem_keys, ← AList.lookup_isSome] at hk ⊢
    obtain ⟨v, hv⟩ := Option.isSome_iff_exists.mp hk
    rw [← Option.isSome_map (f := g), h k v hv, Option.isSome_some]
  rw [total_eq_sum, total_eq_sum]
  refine (Finset.sum_congr rfl fun k hk => ?_).trans_le (Finset.sum_le_sum_of_subset hsub)
  rw [List.mem_toFinset, ← AList.mem_keys, ← AList.lookup_isSome] at hk
  obtain ⟨v, hv⟩ := Option.isSome_iff_exists.mp hk
  rw [h k v hv, hv, Option.map_some]

/-- Removing a key takes its value out of the total. -/
lemma total_erase_add {t : Table K V} {k : K} {v : V} (f : V → ℕ) (h : t.lookup k = some v) :
    total f t = f v + total f (t.erase k) := by
  rw [← total_insert]
  refine total_congr fun l => ?_
  by_cases hl : l = k
  · rw [hl, h, AList.lookup_insert]
  · rw [AList.lookup_insert_ne hl]

lemma total_erase_of_none {t : Table K V} {k : K} (f : V → ℕ) (h : t.lookup k = none) :
    total f (t.erase k) = total f t := by
  refine total_congr fun l => ?_
  by_cases hl : l = k
  · rw [hl, h, AList.lookup_erase]
  · rw [AList.lookup_erase_ne hl]

lemma total_erase_le (f : V → ℕ) (t : Table K V) (k : K) : total f (t.erase k) ≤ total f t := by
  cases h : t.lookup k with
  | none => rw [total_erase_of_none f h]
  | some v =>
    rw [total_erase_add f h]
    exact Nat.le_add_left _ _

lemma length_insert_of_some {t : Table K V} {k : K} {w : V} (h : t.lookup k = some w) (v : V) :
    (t.insert k v).entries.length = t.entries.length := by
  rw [← total_one, ← total_one, total_insert, total_erase_add _ h]

lemma length_insert_of_none {t : Table K V} {k : K} (h : t.lookup k = none) (v : V) :
    (t.insert k v).entries.length = t.entries.length + 1 := by
  rw [← total_one, ← total_one, total_insert, total_erase_of_none _ h, Nat.add_comm]

/-! ### Lookups after a change -/

lemma lookup_insert_if (t : Table K V) (k k' : K) (v : V) :
    (t.insert k v).lookup k' = if k' = k then some v else t.lookup k' := by
  split
  case isTrue h => rw [h, AList.lookup_insert]
  case isFalse h => exact AList.lookup_insert_ne h

lemma lookup_erase_if (t : Table K V) (k k' : K) :
    (t.erase k).lookup k' = if k' = k then none else t.lookup k' := by
  split
  case isTrue h => rw [h, AList.lookup_erase]
  case isFalse h => exact AList.lookup_erase_ne h

/-- What is found after an insertion was put there or is found before. -/
lemma lookup_insert_cases {t : Table K V} {k k' : K} {v v' : V} (h : (t.insert k v).lookup k' = some v') :
    k' = k ∧ v' = v ∨ k' ≠ k ∧ t.lookup k' = some v' := by
  rw [lookup_insert_if] at h
  split at h
  case isTrue hk => exact .inl ⟨hk, (Option.some.inj h).symm⟩
  case isFalse hk => exact .inr ⟨hk, h⟩

lemma lookup_of_erase {t : Table K V} {k : K} (k' : K) (v : V) (h : (t.erase k).lookup k' = some v) :
    t.lookup k' = some v := by
  rw [lookup_erase_if] at h
  split at h
  · cases h
  · exact h

/-! ### Retaining entries -/

omit [DecidableEq K] in
lemma nodupKeys_filter (p : K → V → Bool) (t : Table K V) :
    (t.entries.filter fun e => p e.1 e.2).NodupKeys :=
  t.nodupKeys.sublist List.filter_sublist

/-- Keeps the entries that pass a test. -/
def retain (p : K → V → Bool) (t : Table K V) : Table K V :=
  ⟨t.entries.filter fun e => p e.1 e.2, nodupKeys_filter p t⟩

lemma lookup_retain (p : K → V → Bool) (t : Table K V) (k : K) :
    (t.retain p).lookup k = (t.lookup k).filter (p k) := by
  ext v
  rw [Option.filter_eq_some_iff]
  change v ∈ (t.retain p).lookup k ↔ v ∈ t.lookup k ∧ _
  rw [AList.mem_lookup_iff, AList.mem_lookup_iff, retain, List.mem_filter]

omit [DecidableEq K] in
lemma length_retain (p : K → V → Bool) (t : Table K V) :
    (t.retain p).entries.length + (t.entries.filter fun e => !p e.1 e.2).length = t.entries.length := by
  rw [retain, List.length_eq_length_filter_add (l := t.entries) fun e => p e.1 e.2]

end Table
