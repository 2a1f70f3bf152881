import Pingola.Lib.Table

/-!
# Caches that evict the least recently used entry

A table whose entries are ordered by their last use, the most recent one first. Inserting puts an entry
in front, so that the order takes care of itself; a cache that is too long loses its last entry. An
implementation of such caches is known by what it holds.
-/

namespace Table

variable {K V : Type} {t : Table K V}

/-- Without the last entry. -/
def dropOldest (t : Table K V) : Table K V :=
  ⟨t.entries.dropLast, t.nodupKeys.sublist (List.dropLast_sublist _)⟩

lemma entries_dropOldest (t : Table K V) : t.dropOldest.entries = t.entries.dropLast := rfl

lemma total_dropOldest (f : V → ℕ) {e : Sigma fun _ : K => V} (h : t.entries.getLast? = some e) :
    total f t = total f t.dropOldest + f e.2 := by
  have hsplit : t.entries = t.entries.dropLast ++ [e] :=
    (List.dropLast_append_getLast? e h).symm
  rw [total, hsplit, List.map_append, List.sum_append, List.map_singleton, List.sum_singleton]
  rfl

variable [DecidableEq K]

lemma lookup_of_dropOldest {k : K} {v : V} (h : t.dropOldest.lookup k = some v) : t.lookup k = some v :=
  AList.mem_lookup_iff.mpr (List.mem_of_mem_dropLast (AList.mem_lookup_iff.mp h))

lemma lookup_of_head {k : K} {v : V} (h : t.entries.head? = some ⟨k, v⟩) : t.lookup k = some v :=
  AList.mem_lookup_iff.mpr (List.mem_of_mem_head? h)

end Table

/-- At most `n` entries. -/
structure LruCache (n : ℕ) (K V : Type) where
  table : Table K V
  bounded : table.entries.length ≤ n

namespace LruCache

variable {n : ℕ} {K V : Type}

def empty : LruCache n K V := ⟨∅, Nat.zero_le n⟩

/-- The least recently used entry. -/
def oldest (c : LruCache n K V) : Option (K × V) := c.table.entries.getLast?.map fun e => (e.1, e.2)

/-- The most recently used entry. -/
def newest (c : LruCache n K V) : Option (K × V) := c.table.entries.head?.map fun e => (e.1, e.2)

def popLru (c : LruCache n K V) : Option ((K × V) × LruCache n K V) :=
  c.oldest.map fun e => (e, ⟨c.table.dropOldest, (List.dropLast_sublist _).length_le.trans c.bounded⟩)

variable [DecidableEq K]

lemma length_insert_le (c : LruCache n K V) (k : K) (v : V) : (c.table.insert k v).entries.length ≤ n + 1 := by
  cases h : c.table.lookup k with
  | none =>
    rw [Table.length_insert_of_none h]
    exact Nat.succ_le_succ c.bounded
  | some w =>
    rw [Table.length_insert_of_some h]
    exact c.bounded.trans (Nat.le_succ n)

/-- Puts an entry in front and drops the oldest one if there are too many. -/
def put (c : LruCache n K V) (k : K) (v : V) : LruCache n K V :=
  if h : (c.table.insert k v).entries.length ≤ n then ⟨c.table.insert k v, h⟩
  else ⟨Table.dropOldest (c.table.insert k v), by
    rw [Table.entries_dropOldest, List.length_dropLast]
    exact Nat.sub_le_of_le_add (c.length_insert_le k v)⟩

/-- Puts an entry in front. The result is the entry that it replaces, or the one that is evicted. -/
def push (c : LruCache n K V) (k : K) (v : V) : LruCache n K V × Option (K × V) :=
  (c.put k v,
    match c.table.lookup k with
    | some old => some (k, old)
    | none => if c.table.entries.length < n then none else c.oldest)

/-- A value that is found counts as used. -/
def get (c : LruCache n K V) (k : K) : Option V × LruCache n K V :=
  match c.table.lookup k with
  | some v => (some v, c.put k v)
  | none => (none, c)

section

variable {c c' : LruCache n K V} {k k' : K} {v w : V} {e : K × V}

lemma lookup_of_newest (h : c.newest = some (k, v)) : c.table.lookup k = some v := by
  obtain ⟨e, he, hkv⟩ := Option.map_eq_some_iff.mp h
  obtain ⟨rfl, rfl⟩ := Prod.mk.inj hkv
  exact Table.lookup_of_head he

lemma le_total_of_newest (h : c.newest = some (k, v)) (f : V → ℕ) : f v ≤ c.table.total f := by
  rw [Table.total_erase_add f (lookup_of_newest h)]
  exact Nat.le_add_right _ _

omit [DecidableEq K] in
/-- The newest entry is the only one of a cache without a second one. -/
lemma total_of_newest (h : c.newest = some (k, v)) (hlength : c.table.entries.length < 2) (f : V → ℕ) :
    c.table.total f = f v := by
  obtain ⟨first, hfirst, hkv⟩ := Option.map_eq_some_iff.mp h
  obtain ⟨rest, hentries⟩ := List.head?_eq_some_iff.mp hfirst
  obtain rfl : rest = [] := by
    rw [hentries, List.length_cons] at hlength
    exact List.length_eq_zero_iff.mp (by omega)
  rw [Table.total, hentries, ← (Prod.mk.inj hkv).2]
  exact List.sum_singleton

lemma table_put (c : LruCache n K V) (k : K) (v : V) :
    (c.put k v).table = if (c.table.insert k v).entries.length ≤ n then c.table.insert k v
      else Table.dropOldest (c.table.insert k v) := by
  rw [put]
  split <;> rfl

/-- Putting an entry under a key that is there evicts nothing. -/
lemma table_put_of_lookup (h : c.table.lookup k = some w) (v : V) :
    (c.put k v).table = c.table.insert k v := by
  rw [table_put, if_pos]
  rw [Table.length_insert_of_some h]
  exact c.bounded

lemma lookup_get (c : LruCache n K V) (k k' : K) : (c.get k).2.table.lookup k' = c.table.lookup k' := by
  rw [get]
  split
  case h_1 v hv =>
    dsimp only
    rw [table_put_of_lookup hv, Table.lookup_insert_if]
    split
    case isTrue hk => rw [hk, hv]
    case isFalse hk => rfl
  case h_2 => rfl

lemma get_fst (c : LruCache n K V) (k : K) : (c.get k).1 = c.table.lookup k := by
  rw [get]
  split
  case h_1 v hv => rw [hv]
  case h_2 hv => rw [hv]

/-- What is found after an insertion was put there or is found before. -/
lemma lookup_put_cases (h : (c.put k v).table.lookup k' = some w) :
    k' = k ∧ w = v ∨ k' ≠ k ∧ c.table.lookup k' = some w := by
  rw [table_put] at h
  split at h
  case isTrue => exact Table.lookup_insert_cases h
  case isFalse => exact Table.lookup_insert_cases (Table.lookup_of_dropOldest h)

lemma newest_put [NeZero n] (c : LruCache n K V) (k : K) (v : V) : (c.put k v).newest = some (k, v) := by
  rw [newest, table_put]
  split
  case isTrue => rfl
  case isFalse hlong =>
    have hrest : c.table.entries.kerase k ≠ [] := by
      intro hnil
      rw [AList.entries_insert, hnil] at hlong
      exact hlong (NeZero.pos n)
    rw [Table.entries_dropOldest, AList.entries_insert, List.dropLast_cons_of_ne_nil hrest]
    rfl

/-- The total under a measure of the values changes by the new value and the one that leaves. -/
lemma total_push [NeZero n] (f : V → ℕ) (c : LruCache n K V) (k : K) (v : V) :
    (c.push k v).1.table.total f + ((c.push k v).2.map fun e => f e.2).getD 0 = c.table.total f + f v := by
  rw [push]
  cases h : c.table.lookup k with
  | some old =>
    dsimp only
    rw [table_put_of_lookup h, Table.total_insert, Table.total_erase_add f h]
    simp only [Option.map_some, Option.getD_some]
    omega
  | none =>
    have hinsert : Table.total f (c.table.insert k v) = f v + c.table.total f := by
      rw [Table.total_insert, Table.total_erase_of_none f h]
    dsimp only
    rw [table_put, Table.length_insert_of_none h]
    by_cases hroom : c.table.entries.length < n
    · rw [if_pos hroom, if_pos (Nat.succ_le_of_lt hroom), hinsert, Nat.add_comm (f v)]
      rfl
    · rw [if_neg hroom, if_neg fun hle => hroom (Nat.lt_of_succ_le hle)]
      -- the last entry of the old table is the last one of the new table
      have hne : c.table.entries ≠ [] := by
        intro hnil
        rw [hnil] at hroom
        exact hroom (NeZero.pos n)
      obtain ⟨e, he⟩ := Option.ne_none_iff_exists'.mp (mt List.getLast?_eq_none_iff.mp hne)
      have hlast : (c.table.insert k v).entries.getLast? = some e := by
        rw [AList.entries_insert, List.kerase_of_notMem_keys (AList.lookup_eq_none.mp h),
          List.getLast?_cons_of_ne_nil hne, he]
      rw [oldest, he, Nat.add_comm _ (f v), ← hinsert, Table.total_dropOldest f hlast]
      rfl

omit [DecidableEq K] in
lemma popLru_eq_none (h : c.popLru = none) (f : V → ℕ) : c.table.total f = 0 := by
  rw [popLru, Option.map_eq_none_iff, oldest, Option.map_eq_none_iff, List.getLast?_eq_none_iff] at h
  rw [Table.total, h]
  rfl

lemma popLru_eq_some (h : c.popLru = some (e, c')) :
    c'.table.entries.length < c.table.entries.length ∧
      (∀ f : V → ℕ, c.table.total f = c'.table.total f + f e.2) ∧
      (∀ k v, c'.table.lookup k = some v → c.table.lookup k = some v) ∧
      (2 ≤ c.table.entries.length → c'.newest = c.newest) := by
  obtain ⟨e', he', h⟩ := Option.map_eq_some_iff.mp h
  obtain ⟨last, hlast, rfl⟩ := Option.map_eq_some_iff.mp he'
  obtain ⟨rfl, rfl⟩ := Prod.mk.inj h
  have hne : c.table.entries ≠ [] := by
    intro hnil
    rw [hnil] at hlast
    cases hlast
  refine ⟨?_, fun f => Table.total_dropOldest f hlast, fun k v => Table.lookup_of_dropOldest, fun hlong => ?_⟩
  · dsimp only
    rw [Table.entries_dropOldest, List.length_dropLast]
    exact Nat.sub_lt (List.length_pos_iff.mpr hne) Nat.one_pos
  · rw [newest, newest]
    dsimp only
    rw [Table.entries_dropOldest]
    rcases hentries : c.table.entries with _ | ⟨first, rest⟩
    · exact absurd hentries hne
    · rw [hentries] at hlong
      have hrest : rest ≠ [] := by
        rintro rfl
        exact absurd hlong (Nat.not_succ_le_self 1)
      rw [List.dropLast_cons_of_ne_nil hrest]
      rfl

end

end LruCache

/-- An implementation of caches that evict the least recently used entry, as its documentation describes it:
each operation does to the entries, in the order of their use, what it does to those of an `LruCache`. -/
structure LruCrate where
  Cache : ℕ → Type → Type → Type
  new {n : ℕ} {K V : Type} : Cache n K V
  push {n : ℕ} {K V : Type} [DecidableEq K] : Cache n K V → K → V → Cache n K V × Option (K × V)
  put {n : ℕ} {K V : Type} [DecidableEq K] : Cache n K V → K → V → Cache n K V
  get {n : ℕ} {K V : Type} [DecidableEq K] : Cache n K V → K → Option V × Cache n K V
  popLru {n : ℕ} {K V : Type} : Cache n K V → Option ((K × V) × Cache n K V)
  view {n : ℕ} {K V : Type} : Cache n K V → LruCache n K V
  view_new {n : ℕ} {K V : Type} : view (new : Cache n K V) = .empty
  view_push {n : ℕ} {K V : Type} [DecidableEq K] (c : Cache n K V) (k : K) (v : V) :
    view (push c k v).1 = ((view c).push k v).1
  push_snd {n : ℕ} {K V : Type} [DecidableEq K] (c : Cache n K V) (k : K) (v : V) :
    (push c k v).2 = ((view c).push k v).2
  view_put {n : ℕ} {K V : Type} [DecidableEq K] (c : Cache n K V) (k : K) (v : V) :
    view (put c k v) = (view c).put k v
  get_fst {n : ℕ} {K V : Type} [DecidableEq K] (c : Cache n K V) (k : K) : (get c k).1 = ((view c).get k).1
  view_get {n : ℕ} {K V : Type} [DecidableEq K] (c : Cache n K V) (k : K) :
    view (get c k).2 = ((view c).get k).2
  view_popLru {n : ℕ} {K V : Type} (c : Cache n K V) :
    (popLru c).map (Prod.map id view) = (view c).popLru

namespace LruCrate

def reference : LruCrate where
  Cache := LruCache
  new := .empty
  push := LruCache.push
  put := LruCache.put
  get := LruCache.get
  popLru := LruCache.popLru
  view := id
  view_new := rfl
  view_push _ _ _ := rfl
  push_snd _ _ _ := rfl
  view_put _ _ _ := rfl
  get_fst _ _ := rfl
  view_get _ _ := rfl
  view_popLru c := by cases h : c.popLru <;> simp [h]

variable {L : LruCrate} {n : ℕ} {K V : Type}

/-- What an implementation holds. -/
def table (L : LruCrate) (c : L.Cache n K V) : Table K V := (L.view c).table

lemma popLru_view_of_none {c : L.Cache n K V} (h : L.popLru c = none) : (L.view c).popLru = none := by
  rw [← L.view_popLru, h]
  rfl

lemma popLru_view_of_some {c c' : L.Cache n K V} {e : K × V} (h : L.popLru c = some (e, c')) :
    (L.view c).popLru = some (e, L.view c') := by
  rw [← L.view_popLru, h]
  rfl

variable [DecidableEq K]

lemma lookup_get (c : L.Cache n K V) (k k' : K) : (L.table (L.get c k).2).lookup k' = (L.table c).lookup k' := by
  rw [table, view_get, LruCache.lookup_get, table]

lemma get_eq_lookup (c : L.Cache n K V) (k : K) : (L.get c k).1 = (L.table c).lookup k := by
  rw [get_fst, LruCache.get_fst, table]

end LruCrate
