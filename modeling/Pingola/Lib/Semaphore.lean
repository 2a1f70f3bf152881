import Pingola.Lib.Table

/-!
# Counting semaphores

The permits of a semaphore are free or held by the entries of a table. What matters about an operation is
how it moves permits between the semaphore and one entry; then nothing is lost or made up.
-/

namespace Semaphore

variable {K V : Type} {size free free' : ℕ} {permits : V → ℕ} {t : Table K V} {k : K} {v old : V}

/-- The free permits and those of the entries add up to the size of the semaphore. -/
def Conserves (size free : ℕ) (permits : V → ℕ) (t : Table K V) : Prop := free + t.total permits = size

lemma conserves_empty (size : ℕ) (permits : V → ℕ) : Conserves size size permits (∅ : Table K V) := Nat.add_zero size

/-- At most one permit for each entry. -/
lemma total_toNat (permit : V → Bool) (t : Table K V) :
    t.total (fun v => (permit v).toNat) = t.entries.countP fun e => permit e.2 := by
  have hsum : ∀ l : List (Sigma fun _ : K => V), (l.map fun e => (permit e.2).toNat).sum = l.countP fun e => permit e.2 := by
    intro l
    induction l with
    | nil => rfl
    | cons e l ih =>
      rw [List.map_cons, List.sum_cons, ih, List.countP_cons]
      cases permit e.2 with
      | true => exact Nat.add_comm _ _
      | false => exact Nat.zero_add _
  exact hsum t.entries

/-- Permits that nobody holds are free. -/
lemma Conserves.free_eq (h : Conserves size free permits t) (hnone : ∀ e ∈ t.entries, permits e.2 = 0) :
    free = size := by
  have htotal : t.total permits = 0 := List.sum_eq_zero fun p hp => by
    obtain ⟨e, he, rfl⟩ := List.mem_map.mp hp
    exact hnone e he
  rwa [Conserves, htotal, Nat.add_zero] at h

variable [DecidableEq K]

/-- A new entry takes its permits from the semaphore. -/
lemma Conserves.insert_new (h : Conserves size free permits t) (hnew : t.lookup k = none)
    (hmoved : free' + permits v = free) : Conserves size free' permits (t.insert k v) := by
  rw [Conserves] at h ⊢
  rw [Table.total_insert, Table.total_erase_of_none permits hnew]
  omega

/-- An entry that changes takes the permits that it gains from the semaphore and gives back those that it loses. -/
lemma Conserves.insert (h : Conserves size free permits t) (hold : t.lookup k = some old)
    (hmoved : free' + permits v = free + permits old) : Conserves size free' permits (t.insert k v) := by
  rw [Conserves, Table.total_erase_add permits hold] at h
  rw [Conserves, Table.total_insert]
  omega

end Semaphore
