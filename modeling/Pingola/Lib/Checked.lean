import Mathlib.Data.List.GetD
import Mathlib.Data.Nat.Digits.Defs

/-!
# Programs that may panic

A checked program panics, or ends early without a value, or ends with one. It panics when it indexes outside of a
slice, when arithmetic leaves the width of its type, and when a loop has not ended in the rounds that it was given.
What it visits on the way is counted. `Computes` and `Within` relate a checked program to the partial function that
it computes, the latter with a bound on the visits.
-/

inductive Fault where
  | outOfBounds
  | overflow
  | unfinished
  deriving DecidableEq

/-- A fault, or what the program has returned and the number of its visits. -/
inductive Checked (α : Type) where
  | fault (f : Fault)
  | ran (result : Option α) (visits : ℕ)
  deriving DecidableEq

namespace Checked

variable {α β : Type}

/-- After `n` visits. -/
def charge (n : ℕ) : Checked α → Checked α
  | fault f => fault f
  | ran result visits => ran result (n + visits)

def bind (x : Checked α) (f : α → Checked β) : Checked β :=
  match x with
  | fault e => fault e
  | ran none visits => ran none visits
  | ran (some a) visits => charge visits (f a)

instance instMonadChecked : Monad Checked where
  pure a := ran (some a) 0
  bind := bind

/-- `return None`. -/
def absent : Checked α := ran none 0

/-- `result?`. -/
def ofOption (result : Option α) : Checked α := ran result 0

/-- The caller looks at the result of a call itself. -/
def attempt : Checked α → Checked (Option α)
  | fault f => fault f
  | ran result visits => ran (some result) visits

def visit (n : ℕ) : Checked Unit := ran (some ()) n

/-- Addition in a type of `w` bits. -/
def add (w a b : ℕ) : Checked ℕ := if a + b < 2 ^ w then pure (a + b) else fault .overflow

def sub (a b : ℕ) : Checked ℕ := if b ≤ a then pure (a - b) else fault .overflow

/-- `checked_add`. -/
def checkedAdd (w a b : ℕ) : Option ℕ := if a + b < 2 ^ w then some (a + b) else none

/-- `xs[i]`. -/
def index (xs : List α) (i : ℕ) : Checked α :=
  match xs[i]? with
  | some x => pure x
  | none => fault .outOfBounds

/-- `xs[i..j]`. -/
def slice (xs : List α) (i j : ℕ) : Checked (List α) :=
  if i ≤ j ∧ j ≤ xs.length then pure ((xs.drop i).take (j - i)) else fault .outOfBounds

/-- `xs[i..j].copy_from_slice(data)`. -/
def copyFromSlice (xs : List α) (i j : ℕ) (data : List α) : Checked (List α) :=
  if i ≤ j ∧ j ≤ xs.length ∧ data.length = j - i then pure (xs.take i ++ data ++ xs.drop j) else fault .outOfBounds

/-! ### Steps that do not panic -/

lemma pure_bind (a : α) (f : α → Checked β) : (pure a >>= f) = f a := by
  change charge 0 (f a) = f a
  cases f a with
  | fault e => rfl
  | ran result visits =>
    change ran result (0 + visits) = _
    rw [Nat.zero_add]

lemma ran_none_bind (visits : ℕ) (f : α → Checked β) : (ran none visits >>= f) = ran none visits := rfl

lemma charge_ran (n visits : ℕ) (result : Option α) : charge n (ran result visits) = ran result (n + visits) := rfl

lemma ofOption_some (a : α) : ofOption (some a) = pure a := rfl

lemma add_of_lt {w a b : ℕ} (h : a + b < 2 ^ w) : add w a b = pure (a + b) := if_pos h

lemma sub_of_le {a b : ℕ} (h : b ≤ a) : sub a b = pure (a - b) := if_pos h

lemma checkedAdd_of_lt {w a b : ℕ} (h : a + b < 2 ^ w) : checkedAdd w a b = some (a + b) := if_pos h

lemma index_of_lt (d : α) {xs : List α} {i : ℕ} (h : i < xs.length) : index xs i = pure (xs.getD i d) := by
  rw [index, List.getElem?_eq_getElem h, List.getD_eq_getElem _ _ h]

lemma slice_of_le {xs : List α} {i j : ℕ} (h : i ≤ j) (hj : j ≤ xs.length) :
    slice xs i j = pure ((xs.drop i).take (j - i)) := if_pos ⟨h, hj⟩

lemma copyFromSlice_of_le {xs data : List α} {i j : ℕ} (h : i + data.length = j) (hj : j ≤ xs.length) :
    copyFromSlice xs i j data = pure (xs.take i ++ data ++ xs.drop (i + data.length)) := by
  rw [copyFromSlice, if_pos ⟨by omega, hj, by omega⟩, h]

/-! ### What a program computes -/

/-- The program returns `result` after at most `n` visits. -/
def Within (n : ℕ) (x : Checked α) (result : Option α) : Prop := ∃ visits ≤ n, x = ran result visits

/-- The program returns `result`. -/
def Computes (x : Checked α) (result : Option α) : Prop := ∃ n, Within n x result

section

variable {n m : ℕ} {x : Checked α} {r : Option α} {f : α → Checked β} {g : α → Option β}

lemma Within.mono (h : Within n x r) (hn : n ≤ m) : Within m x r := by
  obtain ⟨visits, hvisits, hx⟩ := h
  exact ⟨visits, hvisits.trans hn, hx⟩

lemma Within.computes (h : Within n x r) : Computes x r := ⟨n, h⟩

lemma Within.pure (n : ℕ) (a : α) : Within n (pure a) (some a) := ⟨0, Nat.zero_le n, rfl⟩

lemma Within.absent (n : ℕ) : Within n (absent : Checked α) none := ⟨0, Nat.zero_le n, rfl⟩

lemma Within.charge (k : ℕ) (h : Within n x r) : Within (k + n) (charge k x) r := by
  obtain ⟨visits, hvisits, rfl⟩ := h
  exact ⟨k + visits, Nat.add_le_add_left hvisits k, charge_ran k visits r⟩

lemma Within.bind (h : Within n x r) (hf : ∀ a, r = some a → Within m (f a) (g a)) :
    Within (n + m) (x >>= f) (r.bind g) := by
  obtain ⟨visits, hvisits, rfl⟩ := h
  cases r with
  | none => exact ⟨visits, Nat.le_add_right_of_le hvisits, ran_none_bind visits f⟩
  | some a => exact ((hf a rfl).charge visits).mono (Nat.add_le_add_right hvisits m)

lemma Within.map (f : α → β) (h : Within n x r) : Within n (x >>= fun a => Pure.pure (f a)) (r.map f) := by
  rw [Option.map_eq_bind]
  exact h.bind (m := 0) fun a _ => .pure 0 (f a)

lemma Within.ite {c : Prop} [Decidable c] {y : Checked α} {s : Option α} (ht : c → Within n x r)
    (he : ¬c → Within n y s) : Within n (if c then x else y) (if c then r else s) := by
  by_cases hc : c
  · rw [if_pos hc, if_pos hc]
    exact ht hc
  · rw [if_neg hc, if_neg hc]
    exact he hc

lemma Within.visit_bind (k : ℕ) {f : Unit → Checked β} {s : Option β} (h : Within n (f ()) s) :
    Within (k + n) (visit k >>= f) s := h.charge k

lemma Computes.exists_ran (h : Computes x r) : ∃ visits, x = ran r visits := by
  obtain ⟨-, visits, -, h⟩ := h
  exact ⟨visits, h⟩

lemma Computes.pure (a : α) : Computes (pure a) (some a) := (Within.pure 0 a).computes

lemma Computes.absent : Computes (absent : Checked α) none := (Within.absent 0).computes

lemma Computes.bind_some {a : α} {s : Option β} (h : Computes x (some a)) (hf : Computes (f a) s) :
    Computes (x >>= f) s := by
  obtain ⟨n, h⟩ := h
  obtain ⟨m, hf⟩ := hf
  refine (h.bind (g := fun _ => s) (m := m) fun b hb => ?_).computes
  obtain rfl := Option.some.inj hb
  exact hf

lemma Computes.bind (h : Computes x r) (hf : ∀ a, r = some a → Computes (f a) (g a)) :
    Computes (x >>= f) (r.bind g) := by
  cases r with
  | none =>
    obtain ⟨n, h⟩ := h
    exact (h.bind (m := 0) fun a ha => by cases ha).computes
  | some a => exact h.bind_some (hf a rfl)

lemma Computes.ofOption (r : Option α) : Computes (ofOption r) r := ⟨0, 0, le_rfl, rfl⟩

lemma Computes.attempt (h : Computes x r) : Computes (attempt x) (some r) := by
  obtain ⟨n, visits, hvisits, rfl⟩ := h
  exact ⟨n, visits, hvisits, rfl⟩

lemma Computes.ite {c : Prop} [Decidable c] {y : Checked α} {s : Option α} (ht : c → Computes x r)
    (he : ¬c → Computes y s) : Computes (if c then x else y) (if c then r else s) := by
  by_cases hc : c
  · obtain ⟨n, h⟩ := ht hc
    exact (Within.ite (fun _ => h) fun hn => absurd hc hn).computes
  · obtain ⟨n, h⟩ := he hc
    exact (Within.ite (fun hp => absurd hp hc) fun _ => h).computes

end

end Checked
