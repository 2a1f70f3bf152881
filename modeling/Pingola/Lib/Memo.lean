import Mathlib.Data.Option.Basic

/-!
# A memo of one entry

A fallible function that keeps its last result. What it keeps is what the function gives, so nobody can tell it
from the function.
-/

namespace Memo

variable {K V E : Type}

/-- The entry is a result of the function. -/
def Sound (f : K → Except E V) (memo : Option (K × V)) : Prop := ∀ entry, memo = some entry → f entry.1 = .ok entry.2

lemma sound_none {f : K → Except E V} : Sound f none := fun _ h => (nomatch h)

variable [DecidableEq K]

/-- Answers from the memo or from the function, whose results are kept. -/
def call (f : K → Except E V) (memo : Option (K × V)) (k : K) : Except E V × Option (K × V) :=
  match memo.filter fun entry => entry.1 = k with
  | some entry => (.ok entry.2, memo)
  | none =>
    match f k with
    | .ok v => (.ok v, some (k, v))
    | .error e => (.error e, memo)

variable {f : K → Except E V} {memo : Option (K × V)}

lemma Sound.call_fst (h : Sound f memo) (k : K) : (call f memo k).1 = f k := by
  unfold call
  split
  case h_1 entry hentry =>
    obtain ⟨hmemo, hk⟩ := Option.filter_eq_some_iff.mp hentry
    rw [← of_decide_eq_true hk, h entry hmemo]
  case h_2 =>
    cases f k <;> rfl

lemma Sound.call_snd (h : Sound f memo) (k : K) : Sound f (call f memo k).2 := by
  unfold call
  split
  case h_1 => exact h
  case h_2 =>
    cases hf : f k with
    | error e => exact h
    | ok v =>
      intro entry hentry
      obtain rfl := Option.some.inj hentry
      exact hf

end Memo
