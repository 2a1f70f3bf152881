import Pingola.Lib.Runs
import Mathlib.Data.Nat.Notation
import Mathlib.Logic.Function.Basic

/-!
# Coalescing of cache fills

`CoalesceGuard` of `cache/coalesce.rs`. Each permit has a number and goes through phases, one
phase for one access of the in-flight map or of a flag of an entry. The entry that a `begin`
allocates is named by the number of its permit, so that equal numbers are equal pointers. A
`Notified` future is woken by a `notify_waiters` that comes after its creation.
-/

namespace Pingola

structure InflightEntry where
  done : Bool
  success : Bool
  deriving DecidableEq

/-- Where a permit stands: inside `begin`, held by a writer or a waiter, inside `finish`, `drop`
or `wait_for_writer`, or gone. -/
inductive PermitPhase where
  | unused
  | beginGet (k : UInt64)
  | beginEntry (k : UInt64)
  | writer (k : UInt64)
  | finishSuccess (k : UInt64) (inserted : Bool)
  | finishDone (k : UInt64)
  | finishRemove (k : UInt64)
  | finishNotify (k : UInt64)
  | dropSwap (k : UInt64)
  | dropSuccess (k : UInt64)
  | dropRemove (k : UInt64)
  | dropNotify (k : UInt64)
  | dropRemoveOnly (k : UInt64)
  | waiter (k : UInt64) (entry : ℕ)
  | waitLoad (k : UInt64) (entry : ℕ)
  | waitSuccess (k : UInt64) (entry : ℕ)
  | waitCreate (k : UInt64) (entry : ℕ)
  | waitPoll (k : UInt64) (entry : ℕ) (woken : Bool)
  | parked (k : UInt64) (entry : ℕ)
  | waited (k : UInt64) (entry : ℕ) (result : Bool)
  | ended (k : UInt64) (writer : Bool)
  deriving DecidableEq

structure CoalesceGuard where
  inflight : UInt64 → Option ℕ
  entries : ℕ → InflightEntry
  permits : ℕ → PermitPhase

inductive CoalesceEvent where
  | begin (i : ℕ) (k : UInt64)
  | finish (i : ℕ) (inserted : Bool)
  | drop (i : ℕ)
  | wait (i : ℕ)
  | advance (i : ℕ)
  | timeout (i : ℕ)
  deriving DecidableEq

/-- `notify_waiters` of entry `i` as a waiter sees it. -/
def PermitPhase.wake (i : ℕ) : PermitPhase → PermitPhase
  | .waitPoll k entry woken => .waitPoll k entry (woken || decide (entry = i))
  | .parked k entry => if entry = i then .waitLoad k entry else .parked k entry
  | p => p

namespace CoalesceGuard

def new : CoalesceGuard := ⟨fun _ => none, fun _ => ⟨false, false⟩, fun _ => .unused⟩

variable (s : CoalesceGuard) (i : ℕ)

/-- Permit `i` goes on to the phase `p`. -/
def goto (p : PermitPhase) : CoalesceGuard := { s with permits := Function.update s.permits i p }

def setEntry (e : InflightEntry) : CoalesceGuard := { s with entries := Function.update s.entries i e }

def setInflight (k : UInt64) (entry : Option ℕ) : CoalesceGuard :=
  { s with inflight := Function.update s.inflight k entry }

/-- `remove_own_entry`: `remove_if` with `Arc::ptr_eq`. -/
def removeOwnEntry (k : UInt64) : CoalesceGuard :=
  if s.inflight k = some i then s.setInflight k none else s

def notifyWaiters : CoalesceGuard := { s with permits := fun j => (s.permits j).wake i }

/-- The next access of a permit that is inside a function. -/
def advance : Option CoalesceGuard :=
  match s.permits i with
  | .beginGet k =>
    match s.inflight k with
    | some existing =>
      if !(s.entries existing).done then some (s.goto i (.waiter k existing))
      else some (s.goto i (.beginEntry k))
    | none => some (s.goto i (.beginEntry k))
  | .beginEntry k =>
    match s.inflight k with
    | none => some ((s.setInflight k (some i)).goto i (.writer k))
    | some occupied =>
      if (s.entries occupied).done then some ((s.setInflight k none).goto i (.beginGet k))
      else some (s.goto i (.waiter k occupied))
  | .finishSuccess k inserted =>
    some ((s.setEntry i { s.entries i with success := inserted }).goto i (.finishDone k))
  | .finishDone k => some ((s.setEntry i { s.entries i with done := true }).goto i (.finishRemove k))
  | .finishRemove k => some ((s.removeOwnEntry i k).goto i (.finishNotify k))
  | .finishNotify k => some ((s.notifyWaiters i).goto i (.ended k true))
  | .dropSwap k =>
    some ((s.setEntry i { s.entries i with done := true }).goto i
      (if (s.entries i).done then .dropRemoveOnly k else .dropSuccess k))
  | .dropSuccess k => some ((s.setEntry i { s.entries i with success := false }).goto i (.dropRemove k))
  | .dropRemove k => some ((s.removeOwnEntry i k).goto i (.dropNotify k))
  | .dropNotify k => some ((s.notifyWaiters i).goto i (.ended k true))
  | .dropRemoveOnly k => some ((s.removeOwnEntry i k).goto i (.ended k true))
  | .waitLoad k entry =>
    some (s.goto i (if (s.entries entry).done then .waitSuccess k entry else .waitCreate k entry))
  | .waitSuccess k entry => some (s.goto i (.waited k entry (s.entries entry).success))
  | .waitCreate k entry => some (s.goto i (.waitPoll k entry false))
  | .waitPoll k entry woken => some (s.goto i (if woken then .waitLoad k entry else .parked k entry))
  | _ => none

def step : CoalesceEvent → Option CoalesceGuard
  | .begin i k =>
    match s.permits i with
    | .unused => some (s.goto i (.beginGet k))
    | _ => none
  | .finish i inserted =>
    match s.permits i with
    | .writer k => some (s.goto i (.finishSuccess k inserted))
    | .waiter k _ => some (s.goto i (.ended k false))
    | .waited k _ _ => some (s.goto i (.ended k false))
    | _ => none
  | .drop i =>
    match s.permits i with
    | .writer k => some (s.goto i (.dropSwap k))
    | .waiter k _ => some (s.goto i (.ended k false))
    | .waitPoll k _ _ => some (s.goto i (.ended k false))
    | .parked k _ => some (s.goto i (.ended k false))
    | .waited k _ _ => some (s.goto i (.ended k false))
    | _ => none
  | .wait i =>
    match s.permits i with
    | .writer _ => some s
    | .waiter k entry => some (s.goto i (.waitLoad k entry))
    | .waited k entry _ => some (s.goto i (.waitLoad k entry))
    | _ => none
  | .timeout i =>
    match s.permits i with
    | .waitCreate k entry => some (s.goto i (.waited k entry false))
    | .waitPoll k entry _ => some (s.goto i (.waited k entry false))
    | .parked k entry => some (s.goto i (.waited k entry false))
    | _ => none
  | .advance i => s.advance i

end CoalesceGuard

/-! ### What a permit owns -/

/-- How far a writer has come: its entry is not done yet, or done and perhaps still in the map, or
done and out of the map. -/
inductive Stage where
  | outside
  | undone (k : UInt64)
  | completing (k : UInt64)
  | completed (k : UInt64)
  deriving DecidableEq

def PermitPhase.stage : PermitPhase → Stage
  | .writer k | .finishSuccess k _ | .finishDone k | .dropSwap k => .undone k
  | .finishRemove k | .dropSuccess k | .dropRemove k | .dropRemoveOnly k => .completing k
  | .finishNotify k | .dropNotify k | .ended k true => .completed k
  | _ => .outside

def Stage.done : Stage → Bool
  | .completing _ | .completed _ => true
  | _ => false

/-- The key a writer permit was issued for. -/
def Stage.key : Stage → Option UInt64
  | .outside => none
  | .undone k | .completing k | .completed k => some k

def PermitPhase.writerKey (p : PermitPhase) : Option UInt64 := p.stage.key

/-- The key and the entry that a waiter joined. -/
def PermitPhase.joined : PermitPhase → Option (UInt64 × ℕ)
  | .waiter k w | .waitLoad k w | .waitSuccess k w | .waitCreate k w | .waitPoll k w _
  | .parked k w | .waited k w _ => some (k, w)
  | _ => none

/-- Inside `finish` or `drop` as a writer. -/
def PermitPhase.closing : PermitPhase → Bool
  | .finishSuccess .. | .finishDone _ | .finishRemove _ | .finishNotify _ | .dropSwap _
  | .dropSuccess _ | .dropRemove _ | .dropNotify _ | .dropRemoveOnly _ => true
  | _ => false

@[simp]
lemma PermitPhase.stage_wake (i : ℕ) (p : PermitPhase) : (p.wake i).stage = p.stage := by
  cases p with
  | parked k w =>
    simp only [wake]
    split_ifs <;> rfl
  | _ => rfl

@[simp]
lemma PermitPhase.joined_wake (i : ℕ) (p : PermitPhase) : (p.wake i).joined = p.joined := by
  cases p with
  | parked k w =>
    simp only [wake]
    split_ifs <;> rfl
  | _ => rfl

lemma PermitPhase.wake_eq_waited {i : ℕ} {p : PermitPhase} {k : UInt64} {w : ℕ} {r : Bool}
    (h : p.wake i = .waited k w r) : p = .waited k w r := by
  cases p with
  | parked k' w' =>
    simp only [wake] at h
    split_ifs at h
  | waitPoll k' w' b => simp [wake] at h
  | _ => exact h

/-- `notify_waiters` changes nothing but waiters. -/
lemma PermitPhase.eq_of_wake_eq {i : ℕ} {p q : PermitPhase} (h : p.wake i = q) (hq : q.joined = none) :
    p = q := by
  have hp : p.joined = none := by rw [← PermitPhase.joined_wake i p, h, hq]
  cases p with
  | parked k w => simp [joined] at hp
  | waitPoll k w b => simp [joined] at hp
  | _ => exact h

namespace CoalesceGuard

/-- What a permit may claim about its own entry and the entries of others, given the calls so
far. -/
structure Justified (calls : List CoalesceEvent) (writers : ℕ → Option UInt64) (i : ℕ)
    (p : PermitPhase) : Prop where
  joined : ∀ k w, p.joined = some (k, w) → writers w = some k
  finishing : ∀ k b, p = .finishSuccess k b → .finish i b ∈ calls
  waited : ∀ k w, p = .waited k w true → .finish w true ∈ calls

structure Inv (calls : List CoalesceEvent) (s : CoalesceGuard) : Prop where
  done : ∀ i, (s.entries i).done = (s.permits i).stage.done
  success : ∀ i, (s.entries i).success = true → .finish i true ∈ calls
  owned : ∀ k w, s.inflight k = some w →
    (s.permits w).stage = .undone k ∨ (s.permits w).stage = .completing k
  listed : ∀ k w, (s.permits w).stage = .undone k → s.inflight k = some w
  justified : ∀ i, Justified calls (fun w => (s.permits w).writerKey) i (s.permits i)

variable {calls calls' : List CoalesceEvent} {s t : CoalesceGuard} {i : ℕ} {p : PermitPhase}

lemma Justified.mono {writers writers' : ℕ → Option UInt64} (h : Justified calls writers i p)
    (hcalls : calls ⊆ calls') (hwriters : ∀ w k, writers w = some k → writers' w = some k) :
    Justified calls' writers' i p where
  joined k w hp := hwriters w k (h.joined k w hp)
  finishing k b hp := hcalls (h.finishing k b hp)
  waited k w hp := hcalls (h.waited k w hp)

lemma Justified.wake {writers : ℕ → Option UInt64} (h : Justified calls writers i p) (j : ℕ) :
    Justified calls writers i (p.wake j) where
  joined k w hp := h.joined k w (by simpa using hp)
  finishing k b hp := h.finishing k b (PermitPhase.eq_of_wake_eq hp rfl)
  waited k w hp := h.waited k w (PermitPhase.wake_eq_waited hp)

/-- A phase that neither waits nor finishes claims nothing. -/
lemma justified_of_silent {writers : ℕ → Option UInt64} (hjoined : p.joined = none)
    (hfinishing : ∀ k b, p ≠ .finishSuccess k b) : Justified calls writers i p where
  joined k w hp := by simp [hjoined] at hp
  finishing k b hp := absurd hp (hfinishing k b)
  waited k w hp := by simp [hp, PermitPhase.joined] at hjoined

/-- A waiter that has not got the answer `true` claims only what it joined. -/
lemma justified_of_joined {writers : ℕ → Option UInt64} {k : UInt64} {w : ℕ}
    (hjoined : p.joined = some (k, w)) (hw : writers w = some k)
    (hwaited : p = .waited k w true → .finish w true ∈ calls) : Justified calls writers i p where
  joined k' w' hp := by
    obtain ⟨rfl, rfl⟩ : k = k' ∧ w = w' := by simpa [hjoined] using hp
    exact hw
  finishing k' b hp := by simp [hp, PermitPhase.joined] at hjoined
  waited k' w' hp := by
    obtain ⟨rfl, rfl⟩ : k' = k ∧ w' = w := by simpa [hp, PermitPhase.joined] using hjoined
    exact hwaited hp

lemma Inv.mono (h : Inv calls s) (hcalls : calls ⊆ calls') : Inv calls' s where
  done := h.done
  success j hj := hcalls (h.success j hj)
  owned := h.owned
  listed := h.listed
  justified j := (h.justified j).mono hcalls fun _ _ hw => hw

lemma inv_new : Inv [] new where
  done _ := rfl
  success _ hi := by simp [new] at hi
  owned _ _ hk := by simp [new] at hk
  listed _ _ hw := by simp [new, PermitPhase.stage] at hw
  justified _ := justified_of_silent rfl fun _ _ => by simp [new]

/-- A step that touches no permit and no entry but those of `i`: what is left to show is about `i`
and about the map. -/
lemma Inv.moved (h : Inv calls s) (hpermits : ∀ j, j ≠ i → t.permits j = s.permits j)
    (hentries : ∀ j, j ≠ i → t.entries j = s.entries j)
    (hdone : (t.entries i).done = (t.permits i).stage.done)
    (hsuccess : (t.entries i).success = true → .finish i true ∈ calls)
    (hkey : ∀ k, (s.permits i).writerKey = some k → (t.permits i).writerKey = some k)
    (hi : Justified calls (fun w => (s.permits w).writerKey) i (t.permits i))
    (howned : ∀ k w, t.inflight k = some w →
      (t.permits w).stage = .undone k ∨ (t.permits w).stage = .completing k)
    (hlisted : ∀ k w, (t.permits w).stage = .undone k → t.inflight k = some w) : Inv calls t := by
  have hwriters : ∀ w k, (s.permits w).writerKey = some k → (t.permits w).writerKey = some k := by
    intro w k hw
    by_cases hwi : w = i
    · subst hwi
      exact hkey k hw
    · rwa [hpermits w hwi]
  refine ⟨fun j => ?_, fun j => ?_, howned, hlisted, fun j => ?_⟩
  all_goals by_cases hj : j = i
  · rwa [hj]
  · rw [hentries j hj, hpermits j hj]
    exact h.done j
  · rwa [hj]
  · rw [hentries j hj]
    exact h.success j
  · rw [hj]
    exact hi.mono (fun _ hc => hc) hwriters
  · rw [hpermits j hj]
    exact (h.justified j).mono (fun _ hc => hc) hwriters

lemma removeOwnEntry_permits (k : UInt64) : (s.removeOwnEntry i k).permits = s.permits := by
  unfold removeOwnEntry setInflight
  split_ifs <;> rfl

lemma removeOwnEntry_entries (k : UInt64) : (s.removeOwnEntry i k).entries = s.entries := by
  unfold removeOwnEntry setInflight
  split_ifs <;> rfl

/-- `remove_own_entry` takes out the permit's own entry and nothing else. -/
lemma removeOwnEntry_inflight (k k' : UInt64) (w : ℕ) :
    (s.removeOwnEntry i k).inflight k' = some w ↔ s.inflight k' = some w ∧ ¬(k' = k ∧ w = i) := by
  unfold removeOwnEntry
  by_cases hk : k' = k
  · subst hk
    by_cases hi : s.inflight k' = some i
    · have hw : i = w → w = i := Eq.symm
      simpa [if_pos, setInflight, hi] using hw
    · rw [if_neg hi]
      refine ⟨fun hw => ⟨hw, ?_⟩, fun hw => hw.1⟩
      rintro ⟨-, rfl⟩
      exact hi hw
  · split_ifs <;> simp [setInflight, hk]

section

variable (h : Inv calls s)
include h

/-- A permit goes on in its stage, or marks its entry as done. -/
lemma Inv.setEntry_goto (e : InflightEntry) (hdone : e.done = p.stage.done)
    (hsuccess : e.success = true → .finish i true ∈ calls) (hstage : p.stage = (s.permits i).stage ∨
      ∃ k, (s.permits i).stage = .undone k ∧ p.stage = .completing k)
    (hp : Justified calls (fun w => (s.permits w).writerKey) i p) :
    Inv calls ((s.setEntry i e).goto i p) := by
  have hstages : ∀ k w, (s.permits w).stage = .undone k ∨ (s.permits w).stage = .completing k →
      (((s.setEntry i e).goto i p).permits w).stage = .undone k ∨
        (((s.setEntry i e).goto i p).permits w).stage = .completing k := by
    intro k w hw
    by_cases hwi : w = i
    · subst hwi
      simp only [goto, Function.update_self]
      rcases hstage with heq | ⟨k', hundone, hcompleting⟩
      · rwa [heq]
      · obtain rfl : k' = k := by simpa [hundone] using hw
        exact .inr hcompleting
    · simpa [goto, setEntry, hwi] using hw
  refine h.moved (i := i) (fun j hj => by simp [goto, setEntry, hj])
    (fun j hj => by simp [goto, setEntry, hj]) (by simpa [goto, setEntry] using hdone)
    (by simpa [goto, setEntry] using hsuccess) (fun k hk => ?_) (by simpa [goto] using hp)
    (fun k w hw => hstages k w (h.owned k w hw)) (fun k w hw => h.listed k w ?_)
  · simp only [goto, Function.update_self, PermitPhase.writerKey] at hk ⊢
    rcases hstage with heq | ⟨k', hundone, hcompleting⟩
    · rwa [heq]
    · rw [hundone] at hk
      rwa [hcompleting]
  · by_cases hwi : w = i
    · subst hwi
      simp only [goto, Function.update_self] at hw
      rcases hstage with heq | ⟨k', -, hcompleting⟩
      · rwa [← heq]
      · simp [hcompleting] at hw
    · simpa [goto, setEntry, hwi] using hw

lemma Inv.goto_same_stage {q : PermitPhase} (hq : s.permits i = q) (hstage : p.stage = q.stage)
    (hp : Justified calls (fun w => (s.permits w).writerKey) i p) : Inv calls (s.goto i p) := by
  subst hq
  have hsame : s.setEntry i (s.entries i) = s := by simp [setEntry]
  have hgoto := h.setEntry_goto (s.entries i) (by rw [h.done i, hstage]) (h.success i) (.inl hstage) hp
  rwa [hsame] at hgoto

lemma Inv.goto_silent {q : PermitPhase} (hq : s.permits i = q) (hstage : p.stage = q.stage)
    (hjoined : p.joined = none) (hfinishing : ∀ k b, p ≠ .finishSuccess k b) : Inv calls (s.goto i p) :=
  h.goto_same_stage hq hstage (justified_of_silent hjoined hfinishing)

/-- A waiter goes on with the entry it joined. -/
lemma Inv.goto_waiting {q : PermitPhase} {k : UInt64} {w : ℕ} (hq : s.permits i = q)
    (hjoined : q.joined = some (k, w)) (hp : p.joined = some (k, w)) (hstage : p.stage = q.stage)
    (hwaited : p = .waited k w true → .finish w true ∈ calls) : Inv calls (s.goto i p) := by
  have hw := (h.justified i).joined k w (by rw [hq, hjoined])
  exact h.goto_same_stage hq hstage (justified_of_joined hp hw hwaited)

lemma Inv.removeOwnEntry_goto {k : UInt64} (hs : (s.permits i).stage = .completing k) (hp : p.stage = .completed k)
    (hsilent : Justified calls (fun w => (s.permits w).writerKey) i p) :
    Inv calls ((s.removeOwnEntry i k).goto i p) := by
  have hpermits : ∀ j, j ≠ i → ((s.removeOwnEntry i k).goto i p).permits j = s.permits j := by
    intro j hj
    simp [goto, removeOwnEntry_permits, hj]
  have hi : ((s.removeOwnEntry i k).goto i p).permits i = p := by simp [goto]
  refine h.moved (i := i) hpermits (fun j _ => by simp [goto, removeOwnEntry_entries]) ?_ ?_ ?_
    (by rwa [hi]) (fun k' w hw => ?_) (fun k' w hw => ?_)
  · rw [hi, hp]
    simpa [goto, removeOwnEntry_entries, hs, Stage.done] using h.done i
  · simpa [goto, removeOwnEntry_entries] using h.success i
  · intro k' hk'
    rw [hi]
    simpa [PermitPhase.writerKey, hs, hp, Stage.key] using hk'
  · obtain ⟨hin, hne⟩ := (removeOwnEntry_inflight k k' w).mp hw
    have hwi : w ≠ i := by
      rintro rfl
      have hk' : k' = k := by simpa [hs, eq_comm] using h.owned k' w hin
      exact hne ⟨hk', rfl⟩
    rw [hpermits w hwi]
    exact h.owned k' w hin
  · have hwi : w ≠ i := by
      rintro rfl
      simp [hi, hp] at hw
    rw [hpermits w hwi] at hw
    exact (removeOwnEntry_inflight k k' w).mpr ⟨h.listed k' w hw, fun hc => hwi hc.2⟩

lemma Inv.wake (j : ℕ) : Inv calls (s.notifyWaiters j) where
  done i := by simpa [notifyWaiters] using h.done i
  success := h.success
  owned k w hw := by simpa [notifyWaiters] using h.owned k w hw
  listed k w hw := h.listed k w (by simpa [notifyWaiters] using hw)
  justified i := by
    simpa [notifyWaiters, PermitPhase.writerKey] using (h.justified i).wake j

/-- `begin` at a vacant key. -/
lemma Inv.claim {k : UInt64} (hs : (s.permits i).stage = .outside) (hk : s.inflight k = none) :
    Inv calls ((s.setInflight k (some i)).goto i (.writer k)) := by
  have hpermits : ∀ j, j ≠ i →
      ((s.setInflight k (some i)).goto i (.writer k)).permits j = s.permits j := by
    intro j hj
    simp [goto, setInflight, hj]
  have hi : ((s.setInflight k (some i)).goto i (.writer k)).permits i = .writer k := by simp [goto]
  refine h.moved (i := i) hpermits (fun j _ => rfl) ?_ (h.success i) ?_ ?_ (fun k' w hw => ?_)
    (fun k' w hw => ?_)
  · have hdone := h.done i
    rw [hs] at hdone
    rwa [hi]
  · intro k' hk'
    simp [PermitPhase.writerKey, hs, Stage.key] at hk'
  · rw [hi]
    exact justified_of_silent rfl fun _ _ => by simp
  · by_cases hkk : k' = k
    · subst hkk
      obtain rfl : i = w := by simpa [goto, setInflight] using hw
      exact .inl (by rw [hi]; rfl)
    · have hin : s.inflight k' = some w := by simpa [goto, setInflight, hkk] using hw
      have hwi : w ≠ i := by
        rintro rfl
        simpa [hs] using h.owned k' w hin
      rw [hpermits w hwi]
      exact h.owned k' w hin
  · by_cases hwi : w = i
    · subst hwi
      obtain rfl : k = k' := by simpa [hi, PermitPhase.stage] using hw
      simp [goto, setInflight]
    · rw [hpermits w hwi] at hw
      have hin := h.listed k' w hw
      have hkk : k' ≠ k := by
        rintro rfl
        simp [hk] at hin
      simpa [goto, setInflight, hkk] using hin

/-- `begin` takes a done entry out of the map, whoever owns it. -/
lemma Inv.evict {k : UInt64} {w : ℕ} (hk : s.inflight k = some w) (hdone : (s.entries w).done = true) :
    Inv calls (s.setInflight k none) where
  done := h.done
  success := h.success
  owned k' w' hw' := by
    have hkk : k' ≠ k := by
      rintro rfl
      simp [setInflight] at hw'
    exact h.owned k' w' (by simpa [setInflight, hkk] using hw')
  listed k' w' hw' := by
    have hin := h.listed k' w' hw'
    have hkk : k' ≠ k := by
      rintro rfl
      obtain rfl : w = w' := by simpa [hk] using hin
      have hstage : (s.permits w).stage.done = true := by rw [← h.done w, hdone]
      rw [show (s.permits w).stage = .undone k' from hw'] at hstage
      simp [Stage.done] at hstage
    simpa [setInflight, hkk] using hin
  justified := h.justified

/-- An entry in the map belongs to a writer of its key. -/
lemma Inv.writerKey_of_inflight {k : UInt64} {w : ℕ} (hk : s.inflight k = some w) :
    (s.permits w).writerKey = some k := by
  rcases h.owned k w hk with hw | hw <;> simp [PermitPhase.writerKey, hw, Stage.key]

lemma Inv.join {k : UInt64} {w : ℕ} {q : PermitPhase} (hq : s.permits i = q) (houtside : q.stage = .outside)
    (hk : s.inflight k = some w) : Inv calls (s.goto i (.waiter k w)) :=
  h.goto_same_stage hq houtside.symm (justified_of_joined rfl (h.writerKey_of_inflight hk) (by simp))

lemma Inv.advance_begin {k : UInt64} (hp : s.permits i = .beginGet k ∨ s.permits i = .beginEntry k)
    (ht : s.advance i = some t) : Inv calls t := by
  rcases hp with hp | hp
  all_goals simp only [advance, hp] at ht
  · have hentry : Inv calls (s.goto i (.beginEntry k)) :=
      h.goto_silent hp rfl rfl fun _ _ => by simp
    split at ht
    · split_ifs at ht <;> obtain rfl := Option.some.inj ht
      · exact h.join hp rfl ‹_›
      · exact hentry
    · obtain rfl := Option.some.inj ht
      exact hentry
  · split at ht
    · obtain rfl := Option.some.inj ht
      exact h.claim (by rw [hp]; rfl) ‹_›
    · split_ifs at ht with hdone <;> obtain rfl := Option.some.inj ht
      · exact (h.evict ‹_› hdone).goto_silent (q := .beginEntry k) hp rfl rfl fun _ _ => by simp
      · exact h.join hp rfl ‹_›

lemma Inv.advance (ht : s.advance i = some t) : Inv calls t := by
  have hbegin := fun k hk => h.advance_begin (k := k) hk ht
  have hi := h.justified i
  have hdone := h.done i
  have hwoken : (s.notifyWaiters i).permits i = (s.permits i).wake i := rfl
  cases hp : s.permits i <;> rw [hp] at hi hdone hwoken <;>
    simp only [CoalesceGuard.advance, hp, Option.some.injEq, reduceCtorEq] at ht
  case beginGet k => exact hbegin k (.inl hp)
  case beginEntry k => exact hbegin k (.inr hp)
  all_goals subst ht
  case finishSuccess k inserted =>
    refine h.setEntry_goto _ hdone (fun hins => ?_) (.inl (by rw [hp]; rfl))
      (justified_of_silent rfl fun _ _ => by simp)
    exact hi.finishing k true (by rw [← hins])
  case finishDone k =>
    exact h.setEntry_goto _ rfl (h.success i) (.inr ⟨k, by rw [hp]; rfl, rfl⟩)
      (justified_of_silent rfl fun _ _ => by simp)
  case dropSwap k =>
    rw [if_neg (by simp [hdone, PermitPhase.stage, Stage.done])]
    exact h.setEntry_goto _ rfl (h.success i) (.inr ⟨k, by rw [hp]; rfl, rfl⟩)
      (justified_of_silent rfl fun _ _ => by simp)
  case dropSuccess k =>
    exact h.setEntry_goto _ hdone (by simp) (.inl (by rw [hp]; rfl))
      (justified_of_silent rfl fun _ _ => by simp)
  case finishRemove k | dropRemove k | dropRemoveOnly k =>
    exact h.removeOwnEntry_goto (by rw [hp]; rfl) rfl (justified_of_silent rfl fun _ _ => by simp)
  case finishNotify k | dropNotify k =>
    exact (h.wake i).goto_silent hwoken rfl rfl fun _ _ => by simp
  case waitSuccess k w =>
    exact h.goto_waiting hp rfl rfl rfl fun hw => h.success w (by simpa using hw)
  case waitCreate k w => exact h.goto_waiting hp rfl rfl rfl (by simp)
  case waitLoad k w => split_ifs <;> exact h.goto_waiting hp rfl rfl rfl (by simp)
  case waitPoll k w woken => split_ifs <;> exact h.goto_waiting hp rfl rfl rfl (by simp)

lemma Inv.step {ev : CoalesceEvent} (ht : s.step ev = some t) : Inv (calls ++ [ev]) t := by
  have h' : Inv (calls ++ [ev]) s := h.mono (List.subset_append_left _ _)
  cases ev with
  | advance i => exact h'.advance ht
  | begin i k =>
    cases hp : s.permits i <;>
      simp only [CoalesceGuard.step, hp, Option.some.injEq, reduceCtorEq] at ht
    subst ht
    exact h'.goto_silent hp rfl rfl fun _ _ => by simp
  | finish i inserted =>
    cases hp : s.permits i <;>
      simp only [CoalesceGuard.step, hp, Option.some.injEq, reduceCtorEq] at ht
    all_goals subst ht
    case writer k =>
      refine h'.goto_same_stage hp rfl ⟨by simp [PermitPhase.joined], fun k' b hb => ?_, by simp⟩
      obtain ⟨-, rfl⟩ : k = k' ∧ inserted = b := by simpa using hb
      simp
    all_goals exact h'.goto_silent hp rfl rfl fun _ _ => by simp
  | drop i =>
    cases hp : s.permits i <;>
      simp only [CoalesceGuard.step, hp, Option.some.injEq, reduceCtorEq] at ht
    all_goals
      subst ht
      exact h'.goto_silent hp rfl rfl fun _ _ => by simp
  | wait i =>
    cases hp : s.permits i <;>
      simp only [CoalesceGuard.step, hp, Option.some.injEq, reduceCtorEq] at ht
    all_goals subst ht
    case writer k => exact h'
    all_goals exact h'.goto_waiting hp rfl rfl rfl (by simp)
  | timeout i =>
    cases hp : s.permits i <;>
      simp only [CoalesceGuard.step, hp, Option.some.injEq, reduceCtorEq] at ht
    all_goals
      subst ht
      exact h'.goto_waiting hp rfl rfl rfl (by simp)

end

lemma inv_of_run {events : List CoalesceEvent}
    (h : Runs.Run (fun s ev t => s.step ev = some t) new events s) : Inv events s :=
  h.invariant Inv (fun _ _ _ _ ht hs => hs.step ht) inv_new

/-- The steps by which permit `i` is finished or dropped. -/
def closes (s : CoalesceGuard) (i : ℕ) : CoalesceEvent → Bool
  | .finish j _ | .drop j => j = i
  | .advance j => j = i && (s.permits j).closing
  | _ => false

lemma advance_inflight_of_closing (hp : (s.permits i).closing = true) (ht : s.advance i = some t)
    {k : UInt64} {w : ℕ} (hk : s.inflight k = some w) (hw : w ≠ i) : t.inflight k = some w := by
  have hremove : ∀ k', (s.removeOwnEntry i k').inflight k = some w :=
    fun k' => (removeOwnEntry_inflight k' k w).mpr ⟨hk, fun hc => hw hc.2⟩
  cases hphase : s.permits i <;> simp only [hphase, PermitPhase.closing, Bool.false_eq_true] at hp <;>
    simp only [CoalesceGuard.advance, hphase, Option.some.injEq] at ht <;> subst ht
  case finishRemove k' | dropRemove k' | dropRemoveOnly k' => exact hremove k'
  all_goals exact hk

lemma inflight_of_closes {ev : CoalesceEvent} (hc : s.closes i ev = true) (ht : s.step ev = some t)
    {k : UInt64} {w : ℕ} (hk : s.inflight k = some w) (hw : w ≠ i) : t.inflight k = some w := by
  cases ev with
  | finish j inserted =>
    simp only [step] at ht
    split at ht <;> cases ht <;> exact hk
  | drop j =>
    simp only [step] at ht
    split at ht <;> cases ht <;> exact hk
  | advance j =>
    obtain ⟨rfl, hclosing⟩ : j = i ∧ (s.permits j).closing = true := by simpa [closes] using hc
    exact advance_inflight_of_closing hclosing ht hk hw
  | _ => simp [closes] at hc

/-- A writer whose entry is not done has its entry in the map. -/
lemma Inv.inflight_of_undone (h : Inv calls s) {k : UInt64} (hk : (s.permits i).writerKey = some k)
    (hdone : (s.entries i).done = false) : s.inflight k = some i := by
  apply h.listed
  rw [h.done i] at hdone
  unfold PermitPhase.writerKey at hk
  cases hstage : (s.permits i).stage <;> simp_all [Stage.done, Stage.key]

/-- In every interleaving: a key has at most one writer that is not done, and the map holds its
entry; a waiter gets `true` only from a writer of its own entry that was finished with `true`;
finishing or dropping a permit leaves every other entry in the map; and the map is empty once
every writer has ended. -/
theorem coalescing_safe {events : List CoalesceEvent} {s : CoalesceGuard}
    (h : Runs.Run (fun s ev t => s.step ev = some t) new events s) :
    (∀ k i, (s.permits i).writerKey = some k → (s.entries i).done = false →
      s.inflight k = some i ∧
        ∀ j, (s.permits j).writerKey = some k → (s.entries j).done = false → j = i) ∧
    (∀ i k w, s.permits i = .waited k w true →
      (s.permits w).writerKey = some k ∧ .finish w true ∈ events) ∧
    (∀ i ev t, s.closes i ev = true → s.step ev = some t →
      ∀ k w, s.inflight k = some w → w ≠ i → t.inflight k = some w) ∧
    ((∀ i k, (s.permits i).writerKey = some k → s.permits i = .ended k true) →
      ∀ k, s.inflight k = none) := by
  have hinv := inv_of_run h
  refine ⟨fun k i hi hdone => ?_, fun i k w hi => ?_, fun i ev t hc ht k w hk hw => ?_,
    fun hended k => ?_⟩
  · have hin := hinv.inflight_of_undone hi hdone
    refine ⟨hin, fun j hj hdone' => ?_⟩
    have hin' := hinv.inflight_of_undone hj hdone'
    exact Option.some.inj (hin'.symm.trans hin)
  · have hj := hinv.justified i
    exact ⟨hj.joined k w (by rw [hi]; rfl), hj.waited k w hi⟩
  · exact inflight_of_closes hc ht hk hw
  · rw [Option.eq_none_iff_forall_ne_some]
    intro w hk
    have hw := hended w k (hinv.writerKey_of_inflight hk)
    have howned := hinv.owned k w hk
    simp [hw, PermitPhase.stage] at howned

/-- A writer and a waiter of key 7; the waiter is parked when the writer finishes. -/
def sampleEvents : List CoalesceEvent :=
  [.begin 0 7, .advance 0, .advance 0, .begin 1 7, .advance 1, .wait 1, .advance 1, .advance 1,
    .advance 1, .finish 0 true, .advance 0, .advance 0, .advance 0, .advance 0, .advance 1, .advance 1]

theorem coalescing_safe_woken : ∃ s, Runs.exec step new sampleEvents = some s ∧
    s.permits 1 = .waited 7 0 true ∧ .finish 0 true ∈ sampleEvents ∧ s.inflight 7 = none := by
  obtain ⟨s, hs⟩ : ∃ s, Runs.exec step new sampleEvents = some s := ⟨_, rfl⟩
  have hphase : s.permits 1 = .waited 7 0 true := by
    rw [← Option.some.inj hs]
    rfl
  have hempty : s.inflight 7 = none := by
    rw [← Option.some.inj hs]
    rfl
  exact ⟨s, hs, hphase, ((coalescing_safe (Runs.run_of_exec hs)).2.1 1 7 0 hphase).2, hempty⟩

end CoalesceGuard

end Pingola
