import Pingola.Cache.Coalesce

/-!
# Wakeups of coalesced waiters

`wait_for_writer` loads `done` before it creates its `Notified` future. A writer that completes
between the two notifies before the future exists, and the waiter sleeps until its timeout. When
no writer notifies at such a moment, the waiters of a completed writer are awake.
-/

namespace Pingola

/-- The entry whose `notify_waiters` a waiter still needs: it has seen the entry not done and has
not been woken since. -/
def PermitPhase.sleepsOn : PermitPhase → Option ℕ
  | .waitCreate _ entry | .waitPoll _ entry false | .parked _ entry => some entry
  | _ => none

/-- The next access is `notify_waiters`. -/
def PermitPhase.notifying : PermitPhase → Bool
  | .finishNotify _ | .dropNotify _ => true
  | _ => false

/-- Inside `wait_for_writer` on the entry. -/
def PermitPhase.waitsOn (entry : ℕ) : PermitPhase → Bool
  | .waitLoad _ w | .waitSuccess _ w | .waitCreate _ w | .waitPoll _ w _ | .parked _ w => w = entry
  | _ => false

/-- `notify_waiters` wakes every sleeper of its entry but those without a future. -/
lemma PermitPhase.sleepsOn_wake {i w : ℕ} {p : PermitPhase} (h : (p.wake i).sleepsOn = some w) :
    p.sleepsOn = some w ∧ (w = i → ∃ k, p = .waitCreate k i) := by
  cases p with
  | waitCreate k entry =>
    obtain rfl : entry = w := by simpa [wake, sleepsOn] using h
    exact ⟨rfl, fun hi => ⟨k, by rw [hi]⟩⟩
  | waitPoll k entry woken =>
    cases woken with
    | true => simp [wake, sleepsOn] at h
    | false =>
      by_cases hi : entry = i
      · simp [wake, sleepsOn, hi] at h
      · obtain rfl : entry = w := by simpa [wake, sleepsOn, hi] using h
        exact ⟨rfl, fun hc => absurd hc hi⟩
  | parked k entry =>
    by_cases hi : entry = i
    · simp [wake, sleepsOn, hi] at h
    · obtain rfl : entry = w := by simpa [wake, sleepsOn, hi] using h
      exact ⟨rfl, fun hc => absurd hc hi⟩
  | _ => simp [wake, sleepsOn] at h

namespace CoalesceGuard

/-- When a writer notifies, no waiter of its entry is between the load of `done` and the creation
of its future. -/
def NotifiesAll (s : CoalesceGuard) : CoalesceEvent → Prop
  | .advance i => (s.permits i).notifying = true → ∀ j k, s.permits j ≠ .waitCreate k i
  | _ => True

/-- Nobody sleeps on the entry of a writer that has completed, and no writer leaves without
`notify_waiters`. -/
structure Awake (s : CoalesceGuard) : Prop where
  notified : ∀ i k, s.permits i = .ended k true → ∀ j, (s.permits j).sleepsOn ≠ some i
  notifies : ∀ i k, s.permits i ≠ .dropRemoveOnly k

variable {calls : List CoalesceEvent} {s t : CoalesceGuard} {i : ℕ} {p q : PermitPhase}

lemma awake_new : Awake new where
  notified _ _ hi := by simp [new] at hi
  notifies _ _ := by simp [new]

/-- Permit `i` goes on to a phase in which it has not completed, and sleeps only on entries whose
writer has not completed. -/
lemma Awake.moved (h : Awake s) (hpermits : t.permits = Function.update s.permits i p)
    (hsleeps : ∀ w, p.sleepsOn = some w → ∀ k, s.permits w ≠ .ended k true)
    (hended : ∀ k, p ≠ .ended k true) (hremove : ∀ k, p ≠ .dropRemoveOnly k) : Awake t where
  notified w k hw j := by
    have hwi : w ≠ i := by
      rintro rfl
      exact hended k (by simpa [hpermits] using hw)
    have hw' : s.permits w = .ended k true := by simpa [hpermits, hwi] using hw
    by_cases hj : j = i
    · intro hsleep
      exact hsleeps w (by simpa [hpermits, hj] using hsleep) k hw'
    · simpa [hpermits, hj] using h.notified w k hw' j
  notifies j k := by
    by_cases hj : j = i
    · simpa [hpermits, hj] using hremove k
    · simpa [hpermits, hj] using h.notifies j k

lemma Awake.goto_awake (h : Awake s) (hpermits : t.permits = Function.update s.permits i p)
    (hp : p.sleepsOn = none) (hended : ∀ k, p ≠ .ended k true)
    (hremove : ∀ k, p ≠ .dropRemoveOnly k) : Awake t :=
  h.moved hpermits (fun w hw => by simp [hp] at hw) hended hremove

/-- A sleeper goes on sleeping on the same entry. -/
lemma Awake.goto_asleep (h : Awake s) {w : ℕ} (hpermits : t.permits = Function.update s.permits i p)
    (hq : s.permits i = q) (hs : q.sleepsOn = some w) (hp : p.sleepsOn = some w) : Awake t := by
  refine h.moved hpermits (fun w' hw' k hk => ?_) (fun k hk => ?_) (fun k hk => ?_)
  · obtain rfl : w = w' := by simpa [hp] using hw'
    exact h.notified w k hk i (by rw [hq, hs])
  · simp [hk, PermitPhase.sleepsOn] at hp
  · simp [hk, PermitPhase.sleepsOn] at hp

/-- `notify_waiters` and the end of the writer. -/
lemma Awake.notify (h : Awake s) {k : UInt64} (hall : ∀ j k, s.permits j ≠ .waitCreate k i) :
    Awake ((s.notifyWaiters i).goto i (.ended k true)) where
  notified w k' hw j hsleep := by
    have hj : j ≠ i := by
      rintro rfl
      simp [goto, PermitPhase.sleepsOn] at hsleep
    have hwake : ((s.permits j).wake i).sleepsOn = some w := by
      simpa [goto, notifyWaiters, hj] using hsleep
    obtain ⟨hs, hcreate⟩ := PermitPhase.sleepsOn_wake hwake
    by_cases hwi : w = i
    · obtain ⟨k'', hj'⟩ := hcreate hwi
      exact hall j k'' hj'
    · have hended : (s.permits w).wake i = .ended k' true := by
        simpa [goto, notifyWaiters, hwi] using hw
      exact h.notified w k' (PermitPhase.eq_of_wake_eq hended rfl) j hs
  notifies j k' hj := by
    by_cases hji : j = i
    · simp [goto, hji] at hj
    · have hremove : (s.permits j).wake i = .dropRemoveOnly k' := by
        simpa [goto, notifyWaiters, hji] using hj
      exact h.notifies j k' (PermitPhase.eq_of_wake_eq hremove rfl)

lemma Awake.advance_begin (h : Awake s) {k : UInt64}
    (hp : s.permits i = .beginGet k ∨ s.permits i = .beginEntry k) (ht : s.advance i = some t) :
    Awake t := by
  have hmoved : ∃ p : PermitPhase, t.permits = Function.update s.permits i p ∧ p.sleepsOn = none ∧
      (∀ k, p ≠ .ended k true) ∧ ∀ k, p ≠ .dropRemoveOnly k := by
    rcases hp with hp | hp
    all_goals
      simp only [advance, hp] at ht
      split at ht
      all_goals
        try split_ifs at ht
        all_goals
          obtain rfl := Option.some.inj ht
          exact ⟨_, rfl, rfl, by simp, by simp⟩
  obtain ⟨p, hpermits, hsleeps, hended, hremove⟩ := hmoved
  exact h.goto_awake hpermits hsleeps hended hremove

lemma Awake.advance (h : Awake s) (hinv : Inv calls s) (hall : s.NotifiesAll (.advance i))
    (ht : s.advance i = some t) : Awake t := by
  have hbegin := fun k hk => h.advance_begin (k := k) hk ht
  have hdone := hinv.done i
  cases hp : s.permits i <;> rw [hp] at hdone <;>
    simp only [CoalesceGuard.advance, hp, Option.some.injEq, reduceCtorEq] at ht
  case beginGet k => exact hbegin k (.inl hp)
  case beginEntry k => exact hbegin k (.inr hp)
  all_goals subst ht
  case dropSwap k =>
    rw [if_neg (by simp [hdone, PermitPhase.stage, Stage.done])]
    exact h.goto_awake rfl rfl (by simp) (by simp)
  case finishRemove k | dropRemove k =>
    have hpermits := removeOwnEntry_permits (s := s) (i := i) k
    exact h.goto_awake (congrArg (Function.update · i _) hpermits) rfl (by simp) (by simp)
  case dropRemoveOnly k => exact absurd hp (h.notifies i k)
  case finishNotify k | dropNotify k => exact h.notify (hall (by rw [hp]; rfl))
  case waitLoad k w =>
    by_cases hw : (s.entries w).done = true
    · rw [if_pos hw]
      exact h.goto_awake rfl rfl (by simp) (by simp)
    · rw [if_neg hw]
      refine h.moved rfl (fun w' hw' k' hk' => ?_) (by simp) (by simp)
      -- the writer is not done, so it has not completed
      obtain rfl : w = w' := by simpa [PermitPhase.sleepsOn] using hw'
      have hdone' := hinv.done w
      rw [hk'] at hdone'
      exact hw hdone'
  case waitCreate k w => exact h.goto_asleep rfl hp rfl rfl
  case waitPoll k w woken =>
    cases woken with
    | true => exact h.goto_awake rfl rfl (by simp) (by simp)
    | false => exact h.goto_asleep rfl hp rfl rfl
  all_goals exact h.goto_awake rfl rfl (by simp) (by simp)

lemma Awake.step (h : Awake s) (hinv : Inv calls s) {ev : CoalesceEvent} (hall : s.NotifiesAll ev)
    (ht : s.step ev = some t) : Awake t := by
  cases ev with
  | advance i => exact h.advance hinv hall ht
  | begin i k | finish i inserted | drop i | wait i | timeout i =>
    cases hp : s.permits i <;>
      simp only [CoalesceGuard.step, hp, Option.some.injEq, reduceCtorEq] at ht
    all_goals
      subst ht
      first
      | exact h
      | exact h.goto_awake rfl rfl (by simp) (by simp)

lemma awake_of_run {events : List CoalesceEvent}
    (h : Runs.Run (fun s ev t => s.step ev = some t ∧ s.NotifiesAll ev) new events s) :
    Inv events s ∧ Awake s := by
  refine h.invariant (fun calls s => Inv calls s ∧ Awake s) ?_ ⟨inv_new, awake_new⟩
  intro past s ev t hstep hs
  exact ⟨hs.1.step hstep.1, hs.2.step hs.1 hstep.2 hstep.1⟩

/-- A waiter of a done entry that is not asleep leaves `wait_for_writer` by its own accesses, with
the success flag of the entry. -/
lemma exec_wait_of_done {w : ℕ} (hdone : (s.entries w).done = true)
    (hwaits : (s.permits i).waitsOn w = true) (hsleeps : (s.permits i).sleepsOn ≠ some w) :
    ∃ n k t, Runs.exec CoalesceGuard.step s (List.replicate n (.advance i)) = some t ∧
      t.permits i = .waited k w (s.entries w).success := by
  have hsuccess : ∀ (u : CoalesceGuard) (k : UInt64), u.permits i = .waitSuccess k w →
      Runs.exec CoalesceGuard.step u [.advance i] = some (u.goto i (.waited k w (u.entries w).success)) := by
    intro u k hu
    simp [Runs.exec, CoalesceGuard.step, CoalesceGuard.advance, hu]
  have hload : ∀ (u : CoalesceGuard) (k : UInt64), u.permits i = .waitLoad k w →
      (u.entries w).done = true → ∃ t, Runs.exec CoalesceGuard.step u [.advance i, .advance i] = some t ∧
        t.permits i = .waited k w (u.entries w).success := by
    intro u k hu hw
    have hfirst : u.step (.advance i) = some (u.goto i (.waitSuccess k w)) := by
      simp [CoalesceGuard.step, CoalesceGuard.advance, hu, hw]
    have hrest := hsuccess (u.goto i (.waitSuccess k w)) k (by simp [goto])
    rw [Runs.exec, hfirst, Option.bind_some, hrest]
    exact ⟨_, rfl, by simp [goto]⟩
  cases hp : s.permits i <;> simp only [hp, PermitPhase.waitsOn, PermitPhase.sleepsOn, Bool.false_eq_true,
    decide_eq_true_eq, ne_eq, Option.some.injEq] at hwaits hsleeps <;> try subst hwaits
  case waitLoad k w =>
    obtain ⟨t, ht, hwaited⟩ := hload s k hp hdone
    exact ⟨2, k, t, ht, hwaited⟩
  case waitSuccess k w => exact ⟨1, k, _, hsuccess s k hp, by simp [goto]⟩
  case waitPoll k w woken =>
    obtain rfl : woken = true := by
      cases woken with
      | true => rfl
      | false => exact absurd rfl hsleeps
    have hfirst : s.step (.advance i) = some (s.goto i (.waitLoad k w)) := by
      simp [CoalesceGuard.step, CoalesceGuard.advance, hp]
    obtain ⟨t, ht, hwaited⟩ := hload (s.goto i (.waitLoad k w)) k (by simp [goto]) hdone
    refine ⟨3, k, t, ?_, hwaited⟩
    rw [List.replicate_succ, Runs.exec, hfirst, Option.bind_some]
    exact ht
  case waitCreate k w => exact absurd rfl hsleeps
  case parked k w => exact absurd rfl hsleeps

/-- As long as no writer notifies while a waiter of its entry has loaded `done` and has no future
yet, no waiter is parked on the entry of a completed writer, and each one that is still inside
`wait_for_writer` gets the writer's result without its timeout. -/
theorem no_waiter_parked_after_completion {events : List CoalesceEvent} {s : CoalesceGuard}
    (h : Runs.Run (fun s ev t => s.step ev = some t ∧ s.NotifiesAll ev) new events s) {i : ℕ}
    {k : UInt64} (hi : s.permits i = .ended k true) (j : ℕ) :
    (∀ k', s.permits j ≠ .parked k' i) ∧
    ((s.permits j).waitsOn i = true →
      ∃ n k' t, Runs.exec step s (List.replicate n (.advance j)) = some t ∧
        t.permits j = .waited k' i (s.entries i).success) := by
  obtain ⟨hinv, hawake⟩ := awake_of_run h
  have hsleeps := hawake.notified i k hi j
  have hdone : (s.entries i).done = true := by
    rw [hinv.done i, hi]
    rfl
  refine ⟨fun k' hj => ?_, fun hwaits => exec_wait_of_done hdone hwaits hsleeps⟩
  rw [hj] at hsleeps
  exact hsleeps rfl

/-- The waiter of key 7 is parked before the writer stores `done`. -/
def parkedFirst : List CoalesceEvent :=
  [.begin 0 7, .advance 0, .advance 0, .begin 1 7, .advance 1, .wait 1, .advance 1, .advance 1,
    .advance 1, .finish 0 true, .advance 0, .advance 0, .advance 0, .advance 0]

theorem no_waiter_parked_after_completion_woken : ∃ s : CoalesceGuard,
    Runs.exec step new parkedFirst = some s ∧ s.permits 0 = .ended 7 true ∧
      (s.permits 1).waitsOn 0 = true ∧
      ∃ n k t, Runs.exec step s (List.replicate n (.advance 1)) = some t ∧
        t.permits 1 = .waited k 0 true := by
  have hrun : ∃ s, Runs.exec step new parkedFirst = some s ∧
      Runs.Run (fun s ev t => s.step ev = some t ∧ s.NotifiesAll ev) new parkedFirst s := by
    refine ⟨_, rfl, ?_⟩
    iterate 13 refine .cons ⟨rfl, by first | exact trivial | rintro ⟨⟩⟩ ?_
    refine .cons ⟨rfl, fun _ j k hj => ?_⟩ .nil
    rcases j with _ | _ | j <;> cases hj
  obtain ⟨s, hs, hrun⟩ := hrun
  have hended : s.permits 0 = .ended 7 true := by
    rw [← Option.some.inj hs]
    rfl
  have hwaits : (s.permits 1).waitsOn 0 = true := by
    rw [← Option.some.inj hs]
    rfl
  have hsuccess : (s.entries 0).success = true := by
    rw [← Option.some.inj hs]
    rfl
  have hresult := (no_waiter_parked_after_completion hrun hended 1).2 hwaits
  rw [hsuccess] at hresult
  exact ⟨s, hs, hended, hwaits, hresult⟩

/-- The waiter loads `done`, the writer completes, and only then the waiter creates its future. -/
def lateFuture : List CoalesceEvent :=
  [.begin 0 7, .advance 0, .advance 0, .begin 1 7, .advance 1, .wait 1, .advance 1,
    .finish 0 true, .advance 0, .advance 0, .advance 0, .advance 0, .advance 1, .advance 1]

/-- The lost wakeup: the waiter is parked on the entry of a writer that has finished with `true`,
and gets `false` from its timeout. -/
theorem waiter_parked_after_completion : ∃ s t : CoalesceGuard,
    Runs.exec step new lateFuture = some s ∧ s.permits 0 = .ended 7 true ∧
      (s.entries 0).success = true ∧ s.permits 1 = .parked 7 0 ∧
      s.advance 1 = none ∧ s.step (.timeout 1) = some t ∧ t.permits 1 = .waited 7 0 false := by
  exact ⟨_, _, rfl, rfl, rfl, rfl, rfl, rfl, rfl⟩

end CoalesceGuard

end Pingola
