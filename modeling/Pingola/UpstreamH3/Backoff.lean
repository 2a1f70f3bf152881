import Pingola.UpstreamH3.Pool

/-!
# The delay between two attempts

A manager doubles its delay after an attempt that finds the flag cleared, and starts over after one that
finds it set. This counts the failures of the shard itself as far as the flag says at the end of each
attempt whether that attempt was established.
-/

namespace Pingola
open ByteText

/-- The delay after `failures` attempts in a row that were never established. -/
def doubledDelay (failures : ℕ) : ℕ := min (minReconnectDelay * 2 ^ failures) maxReconnectDelay

lemma doubledDelay_zero : doubledDelay 0 = minReconnectDelay := rfl

lemma nextReconnectDelay_doubledDelay (failures : ℕ) :
    nextReconnectDelay (doubledDelay failures) = doubledDelay (failures + 1) := by
  simp only [nextReconnectDelay, doubledDelay, pow_succ, ← mul_assoc]
  omega

namespace Manager

/-- The delay that the manager sleeps. -/
def pause (m : Manager) : Option ℕ :=
  match m.point with
  | .sleeping delay => some delay
  | _ => none

/-- The delay that the attempts of the shard call for: the shortest one after an attempt that was
established, and after the `k`-th failure in a row the one that was doubled `k - 1` times. -/
def ownDelay (m : Manager) : ℕ := if m.established then minReconnectDelay else doubledDelay (m.failures - 1)

/-- The next delay goes with the failures so far, and so does a present one. -/
structure Paced (m : Manager) : Prop where
  next : m.reconnectDelay = doubledDelay m.failures
  now : ∀ delay, m.pause = some delay → delay = m.ownDelay

variable {C : HttpCrate} {settings : PoolSettings} {m m' : Manager} {available : Bool} {e : ManagerEvent}

lemma pause_settle (wasAvailable : Bool) :
    (m.settle wasAvailable).pause = some (if wasAvailable then minReconnectDelay else m.reconnectDelay) := rfl

lemma Paced.settle (h : m.Paced) (hflag : available = m.established) : (m.settle available).Paced := by
  subst hflag
  refine ⟨?_, fun delay hdelay => ?_⟩
  · cases hestablished : m.established with
    | true => simp [Manager.settle, hestablished, doubledDelay_zero]
    | false => simp [Manager.settle, hestablished, h.next, nextReconnectDelay_doubledDelay]
  · rw [pause_settle, Option.some.injEq] at hdelay
    cases hestablished : m.established with
    | true => simp [ownDelay, Manager.settle, hestablished, ← hdelay]
    | false => simp [ownDelay, Manager.settle, hestablished, ← hdelay, h.next]

lemma Paced.of_awake (hnext : m.reconnectDelay = doubledDelay m.failures) (hpause : m.pause = none) : m.Paced := by
  refine ⟨hnext, fun delay hdelay => ?_⟩
  rw [hpause] at hdelay
  cases hdelay

lemma Paced.step (h : m.Paced) (hstep : m.step C settings available e = some m')
    (hflag : e = .finish false → available = m.established) : m'.Paced := by
  rcases step_cases hstep with ⟨connectedOnce, point, -, hpoint, rfl⟩ | ⟨initialCommand, setup, rfl⟩ |
    ⟨c, c', event, ticket, -, -, -, rfl⟩ | ⟨rfl, rfl⟩
  · refine Paced.of_awake h.next ?_
    cases point with
    | sleeping delay => exact absurd rfl (hpoint delay)
    | _ => rfl
  · cases setup with
    | rejected =>
      refine Paced.of_awake h.next ?_
      cases hsession : m.session <;> simp [pause, launch, hsession]
    | _ => exact Paced.of_awake h.next rfl
  · refine Paced.of_awake h.next ?_
    by_cases hdone : c'.point = .done <;> simp [pause, after, hdone]
  · exact h.settle (hflag rfl)

end Manager

namespace Pool

variable {T : Type} [DecidableEq T] {C : HttpCrate} {settings : PoolSettings} {p : Pool T}

/-- At the end of an attempt of the shard the flag says whether the attempt was established. -/
def telling (shard : T) (p : Pool T) (e : T × ManagerEvent) : Bool :=
  match e.2 with
  | .finish false => e.1 != shard || p.available == (p.shards shard).established
  | _ => true

/-- If the flag tells at the end of each attempt of a shard whether the attempt was established, every
delay of the shard is the one that its own failures call for. -/
theorem delay_of_own_failures {shard : T} {es : List (T × ManagerEvent)}
    (hrun : Runs.Run (fun p e p' => p.step C settings e = some p' ∧ p.telling shard e = true) start es p)
    {delay : ℕ} (hdelay : (p.shards shard).pause = some delay) :
    delay = if (p.shards shard).established then minReconnectDelay
      else min (minReconnectDelay * 2 ^ ((p.shards shard).failures - 1)) maxReconnectDelay := by
  have h : (p.shards shard).Paced := by
    refine hrun.invariant (fun _ p => (p.shards shard).Paced) ?_ ⟨rfl, fun _ h => (by cases h)⟩
    rintro past p ⟨other, e⟩ p' ⟨hstep, htell⟩ h
    obtain ⟨m, hm, -, hshards⟩ := step_eq_some hstep
    rw [hshards]
    by_cases hself : shard = other
    · subst hself
      rw [Function.update_self]
      apply h.step hm
      rintro rfl
      simpa [telling] using htell
    · rw [Function.update_of_ne hself]
      exact h
  exact h.now delay hdelay

/-- An attempt that fails before its loop. -/
def failsEarly : List ManagerEvent := [.choose .failed, .finish false]

/-- A shard connects, and the peer sends a GOAWAY once the warmup is over. -/
def drains : List ManagerEvent :=
  .choose .ready :: ([.begin, .drain fun _ => true, .flush false .established, .woken .established,
    .begin, .dispatch (.opened 0) fun _ => true, .retry WorkerLoop.idleChoices,
    .poll 0 .finished WorkerLoop.idleChoices, .poll 3 .goAway WorkerLoop.idleChoices, .polled,
    .drain fun _ => true].map (ManagerEvent.work · false) ++ [.finish false])

/-- Two failures in a row of one shard. -/
theorem delay_of_own_failures_twice : ∃ p : Pool (Fin 2),
    Runs.exec (fun p e => if p.telling 0 e then p.step .reference warmedPool e else none) start
      ((failsEarly ++ .wake :: failsEarly).map (Prod.mk 0)) = some p ∧
      (p.shards 0).failures = 2 ∧ (p.shards 0).pause = some 200 ∧
      200 = if (p.shards 0).established then minReconnectDelay
        else min (minReconnectDelay * 2 ^ ((p.shards 0).failures - 1)) maxReconnectDelay := by
  have hexec : (Runs.exec (fun (p : Pool (Fin 2)) e => if p.telling 0 e then
      p.step .reference warmedPool e else none) start
      ((failsEarly ++ .wake :: failsEarly).map (Prod.mk 0))).map
        (fun p => ((p.shards 0).failures, (p.shards 0).pause)) = some (2, some 200) := by
    decide +kernel
  obtain ⟨p, hp, hview⟩ := Option.map_eq_some_iff.mp hexec
  simp only [Prod.mk.injEq] at hview
  have hrun : Runs.Run (fun (p : Pool (Fin 2)) e p' => p.step .reference warmedPool e = some p' ∧
      p.telling 0 e = true) start ((failsEarly ++ .wake :: failsEarly).map (Prod.mk 0)) p :=
    Runs.run_of_exec_guarded hp
  exact ⟨p, hp, hview.1, hview.2, delay_of_own_failures hrun hview.2⟩

/-- The second attempt of the first shard is established and drained after a GOAWAY, so it has cleared
the flag, and the shard sleeps as after a second failure. While the first shard serves, the second one
fails twice, finds the flag set and sleeps as after a connection that was established. -/
theorem delay_forgets_own_failures :
    (∃ p : Pool (Fin 1),
      Runs.exec (step .reference warmedPool) start ((failsEarly ++ .wake :: drains).map (Prod.mk 0)) = some p ∧
        (p.shards 0).established = true ∧ (p.shards 0).pause = some 200) ∧
    ∃ p : Pool (Fin 2),
      Runs.exec (step .reference warmedPool) start
        (comesUp.map (Prod.mk 0) ++ failsEarly.map (Prod.mk 1) ++ [(0, .work .begin false), (1, .wake)] ++
          failsEarly.map (Prod.mk 1)) = some p ∧
        (p.shards 1).established = false ∧ (p.shards 1).failures = 2 ∧ (p.shards 1).pause = some 100 := by
  have hdrained : (Runs.exec (step .reference warmedPool) (start : Pool (Fin 1))
      ((failsEarly ++ .wake :: drains).map (Prod.mk 0))).map
        (fun p => ((p.shards 0).established, (p.shards 0).pause)) = some (true, some 200) := by
    decide +kernel
  have hshared : (Runs.exec (step .reference warmedPool) (start : Pool (Fin 2))
      (comesUp.map (Prod.mk 0) ++ failsEarly.map (Prod.mk 1) ++ [(0, .work .begin false), (1, .wake)] ++
        failsEarly.map (Prod.mk 1))).map
        (fun p => ((p.shards 1).established, (p.shards 1).failures, (p.shards 1).pause)) =
      some (false, 2, some 100) := by
    decide +kernel
  obtain ⟨p, hp, hview⟩ := Option.map_eq_some_iff.mp hdrained
  obtain ⟨p', hp', hview'⟩ := Option.map_eq_some_iff.mp hshared
  simp only [Prod.mk.injEq] at hview hview'
  exact ⟨⟨p, hp, hview⟩, p', hp', hview'⟩

end Pool

end Pingola
