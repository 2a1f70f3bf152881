import Pingola.UpstreamH3.GoAway

/-!
# The shards of an upstream pool

Every shard of the pool of an upstream has a manager, which runs one connection after the other. All
managers of an upstream share one availability flag: a turn of the loop stores to it, a drain clears
it, and after a connection the manager takes it. A step of the pool is a step of one manager and has at
most one access to the flag.
-/

namespace Pingola
open ByteText

/-- In milliseconds. -/
def minReconnectDelay : ℕ := 100

def maxReconnectDelay : ℕ := 5000

def nextReconnectDelay (current : ℕ) : ℕ := min (current * 2) maxReconnectDelay

structure H3Route where
  forced : Bool
  preferred : Bool

/-- `should_use_direct_h3`, given what it loads from the flag. -/
def H3Route.shouldUseDirectH3 (route : H3Route) (available tcpFallback : Bool) : Bool :=
  if tcpFallback then false else if route.forced then true else route.preferred && available

structure PoolSettings extends BridgeSettings where
  enableEarlyData : Bool

/-- Where a manager stands: at the top of its loop, waiting for a command with the flag set or for the
first command of all, in `run_connection`, behind it, or asleep. -/
inductive ManagerPoint where
  | top
  | resuming
  | waiting
  | running (c : Connection)
  | ended
  | sleeping (delay : ℕ)
  | stopped

/-- A manager. The last four fields are not in the source. They say of the present attempt to connect,
or of the last one, whether its loop has begun a turn while established, whether it has completed such a
turn, and whether it was established; and how many attempts in a row, up to the last one that ended,
were never established. -/
structure Manager where
  point : ManagerPoint
  session : Bool
  connectedOnce : Bool
  reconnectDelay : ℕ
  begun : Bool
  turned : Bool
  established : Bool
  failures : ℕ

/-- How `run_connection` fares up to its loop: the socket and the configuration can fail, and then the
cached session can be refused. -/
inductive Setup where
  | ready
  | failed
  | rejected

/-- `ticket` says that there is a new session, `closed` that the command channel is closed. -/
inductive ManagerEvent where
  | choose (setup : Setup)
  | receive (command : Command) (setup : Setup)
  | hangUp
  | work (e : ConnectionEvent) (ticket : Bool)
  | finish (closed : Bool)
  | wake

namespace Manager

def start : Manager := ⟨.top, false, false, minReconnectDelay, false, false, false, 0⟩

section

variable (C : HttpCrate) (settings : PoolSettings) (m : Manager)

def canResumeEarly : Bool := m.connectedOnce && settings.enableEarlyData && m.session

/-- A new attempt to connect, up to the loop. Without a session none is refused. -/
def launch (initialCommand : Option Command) (setup : Setup) : Manager :=
  let m := { m with begun := false, turned := false, established := false }
  let running := ManagerPoint.running (.start settings.toBridgeSettings initialCommand)
  match setup with
  | .ready => { m with point := running }
  | .failed => { m with point := .ended }
  | .rejected => { m with point := if m.session then .ended else running, session := false }

/-- The manager after a step of the loop over its connection. -/
def after (c c' : Connection) (e : ConnectionEvent) (ticket : Bool) : Manager :=
  { m with
    point := if c'.point = .done then .ended else .running c'
    session := m.session || (e.isBegin && c.ready == .established && ticket)
    begun := m.begun || (e.isBegin && c.ready == .established)
    turned := m.turned || (m.begun && c'.point == .top)
    established := m.established || c'.ready == .established }

/-- The end of an attempt, with what `swap` finds in the flag. -/
def settle (wasAvailable : Bool) : Manager :=
  { m with
    connectedOnce := true
    point := .sleeping (if wasAvailable then minReconnectDelay else m.reconnectDelay)
    reconnectDelay := if wasAvailable then minReconnectDelay else nextReconnectDelay m.reconnectDelay
    failures := if m.established then 0 else m.failures + 1 }

def step (available : Bool) : ManagerEvent → Option Manager
  | .choose setup =>
    match m.point with
    | .top =>
      some (if m.canResumeEarly settings then { m with point := .resuming }
        else if !m.connectedOnce && settings.warmupPath.isNone then { m with point := .waiting }
        else m.launch settings none setup)
    | _ => none
  | .receive command setup =>
    match m.point with
    | .resuming => some (m.launch settings (some command) setup)
    | .waiting => some (m.launch settings (some command) setup)
    | _ => none
  | .hangUp =>
    match m.point with
    | .resuming => some { m with point := .stopped }
    | .waiting => some { m with point := .stopped }
    | _ => none
  | .work e ticket =>
    match m.point with
    | .running c => (c.step C settings.toBridgeSettings e).map fun c' => m.after c c' e ticket
    | _ => none
  | .finish closed =>
    match m.point with
    | .ended => some (if closed then { m with connectedOnce := true, point := .stopped } else m.settle available)
    | _ => none
  | .wake =>
    match m.point with
    | .sleeping _ => some { m with point := .top }
    | _ => none

/-- The flag after a step of the manager. -/
def flag (available : Bool) : ManagerEvent → Bool
  | .choose _ => m.canResumeEarly settings || available
  | .work .begin _ =>
    match m.point with
    | .running c => c.ready == .established && !c.draining || available
    | _ => available
  | .work (.drain _) _ =>
    match m.point with
    | .running c => !c.draining && available
    | _ => available
  | .finish _ => false
  | _ => available

end

/-- The loop is in a turn that it has begun while established, or behind one, and does not drain. -/
def inTurn (m : Manager) : Bool :=
  match m.point with
  | .running c => m.begun && !c.draining
  | _ => false

/-- The connection is established and does not drain, and its loop has completed a turn since it was
established. -/
def serves (m : Manager) : Bool :=
  match m.point with
  | .running c => c.ready == .established && !c.draining && m.turned
  | _ => false

/-- The step clears the flag. -/
def clears (m : Manager) : ManagerEvent → Bool
  | .finish _ => true
  | .work (.drain _) _ =>
    match m.point with
    | .running c => c.draining
    | _ => false
  | _ => false

end Manager

/-- The managers of an upstream with the flag that they share. -/
structure Pool (T : Type) where
  available : Bool
  shards : T → Manager

namespace Pool

variable {T : Type}

def start : Pool T := ⟨false, fun _ => .start⟩

def step [DecidableEq T] (C : HttpCrate) (settings : PoolSettings) (p : Pool T) (e : T × ManagerEvent) :
    Option (Pool T) :=
  ((p.shards e.1).step C settings p.available e.2).map fun m =>
    ⟨(p.shards e.1).flag settings p.available e.2, Function.update p.shards e.1 m⟩

/-- No manager clears the flag while the loop of another one is in a turn. -/
def Considerate (p : Pool T) (e : T × ManagerEvent) : Prop :=
  (p.shards e.1).clears e.2 = true → ∀ other, other ≠ e.1 → (p.shards other).inTurn = false

instance [Fintype T] [DecidableEq T] (p : Pool T) (e : T × ManagerEvent) : Decidable (p.Considerate e) := by
  unfold Considerate
  infer_instance

end Pool

/-! ### Availability -/

lemma Connection.draining_step {C : HttpCrate} {settings : BridgeSettings} {c c' : Connection} {e : ConnectionEvent}
    (hstep : c.step C settings e = some c') (h : c'.draining = false) : c.draining = false := by
  rcases step_worker hstep with ⟨-, hsame⟩ | ⟨event, hwork, hevent⟩
  · rw [draining, ← hsame]
    exact h
  · by_cases hgoAway : ∃ stream choices, event = .poll stream .goAway choices
    · obtain ⟨stream, choices, rfl⟩ := hgoAway
      obtain ⟨-, hloop⟩ := WorkerLoop.step_eq_some hevent
      rw [draining, hloop] at h
      cases h
    · rw [draining, ← WorkerLoop.draining_step hevent]
      · exact h
      · rintro stream choices rfl
        exact hgoAway ⟨stream, choices, rfl⟩

namespace Manager

variable {C : HttpCrate} {settings : PoolSettings} {m m' : Manager} {available : Bool} {e : ManagerEvent}

@[simp] lemma begun_launch (initialCommand : Option Command) (setup : Setup) :
    (m.launch settings initialCommand setup).begun = false := by
  cases setup <;> rfl

@[simp] lemma turned_launch (initialCommand : Option Command) (setup : Setup) :
    (m.launch settings initialCommand setup).turned = false := by
  cases setup <;> rfl

/-- What a manager does in a step: it goes to a place without a connection or a delay, starts an attempt,
takes a step of the loop over its connection, or settles an attempt. -/
lemma step_cases (h : m.step C settings available e = some m') :
    (∃ connectedOnce point, (∀ c, point ≠ .running c) ∧ (∀ delay, point ≠ .sleeping delay) ∧
      m' = { m with connectedOnce := connectedOnce, point := point }) ∨
    (∃ initialCommand setup, m' = m.launch settings initialCommand setup) ∨
    (∃ c c' event ticket, e = .work event ticket ∧ m.point = .running c ∧
      c.step C settings.toBridgeSettings event = some c' ∧ m' = m.after c c' event ticket) ∨
    (e = .finish false ∧ m' = m.settle available) := by
  cases e with
  | choose setup =>
    cases hpoint : m.point with
    | top =>
      simp only [step, hpoint, Option.some.injEq] at h
      split_ifs at h
      · exact .inl ⟨m.connectedOnce, .resuming, by simp, by simp, h.symm⟩
      · exact .inl ⟨m.connectedOnce, .waiting, by simp, by simp, h.symm⟩
      · exact .inr (.inl ⟨none, setup, h.symm⟩)
    | _ => simp [step, hpoint] at h
  | receive command setup =>
    cases hpoint : m.point <;> simp only [step, hpoint, Option.some.injEq, reduceCtorEq] at h <;>
      exact .inr (.inl ⟨some command, setup, h.symm⟩)
  | hangUp =>
    cases hpoint : m.point <;> simp only [step, hpoint, Option.some.injEq, reduceCtorEq] at h <;>
      exact .inl ⟨m.connectedOnce, .stopped, by simp, by simp, h.symm⟩
  | work event ticket =>
    cases hpoint : m.point with
    | running c =>
      simp only [step, hpoint] at h
      obtain ⟨c', hc', rfl⟩ := Option.map_eq_some_iff.mp h
      exact .inr (.inr (.inl ⟨c, c', event, ticket, rfl, rfl, hc', rfl⟩))
    | _ => simp [step, hpoint] at h
  | finish closed =>
    cases hpoint : m.point <;> simp only [step, hpoint, Option.some.injEq, reduceCtorEq] at h
    cases closed with
    | true => exact .inl ⟨true, .stopped, by simp, by simp, h.symm⟩
    | false => exact .inr (.inr (.inr ⟨rfl, h.symm⟩))
  | wake =>
    cases hpoint : m.point <;> simp only [step, hpoint, Option.some.injEq, reduceCtorEq] at h
    exact .inl ⟨m.connectedOnce, .top, by simp, by simp, h.symm⟩

/-- Only the loop over a connection comes to be in a turn. -/
lemma work_of_inTurn (hstep : m.step C settings available e = some m') (h : m'.inTurn = true) :
    ∃ c c' event ticket, e = .work event ticket ∧ m.point = .running c ∧
      c.step C settings.toBridgeSettings event = some c' ∧ m' = m.after c c' event ticket := by
  rcases step_cases hstep with ⟨connectedOnce, point, hpoint, -, rfl⟩ | ⟨initialCommand, setup, rfl⟩ |
    hwork | ⟨-, rfl⟩
  · cases point with
    | running c => exact absurd rfl (hpoint c)
    | _ => cases h
  · rw [inTurn, begun_launch] at h
    split at h <;> cases h
  · exact hwork
  · cases h

lemma inTurn_after {c c' : Connection} {event : ConnectionEvent} {ticket : Bool}
    (h : (m.after c c' event ticket).inTurn = true) :
    (m.begun = true ∨ event.isBegin = true ∧ c.ready = .established) ∧ c'.draining = false := by
  by_cases hdone : c'.point = .done
  · simp [inTurn, after, hdone] at h
  · simpa [inTurn, after, hdone] using h

/-- A manager whose loop is in a turn after a step has just set the flag, or it was in a turn before and
has left the flag alone. -/
lemma inTurn_step (hstep : m.step C settings available e = some m') (h : m'.inTurn = true) :
    m.flag settings available e = true ∨ (m.inTurn = true ∧ m.flag settings available e = available) := by
  obtain ⟨c, c', event, ticket, rfl, hpoint, hc', rfl⟩ := work_of_inTurn hstep h
  obtain ⟨hbegun, hdraining'⟩ := inTurn_after h
  have hdraining := Connection.draining_step hc' hdraining'
  cases event with
  | begin =>
    cases hready : c.ready == .established with
    | true => exact .inl (by simp [flag, hpoint, hready, hdraining])
    | false =>
      have hm : m.begun = true := by
        rcases hbegun with hm | ⟨-, hestablished⟩
        · exact hm
        · simp [hestablished] at hready
      exact .inr ⟨by simp [inTurn, hpoint, hm, hdraining], by simp [flag, hpoint, hready]⟩
  | drain fits =>
    have hm : m.begun = true := by simpa [ConnectionEvent.isBegin] using hbegun
    exact .inr ⟨by simp [inTurn, hpoint, hm, hdraining], by simp [flag, hpoint, hdraining]⟩
  | _ =>
    have hm : m.begun = true := by simpa [ConnectionEvent.isBegin] using hbegun
    exact .inr ⟨by simp [inTurn, hpoint, hm, hdraining], rfl⟩

/-- A completed turn was begun. -/
lemma begun_step (hstep : m.step C settings available e = some m')
    (h : m.turned = true → m.begun = true) : m'.turned = true → m'.begun = true := by
  rcases step_cases hstep with ⟨connectedOnce, point, -, -, rfl⟩ | ⟨initialCommand, setup, rfl⟩ |
    ⟨c, c', event, ticket, -, -, -, rfl⟩ | ⟨-, rfl⟩
  · exact h
  · rw [turned_launch]
    exact fun hturned => by cases hturned
  · simp only [after, Bool.or_eq_true, Bool.and_eq_true]
    rintro (hturned | ⟨hbegun, -⟩)
    · exact .inl (h hturned)
    · exact .inl hbegun
  · exact h

lemma inTurn_of_serves (h : m.serves = true) (hbegun : m.turned = true → m.begun = true) : m.inTurn = true := by
  unfold serves at h
  unfold inTurn
  split at h
  · simp only [Bool.and_eq_true] at h ⊢
    exact ⟨hbegun h.2, h.1.2⟩
  · cases h

lemma flag_of_not_clears (h : m.clears e = false) (havailable : available = true) :
    m.flag settings available e = true := by
  subst havailable
  cases e with
  | choose setup => simp [flag]
  | work event ticket =>
    cases event with
    | begin =>
      simp only [flag]
      split <;> simp
    | drain fits =>
      simp only [clears] at h
      simp only [flag]
      split
      case h_1 c hpoint => simpa [hpoint] using h
      case h_2 => rfl
    | _ => rfl
  | finish closed => cases h
  | _ => rfl

end Manager

namespace Pool

variable {T : Type} [DecidableEq T] {C : HttpCrate} {settings : PoolSettings} {p p' : Pool T}
  {e : T × ManagerEvent}

lemma step_eq_some (h : p.step C settings e = some p') :
    ∃ m, (p.shards e.1).step C settings p.available e.2 = some m ∧
      p'.available = (p.shards e.1).flag settings p.available e.2 ∧ p'.shards = Function.update p.shards e.1 m := by
  obtain ⟨m, hm, rfl⟩ := Option.map_eq_some_iff.mp h
  exact ⟨m, hm, rfl, rfl⟩

/-- The flag is set while a loop is in a turn. -/
structure Announced (p : Pool T) : Prop where
  inTurn : ∀ shard, (p.shards shard).inTurn = true → p.available = true
  begun : ∀ shard, (p.shards shard).turned = true → (p.shards shard).begun = true

lemma Announced.step (h : Announced p) (hstep : p.step C settings e = some p') (hclear : p.Considerate e) :
    Announced p' := by
  obtain ⟨m, hm, havailable, hshards⟩ := step_eq_some hstep
  refine ⟨fun shard hshard => ?_, fun shard => ?_⟩
  · rw [havailable]
    rw [hshards] at hshard
    by_cases hself : shard = e.1
    · subst hself
      rw [Function.update_self] at hshard
      rcases Manager.inTurn_step hm hshard with hset | ⟨hold, hsame⟩
      · exact hset
      · rw [hsame]
        exact h.inTurn _ hold
    · -- another loop is in a turn, so the step does not clear the flag
      rw [Function.update_of_ne hself] at hshard
      apply Manager.flag_of_not_clears _ (h.inTurn shard hshard)
      by_contra hclears
      have hquiet := hclear (by simpa using hclears) shard hself
      rw [hshard] at hquiet
      cases hquiet
  · rw [hshards]
    by_cases hself : shard = e.1
    · subst hself
      rw [Function.update_self]
      exact Manager.begun_step hm (h.begun _)
    · rw [Function.update_of_ne hself]
      exact h.begun shard

/-- If no shard clears the flag while the loop of another one is in a turn, the flag is set whenever some
shard serves, and a preferred route uses the pool. -/
theorem available_while_serving {es : List (T × ManagerEvent)}
    (hrun : Runs.Run (fun p e p' => p.step C settings e = some p' ∧ p.Considerate e) start es p) {shard : T}
    (hserves : (p.shards shard).serves = true) :
    p.available = true ∧
      ∀ route : H3Route, route.preferred = true → route.shouldUseDirectH3 p.available false = true := by
  have h : Announced p := by
    refine hrun.invariant (fun _ p => Announced p) ?_ ⟨fun _ h => (by cases h), fun _ h => (by cases h)⟩
    intro past p e p' hstep h
    exact h.step hstep.1 hstep.2
  have havailable := h.inTurn shard (Manager.inTurn_of_serves hserves (h.begun shard))
  refine ⟨havailable, fun route hroute => ?_⟩
  rw [havailable, H3Route.shouldUseDirectH3, hroute]
  simp

def warmedPool : PoolSettings := ⟨WorkerLoop.warmedSettings, false⟩

/-- A shard connects, and completes a turn of its loop. -/
def comesUp : List ManagerEvent :=
  .choose .ready :: [.begin, .drain fun _ => true, .flush false .established, .woken .established,
    .begin, .dispatch (.opened 0) fun _ => true, .retry WorkerLoop.idleChoices, .polled, .drain fun _ => true,
    .flush false .established, .woken .established].map (ManagerEvent.work · false)

/-- The connection of a shard is lost. -/
def goesDown : List ManagerEvent :=
  [.work (.fail (ascii "upstream QUIC connection closed") fun _ => true) false, .finish false]

/-- Two shards, of which the first one is lost before the second one connects. -/
theorem available_while_serving_second : ∃ p : Pool (Fin 2),
    Runs.exec (fun p e => if decide (p.Considerate e) then p.step .reference warmedPool e else none) start
      ((comesUp ++ goesDown).map (Prod.mk 0) ++ comesUp.map (Prod.mk 1)) = some p ∧
      (p.shards 1).serves = true ∧ p.available = true ∧
      ∀ route : H3Route, route.preferred = true → route.shouldUseDirectH3 p.available false = true := by
  have hexec : (Runs.exec (fun (p : Pool (Fin 2)) e => if decide (p.Considerate e) then
      p.step .reference warmedPool e else none) start
      ((comesUp ++ goesDown).map (Prod.mk 0) ++ comesUp.map (Prod.mk 1))).map
        (fun p => (p.shards 1).serves) = some true := by
    decide +kernel
  obtain ⟨p, hp, hserves⟩ := Option.map_eq_some_iff.mp hexec
  have hrun : Runs.Run (fun (p : Pool (Fin 2)) e p' => p.step .reference warmedPool e = some p' ∧
      p.Considerate e) start ((comesUp ++ goesDown).map (Prod.mk 0) ++ comesUp.map (Prod.mk 1)) p := by
    apply (Runs.run_of_exec_guarded hp).mono
    intro p e p' hstep
    exact ⟨hstep.1, of_decide_eq_true hstep.2⟩
  exact ⟨p, hp, hserves, available_while_serving hrun hserves⟩

/-- Two shards serve, and the connection of the first one is lost. The flag is cleared although the
second one still serves, and a preferred route does not use the pool. -/
theorem lost_shard_hides_serving_shard : ∃ p : Pool (Fin 2),
    Runs.exec (step .reference warmedPool) start
      (comesUp.map (Prod.mk 0) ++ comesUp.map (Prod.mk 1) ++ goesDown.map (Prod.mk 0)) = some p ∧
      (p.shards 1).serves = true ∧ p.available = false ∧
      H3Route.shouldUseDirectH3 ⟨false, true⟩ p.available false = false := by
  have hexec : (Runs.exec (step .reference warmedPool) (start : Pool (Fin 2))
      (comesUp.map (Prod.mk 0) ++ comesUp.map (Prod.mk 1) ++ goesDown.map (Prod.mk 0))).map
        (fun p => ((p.shards 1).serves, p.available)) = some (true, false) := by
    decide +kernel
  obtain ⟨p, hp, hview⟩ := Option.map_eq_some_iff.mp hexec
  simp only [Prod.mk.injEq] at hview
  refine ⟨p, hp, hview.1, hview.2, ?_⟩
  rw [hview.2]
  rfl

end Pool

end Pingola
