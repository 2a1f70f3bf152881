import Pingola.Gateway.Transparency

/-!
# Time spent waiting for a writer

`wait_for_writer` of `cache/coalesce.rs` with a clock, and the two hooks that call it for one
request. The deadline belongs to one call: a permit that `request_filter` keeps after a wait is
waited on again by `proxy_upstream_filter`. Timers fire at their instant and code takes no time.
-/

namespace Pingola
open ByteText

/-- `CoalesceGuard::wait_timeout`. -/
def waitTimeout : ℕ := fromSecs 30

/-- The instant at which a writer stores `done`, and its success flag. -/
structure Completion where
  doneAt : ℕ
  success : Bool
  deriving DecidableEq

/-- The answer of an entry at an instant, once its writer is done. -/
def answerAt (completion : Option Completion) (now : ℕ) : Option Bool :=
  completion.bind fun c => if c.doneAt ≤ now then some c.success else none

/-- The loop of `wait_for_writer`, from the instant `now`: its result and the instant at which it
returns. The wakes are the instants at which a `Notified` future completes; after the last of them
only the timer is left. -/
def waitLoop (completion : Option Completion) (deadline now : ℕ) (wakes : List ℕ) : Bool × ℕ :=
  match answerAt completion now with
  | some success => (success, now)
  | none =>
    if deadline - now = 0 then (false, now)
    else
      match wakes with
      | [] => (false, now + (deadline - now))
      | wake :: wakes =>
        if wake ≤ deadline then waitLoop completion deadline (max now wake) wakes
        else (false, now + (deadline - now))

/-- `wait_for_writer`. -/
def waitForWriter (writer : Bool) (completion : Option Completion) (now : ℕ) (wakes : List ℕ) : Bool × ℕ :=
  if writer then (true, now) else waitLoop completion (now + waitTimeout) now wakes

section
variable {completion : Option Completion} {deadline now : ℕ} {wakes : List ℕ}

/-- The loop returns the answer of its writer, or `false` at its deadline. -/
lemma waitLoop_spec (completion : Option Completion) (deadline now : ℕ) (wakes : List ℕ) (h : now ≤ deadline) :
    now ≤ (waitLoop completion deadline now wakes).2 ∧
      (waitLoop completion deadline now wakes).2 ≤ deadline ∧
      (answerAt completion (waitLoop completion deadline now wakes).2 =
          some (waitLoop completion deadline now wakes).1 ∨
        waitLoop completion deadline now wakes = (false, deadline)) := by
  have htimer : now + (deadline - now) = deadline := by omega
  induction wakes generalizing now with
  | nil =>
    unfold waitLoop
    cases hanswer : answerAt completion now with
    | some success => exact ⟨le_rfl, h, .inl hanswer⟩
    | none =>
      simp only [htimer]
      split_ifs with hzero
      · obtain rfl : now = deadline := by omega
        simp
      · simp [h]
  | cons wake wakes ih =>
    unfold waitLoop
    cases hanswer : answerAt completion now with
    | some success => exact ⟨le_rfl, h, .inl hanswer⟩
    | none =>
      simp only [htimer]
      split_ifs with hzero hwake
      · obtain rfl : now = deadline := by omega
        simp
      · obtain ⟨hstart, hend, hresult⟩ := ih (max now wake) (by omega) (by omega)
        exact ⟨by omega, hend, hresult⟩
      · simp [h]

/-- The writer is done at an instant. -/
def DoneBy (completion : Option Completion) (now : ℕ) : Prop := ∃ c, completion = some c ∧ c.doneAt ≤ now

lemma doneBy_iff : DoneBy completion now ↔ ∃ success, answerAt completion now = some success := by
  unfold DoneBy answerAt
  cases completion <;> simp

lemma DoneBy.mono {now' : ℕ} (h : DoneBy completion now) (hle : now ≤ now') : DoneBy completion now' := by
  obtain ⟨c, hc, hdone⟩ := h
  exact ⟨c, hc, hdone.trans hle⟩

/-- A call takes at most its budget, and ends because its writer is done or the budget is spent. -/
lemma waitForWriter_spec (completion : Option Completion) (start : ℕ) (wakes : List ℕ) :
    start ≤ (waitForWriter false completion start wakes).2 ∧
      (waitForWriter false completion start wakes).2 ≤ start + waitTimeout ∧
      (DoneBy completion (waitForWriter false completion start wakes).2 ∨
        waitForWriter false completion start wakes = (false, start + waitTimeout)) := by
  obtain ⟨hstart, hend, hresult⟩ := waitLoop_spec completion (start + waitTimeout) start wakes
    (Nat.le_add_right start waitTimeout)
  exact ⟨hstart, hend, hresult.imp_left fun hanswer => doneBy_iff.mpr ⟨_, hanswer⟩⟩

variable {start : ℕ}

/-- A call on the entry of a done writer returns at once. -/
lemma waitForWriter_of_done (h : DoneBy completion start) :
    (waitForWriter false completion start wakes).2 = start := by
  obtain ⟨success, hanswer⟩ := doneBy_iff.mp h
  simp only [waitForWriter, Bool.false_eq_true, if_false]
  unfold waitLoop
  rw [hanswer]

lemma waitForWriter_of_not_done (wakes : List ℕ) (h : ¬DoneBy completion start) :
    start < (waitForWriter false completion start wakes).2 := by
  have hbudget : 0 < waitTimeout := by decide
  obtain ⟨hstart, -, hdone | htimeout⟩ := waitForWriter_spec completion start wakes
  · apply lt_of_le_of_ne hstart
    intro heq
    rw [← heq] at hdone
    exact h hdone
  · rw [htimeout]
    simp only
    omega

/-- A call whose writer is not done by the deadline runs into it. -/
lemma waitForWriter_timeout (h : ¬DoneBy completion (start + waitTimeout)) :
    waitForWriter false completion start wakes = (false, start + waitTimeout) := by
  obtain ⟨-, hend, hdone | htimeout⟩ := waitForWriter_spec completion start wakes
  · exact absurd (hdone.mono hend) h
  · exact htimeout

/-- A writer that is done by the deadline is done when the call returns. -/
lemma doneBy_waitForWriter (h : DoneBy completion (start + waitTimeout)) :
    DoneBy completion (waitForWriter false completion start wakes).2 := by
  obtain ⟨-, -, hdone | htimeout⟩ := waitForWriter_spec completion start wakes
  · exact hdone
  · rwa [htimeout]

end

/-! ### The hooks of one request -/

/-- When the waits of a request happen: the writer it joined completes, `request_filter` enters its
wait and is woken, `proxy_upstream_filter` starts a while after `request_filter` has returned, and
is woken. The cache is what the other requests have made of it during the first wait. -/
structure WaitTiming where
  completion : Option Completion
  start : ℕ
  wakes : List ℕ
  cache : CacheRuntime
  gap : ℕ
  laterWakes : List ℕ

namespace GatewayState

variable {env : Surroundings} (g : Gateway env) (H : AHasher UInt64)

/-- The time `proxy_upstream_filter` spends in `wait_for_writer` when it starts at an instant. -/
def proxyDelay (s : GatewayState) (i : ℕ) (timing : WaitTiming) (start : ℕ) : ℕ :=
  match s.exchanges i with
  | some ex =>
    if ex.phase = .filtered && ex.cacheHit.isNone && ex.cacheKey.isSome then
      (waitForWriter (!ex.waiter) timing.completion start timing.laterWakes).2 - start
    else 0
  | none => 0

/-- The time a request spends in `wait_for_writer` before it is answered or sent upstream. -/
def coalescingDelay (s : GatewayState) (i : ℕ) (session : Session) (plan : PreparedPlan) (writer : Bool)
    (now : ℕ) (timing : WaitTiming) : ℕ :=
  let arrived := s.arrive g H i session plan writer now
  match (arrived.exchanges i).map Exchange.phase with
  | some (.coalescing _) =>
    let wait := waitForWriter writer timing.completion timing.start timing.wakes
    let served := GatewayState.step g H { arrived with cache := timing.cache } (.waited i wait.1)
    (wait.2 - timing.start) + served.elim 0 fun s => s.proxyDelay i timing (wait.2 + timing.gap)
  | _ => arrived.proxyDelay i timing (timing.start + timing.gap)

/-- A request joins the fill of another one in `request_filter`. -/
def JoinsFill (s : GatewayState) (session : Session) (plan : PreparedPlan) (writer : Bool) (now : ℕ) : Prop :=
  writer = false ∧ session.request.method = methodGet ∧
    (plan.route = .doh ∨ plan.route = .navidromeApi) ∧
    ∃ key, (prepareLookup H s.cache plan.route plan.handler session.request none now).1 = .miss key

variable {g H} {s : GatewayState} {i : ℕ} {session : Session} {plan : PreparedPlan} {writer : Bool} {now : ℕ}
  {timing : WaitTiming}

lemma arrive_of_joinsFill (h : s.JoinsFill H session plan writer now) :
    ∃ ex key, (s.arrive g H i session plan writer now).exchanges i = some ex ∧
      ex.phase = .coalescing now ∧ ex.waiter = true ∧ ex.cacheKey = some key ∧ ex.cacheHit = none := by
  obtain ⟨rfl, hget, hroute, key, hmiss⟩ := h
  have hbody : dnsRequestNeedsBody session.request.method = false := by
    rw [hget]
    decide
  have hroutes : ((plan.route = .doh || plan.route = .navidromeApi) &&
      session.request.method == methodGet) = true := by simpa [hget] using hroute
  have hlookup : ∀ ex : Exchange, ex.session = session → ex.plan = plan → ex.dnsRequestBody = none →
      (s.prepareFor H ex.identify now).1 = .miss key := by
    rintro ex rfl rfl hnone
    simpa [prepareFor, Exchange.identify, hnone] using hmiss
  unfold arrive tryServe
  simp only [hbody, Bool.and_false, Bool.false_eq_true, if_false, hroutes, if_true,
    hlookup ⟨session, plan, .filtered, none, false, none, none, none, none, 0, false, false, none, []⟩ rfl rfl rfl]
  exact ⟨_, key, Function.update_self .., rfl, rfl, rfl, rfl⟩

/-- A request that joins no fill leaves `request_filter` without the permit of a waiter. -/
lemma arrive_of_not_joinsFill (h : ¬s.JoinsFill H session plan writer now) :
    ∃ ex, (s.arrive g H i session plan writer now).exchanges i = some ex ∧
      (∀ now, ex.phase ≠ .coalescing now) ∧ ex.waiter = false := by
  unfold arrive
  by_cases hbody : (plan.route = .doh && dnsRequestNeedsBody session.request.method) = true
  · rw [if_pos hbody]
    exact ⟨_, Function.update_self .., by simp, rfl⟩
  rw [if_neg hbody]
  by_cases hroutes : ((plan.route = .doh || plan.route = .navidromeApi) &&
      session.request.method == methodGet) = true
  · rw [if_pos hroutes]
    unfold tryServe
    simp only
    split
    · exact ⟨_, Function.update_self .., by simp [Exchange.identify], rfl⟩
    · exact ⟨_, Function.update_self .., by simp [Exchange.sendCached], rfl⟩
    · rename_i key hmiss
      cases writer with
      | true => exact ⟨_, Function.update_self .., by simp [Exchange.identify], rfl⟩
      | false =>
        obtain ⟨hroute, hget⟩ : (plan.route = .doh ∨ plan.route = .navidromeApi) ∧
            session.request.method = methodGet := by simpa using hroutes
        exact absurd ⟨rfl, hget, hroute, key, hmiss⟩ h
  · rw [if_neg hroutes]
    exact ⟨_, Function.update_self .., by simp, rfl⟩

/-- The permit of a writer and the entry of a done writer are not waited on. -/
lemma proxyDelay_eq_zero {start : ℕ}
    (h : DoneBy timing.completion start ∨ ∀ ex, s.exchanges i = some ex → ex.waiter = false) :
    s.proxyDelay i timing start = 0 := by
  unfold proxyDelay
  cases hex : s.exchanges i with
  | none => rfl
  | some ex =>
    have hwait : (waitForWriter (!ex.waiter) timing.completion start timing.laterWakes).2 = start := by
      cases hwaiter : ex.waiter with
      | false => rfl
      | true =>
        rcases h with hdone | hnone
        · exact waitForWriter_of_done hdone
        · simp [hnone ex hex] at hwaiter
    simp [hwait]

lemma proxyDelay_of_not_done (timing : WaitTiming) {ex : Exchange} {key : CacheKey UInt64} {start : ℕ}
    (hex : s.exchanges i = some ex) (hphase : ex.phase = .filtered) (hwaiter : ex.waiter = true)
    (hkey : ex.cacheKey = some key) (hhit : ex.cacheHit = none) (h : ¬DoneBy timing.completion start) :
    0 < s.proxyDelay i timing start := by
  have hwait := waitForWriter_of_not_done timing.laterWakes h
  simp only [proxyDelay, hex, hphase, hwaiter, hkey, hhit, decide_true, Option.isNone_none,
    Option.isSome_some, Bool.and_self, if_true, Bool.not_true]
  omega

/-- The writer is done when the second wait of a request starts. -/
lemma doneBy_second_wait {completion : Option Completion} {start gap : ℕ} (wakes : List ℕ)
    (h : DoneBy completion (start + waitTimeout + gap)) :
    DoneBy completion ((waitForWriter false completion start wakes).2 + gap) := by
  by_cases hfirst : DoneBy completion (start + waitTimeout)
  · exact (doneBy_waitForWriter hfirst).mono (Nat.le_add_right _ _)
  · rwa [waitForWriter_timeout hfirst]

/-- A failed wait leaves the permit with the request. -/
lemma step_waited_of_failed {ex : Exchange} {key : CacheKey UInt64} (cache : CacheRuntime)
    (hex : s.exchanges i = some ex) (hphase : ex.phase = .coalescing now) (hkey : ex.cacheKey = some key) :
    GatewayState.step g H { s with cache := cache } (.waited i false) =
      some (({ s with cache := cache } : GatewayState).put i { ex with phase := .filtered }) := by
  simp [GatewayState.step, hex, hphase, hkey]

/-- A request waits longer than one budget exactly if it joins a fill in `request_filter` whose
writer is not done when `proxy_upstream_filter` starts. -/
theorem coalescingDelay_le_waitTimeout_iff (g : Gateway env) (H : AHasher UInt64) (s : GatewayState) (i : ℕ)
    (session : Session) (plan : PreparedPlan) (writer : Bool) (now : ℕ) (timing : WaitTiming) :
    s.coalescingDelay g H i session plan writer now timing ≤ waitTimeout ↔
      (s.JoinsFill H session plan writer now →
        DoneBy timing.completion (timing.start + waitTimeout + timing.gap)) := by
  by_cases hjoins : s.JoinsFill H session plan writer now
  · obtain ⟨ex, key, hex, hphase, hwaiter, hkey, hhit⟩ := arrive_of_joinsFill (g := g) (i := i) hjoins
    obtain rfl : writer = false := hjoins.1
    obtain ⟨hstart, hend, -⟩ := waitForWriter_spec timing.completion timing.start timing.wakes
    simp only [coalescingDelay, hex, Option.map_some, hphase, hjoins, forall_const]
    generalize s.arrive g H i session plan false now = arrived at hex ⊢
    by_cases hdone : DoneBy timing.completion (timing.start + waitTimeout + timing.gap)
    · have hlater := doneBy_second_wait timing.wakes hdone
      have hnone : ∀ served : Option GatewayState, (served.elim 0 fun s => s.proxyDelay i timing
          ((waitForWriter false timing.completion timing.start timing.wakes).2 + timing.gap)) = 0 := by
        intro served
        cases served with
        | none => rfl
        | some s' => exact proxyDelay_eq_zero (.inl hlater)
      simp only [hnone, hdone, iff_true]
      omega
    · -- the first wait spends the whole budget, and the second one does not return at once
      have hfirst : waitForWriter false timing.completion timing.start timing.wakes =
          (false, timing.start + waitTimeout) :=
        waitForWriter_timeout fun h => hdone (h.mono (Nat.le_add_right _ _))
      have hserved := step_waited_of_failed (g := g) (H := H) timing.cache hex hphase hkey
      simp only [hfirst, hserved, Option.elim_some, hdone, iff_false]
      have hsecond := proxyDelay_of_not_done (i := i) timing
        (s := ({ arrived with cache := timing.cache } : GatewayState).put i { ex with phase := .filtered })
        (Function.update_self ..) rfl hwaiter hkey hhit hdone
      rw [Nat.add_sub_cancel_left]
      omega
  · obtain ⟨ex, hex, hphase, hwaiter⟩ := arrive_of_not_joinsFill (g := g) (i := i) hjoins
    have hzero : s.coalescingDelay g H i session plan writer now timing = 0 := by
      simp only [coalescingDelay, hex, Option.map_some]
      split
      · rename_i hcoalescing
        exact absurd (Option.some.inj hcoalescing) (hphase _)
      · apply proxyDelay_eq_zero
        exact .inr fun ex' hex' => by rw [← Option.some.inj (hex.symm.trans hex'), hwaiter]
    simp [hzero, hjoins]

end GatewayState

/-- The writer that the request joins never completes. -/
def stalledTiming : WaitTiming where
  completion := none
  start := 0
  wakes := []
  cache := (GatewayState.init (exampleGateway true)).cache
  gap := 0
  laterWakes := []

def firstQuery : List GatewayEvent := [exampleRequest 0 (ascii "dns.tae00217.cloud") exampleQuery [] 0]

/-- The delay of a second query for `a` while the first one is on its way upstream. -/
def stalledDelay (s : GatewayState) : Option ℕ :=
  let session := exampleSession (ascii "dns.tae00217.cloud") exampleQuery []
  match filterRequest (exampleGateway true).runtime.config.server (exampleGateway true).routing
    ⟨true, true, true, true⟩ session with
  | .proceed plan =>
    some (s.coalescingDelay (exampleGateway true) fnvHasher 1 session plan false 0 stalledTiming)
  | _ => none

/-- A query that joins a fill whose writer never completes waits for two budgets. -/
theorem coalescingDelay_of_stalled_writer : ∃ (s : GatewayState) (session : Session) (plan : PreparedPlan),
    (exampleGateway true).Run fnvHasher firstQuery s ∧
    filterRequest (exampleGateway true).runtime.config.server (exampleGateway true).routing
      ⟨true, true, true, true⟩ session = .proceed plan ∧
    s.coalescingDelay (exampleGateway true) fnvHasher 1 session plan false 0 stalledTiming =
      2 * waitTimeout := by
  have hdelay : (Runs.exec (GatewayState.step (exampleGateway true) fnvHasher)
      (.init (exampleGateway true)) firstQuery).bind stalledDelay = some (2 * waitTimeout) := by
    decide +kernel
  obtain ⟨s, hs, hdelay⟩ := Option.bind_eq_some_iff.mp hdelay
  unfold stalledDelay at hdelay
  simp only at hdelay
  split at hdelay
  · rename_i plan hplan
    exact ⟨s, _, plan, Runs.run_of_exec hs, hplan, Option.some.inj hdelay⟩
  · simp at hdelay

end Pingola
