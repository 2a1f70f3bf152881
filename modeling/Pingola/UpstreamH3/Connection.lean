import Pingola.UpstreamH3.Dispatch

/-!
# The loop over an upstream connection

The order in which `run_connection` works. A turn of its loop looks at the transport, passes over the
waiting requests and over the pending writes, delivers what was held up and polls, looks at the drain,
sends what is ready and waits for one thing to happen. Between two steps of the loop the worker is that
of `Worker.lean`, so every run of the loop is a run of the worker.
-/

namespace Pingola
open ByteText

/-- Where the loop stands. Two of its places are passes with some rounds left. -/
inductive LoopPoint where
  | top
  | dispatch (left : ℕ)
  | write (left : ℕ)
  | events
  | poll
  | drain
  | flush
  | select
  | done
  deriving DecidableEq

/-- `ready` says how far the handshake is, `h3` whether there is an HTTP/3 connection on top of it. -/
structure Connection where
  loop : WorkerLoop
  point : LoopPoint
  ready : Readiness
  h3 : Bool

/-- What one step of the loop depends on. `polled` is the end of the poll loop, `woken` a datagram or a
timeout, `fail` an error that ends the loop, and `closed` the end of the command channel. Sending and
receiving can move the handshake. -/
inductive ConnectionEvent where
  | begin
  | dispatch (outcome : OpenOutcome) (fits : ℕ → Bool)
  | write (outcome : WriteOutcome) (fits : ℕ → Bool)
  | retry (c : Choices)
  | poll (stream : ℕ) (event : H3Event) (c : Choices)
  | polled
  | drain (fits : ℕ → Bool)
  | flush (scheduled : Bool) (ready : Readiness)
  | command (c : Command) (fits : ℕ → Bool)
  | capacity
  | woken (ready : Readiness)
  | pacing
  | fail (error : Bytes) (fits : ℕ → Bool)
  | closed (fits : ℕ → Bool)

def ConnectionEvent.ready : ConnectionEvent → Option Readiness
  | .flush _ ready => some ready
  | .woken ready => some ready
  | _ => none

def ConnectionEvent.isBegin : ConnectionEvent → Bool
  | .begin => true
  | _ => false

namespace Connection

/-- `run_connection` up to its loop, with the command that the pool manager waited for. -/
def start (settings : BridgeSettings) (initialCommand : Option Command) : Connection :=
  let loop := WorkerLoop.start settings
  { loop := initialCommand.elim loop fun command =>
      { loop with worker := loop.worker.handleCommand (fun _ => true) command }
    point := .top
    ready := .handshaking
    h3 := false }

section

variable (c : Connection)

def draining : Bool := c.loop.worker.draining

/-- `app_ready`. -/
def appReady : Bool := c.ready != .handshaking

/-- The loop ends with the drain once no stream is left. -/
def drained : Bool := c.draining && c.loop.worker.streamToRequest.entries.isEmpty

/-- What the worker does in a step. -/
def work : ConnectionEvent → Option WorkerEvent
  | .begin => if c.appReady then some .warmup else none
  | .dispatch outcome fits => some (.dispatch c.ready outcome fits)
  | .write outcome fits => some (.write outcome fits)
  | .retry choices => some (.retry choices)
  | .poll stream event choices => some (.poll stream event choices)
  | .polled => none
  | .drain fits => if c.drained then some (.stop (.ok ()) fits) else none
  | .flush scheduled _ => some (.flush scheduled)
  | .command command fits => some (.command command fits)
  | .capacity => some .capacity
  | .woken _ => none
  | .pacing => some .pacing
  | .fail error fits => some (.stop (.error error) fits)
  | .closed fits => some (.stop (.ok ()) fits)

def writesFrom (left : ℕ) : LoopPoint := if left = 0 then .events else .write left

def dispatchFrom (w : Worker) (left : ℕ) : LoopPoint :=
  if left = 0 then writesFrom w.pendingWrites.length else .dispatch left

/-- After a delivery: the loop ends with an error, a response that is held up ends the poll loop, or
the poll goes on. -/
def deliveredTo (w : Worker) : LoopPoint :=
  if w.result.isSome then .done else if w.responseBlocked.isSome then .drain else .poll

/-- An established connection stays so. -/
def advances (ready : Readiness) : Bool := c.ready != .established || ready == .established

/-- Whether the transport or a channel can end the loop where it stands. -/
def canFail : Bool :=
  match c.point with
  | .top => true
  | .poll => true
  | .flush => true
  | .select => true
  | _ => false

/-- Where the loop goes on, given what the worker has become. -/
def next (loop : WorkerLoop) : ConnectionEvent → Option LoopPoint
  | .begin =>
    if c.point = .top then
      some (if c.h3 || c.appReady then
        if loop.worker.draining then writesFrom loop.worker.pendingWrites.length
        else dispatchFrom loop.worker loop.worker.waiting.length
      else .drain)
    else none
  | .dispatch outcome _ =>
    match c.point with
    | .dispatch left =>
      -- a blocked request ends the pass
      let blocked := (c.loop.worker.sendRequest c.ready).isSome && outcome.isBlocked
      some (dispatchFrom loop.worker (if blocked then 0 else left - 1))
    | _ => none
  | .write _ _ =>
    match c.point with
    | .write left => some (writesFrom (left - 1))
    | _ => none
  | .retry _ => if c.point = .events then some (deliveredTo loop.worker) else none
  | .poll _ _ _ => if c.point = .poll then some (deliveredTo loop.worker) else none
  | .polled => if c.point = .poll then some .drain else none
  | .drain _ => if c.point = .drain then some (if c.drained then .done else .flush) else none
  | .flush _ ready => if c.point = .flush ∧ c.advances ready then some .select else none
  | .command _ _ => if c.point = .select then some .top else none
  | .capacity => if c.point = .select then some .top else none
  | .woken ready => if c.point = .select ∧ c.advances ready then some .top else none
  | .pacing => if c.point = .select then some .top else none
  | .fail _ _ => if c.canFail then some .done else none
  | .closed _ => if c.point = .select then some .done else none

end

def step (C : HttpCrate) (settings : BridgeSettings) (c : Connection) (e : ConnectionEvent) : Option Connection :=
  ((c.work e).elim (some c.loop) (c.loop.step C settings)).bind fun loop =>
    (c.next loop e).map fun point =>
      { loop, point
        ready := e.ready.getD c.ready
        h3 := c.h3 || e.isBegin && c.appReady }

variable {C : HttpCrate} {settings : BridgeSettings} {c c' : Connection} {e : ConnectionEvent}

lemma step_eq_some (h : c.step C settings e = some c') :
    (c.work e).elim (some c.loop) (c.loop.step C settings) = some c'.loop ∧ c.next c'.loop e = some c'.point ∧
      c'.ready = e.ready.getD c.ready ∧ c'.h3 = (c.h3 || e.isBegin && c.appReady) := by
  obtain ⟨loop, hloop, hrest⟩ := Option.bind_eq_some_iff.mp h
  obtain ⟨point, hpoint, rfl⟩ := Option.map_eq_some_iff.mp hrest
  exact ⟨hloop, hpoint, rfl, rfl⟩

/-- A step of the loop is at most one turn of the worker. -/
lemma step_worker (h : c.step C settings e = some c') :
    (c.work e = none ∧ c'.loop = c.loop) ∨
      ∃ event, c.work e = some event ∧ c.loop.step C settings event = some c'.loop := by
  have hloop := (step_eq_some h).1
  cases hwork : c.work e with
  | none =>
    rw [hwork] at hloop
    exact .inl ⟨rfl, (Option.some.inj hloop).symm⟩
  | some event =>
    rw [hwork] at hloop
    exact .inr ⟨event, rfl, hloop⟩

/-- Every run of the loop is a run of the worker. -/
theorem worker_run {es : List ConnectionEvent} (h : Runs.Run (fun c e c' => step C settings c e = some c') c es c') :
    Runs.Reaches (fun l event l' => WorkerLoop.step C settings l event = some l') c.loop c'.loop := by
  apply h.simulation Connection.loop
  intro c e c' hstep
  rcases step_worker hstep with ⟨-, hsame⟩ | ⟨event, -, hevent⟩
  · rw [hsame]
    exact .refl _
  · exact .head hevent (.refl _)

end Connection

end Pingola
