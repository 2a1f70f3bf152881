import Pingola.UpstreamH3.Connection

/-!
# Requests at a GOAWAY

A drain stops the passes over the waiting requests and refuses new ones. Whether it strands a request
is decided when the GOAWAY is polled: from then on no request comes to wait, and none gets a stream.
-/

namespace Pingola
open ByteText

/-- The GOAWAY of the peer is polled. -/
def ConnectionEvent.isGoAway : ConnectionEvent → Bool
  | .poll _ event _ => event.isGoAway
  | _ => false

/-- A place of the loop behind the test for an HTTP/3 connection. -/
def LoopPoint.usesH3 : LoopPoint → Bool
  | .dispatch _ => true
  | .write _ => true
  | .events => true
  | .poll => true
  | _ => false

namespace Worker

def allStreamed (w : Worker) : Bool := w.requests.entries.all fun e => e.2.streamId.isSome

/-- During a drain every request has a stream. -/
def StreamedInDrain (_waiting : List ℕ) (draining : Bool) (_id : ℕ) (r : PendingRequest) : Prop :=
  draining = true → r.streamId ≠ none

variable {w : Worker}

lemma allStreamed_iff : w.allStreamed = true ↔ ∀ id r, w.requests.lookup id = some r → r.streamId ≠ none := by
  rw [allStreamed, List.all_eq_true]
  constructor
  · intro h id r hr
    exact Option.isSome_iff_ne_none.mp (h ⟨id, r⟩ (AList.mem_lookup_iff.mp hr))
  · rintro h ⟨id, r⟩ he
    exact Option.isSome_iff_ne_none.mpr (h id r (AList.mem_lookup_iff.mpr he))

lemma each_of_not_draining (h : w.draining = false) : w.Each StreamedInDrain := by
  intro id r _ hdraining
  rw [h] at hdraining
  cases hdraining

lemma responseBlind_streamed : ResponseBlind (Each StreamedInDrain) := by
  apply responseBlind_each
  intro waiting draining id r r' hout h
  simp only [PendingRequest.outbound, Prod.mk.injEq] at hout
  obtain ⟨-, -, -, -, hstream, -⟩ := hout
  rw [StreamedInDrain, hstream]
  exact h

lemma uploadBlind_streamed : UploadBlind (Each StreamedInDrain) :=
  uploadBlind_each fun _ _ _ _ _ h => h

end Worker

lemma WorkerLoop.draining_warmup (settings : BridgeSettings) (l : WorkerLoop) :
    (l.warmup settings).worker.draining = l.worker.draining := by
  unfold WorkerLoop.warmup
  split
  · split
    · simp only [Worker.enqueueWarmupRequest]
      split <;> rfl
    · rfl
  · rfl

/-- A turn of the worker keeps the requests of a drain on their streams, if it queues no warmup in a
drain and finds all requests on streams at a GOAWAY. -/
lemma WorkerLoop.streamed_step {C : HttpCrate} {settings : BridgeSettings} {l l' : WorkerLoop} {e : WorkerEvent}
    (h : l.worker.Each Worker.StreamedInDrain) (hstep : l.step C settings e = some l')
    (hwarmup : l.worker.draining = true → l.warmupPending = false)
    (hgoAway : ∀ stream c, e = .poll stream .goAway c → l.worker.allStreamed = true) :
    l'.worker.Each Worker.StreamedInDrain := by
  apply step_of_blind Worker.responseBlind_streamed Worker.uploadBlind_streamed hstep h
  · intro id headers hasBody allowEarlyData opened fits _
    simp only [Worker.handleCommand]
    split
    case isTrue => exact h.congr rfl
    case isFalse hdraining => exact Worker.each_of_not_draining (Bool.eq_false_of_not_eq_true hdraining)
  · intro _
    cases hdraining : l.worker.draining with
    | true => simpa [WorkerLoop.warmup, hwarmup hdraining] using h
    | false => exact Worker.each_of_not_draining ((draining_warmup settings l).trans hdraining)
  · intro ready outcome fits _ hdraining
    exact Worker.each_of_not_draining ((Worker.draining_dispatchWaiting _ _ _ _).trans hdraining)
  · intro stream c he
    have hall := Worker.allStreamed_iff.mp (hgoAway stream c he)
    exact fun id r hr _ => hall id r hr

lemma WorkerLoop.draining_step {C : HttpCrate} {settings : BridgeSettings} {l l' : WorkerLoop} {e : WorkerEvent}
    (hstep : l.step C settings e = some l') (hgoAway : ∀ stream c, e ≠ .poll stream .goAway c) :
    l'.worker.draining = l.worker.draining := by
  let same : List ℕ → Bool → Prop := fun _ draining => draining = l.worker.draining
  apply step_of_blind (Worker.responseBlind_queue same) (Worker.uploadBlind_queue same) hstep rfl
  · intro id headers hasBody allowEarlyData opened fits _
    simp only [Worker.handleCommand]
    split <;> rfl
  · intro _
    exact draining_warmup settings l
  · intro ready outcome fits _ _
    exact Worker.draining_dispatchWaiting _ _ _ _
  · intro stream c he
    exact absurd he (hgoAway stream c)

/-- The warmup is queued at most once, and only a `warmup` turn settles it. -/
lemma WorkerLoop.warmup_step {C : HttpCrate} {settings : BridgeSettings} {l l' : WorkerLoop} {e : WorkerEvent}
    (hstep : l.step C settings e = some l') (honce : l.warmupPending = true → l.warmupDone = false) :
    (l'.warmupPending = true → l'.warmupDone = false ∧ l.warmupPending = true) ∧
      (e = .warmup → l'.warmupPending = false) := by
  obtain ⟨-, rfl⟩ := step_eq_some hstep
  cases e with
  | warmup =>
    simp only [turn, WorkerLoop.warmup]
    cases hpending : l.warmupPending with
    | false => simp [hpending]
    | true =>
      simp only [honce hpending, Bool.not_false, Bool.and_self, if_true]
      split <;> simp
  | capacity =>
    simp only [turn]
    split <;> exact ⟨fun h => ⟨honce h, h⟩, fun h => by cases h⟩
  | pacing =>
    simp only [turn]
    split <;> exact ⟨fun h => ⟨honce h, h⟩, fun h => by cases h⟩
  | _ => exact ⟨fun h => ⟨honce h, h⟩, fun h => by cases h⟩

namespace Connection

variable {C : HttpCrate} {settings : BridgeSettings} {c c' : Connection} {e : ConnectionEvent}

/-- A drain finds an HTTP/3 connection, whose warmup was queued when it was made, and all requests on
streams. -/
structure Drainable (c : Connection) : Prop where
  h3 : c.point.usesH3 = true → c.h3 = true
  warm : c.h3 = true → c.loop.warmupPending = false
  once : c.loop.warmupPending = true → c.loop.warmupDone = false
  drain : c.draining = true → c.h3 = true
  streamed : c.loop.worker.Each Worker.StreamedInDrain

lemma usesH3_of_next {loop : WorkerLoop} {point : LoopPoint} (hbegin : e.isBegin = false)
    (h : c.next loop e = some point) (huses : point.usesH3 = true) : c.point.usesH3 = true := by
  cases e with
  | begin => cases hbegin
  | dispatch outcome fits =>
    simp only [next] at h
    cases hpoint : c.point <;> simp only [hpoint] at h <;> first | rfl | cases h
  | write outcome fits =>
    simp only [next] at h
    cases hpoint : c.point <;> simp only [hpoint] at h <;> first | rfl | cases h
  | retry choices =>
    simp only [next] at h
    split_ifs at h with hpoint
    rw [hpoint]
    rfl
  | poll stream event choices =>
    simp only [next] at h
    split_ifs at h with hpoint
    rw [hpoint]
    rfl
  | polled =>
    simp only [next] at h
    split_ifs at h with hpoint
    rw [hpoint]
    rfl
  | drain fits =>
    simp only [next] at h
    split_ifs at h <;> (obtain rfl := Option.some.inj h; cases huses)
  | fail error fits =>
    simp only [next] at h
    split_ifs at h
    obtain rfl := Option.some.inj h
    cases huses
  | _ =>
    simp only [next] at h
    split_ifs at h
    obtain rfl := Option.some.inj h
    cases huses

/-- The worker polls a GOAWAY only where the loop does. -/
lemma poll_of_work {stream : ℕ} {choices : Choices} (h : c.work e = some (.poll stream .goAway choices)) :
    e = .poll stream .goAway choices := by
  cases e with
  | poll stream' event choices' =>
    obtain ⟨rfl, rfl, rfl⟩ := WorkerEvent.poll.inj (Option.some.inj h)
    rfl
  | begin =>
    simp only [work] at h
    split_ifs at h
    cases h
  | drain fits =>
    simp only [work] at h
    split_ifs at h
    cases h
  | _ => cases h

lemma drainable_start (settings : BridgeSettings) (initialCommand : Option Command) :
    Drainable (start settings initialCommand) := by
  have hworker : ∀ command, (Worker.start.handleCommand (fun _ => true) command).draining = false := by
    intro command
    cases command with
    | opens id headers hasBody allowEarlyData opened => rfl
    | body id data fin => rfl
    | trailers id headers => rfl
    | cancel id => rfl
  have hdraining : (start settings initialCommand).draining = false := by
    cases initialCommand with
    | none => rfl
    | some command => exact hworker command
  refine ⟨fun h => (by cases h), fun h => (by cases h), fun _ => ?_, fun h => ?_, ?_⟩
  · cases initialCommand <;> rfl
  · rw [hdraining] at h
    cases h
  · exact Worker.each_of_not_draining hdraining

lemma Drainable.step (h : Drainable c) (hstep : c.step C settings e = some c')
    (hgoAway : e.isGoAway = true → c.loop.worker.allStreamed = true) : Drainable c' := by
  obtain ⟨-, hnext, -, hh3⟩ := step_eq_some hstep
  have hkeeps : c.h3 = true → c'.h3 = true := fun hc => by rw [hh3, hc, Bool.true_or]
  have hwork := step_worker hstep
  have hwarm : c'.loop.warmupPending = true → c'.loop.warmupDone = false ∧ c.loop.warmupPending = true := by
    rcases hwork with ⟨-, hsame⟩ | ⟨event, -, hevent⟩
    · rw [hsame]
      exact fun hpending => ⟨h.once hpending, hpending⟩
    · exact (WorkerLoop.warmup_step hevent h.once).1
  refine ⟨fun huses => ?_, fun hc' => ?_, fun hpending => (hwarm hpending).1, fun hdraining => ?_, ?_⟩
  · cases hbegin : e.isBegin with
    | false => exact hkeeps (h.h3 (usesH3_of_next hbegin hnext huses))
    | true =>
      obtain rfl : e = .begin := by cases e <;> first | rfl | cases hbegin
      simp only [next] at hnext
      rw [hh3, hbegin, Bool.true_and]
      by_contra hnone
      rw [if_neg hnone] at hnext
      split_ifs at hnext
      obtain heq := Option.some.inj hnext
      rw [← heq] at huses
      cases huses
  · -- the connection is there already, or is made in this step together with the warmup
    by_contra hpending
    have hold := (hwarm (by simpa using hpending)).2
    have hnew : c.h3 = false := by
      by_contra hc
      rw [h.warm (by simpa using hc)] at hold
      cases hold
    rw [hh3, hnew, Bool.false_or, Bool.and_eq_true] at hc'
    obtain rfl : e = .begin := by cases e <;> first | rfl | cases hc'.1
    rcases hwork with ⟨hnone, -⟩ | ⟨event, hsome, hevent⟩
    · simp [work, hc'.2] at hnone
    · simp only [work, hc'.2, if_true, Option.some.injEq] at hsome
      exact hpending ((WorkerLoop.warmup_step hevent h.once).2 hsome.symm)
  · by_cases hpoll : ∃ stream choices, e = .poll stream .goAway choices
    · obtain ⟨stream, choices, rfl⟩ := hpoll
      simp only [next] at hnext
      split_ifs at hnext with hpoint
      exact hkeeps (h.h3 (by rw [hpoint]; rfl))
    · apply hkeeps
      apply h.drain
      rcases hwork with ⟨-, hsame⟩ | ⟨event, hsome, hevent⟩
      · rw [draining, ← hsame]
        exact hdraining
      · rw [draining, ← WorkerLoop.draining_step hevent]
        · exact hdraining
        · rintro stream choices rfl
          exact hpoll ⟨stream, choices, poll_of_work hsome⟩
  · rcases hwork with ⟨-, hsame⟩ | ⟨event, hsome, hevent⟩
    · rw [hsame]
      exact h.streamed
    · apply WorkerLoop.streamed_step h.streamed hevent fun hdraining => h.warm (h.drain hdraining)
      rintro stream choices rfl
      apply hgoAway
      rw [poll_of_work hsome]
      rfl

/-- If all requests have streams whenever a GOAWAY is polled, the drain has no request without a
stream. -/
theorem goaway_strands_no_request {initialCommand : Option Command} {es : List ConnectionEvent}
    (hrun : Runs.Run (fun c e c' => c.step C settings e = some c' ∧
      (e.isGoAway = true → c.loop.worker.allStreamed = true)) (start settings initialCommand) es c)
    (hdraining : c.draining = true) :
    ∀ id r, c.loop.worker.requests.lookup id = some r → r.streamId ≠ none := by
  have h : Drainable c := by
    refine hrun.invariant (fun _ c => Drainable c) ?_ (drainable_start settings initialCommand)
    intro past c e c' hstep h
    exact h.step hstep.1 hstep.2
  exact fun id r hr => h.streamed id r hr hdraining

/-- One turn in which nothing happens but its last step, from the top of the loop to the next one. -/
def quietTurn (last : ConnectionEvent) : List ConnectionEvent :=
  [.begin, .retry WorkerLoop.idleChoices, .polled, .drain fun _ => true, .flush false .established, last]

/-- The handshake, and a turn for each of two requests. -/
def twoRequests (second : OpenOutcome) : List ConnectionEvent :=
  [.begin, .drain fun _ => true, .flush false .established,
    .command (.opens 1 [] false true false) fun _ => true,
    .begin, .dispatch (.opened 0) fun _ => true, .retry WorkerLoop.idleChoices, .polled, .drain fun _ => true,
    .flush false .established, .command (.opens 2 [] false true false) fun _ => true,
    .begin, .dispatch second fun _ => true, .retry WorkerLoop.idleChoices, .poll 4 .goAway WorkerLoop.idleChoices,
    .polled, .drain fun _ => true, .flush false .established, .woken .established]

def unwarmedSettings : BridgeSettings := ⟨ascii "origin.example", none⟩

/-- Both requests of the example are on streams when the GOAWAY arrives. -/
theorem goaway_strands_no_request_streamed : ∃ c : Connection,
    Runs.exec (fun c e => if !e.isGoAway || c.loop.worker.allStreamed then
        c.step .reference unwarmedSettings e else none) (start unwarmedSettings none)
      (twoRequests (.opened 4)) = some c ∧ c.draining = true ∧
      (c.loop.worker.requests.lookup 2).isSome = true ∧
      ∀ id r, c.loop.worker.requests.lookup id = some r → r.streamId ≠ none := by
  have hexec : (Runs.exec (fun c e => if !e.isGoAway || c.loop.worker.allStreamed then
      c.step .reference unwarmedSettings e else none) (start unwarmedSettings none)
      (twoRequests (.opened 4))).map (fun c => (c.draining, (c.loop.worker.requests.lookup 2).isSome)) =
      some (true, true) := by
    decide +kernel
  obtain ⟨c, hc, hview⟩ := Option.map_eq_some_iff.mp hexec
  simp only [Prod.mk.injEq] at hview
  have hrun : Runs.Run (fun c e c' => c.step .reference unwarmedSettings e = some c' ∧
      (e.isGoAway = true → c.loop.worker.allStreamed = true)) (start unwarmedSettings none)
      (twoRequests (.opened 4)) c := by
    apply (Runs.run_of_exec_guarded hc).mono
    intro c e c' hstep
    refine ⟨hstep.1, fun hgoAway => ?_⟩
    simpa [hgoAway] using hstep.2
  exact ⟨c, hc, hview.1, hview.2, goaway_strands_no_request hrun hview.1⟩

/-- The error that a request gets instead of a response. -/
def refusal : Reply → Option (ℕ × Bytes)
  | .response id (.error message) => some (id, message)
  | _ => none

/-- A third request comes in the turn after the GOAWAY. -/
def lateRequest : List ConnectionEvent :=
  twoRequests .blocked ++ quietTurn (.command (.opens 3 [] false true false) fun _ => true)

/-- The second request of the example waits at the stream limit when the GOAWAY arrives. A turn later it
has neither a stream nor an answer, while a third request is refused at once. -/
theorem goaway_strands_waiting_request : ∃ c : Connection,
    Runs.exec (step .reference unwarmedSettings) (start unwarmedSettings none) lateRequest = some c ∧
      (c.draining = true ∧ c.point = .top) ∧
      (c.loop.worker.requests.lookup 2).map PendingRequest.streamId = some none ∧
      c.loop.worker.replies.map refusal =
        [some (3, ascii "upstream HTTP/3 connection is draining after GOAWAY")] := by
  have hexec : (Runs.exec (step .reference unwarmedSettings) (start unwarmedSettings none) lateRequest).map
      (fun c => ((c.draining, c.point), (c.loop.worker.requests.lookup 2).map PendingRequest.streamId)) =
      some ((true, .top), some none) := by
    decide +kernel
  have hreplies : (Runs.exec (step .reference unwarmedSettings) (start unwarmedSettings none) lateRequest).map
      (fun c => c.loop.worker.replies.map refusal) =
      some [some (3, ascii "upstream HTTP/3 connection is draining after GOAWAY")] := by
    decide +kernel
  obtain ⟨c, hc, hview⟩ := Option.map_eq_some_iff.mp hexec
  rw [hc, Option.map_some, Option.some.injEq] at hreplies
  simp only [Prod.mk.injEq] at hview
  exact ⟨c, hc, hview.1, hview.2, hreplies⟩

end Connection

end Pingola
