import Pingola.UpstreamH3.Coherence

/-!
# What responses leave alone

Delivering a response changes the response side of its request or ends the request. A property of
the worker that does not look at responses and that survives the end of a request is kept by the retry
of a delivery and by every event of a stream.
-/

namespace Pingola
open ByteText

/-- The part of a request that its own side decides: all but the delivery of the response. -/
def PendingRequest.outbound (r : PendingRequest) :
    List H3Header × Bool × Bool × Bool × Option ℕ × Option PendingWrite × Bool :=
  (r.headers, r.hasBody, r.allowEarlyData, r.opened, r.streamId, r.pendingWrite, r.discardBody)

namespace Worker

/-- A property that does not depend on the delivery of responses, and that the end of a request or of
the worker keeps. -/
structure ResponseBlind (P : Worker → Prop) : Prop where
  buffers : ∀ {w : Worker} (bodyBuf : Bytes) (blocked : Option ℕ) (sent : ℕ → List BodyMessage), P w →
    P { w with bodyBuf := bodyBuf, responseBlocked := blocked, sent := sent }
  head : ∀ {w : Worker} (id : ℕ) (result : Except Bytes ResponseHead), P w → P (w.reply [.response id result])
  request : ∀ {w : Worker} {id : ℕ} {r r' : PendingRequest}, w.requests.lookup id = some r →
    r'.outbound = r.outbound → P w → P (w.setRequest id r')
  cancel : ∀ {w : Worker} (fits : ℕ → Bool) (id : ℕ) (message : Bytes), P w →
    P (w.cancelRequest fits id message)
  finish : ∀ {w : Worker} (stream id : ℕ), P w → P (w.onFinished stream id)
  stop : ∀ {w : Worker} (fits : ℕ → Bool) (result : Except Failure Unit), P w → P (w.stop fits result)
  crash : ∀ {w : Worker} (message : String), P w → P (w.crash message)

/-- What delivering a response keeps if each of its elementary steps does. -/
structure ResponseClosed (P : Worker → Prop) : Prop where
  buffers : ∀ {w : Worker} (bodyBuf : Bytes) (blocked : Option ℕ), P w →
    P { w with bodyBuf := bodyBuf, responseBlocked := blocked }
  send : ∀ {w : Worker} (id : ℕ) (m : BodyMessage), P w → P (w.send id m)
  head : ∀ {w : Worker} (id : ℕ) (result : Except Bytes ResponseHead), P w → P (w.reply [.response id result])
  request : ∀ {w : Worker} {id : ℕ} {r r' : PendingRequest}, w.requests.lookup id = some r →
    r'.outbound = r.outbound → P w → P (w.setRequest id r')
  cancel : ∀ {w : Worker} (fits : ℕ → Bool) (id : ℕ) (message : Bytes), P w →
    P (w.cancelRequest fits id message)
  finish : ∀ {w : Worker} (stream id : ℕ), P w → P (w.onFinished stream id)
  stop : ∀ {w : Worker} (fits : ℕ → Bool) (result : Except Failure Unit), P w → P (w.stop fits result)
  crash : ∀ {w : Worker} (message : String), P w → P (w.crash message)

lemma ResponseBlind.closed {P : Worker → Prop} (hP : ResponseBlind P) : ResponseClosed P where
  buffers bodyBuf blocked h := hP.buffers bodyBuf blocked _ h
  send _ _ h := hP.buffers _ _ _ h
  head := hP.head
  request := hP.request
  cancel := hP.cancel
  finish := hP.finish
  stop := hP.stop
  crash := hP.crash

namespace ResponseClosed

variable {P : Worker → Prop} {w : Worker} (hP : ResponseClosed P)
include hP

lemma block (h : P w) (blocked : Option ℕ) : P { w with responseBlocked := blocked } :=
  hP.buffers w.bodyBuf blocked h

lemma drainResponseBody (h : P w) (id : ℕ) (d : Drain) : P (w.drainResponseBody id d).1 := by
  unfold Worker.drainResponseBody
  split
  case h_1 => exact h
  case h_2 =>
    split_ifs
    · exact h
    · apply List.foldlRecOn d.reads _ (motive := P) h
      intro w' hw' bytes _
      exact hP.buffers [] _ (hP.send id _ hw')

lemma discardResponseBody (h : P w) (id : ℕ) (received : Except Bytes Bytes) :
    P (w.discardResponseBody id received).1 := by
  rw [Worker.discardResponseBody]
  split
  case isTrue => exact h
  case isFalse =>
    cases received with
    | ok bytes => exact hP.buffers _ _ h
    | error error => exact hP.buffers _ _ h

lemma settle (c : Choices) (id : ℕ) {outcome : Worker × Except Failure DeliveryRetry} (h : P outcome.1) :
    P (settle c id outcome) := by
  obtain ⟨w', result⟩ := outcome
  cases result with
  | error f => exact hP.stop c.fits _ h
  | ok retry =>
    cases retry with
    | ready => exact h
    | blocked => exact hP.block h (some id)
    | closed message => exact hP.cancel c.fits id message h

lemma retryDelivery (h : P w) (c : Choices) : P (w.retryDelivery c) := by
  unfold Worker.retryDelivery
  split
  case h_1 => exact h
  case h_2 id _ =>
    have hfree := hP.block h none
    dsimp only
    split
    case h_1 => exact hfree
    case h_2 r hr =>
      split
      case h_1 => exact hP.settle c id (hP.drainResponseBody hfree id c.drain)
      case h_2 frame _ =>
        have hset : P ({ w with responseBlocked := none }.setRequest id { r with pendingResponse := none }) :=
          hP.request hr rfl hfree
        simp only [Worker.setRequest, AList.lookup_insert]
        cases c.answer with
        | ready => exact hP.send id _ hset
        | full =>
          have hagain : P (({ w with responseBlocked := none }.setRequest id
              { r with pendingResponse := none }).setRequest id { r with pendingResponse := some frame }) :=
            hP.request (AList.lookup_insert w.requests) rfl hset
          exact hP.block hagain (some id)
        | closed => exact hP.cancel c.fits id _ hset

lemma startResponse (h : P w) (c : Choices) (id : ℕ) (head : ResponseHead) : P (w.startResponse c id head) := by
  unfold Worker.startResponse
  split
  case h_1 => exact hP.stop c.fits _ h
  case h_2 r hr =>
    split_ifs
    · exact hP.request hr rfl h
    · exact hP.stop c.fits _ h
    · exact hP.stop c.fits _ h
    · exact hP.head id _ (hP.request hr rfl h)
    · exact hP.cancel c.fits id _ (hP.request hr rfl h)

lemma sendTrailers (h : P w) (c : Choices) (id : ℕ) (trailers : HeaderMap) : P (w.sendTrailers c id trailers) := by
  unfold Worker.sendTrailers
  cases c.answer with
  | ready => exact hP.send id _ h
  | full =>
    simp only [trySend]
    split
    case h_1 => exact hP.stop c.fits _ h
    case h_2 r hr =>
      have hset : P (w.setRequest id { r with pendingResponse := some (.trailers trailers) }) :=
        hP.request hr rfl h
      exact hP.block hset (some id)
  | closed => exact hP.cancel c.fits id _ h

lemma onHeaders (h : P w) (C : HttpCrate) (c : Choices) (id : ℕ) (list : List H3Header) :
    P (w.onHeaders C c id list) := by
  unfold Worker.onHeaders
  split
  case h_1 => exact hP.stop c.fits _ h
  case h_2 r hr =>
    split
    case isTrue =>
      split
      · exact hP.cancel c.fits id _ h
      · exact hP.sendTrailers h c id _
    case isFalse =>
      split
      · exact hP.cancel c.fits id _ h
      · split
        · exact h
        · exact hP.startResponse h c id _

lemma onData (h : P w) (c : Choices) (id : ℕ) : P (w.onData c id) := by
  unfold Worker.onData
  split
  · exact hP.settle c id (hP.discardResponseBody h id c.received)
  · exact hP.settle c id (hP.drainResponseBody h id c.drain)

/-- An event of a stream; GOAWAY is one of the connection. -/
lemma pollEvent (h : P w) (C : HttpCrate) (stream : ℕ) {event : H3Event} (hevent : event.isGoAway = false)
    (c : Choices) : P (w.pollEvent C stream event c) := by
  unfold Worker.pollEvent
  rw [hevent]
  simp only [Bool.false_eq_true, if_false]
  split
  case h_1 => exact h
  case h_2 id _ =>
    cases event with
    | headers list => exact hP.onHeaders h C c id list
    | data => exact hP.onData h c id
    | finished => exact hP.finish stream id h
    | reset code => exact hP.cancel c.fits id _ h
    | goAway => exact hP.crash _ h
    | priorityUpdate => exact h

end ResponseClosed

namespace ResponseBlind

variable {P : Worker → Prop}

lemma and {Q : Worker → Prop} (hP : ResponseBlind P) (hQ : ResponseBlind Q) :
    ResponseBlind fun w => P w ∧ Q w where
  buffers bodyBuf blocked sent h := ⟨hP.buffers bodyBuf blocked sent h.1, hQ.buffers bodyBuf blocked sent h.2⟩
  head id result h := ⟨hP.head id result h.1, hQ.head id result h.2⟩
  request hr hout h := ⟨hP.request hr hout h.1, hQ.request hr hout h.2⟩
  cancel fits id message h := ⟨hP.cancel fits id message h.1, hQ.cancel fits id message h.2⟩
  finish stream id h := ⟨hP.finish stream id h.1, hQ.finish stream id h.2⟩
  stop fits result h := ⟨hP.stop fits result h.1, hQ.stop fits result h.2⟩
  crash message h := ⟨hP.crash message h.1, hQ.crash message h.2⟩

end ResponseBlind

lemma UploadBlind.and {P Q : Worker → Prop} (hP : UploadBlind P) (hQ : UploadBlind Q) :
    UploadBlind fun w => P w ∧ Q w where
  queue writes h := ⟨hP.queue writes h.1, hQ.queue writes h.2⟩
  reply rs h := ⟨hP.reply rs h.1, hQ.reply rs h.2⟩
  upload write hr h := ⟨hP.upload write hr h.1, hQ.upload write hr h.2⟩
  cancel fits id message h := ⟨hP.cancel fits id message h.1, hQ.cancel fits id message h.2⟩

/-! ### Properties of each request -/

/-- What a property of the requests, the queue of waiting ones and the drain can depend on. -/
def agenda (w : Worker) : Table ℕ PendingRequest × List ℕ × Bool := (w.requests, w.waiting, w.draining)

lemma agenda_fail (w : Worker) (fits : ℕ → Bool) (id : ℕ) (r : PendingRequest) (message : Bytes) :
    (w.fail fits id r message).agenda = w.agenda := by
  unfold fail
  split <;> rfl

lemma agenda_cancelRequest (w : Worker) (fits : ℕ → Bool) (id : ℕ) (message : Bytes) :
    (w.cancelRequest fits id message).agenda = (w.requests.erase id, w.waiting, w.draining) ∨
      (w.cancelRequest fits id message).agenda = w.agenda := by
  unfold cancelRequest
  split
  case h_1 => exact .inr rfl
  case h_2 => exact .inl (agenda_fail _ _ _ _ _)

lemma agenda_onFinished (w : Worker) (stream id : ℕ) :
    (w.onFinished stream id).agenda = (w.requests.erase id, w.waiting, w.draining) ∨
      (w.onFinished stream id).agenda = w.agenda := by
  unfold onFinished
  dsimp only
  split
  case h_1 => exact .inr rfl
  case h_2 => split_ifs <;> exact .inl rfl

lemma agenda_stop (w : Worker) (fits : ℕ → Bool) (result : Except Failure Unit) :
    (w.stop fits result).agenda = (∅, w.waiting, w.draining) := by
  have hfold : (w.requests.entries.foldl (fun w e => w.fail fits e.1 e.2 (stopMessage result)) w).agenda =
      w.agenda := by
    apply List.foldlRecOn w.requests.entries _ (motive := fun w' : Worker => w'.agenda = w.agenda) rfl
    intro w' hw' e _
    exact (agenda_fail w' fits e.1 e.2 _).trans hw'
  simp only [agenda, Prod.mk.injEq] at hfold
  simp only [agenda, stop, hfold]

lemma agenda_drainResponseBody (w : Worker) (id : ℕ) (d : Drain) : (w.drainResponseBody id d).1.agenda = w.agenda := by
  unfold Worker.drainResponseBody
  split
  case h_1 => rfl
  case h_2 =>
    split_ifs
    · rfl
    · apply List.foldlRecOn d.reads _ (motive := fun w' : Worker => w'.agenda = w.agenda) rfl
      intro w' hw' bytes _
      exact hw'

/-- A property of each request, which may depend on the queue and on the drain. -/
def Each (Q : List ℕ → Bool → ℕ → PendingRequest → Prop) (w : Worker) : Prop :=
  ∀ id r, w.requests.lookup id = some r → Q w.waiting w.draining id r

section Each

variable {Q : List ℕ → Bool → ℕ → PendingRequest → Prop} {w w' : Worker}

lemma Each.congr (h : w.Each Q) (hagenda : w'.agenda = w.agenda) : w'.Each Q := by
  simp only [agenda, Prod.mk.injEq] at hagenda
  obtain ⟨hrequests, hwaiting, hdraining⟩ := hagenda
  intro id r hr
  rw [hwaiting, hdraining]
  rw [hrequests] at hr
  exact h id r hr

/-- Fewer requests, with the same queue. -/
lemma Each.narrow {requests : Table ℕ PendingRequest} (h : w.Each Q)
    (hagenda : w'.agenda = (requests, w.waiting, w.draining))
    (hrequests : ∀ id r, requests.lookup id = some r → w.requests.lookup id = some r) : w'.Each Q := by
  simp only [agenda, Prod.mk.injEq] at hagenda
  obtain ⟨heq, hwaiting, hdraining⟩ := hagenda
  intro id r hr
  rw [hwaiting, hdraining]
  rw [heq] at hr
  exact h id r (hrequests id r hr)

lemma Each.cancelRequest (h : w.Each Q) (fits : ℕ → Bool) (id : ℕ) (message : Bytes) :
    (w.cancelRequest fits id message).Each Q := by
  rcases agenda_cancelRequest w fits id message with herase | hsame
  · exact h.narrow herase Table.lookup_of_erase
  · exact h.congr hsame

lemma Each.setRequest {id : ℕ} {r : PendingRequest} (h : w.Each Q) (hr : Q w.waiting w.draining id r) :
    (w.setRequest id r).Each Q := by
  intro id' r' hr'
  rcases Table.lookup_insert_cases hr' with ⟨rfl, rfl⟩ | ⟨-, hr'⟩
  · exact hr
  · exact h id' r' hr'

/-- A property of the outbound side of each request. -/
lemma responseBlind_each (hQ : ∀ waiting draining id r r', r'.outbound = r.outbound →
    Q waiting draining id r → Q waiting draining id r') : ResponseBlind (Each Q) where
  buffers _ _ _ h := h.congr rfl
  head _ _ h := h.congr rfl
  request hr hout h := h.setRequest (hQ _ _ _ _ _ hout (h _ _ hr))
  cancel fits id message h := h.cancelRequest fits id message
  finish {w} stream id h := by
    rcases agenda_onFinished w stream id with herase | hsame
    · exact h.narrow herase Table.lookup_of_erase
    · exact h.congr hsame
  stop {w} fits result h := by
    apply h.narrow (agenda_stop w fits result)
    intro id r hr
    simp at hr
  crash {w} message h := by
    have hagenda : (w.crash message).agenda = (∅, w.waiting, w.draining) := rfl
    apply h.narrow hagenda
    intro id r hr
    simp at hr

lemma uploadBlind_each (hQ : ∀ waiting draining id r write, Q waiting draining id r →
    Q waiting draining id { r with pendingWrite := write }) : UploadBlind (Each Q) where
  queue _ h := h.congr rfl
  reply _ h := h.congr rfl
  upload write hr h := h.setRequest (hQ _ _ _ _ write (h _ _ hr))
  cancel fits id message h := h.cancelRequest fits id message

end Each

lemma responseBlind_queue (S : List ℕ → Bool → Prop) : ResponseBlind fun w => S w.waiting w.draining where
  buffers _ _ _ h := h
  head _ _ h := h
  request _ _ h := h
  cancel {w} fits id message h := by
    rcases agenda_cancelRequest w fits id message with heq | heq <;>
      (simp only [agenda, Prod.mk.injEq] at heq; rw [heq.2.1, heq.2.2]; exact h)
  finish {w} stream id h := by
    rcases agenda_onFinished w stream id with heq | heq <;>
      (simp only [agenda, Prod.mk.injEq] at heq; rw [heq.2.1, heq.2.2]; exact h)
  stop {w} fits result h := by
    have heq := agenda_stop w fits result
    simp only [agenda, Prod.mk.injEq] at heq
    rw [heq.2.1, heq.2.2]
    exact h
  crash _ h := h

lemma uploadBlind_queue (S : List ℕ → Bool → Prop) : UploadBlind fun w => S w.waiting w.draining where
  queue _ h := h
  reply _ h := h
  upload _ _ h := h
  cancel fits id message h := (responseBlind_queue S).cancel fits id message h

end Worker

/-- What a turn keeps that responses do not concern: it remains to look at commands, at the warmup, at the
rounds of `dispatch_waiting` and `drive_pending_writes` and at a GOAWAY. -/
lemma WorkerLoop.step_of_responseBlind {P : Worker → Prop} (hR : Worker.ResponseBlind P)
    {C : HttpCrate} {settings : BridgeSettings} {l l' : WorkerLoop} {e : WorkerEvent}
    (hstep : l.step C settings e = some l') (h : P l.worker)
    (hcommand : ∀ c fits, e = .command c fits → P (l.worker.handleCommand fits c))
    (hwarmup : e = .warmup → P (l.warmup settings).worker)
    (hdispatch : ∀ ready outcome fits, e = .dispatch ready outcome fits → l.worker.draining = false →
      P (l.worker.dispatchWaiting fits ready outcome))
    (hwrite : ∀ outcome fits, e = .write outcome fits → P (l.worker.drivePendingWrite fits outcome))
    (hgoAway : ∀ stream c, e = .poll stream .goAway c → P { l.worker with draining := true }) : P l'.worker := by
  obtain ⟨henabled, rfl⟩ := step_eq_some hstep
  cases e with
  | command c fits => exact hcommand c fits rfl
  | warmup => exact hwarmup rfl
  | dispatch ready outcome fits =>
    simp only [enabled, Bool.and_eq_true, Bool.not_eq_true'] at henabled
    exact hdispatch ready outcome fits rfl henabled.2
  | write outcome fits => exact hwrite outcome fits rfl
  | retry c => exact hR.closed.retryDelivery h c
  | poll stream event c =>
    cases hevent : event.isGoAway with
    | false => exact hR.closed.pollEvent h C stream hevent c
    | true =>
      obtain rfl : event = .goAway := by cases event <;> first | rfl | cases hevent
      exact hgoAway stream c rfl
  | capacity =>
    simp only [turn]
    split
    · exact hR.crash _ h
    · exact h
  | flush scheduled => exact h
  | pacing =>
    simp only [turn]
    split
    · exact h
    · exact hR.crash _ h
  | stop result fits => exact hR.stop fits _ h

/-- What a turn keeps that neither responses nor uploads concern: it remains to look at new requests, at
the warmup, at the rounds of `dispatch_waiting` and at a GOAWAY. -/
lemma WorkerLoop.step_of_blind {P : Worker → Prop} (hR : Worker.ResponseBlind P) (hU : Worker.UploadBlind P)
    {C : HttpCrate} {settings : BridgeSettings} {l l' : WorkerLoop} {e : WorkerEvent}
    (hstep : l.step C settings e = some l') (h : P l.worker)
    (hopens : ∀ id headers hasBody allowEarlyData opened fits,
      e = .command (.opens id headers hasBody allowEarlyData opened) fits →
        P (l.worker.handleCommand fits (.opens id headers hasBody allowEarlyData opened)))
    (hwarmup : e = .warmup → P (l.warmup settings).worker)
    (hdispatch : ∀ ready outcome fits, e = .dispatch ready outcome fits → l.worker.draining = false →
      P (l.worker.dispatchWaiting fits ready outcome))
    (hgoAway : ∀ stream c, e = .poll stream .goAway c → P { l.worker with draining := true }) : P l'.worker := by
  apply step_of_responseBlind hR hstep h ?_ hwarmup hdispatch
    (fun outcome fits _ => hU.drivePendingWrite h fits outcome) hgoAway
  intro c fits he
  cases c with
  | opens id headers hasBody allowEarlyData opened => exact hopens _ _ _ _ _ _ he
  | body id data fin => exact hU.enqueueWrite h id _
  | trailers id headers => exact hU.enqueueWrite h id _
  | cancel id => exact hU.cancel fits id _ h

end Pingola
