import Pingola.UpstreamH3.BodyStream
import Pingola.UpstreamH3.Frame

/-!
# Bodies that are left unread

The transport announces the body of a stream once. After a Data event the stream has no other one until a read
has found nothing left, so whoever reads a body has to read it to its end, or has to come back to it: the blocked
response is the one place that the worker comes back to.
-/

namespace Pingola
open ByteText

/-- How a turn reads a body: in the rounds of `drain_response_body`, or in the one call of
`discard_response_body`. -/
inductive BodyRead where
  | drained (d : Drain)
  | discarded (received : Except Bytes Bytes)

def DrainEnd.isDone : DrainEnd → Bool
  | .done => true
  | _ => false

namespace BodyRead

/-- What the calls of `recv_body` return, with 0 for `Done`. A call that fails ends the worker. -/
def lengths : BodyRead → List ℕ
  | .drained d => d.reads.map List.length ++ if d.last.isDone then [0] else []
  | .discarded (.ok bytes) => [bytes.length]
  | .discarded (.error _) => []

/-- The buffers have the sizes that the code gives them, and a round that goes on has read something. -/
def fitsBuffers (rooms : List ℕ) : BodyRead → Bool
  | .drained d =>
    rooms.all (fun room => 0 < room && room ≤ h3BodyRecvBuffer) && d.reads.all fun bytes => !bytes.isEmpty
  | .discarded _ => rooms.all fun room => room == h3BodyRecvBuffer

/-- The transport can give these bytes to calls with these buffers. -/
def possible (s : BodyStream) (rooms : List ℕ) (read : BodyRead) : Bool :=
  read.fitsBuffers rooms && (s.recvAll rooms).1 == read.lengths

def isDiscarded : BodyRead → Bool
  | .drained _ => false
  | .discarded _ => true

end BodyRead

/-- The body that a turn reads from, by its stream. -/
def Worker.bodyRead (w : Worker) : WorkerEvent → Option (ℕ × BodyRead)
  | .poll stream .data c =>
    (w.streamToRequest.lookup stream).bind fun id => (w.requests.lookup id).bind fun r =>
      r.streamId.map fun s => (s, if r.discardBody then .discarded c.received else .drained c.drain)
  | .retry c =>
    w.responseWaiter.bind fun r =>
      if r.pendingResponse.isSome then none else r.streamId.map fun s => (s, .drained c.drain)
  | _ => none

/-- The bodies of all streams. -/
structure Transport where
  streams : ℕ → BodyStream

namespace Transport

variable (t : Transport) (w : Worker)

def fired (stream : ℕ) : Bool := (t.streams stream).fired

def put (stream : ℕ) (s : BodyStream) : Transport := ⟨Function.update t.streams stream s⟩

/-- A Data event needs a DATA frame that was not announced yet, and a new stream has none. -/
def announces : WorkerEvent → Bool
  | .poll stream .data _ => !(t.streams stream).frames.isEmpty && !t.fired stream
  | .dispatch _ (.opened stream) _ => (t.streams stream).isEmpty
  | _ => true

def announced : WorkerEvent → Transport
  | .poll stream .data _ => t.put stream (t.streams stream).trigger
  | _ => t

/-- The transport can take part in a turn of the worker with these buffers. -/
def allows (e : WorkerEvent) (rooms : List ℕ) : Bool :=
  t.announces e && (w.bodyRead e).all fun p => p.2.possible ((t.announced e).streams p.1) rooms

/-- The transport after a turn of the worker. -/
def after (e : WorkerEvent) (rooms : List ℕ) : Transport :=
  (w.bodyRead e).elim (t.announced e) fun p =>
    (t.announced e).put p.1 (((t.announced e).streams p.1).recvAll rooms).2

/-- A turn reads no empty DATA frame that has bytes behind it, and a body that is thrown away fits into the
buffer. -/
def readsWhole (e : WorkerEvent) : Bool :=
  (w.bodyRead e).all fun p =>
    BodyStream.unbroken (t.streams p.1).missing (t.streams p.1).behind (t.streams p.1).frames &&
      (!p.2.isDiscarded || decide (BodyStream.demand (t.streams p.1).frames ≤ h3BodyRecvBuffer))

/-- Every stream whose event has fired is within a DATA frame. -/
def Steady (t : Transport) : Prop := ∀ stream, (t.streams stream).Steady

end Transport

/-- The loop over a connection with its transport. -/
structure Reading where
  loop : WorkerLoop
  transport : Transport

inductive ReadingEvent where
  | transport (stream : ℕ) (ev : TransportEvent)
  /-- A turn of the worker, with the sizes of the buffers that it reads into. -/
  | work (e : WorkerEvent) (rooms : List ℕ)

def ReadingEvent.worker : ReadingEvent → Option WorkerEvent
  | .transport _ _ => none
  | .work e _ => some e

namespace Reading

def start (settings : BridgeSettings) : Reading := ⟨.start settings, ⟨fun _ => .empty⟩⟩

def step (C : HttpCrate) (settings : BridgeSettings) (s : Reading) : ReadingEvent → Option Reading
  | .transport stream ev =>
    ((s.transport.streams stream).step ev).map fun b => { s with transport := s.transport.put stream b }
  | .work e rooms =>
    if s.transport.allows s.loop.worker e rooms then
      (s.loop.step C settings e).map fun loop => ⟨loop, s.transport.after s.loop.worker e rooms⟩
    else none

def readsWhole (s : Reading) : ReadingEvent → Bool
  | .transport _ _ => true
  | .work e _ => s.transport.readsWhole s.loop.worker e

end Reading

/-! ### Responses that are held up -/

namespace Worker

/-- Nothing of the request is held up: no frame, and no byte behind a Data event. -/
def Free (fired : ℕ → Bool) (_waiting : List ℕ) (_draining : Bool) (_id : ℕ) (r : PendingRequest) : Prop :=
  r.pendingResponse = none ∧ ∀ stream, r.streamId = some stream → fired stream = false

/-- Only the blocked response is held up, by its frame or by bytes behind a Data event. -/
def Held (fired : ℕ → Bool) (w : Worker) : Prop :=
  ∀ id r, w.requests.lookup id = some r → (r.pendingResponse ≠ none → w.responseBlocked = some id) ∧
    ∀ stream, r.streamId = some stream → fired stream = true →
      w.responseBlocked = some id ∧ r.pendingResponse = none

variable {fired : ℕ → Bool} {w w' : Worker}

lemma Each.held (h : w.Each (Free fired)) : w.Held fired := by
  intro id r hr
  obtain ⟨hpending, hquiet⟩ := h id r hr
  refine ⟨fun hne => absurd hpending hne, fun stream hs hfired => ?_⟩
  rw [hquiet stream hs] at hfired
  cases hfired

namespace Held

lemma stop (fits : ℕ → Bool) (result : Except Failure Unit) : (w.stop fits result).Held fired := by
  intro id r hr
  have hempty := agenda_stop w fits result
  simp only [agenda, Prod.mk.injEq] at hempty
  simp [hempty.1] at hr

lemma crash (message : String) : (w.crash message).Held fired := by
  intro id r hr
  simp [Worker.crash] at hr

variable (h : w.Held fired)
include h

lemma free (hblocked : w.responseBlocked = none) : w.Each (Free fired) := by
  intro id r hr
  obtain ⟨hpending, hleft⟩ := h id r hr
  rw [hblocked] at hpending hleft
  refine ⟨?_, fun stream hs => ?_⟩
  · by_contra hne
    cases hpending hne
  · by_contra hfired
    cases (hleft stream hs (by simpa using hfired)).1

lemma narrow (hblocked : w'.responseBlocked = w.responseBlocked)
    (hrequests : ∀ id r, w'.requests.lookup id = some r → w.requests.lookup id = some r) : w'.Held fired := by
  intro id r hr
  rw [hblocked]
  exact h id r (hrequests id r hr)

lemma congr (hblocked : w'.responseBlocked = w.responseBlocked)
    (hrequests : w'.requests = w.requests) : w'.Held fired :=
  h.narrow hblocked fun id r hr => by rwa [hrequests] at hr

/-- A request is written; it is held up no more than before. -/
lemma setRequest {id : ℕ} {r : PendingRequest} (hpending : r.pendingResponse ≠ none → w.responseBlocked = some id)
    (hleft : ∀ stream, r.streamId = some stream → fired stream = true →
      w.responseBlocked = some id ∧ r.pendingResponse = none) : (w.setRequest id r).Held fired := by
  intro id' r' hr'
  rcases Table.lookup_insert_cases hr' with ⟨rfl, rfl⟩ | ⟨-, hr'⟩
  · exact ⟨hpending, hleft⟩
  · exact h id' r' hr'

lemma fail (fits : ℕ → Bool) (id : ℕ) (r : PendingRequest) (message : Bytes) :
    (w.fail fits id r message).Held fired := by
  unfold Worker.fail
  split <;> exact h.congr rfl rfl

lemma erase (id : ℕ) (streams : Table ℕ ℕ) :
    Held fired { w with requests := w.requests.erase id, streamToRequest := streams } :=
  h.narrow rfl Table.lookup_of_erase

lemma cancelRequest (fits : ℕ → Bool) (id : ℕ) (message : Bytes) :
    (w.cancelRequest fits id message).Held fired := by
  unfold Worker.cancelRequest
  split
  case h_1 => exact h
  case h_2 => exact (h.erase id _).fail fits id _ message

end Held

lemma Held.uploadBlind (fired : ℕ → Bool) : UploadBlind (Held fired) where
  queue _ h := h.congr rfl rfl
  reply _ h := h.congr rfl rfl
  upload _ hr h := h.setRequest (h _ _ hr).1 (h _ _ hr).2
  cancel fits id message h := h.cancelRequest fits id message

/-! ### Turns that read no body -/

section

variable (h : w.Each (Free fired))
include h

lemma Each.rewrite {id : ℕ} {r r' : PendingRequest} (hr : w.requests.lookup id = some r)
    (hstream : r'.streamId = r.streamId) (hpending : r'.pendingResponse = none) :
    (w.setRequest id r').Each (Free fired) := by
  apply h.setRequest
  refine ⟨hpending, ?_⟩
  rw [hstream]
  exact (h id r hr).2

/-- A frame is put aside for the blocked response. -/
lemma Each.stash {id : ℕ} {r : PendingRequest} (hr : w.requests.lookup id = some r) (frame : BodyFrame) :
    Held fired { w.setRequest id { r with pendingResponse := some frame } with responseBlocked := some id } := by
  have hblocked : Held fired { w with responseBlocked := some id } := Each.held (h.congr rfl)
  have hset : Held fired
      ({ w with responseBlocked := some id }.setRequest id { r with pendingResponse := some frame }) := by
    refine hblocked.setRequest (fun _ => rfl) fun stream hs hfired => ?_
    rw [(h id r hr).2 stream hs] at hfired
    cases hfired
  exact hset.congr rfl rfl

lemma Each.sendTrailers (c : Choices) (id : ℕ) (trailers : HeaderMap) :
    (w.sendTrailers c id trailers).Held fired := by
  unfold Worker.sendTrailers
  cases c.answer with
  | ready => exact Each.held (h.congr rfl)
  | full =>
    simp only [trySend]
    split
    case h_1 => exact .stop c.fits _
    case h_2 r hr => exact h.stash hr _
  | closed => exact Each.held (h.cancelRequest c.fits id _)

lemma Each.startResponse (c : Choices) (id : ℕ) (head : ResponseHead) : (w.startResponse c id head).Held fired := by
  unfold Worker.startResponse
  split
  case h_1 => exact .stop c.fits _
  case h_2 r hr =>
    have hstarted : ∀ bodyRx response, (w.setRequest id { r with
        bodyRx := bodyRx, response := response, responseStarted := true }).Each (Free fired) :=
      fun _ _ => h.rewrite hr rfl (h id r hr).1
    split_ifs
    · exact Each.held (hstarted _ _)
    · exact .stop c.fits _
    · exact .stop c.fits _
    · exact Each.held ((hstarted _ _).congr rfl)
    · exact Each.held ((hstarted _ _).cancelRequest c.fits id _)

lemma Each.onHeaders (C : HttpCrate) (c : Choices) (id : ℕ) (list : List H3Header) :
    (w.onHeaders C c id list).Held fired := by
  unfold Worker.onHeaders
  split
  case h_1 => exact .stop c.fits _
  case h_2 r hr =>
    split
    case isTrue =>
      split
      · exact Each.held (h.cancelRequest c.fits id _)
      · exact h.sendTrailers c id _
    case isFalse =>
      split
      · exact Each.held (h.cancelRequest c.fits id _)
      · split
        · exact h.held
        · exact h.startResponse c id _

lemma Each.onFinished (stream id : ℕ) : (w.onFinished stream id).Each (Free fired) := by
  rcases agenda_onFinished w stream id with herase | hsame
  · exact h.narrow herase Table.lookup_of_erase
  · exact h.congr hsame

/-- Only Data events read bodies. -/
lemma Each.pollEvent (C : HttpCrate) (stream : ℕ) {event : H3Event} (c : Choices) (hevent : event ≠ .data) :
    (w.pollEvent C stream event c).Held fired := by
  unfold Worker.pollEvent
  split
  case isTrue => exact Each.held h
  case isFalse =>
    split
    case h_1 => exact h.held
    case h_2 id _ =>
      cases event with
      | headers list => exact h.onHeaders C c id list
      | data => exact absurd rfl hevent
      | finished => exact Each.held (h.onFinished stream id)
      | reset code => exact Each.held (h.cancelRequest c.fits id _)
      | goAway => exact .crash _
      | priorityUpdate => exact h.held

end

/-- Nothing is held up but for one request. -/
def FreeBut (only : ℕ) (fired : ℕ → Bool) (waiting : List ℕ) (draining : Bool) (id : ℕ) (r : PendingRequest) : Prop :=
  id ≠ only → Free fired waiting draining id r

lemma Each.free {id : ℕ} (h : w.Each (FreeBut id fired))
    (hid : ∀ r, w.requests.lookup id = some r → Free fired w.waiting w.draining id r) : w.Each (Free fired) := by
  intro id' r' hr'
  by_cases hother : id' = id
  · subst hother
    exact hid r' hr'
  · exact h id' r' hr' hother

lemma Held.freeBut {id : ℕ} (h : w.Held fired) (hblocked : w.responseBlocked = some id) :
    w.Each (FreeBut id fired) := by
  intro id' r' hr' hid
  have hother : w.responseBlocked ≠ some id' := by
    rw [hblocked]
    exact fun heq => hid (Option.some.inj heq).symm
  refine ⟨?_, fun stream hs => ?_⟩
  · by_contra hpending
    exact hother ((h id' r' hr').1 hpending)
  · by_contra hfired
    exact hother ((h id' r' hr').2 stream hs (by simpa using hfired)).1

/-- The frame of the blocked response is sent, put aside again or dropped. -/
lemma Held.retryStashed {id : ℕ} {r : PendingRequest} {frame : BodyFrame} (h : w.Held fired) (c : Choices)
    (hblocked : w.responseBlocked = some id) (hr : w.requests.lookup id = some r)
    (hframe : r.pendingResponse = some frame) : (w.retryDelivery c).Held fired := by
  have hfree : ({ w with responseBlocked := none }.setRequest id { r with pendingResponse := none }).Each
      (Free fired) := by
    have hbut : Each (FreeBut id fired) { w with responseBlocked := none } := (h.freeBut hblocked).congr rfl
    refine Each.free (hbut.setRequest fun hne => absurd rfl hne) fun r' hr' => ?_
    obtain rfl : { r with pendingResponse := none } = r' :=
      Option.some.inj ((AList.lookup_insert w.requests).symm.trans hr')
    refine ⟨rfl, fun stream hs => ?_⟩
    by_contra hfired
    have hnone := ((h id r hr).2 stream hs (by simpa using hfired)).2
    rw [hframe] at hnone
    cases hnone
  unfold Worker.retryDelivery
  rw [hblocked]
  simp only [hr, hframe, Worker.setRequest, AList.lookup_insert]
  cases c.answer with
  | ready => exact Each.held (hfree.congr rfl)
  | full => exact hfree.stash (AList.lookup_insert w.requests) frame
  | closed => exact Each.held (hfree.cancelRequest c.fits id _)

/-- The blocked request is gone. -/
lemma Held.retryGone {id : ℕ} (h : w.Held fired) (c : Choices) (hblocked : w.responseBlocked = some id)
    (hnone : w.requests.lookup id = none) : (w.retryDelivery c).Held fired := by
  have hfree : w.Each (Free fired) := (h.freeBut hblocked).free fun r hr => by simp [hnone] at hr
  unfold Worker.retryDelivery
  rw [hblocked]
  simp only [hnone]
  exact Each.held (hfree.congr rfl)

/-! ### Turns that read a body -/

section

variable {id stream : ℕ} {r : PendingRequest}

/-- A body is read until it is done, or its request is blocked, or gone. -/
lemma Each.drain (h : w.Each (FreeBut id fired)) (hr : w.requests.lookup id = some r) (hs : r.streamId = some stream)
    (hpending : r.pendingResponse = none) (c : Choices) (d : Drain)
    (hdone : d.last.isDone = true → fired stream = false) : Held fired (settle c id (w.drainResponseBody id d)) := by
  have hagenda := agenda_drainResponseBody w id d
  have hresult : (w.drainResponseBody id d).2 = d.last.retry := by simp [drainResponseBody, hr, hs]
  generalize w.drainResponseBody id d = outcome at hagenda hresult ⊢
  obtain ⟨w', result⟩ := outcome
  subst hresult
  have hbut : w'.Each (FreeBut id fired) := h.congr hagenda
  have hr' : w'.requests.lookup id = some r := by
    simp only [agenda, Prod.mk.injEq] at hagenda
    rw [hagenda.1, hr]
  cases hlast : d.last with
  | full =>
    intro id' r' hid'
    change w'.requests.lookup id' = some r' at hid'
    by_cases hid : id' = id
    · subst hid
      obtain rfl := Option.some.inj (hr'.symm.trans hid')
      exact ⟨fun _ => rfl, fun _ _ _ => ⟨rfl, hpending⟩⟩
    · obtain ⟨hnone, hquiet⟩ := hbut id' r' hid' hid
      refine ⟨fun hne => absurd hnone hne, fun stream' hs' hfired => ?_⟩
      rw [hquiet stream' hs'] at hfired
      cases hfired
  | closed =>
    refine Each.held (Each.free (hbut.cancelRequest c.fits id _) fun r' hgone => ?_)
    cases hgone.symm.trans (lookup_cancelRequest w' c.fits id _)
  | done =>
    refine Each.held (hbut.free fun r' hlive => ?_)
    obtain rfl := Option.some.inj (hr'.symm.trans hlive)
    refine ⟨hpending, fun stream' hs' => ?_⟩
    obtain rfl := Option.some.inj (hs.symm.trans hs')
    exact hdone (by rw [hlast]; rfl)
  | failed error => exact .stop c.fits _

/-- A body is thrown away in one piece. -/
lemma Each.discard (h : w.Each (FreeBut id fired)) (hr : w.requests.lookup id = some r) (hs : r.streamId = some stream)
    (hpending : r.pendingResponse = none) (c : Choices) (received : Except Bytes Bytes)
    (hall : ∀ bytes, received = .ok bytes → fired stream = false) :
    Held fired (settle c id (w.discardResponseBody id received)) := by
  simp only [discardResponseBody, hr, Option.bind_some, hs, Option.isNone_some, Bool.false_eq_true, if_false]
  cases received with
  | error error => exact .stop c.fits _
  | ok bytes =>
    apply Each.held
    refine Each.free (h.congr rfl) fun r' hlive => ?_
    obtain rfl := Option.some.inj (hr.symm.trans hlive)
    refine ⟨hpending, fun stream' hs' => ?_⟩
    obtain rfl := Option.some.inj (hs.symm.trans hs')
    exact hall bytes rfl

end

end Worker

/-! ### Runs -/

namespace BodyRead

variable {b : BodyStream} {rooms : List ℕ}

lemma pos_of_fitsBuffers {read : BodyRead} (h : read.fitsBuffers rooms = true) : ∀ room ∈ rooms, 0 < room := by
  intro room hroom
  cases read with
  | drained d =>
    simp only [fitsBuffers, Bool.and_eq_true, List.all_eq_true, decide_eq_true_eq] at h
    exact (h.1 room hroom).1
  | discarded received =>
    simp only [fitsBuffers, List.all_eq_true, beq_iff_eq] at h
    rw [h room hroom]
    decide

lemma fired_of_done {d : Drain} (hs : b.Steady) (hu : b.Unbroken)
    (h : (BodyRead.drained d).possible b rooms = true) (hdone : d.last.isDone = true) :
    (b.recvAll rooms).2.fired = false := by
  simp only [possible, Bool.and_eq_true, beq_iff_eq] at h
  apply BodyStream.fired_recvAll_of_done hs hu (pos_of_fitsBuffers h.1)
  simp [h.2, lengths, hdone]

lemma fired_of_discarded {bytes : Bytes} (hs : b.Steady) (hu : b.Unbroken)
    (h : (BodyRead.discarded (.ok bytes)).possible b rooms = true)
    (hall : BodyStream.demand b.frames ≤ h3BodyRecvBuffer) : (b.recvAll rooms).2.fired = false := by
  simp only [possible, Bool.and_eq_true, beq_iff_eq, lengths] at h
  have hlength : rooms.length = 1 := by rw [← BodyStream.length_recvAll b rooms, h.2, List.length_singleton]
  obtain ⟨room, rfl⟩ := List.length_eq_one_iff.mp hlength
  obtain rfl : room = h3BodyRecvBuffer := by simpa [fitsBuffers] using h.1
  exact (BodyStream.readOf_recvBody hs hu (by decide)).all hall

end BodyRead

namespace Transport

variable {t : Transport}

lemma streams_put_of_ne {stream other : ℕ} (b : BodyStream) (h : other ≠ stream) :
    (t.put stream b).streams other = t.streams other := Function.update_of_ne h ..

lemma fired_put_of_ne {stream other : ℕ} (b : BodyStream) (h : other ≠ stream) :
    (t.put stream b).fired other = t.fired other := by
  rw [fired, streams_put_of_ne b h, fired]

lemma streams_put_self (stream : ℕ) (b : BodyStream) : (t.put stream b).streams stream = b :=
  Function.update_self ..

lemma fired_put_self (stream : ℕ) (b : BodyStream) : (t.put stream b).fired stream = b.fired := by
  rw [fired, streams_put_self]

lemma Steady.put {stream : ℕ} {b : BodyStream} (h : t.Steady) (hb : b.Steady) : (t.put stream b).Steady := by
  intro other
  by_cases heq : other = stream
  · subst heq
    rwa [streams_put_self]
  · rw [streams_put_of_ne b heq]
    exact h other

lemma Steady.announced {e : WorkerEvent} (h : t.Steady) (ha : t.announces e = true) : (t.announced e).Steady := by
  fun_cases Transport.announced t e with
  | case1 stream c =>
    simp only [announces, Bool.and_eq_true, Bool.not_eq_true', List.isEmpty_eq_false_iff] at ha
    exact h.put (.trigger ha.1)
  | case2 e hother => exact h

/-- An announcement leaves the frames as they are. -/
lemma announced_frames (t : Transport) (e : WorkerEvent) (stream : ℕ) :
    ((t.announced e).streams stream).frames = (t.streams stream).frames ∧
      (((t.announced e).streams stream).Unbroken ↔ (t.streams stream).Unbroken) := by
  fun_cases Transport.announced t e with
  | case1 other c =>
    by_cases heq : stream = other
    · subst heq
      rw [streams_put_self]
      exact ⟨rfl, Iff.rfl⟩
    · rw [streams_put_of_ne _ heq]
      exact ⟨rfl, Iff.rfl⟩
  | case2 e hother => exact ⟨rfl, Iff.rfl⟩

lemma Steady.after {w : Worker} {e : WorkerEvent} {rooms : List ℕ} (h : t.Steady) (hallows : t.allows w e rooms = true)
    (hwhole : t.readsWhole w e = true) : (t.after w e rooms).Steady := by
  simp only [allows, Bool.and_eq_true] at hallows
  have hannounced := h.announced hallows.1
  unfold Transport.after
  cases hread : w.bodyRead e with
  | none => exact hannounced
  | some p =>
    simp only [readsWhole, hread, Option.all_some, Bool.and_eq_true] at hwhole
    simp only [hread, Option.all_some, BodyRead.possible, Bool.and_eq_true] at hallows
    have hunbroken := (announced_frames t e p.1).2.mpr hwhole.1
    exact hannounced.put
      (BodyStream.steady_recvAll (hannounced p.1) hunbroken (BodyRead.pos_of_fitsBuffers hallows.2.1))

end Transport

namespace Worker

variable {t : Transport} {w : Worker} {ids streams : List ℕ} {rooms : List ℕ}

/-- The other requests are on other streams. -/
lemma Coherent.stream_ne (h : Coherent ids streams w) {id id' stream stream' : ℕ} {r r' : PendingRequest}
    (hr : w.requests.lookup id = some r) (hs : r.streamId = some stream) (hr' : w.requests.lookup id' = some r')
    (hs' : r'.streamId = some stream') (hid : id' ≠ id) : stream' ≠ stream := by
  rintro rfl
  have hfirst := (h.inverse stream' id).mpr ⟨r, hr, hs⟩
  have hsecond := (h.inverse stream' id').mpr ⟨r', hr', hs'⟩
  exact hid (Option.some.inj (hsecond.symm.trans hfirst))

/-- The other requests stay free when one stream is read from. -/
lemma Each.consume {id stream : ℕ} {r : PendingRequest} {fired fired' : ℕ → Bool} (h : w.Each (FreeBut id fired))
    (hcoherent : Coherent ids streams w) (hr : w.requests.lookup id = some r) (hs : r.streamId = some stream)
    (hsame : ∀ other, other ≠ stream → fired' other = fired other) : w.Each (FreeBut id fired') := by
  intro id' r' hr' hid
  obtain ⟨hpending, hquiet⟩ := h id' r' hr' hid
  refine ⟨hpending, fun stream' hs' => ?_⟩
  rw [hsame stream' (hcoherent.stream_ne hr hs hr' hs' hid)]
  exact hquiet stream' hs'

lemma bodyRead_data {stream id : ℕ} {r : PendingRequest} (c : Choices)
    (hid : w.streamToRequest.lookup stream = some id) (hr : w.requests.lookup id = some r)
    (hs : r.streamId = some stream) :
    w.bodyRead (.poll stream .data c) =
      some (stream, if r.discardBody then .discarded c.received else .drained c.drain) := by
  simp [bodyRead, hid, hr, hs]

/-- A Data event. -/
lemma Each.data {stream : ℕ} (C : HttpCrate) (c : Choices) (h : w.Each (Free t.fired))
    (hcoherent : Coherent ids streams w) (hsteady : t.Steady)
    (hallows : t.allows w (.poll stream .data c) rooms = true)
    (hwhole : t.readsWhole w (.poll stream .data c) = true) :
    (w.pollEvent C stream .data c).Held (t.after w (.poll stream .data c) rooms).fired := by
  simp only [Worker.pollEvent, H3Event.isGoAway, Bool.false_eq_true, if_false]
  cases hid : w.streamToRequest.lookup stream with
  | none =>
    -- no request is on the stream
    have hnone : w.bodyRead (.poll stream .data c) = none := by simp [bodyRead, hid]
    simp only [Transport.after, hnone, Option.elim_none, Transport.announced]
    refine Each.held fun id r hr => ⟨(h id r hr).1, fun stream' hs => ?_⟩
    have hne : stream' ≠ stream := by
      rintro rfl
      rw [(hcoherent.inverse stream' id).mpr ⟨r, hr, hs⟩] at hid
      cases hid
    rw [Transport.fired_put_of_ne _ hne]
    exact (h id r hr).2 stream' hs
  | some id =>
    obtain ⟨r, hr, hs⟩ := (hcoherent.inverse stream id).mp hid
    have hread := bodyRead_data c hid hr hs
    have hpending := (h id r hr).1
    simp only [Transport.readsWhole, hread, Option.all_some, Bool.and_eq_true] at hwhole
    simp only [Transport.allows, hread, Option.all_some, Bool.and_eq_true] at hallows
    have hannounced := hsteady.announced hallows.1 stream
    obtain ⟨hframes, hunbroken⟩ := Transport.announced_frames t (.poll stream .data c) stream
    have hunbroken := hunbroken.mpr hwhole.1
    simp only [Transport.after, hread, Option.elim_some]
    have hbut : ∀ b, w.Each (FreeBut id ((t.announced (.poll stream .data c)).put stream b).fired) := fun b =>
      Each.consume (fun id' r' hr' _ => h id' r' hr') hcoherent hr hs fun other hne => by
        rw [Transport.fired_put_of_ne b hne, Transport.announced, Transport.fired_put_of_ne _ hne]
    simp only [onData, hr, Option.any_some]
    cases hdiscard : r.discardBody with
    | true =>
      simp only [hdiscard, if_true, BodyRead.isDiscarded, Bool.not_true, Bool.false_or, decide_eq_true_eq]
        at hwhole hallows ⊢
      refine (hbut _).discard hr hs hpending c c.received fun bytes hbytes => ?_
      rw [hbytes] at hallows
      rw [Transport.fired_put_self]
      exact BodyRead.fired_of_discarded hannounced hunbroken hallows.2 (hframes ▸ hwhole.2)
    | false =>
      simp only [hdiscard, Bool.false_eq_true, if_false] at hallows ⊢
      refine (hbut _).drain hr hs hpending c c.drain fun hdone => ?_
      rw [Transport.fired_put_self]
      exact BodyRead.fired_of_done hannounced hunbroken hallows.2 hdone

/-- The retry of the blocked response. -/
lemma Held.retry {c : Choices} (h : w.Held t.fired) (hcoherent : Coherent ids streams w) (hsteady : t.Steady)
    (hallows : t.allows w (.retry c) rooms = true) (hwhole : t.readsWhole w (.retry c) = true) :
    (w.retryDelivery c).Held (t.after w (.retry c) rooms).fired := by
  cases hblocked : w.responseBlocked with
  | none =>
    have hnone : w.bodyRead (.retry c) = none := by simp [bodyRead, responseWaiter, hblocked]
    simp only [Transport.after, hnone, Option.elim_none, Transport.announced, retryDelivery, hblocked]
    exact h
  | some id =>
    cases hr : w.requests.lookup id with
    | none =>
      have hnone : w.bodyRead (.retry c) = none := by simp [bodyRead, responseWaiter, hblocked, hr]
      simp only [Transport.after, hnone, Option.elim_none, Transport.announced]
      exact h.retryGone c hblocked hr
    | some r =>
      cases hpending : r.pendingResponse with
      | some frame =>
        have hnone : w.bodyRead (.retry c) = none := by simp [bodyRead, responseWaiter, hblocked, hr, hpending]
        simp only [Transport.after, hnone, Option.elim_none, Transport.announced]
        exact h.retryStashed c hblocked hr hpending
      | none =>
        obtain ⟨stream, hs⟩ := Option.ne_none_iff_exists'.mp (hcoherent.blocked id r hblocked hr)
        have hread : w.bodyRead (.retry c) = some (stream, .drained c.drain) := by
          simp [bodyRead, responseWaiter, hblocked, hr, hpending, hs]
        simp only [Transport.readsWhole, hread, Option.all_some, Bool.and_eq_true] at hwhole
        simp only [Transport.allows, hread, Option.all_some, Bool.and_eq_true] at hallows
        simp only [Transport.after, hread, Option.elim_some, Transport.announced] at hallows ⊢
        have hbut : ∀ b, Each (FreeBut id (t.put stream b).fired) { w with responseBlocked := none } := fun b =>
          ((h.freeBut hblocked).consume hcoherent hr hs fun other hne => Transport.fired_put_of_ne b hne).congr rfl
        simp only [retryDelivery, hblocked, hr, hpending]
        refine (hbut _).drain hr hs hpending c c.drain fun hdone => ?_
        rw [Transport.fired_put_self]
        exact BodyRead.fired_of_done (hsteady stream) hwhole.1 hallows.2 hdone

/-- A round of `dispatch_waiting`, which can put a request on a new stream. -/
lemma Held.dispatchWaiting {fired : ℕ → Bool} (h : w.Held fired) (fits : ℕ → Bool) (ready : Readiness)
    (outcome : OpenOutcome) (hnew : ∀ stream, outcome = .opened stream → fired stream = false) :
    (w.dispatchWaiting fits ready outcome).Held fired := by
  have hround := dispatchRound w fits ready outcome
  generalize w.dispatchWaiting fits ready outcome = next at hround ⊢
  cases hround with
  | requeue queue => exact h.congr rfl rfl
  | @opens id stream r rest hr hs houtcome =>
    have hpop : Held fired { w with waiting := rest } := h.congr rfl rfl
    have hset : Held fired
        ({ w with waiting := rest }.setRequest id { r with streamId := some stream, opened := false }) := by
      refine hpop.setRequest (h id r hr).1 fun stream' hs' hfired => ?_
      obtain rfl := Option.some.inj hs'
      rw [hnew stream houtcome] at hfired
      cases hfired
    exact hset.congr rfl rfl
  | @fails id r rest hr hs error =>
    have hrest : Held fired { w with waiting := rest, requests := w.requests.erase id } :=
      h.narrow rfl Table.lookup_of_erase
    exact hrest.fail fits id r _

/-- A new request. -/
lemma Held.fresh {fired : ℕ → Bool} (h : w.Held fired) (id : ℕ) {r : PendingRequest} (hs : r.streamId = none)
    (hpending : r.pendingResponse = none) : (w.setRequest id r).Held fired := by
  refine h.setRequest (fun hne => absurd hpending hne) fun stream hstream => ?_
  rw [hs] at hstream
  cases hstream

end Worker

namespace WorkerLoop

variable {C : HttpCrate} {settings : BridgeSettings} {l l' : WorkerLoop} {t : Transport} {past : List WorkerEvent}
  {rooms : List ℕ}

lemma held_step {e : WorkerEvent} (h : l.worker.Held t.fired) (hsound : l.Sound past) (hsteady : t.Steady)
    (hallows : t.allows l.worker e rooms = true) (hwhole : t.readsWhole l.worker e = true)
    (hstep : l.step C settings e = some l') : l'.worker.Held (t.after l.worker e rooms).fired := by
  have hU := Worker.Held.uploadBlind t.fired
  obtain ⟨henabled, rfl⟩ := step_eq_some hstep
  cases e with
  | command command fits =>
    cases command with
    | opens id headers hasBody allowEarlyData opened =>
      simp only [turn, Worker.handleCommand]
      split
      · exact h.congr rfl rfl
      · exact (h.fresh id rfl rfl).congr rfl rfl
    | body id data fin => exact hU.enqueueWrite h id _
    | trailers id headers => exact hU.enqueueWrite h id _
    | cancel id => exact h.cancelRequest fits id _
  | warmup =>
    simp only [turn, WorkerLoop.warmup]
    split
    case isFalse => exact h
    case isTrue =>
      split
      case h_2 => exact h
      case h_1 path _ =>
        simp only [Worker.enqueueWarmupRequest]
        split
        · exact h
        · exact (h.fresh warmupRequestId rfl rfl).congr rfl rfl
  | dispatch ready outcome fits =>
    refine h.dispatchWaiting fits ready outcome ?_
    rintro stream rfl
    simp only [Transport.allows, Transport.announces, BodyStream.isEmpty, Bool.and_eq_true, Bool.not_eq_true']
      at hallows
    exact hallows.1.2
  | write outcome fits => exact hU.drivePendingWrite h fits outcome
  | retry c => exact h.retry hsound hsteady hallows hwhole
  | poll stream event c =>
    simp only [enabled, Bool.and_eq_true, Option.isNone_iff_eq_none] at henabled
    have hfree := h.free henabled.2
    by_cases hdata : event = .data
    · subst hdata
      exact hfree.data C c hsound hsteady hallows hwhole
    · have hsame : t.after l.worker (.poll stream event c) rooms = t := by
        cases event <;> first | rfl | exact absurd rfl hdata
      rw [hsame]
      exact hfree.pollEvent C stream c hdata
  | capacity =>
    simp only [turn]
    split
    · exact .crash _
    · exact h
  | flush scheduled => exact h
  | pacing =>
    simp only [turn]
    split
    · exact h
    · exact .crash _
  | stop result fits => exact .stop fits _

end WorkerLoop

namespace Reading

variable {C : HttpCrate} {settings : BridgeSettings} {s s' : Reading}

/-- Only the blocked response can be held up. -/
def Sound (past : List ReadingEvent) (s : Reading) : Prop :=
  s.loop.Sound (past.filterMap ReadingEvent.worker) ∧ s.transport.Steady ∧ s.loop.worker.Held s.transport.fired

/-- What the transport does on its own fires no event. -/
lemma Sound.transport {past : List ReadingEvent} {stream : ℕ} {ev : TransportEvent} {b : BodyStream}
    (h : s.Sound past) (hb : (s.transport.streams stream).step ev = some b) :
    Sound past { s with transport := s.transport.put stream b } := by
  obtain ⟨hloop, hsteady, hheld⟩ := h
  obtain ⟨hb, hfired⟩ := (hsteady stream).step hb
  refine ⟨hloop, hsteady.put hb, fun id r hr => ⟨(hheld id r hr).1, fun other hs hother => ?_⟩⟩
  refine (hheld id r hr).2 other hs ?_
  by_cases heq : other = stream
  · subst heq
    rw [Transport.fired_put_self] at hother
    exact hfired hother
  · rwa [Transport.fired_put_of_ne b heq] at hother

lemma Sound.step {past : List ReadingEvent} {e : ReadingEvent} (h : s.Sound past)
    (hfresh : FreshIds ((past ++ [e]).filterMap ReadingEvent.worker)) (hstep : s.step C settings e = some s')
    (hwhole : s.readsWhole e = true) : s'.Sound (past ++ [e]) := by
  cases e with
  | transport stream ev =>
    obtain ⟨b, hb, rfl⟩ := Option.map_eq_some_iff.mp hstep
    have hsame : (past ++ [ReadingEvent.transport stream ev]).filterMap ReadingEvent.worker =
        past.filterMap ReadingEvent.worker := by simp [ReadingEvent.worker]
    rw [Sound, hsame]
    exact h.transport hb
  | work e rooms =>
    simp only [Reading.step] at hstep
    split_ifs at hstep with hallows
    obtain ⟨loop, hloop, rfl⟩ := Option.map_eq_some_iff.mp hstep
    rw [List.filterMap_append] at hfresh
    refine ⟨?_, h.2.1.after hallows hwhole, WorkerLoop.held_step h.2.2 h.1 h.2.1 hallows hwhole hloop⟩
    rw [List.filterMap_append]
    exact h.1.step C settings hfresh hloop

/-- If no empty DATA frame that is read has bytes behind it, and all bodies that are thrown away fit into the
buffer, no request has readable bytes behind a Data event that has fired, unless a response is blocked. -/
theorem nothing_left_behind_data_event {es : List ReadingEvent}
    (hrun : Runs.Run (fun s e s' => s.step C settings e = some s' ∧ s.readsWhole e = true) (start settings) es s)
    (hfresh : FreshIds (es.filterMap ReadingEvent.worker)) (hfree : s.loop.worker.responseBlocked = none) :
    ∀ id r stream, s.loop.worker.requests.lookup id = some r → r.streamId = some stream →
      s.transport.fired stream = true → (s.transport.streams stream).readable = 0 := by
  have h : s.Sound es := by
    refine hrun.invariant (fun past s => FreshIds (past.filterMap ReadingEvent.worker) → s.Sound past) ?_ ?_ hfresh
    · intro past s e s' hstep h hpast
      have hbefore : FreshIds (past.filterMap ReadingEvent.worker) := by
        rw [List.filterMap_append] at hpast
        exact hpast.of_append
      exact (h hbefore).step hpast hstep.1 hstep.2
    · intro _
      refine ⟨WorkerLoop.sound_start settings, fun stream hfired => ?_, fun id r hr => by cases hr⟩
      cases hfired
  intro id r stream hr hs hfired
  rw [(h.2.2.free hfree id r hr).2 stream hs] at hfired
  cases hfired

/-- The response of a request with a stream of its own starts, and DATA frames of these lengths arrive. -/
def responseStarts (frames : List ℕ) : List ReadingEvent :=
  [.work (.dispatch .established (.opened 0) fun _ => true) [],
    .work (.poll 0 (.headers [⟨pseudoStatus, ascii "200"⟩]) WorkerLoop.idleChoices) []] ++
    frames.flatMap fun n => [.transport 0 (.dataHeader n), .transport 0 (.payload n)]

/-- A Data event of a body that is thrown away. -/
def discardEvent (bytes : Bytes) : ReadingEvent :=
  .work (.poll 0 .data { WorkerLoop.idleChoices with received := .ok bytes }) [h3BodyRecvBuffer]

/-- A Data event of a body that is read until the transport is done. -/
def drainEvent (bytes : Bytes) : ReadingEvent :=
  .work (.poll 0 .data { WorkerLoop.idleChoices with drain := ⟨[bytes], .done⟩ }) [h3BodyRecvBuffer, h3BodyRecvBuffer]

/-- The warmup gets a short body in two frames and an empty one at its end. -/
def shortWarmup : List ReadingEvent :=
  .work .warmup [] :: responseStarts [4, 1, 0] ++ [discardEvent (ascii "pong\n")]

/-- A short body of the warmup is read to its end. -/
theorem nothing_left_behind_data_event_warmup : ∃ s : Reading,
    Runs.exec (fun s e => if s.readsWhole e then s.step .reference WorkerLoop.warmedSettings e else none)
      (start WorkerLoop.warmedSettings) shortWarmup = some s ∧
      (s.loop.worker.requests.lookup 0).map PendingRequest.streamId = some (some 0) ∧
      ∀ id r stream, s.loop.worker.requests.lookup id = some r → r.streamId = some stream →
        s.transport.fired stream = true → (s.transport.streams stream).readable = 0 := by
  have hexec : (Runs.exec (fun s e => if s.readsWhole e then s.step .reference WorkerLoop.warmedSettings e else none)
      (start WorkerLoop.warmedSettings) shortWarmup).map
        (fun s => (s.loop.worker.responseBlocked, (s.loop.worker.requests.lookup 0).map PendingRequest.streamId)) =
      some (none, some (some 0)) := by
    decide +kernel
  obtain ⟨s, hs, hview⟩ := Option.map_eq_some_iff.mp hexec
  simp only [Prod.mk.injEq] at hview
  have hfresh : FreshIds (shortWarmup.filterMap ReadingEvent.worker) := ⟨by decide, by decide, by decide⟩
  exact ⟨s, hs, hview.2, nothing_left_behind_data_event (Runs.run_of_exec_guarded hs) hfresh hview.1⟩

/-- A body that is thrown away and does not fit into the buffer: its event has fired, and bytes are left. -/
lemma discard_leaves_bytes {stream id n : ℕ} {r : PendingRequest} {c : Choices} {bytes : Bytes}
    (hstream : s.loop.worker.streamToRequest.lookup stream = some id)
    (hr : s.loop.worker.requests.lookup id = some r) (hs : r.streamId = some stream) (hdiscard : r.discardBody = true)
    (hblocked : s.loop.worker.responseBlocked = none) (hresult : s.loop.worker.result = none)
    (hfired : s.transport.fired stream = false) (hframes : (s.transport.streams stream).frames = [n])
    (hlarge : h3BodyRecvBuffer < n) (hc : c.received = .ok bytes) (hbytes : bytes.length = h3BodyRecvBuffer) :
    ∃ s', s.step C settings (.work (.poll stream .data c) [h3BodyRecvBuffer]) = some s' ∧
      s'.loop.worker.responseBlocked = none ∧ s'.loop.worker.requests = s.loop.worker.requests ∧
      s'.transport.fired stream = true ∧ (s'.transport.streams stream).frames = [n - h3BodyRecvBuffer] := by
  have hread := Worker.bodyRead_data c hstream hr hs
  rw [if_pos hdiscard, hc] at hread
  have hrecv : ((s.transport.announced (.poll stream .data c)).streams stream).recvAll [h3BodyRecvBuffer] =
      ([h3BodyRecvBuffer], ⟨[n - h3BodyRecvBuffer], (s.transport.streams stream).missing,
        (s.transport.streams stream).behind, true, true⟩) := by
    have hroom : 0 < h3BodyRecvBuffer := by decide
    rw [Transport.announced, Transport.streams_put_self]
    simp [BodyStream.recvAll, BodyStream.recvBody, BodyStream.trigger, hframes, BodyStream.recvLoop, hroom,
      show n ≠ 0 by omega, show ¬ n ≤ h3BodyRecvBuffer by omega]
  have hallows : s.transport.allows s.loop.worker (.poll stream .data c) [h3BodyRecvBuffer] = true := by
    simp [Transport.allows, Transport.announces, hread, BodyRead.possible, BodyRead.fitsBuffers, BodyRead.lengths,
      hrecv, hbytes, hfired, hframes]
  have hloop : s.loop.step C settings (.poll stream .data c) =
      some { s.loop with worker := s.loop.worker.pollEvent C stream .data c } := by
    simp [WorkerLoop.step, WorkerLoop.enabled, hblocked, hresult, WorkerLoop.turn]
  refine ⟨⟨{ s.loop with worker := s.loop.worker.pollEvent C stream .data c },
    s.transport.after s.loop.worker (.poll stream .data c) [h3BodyRecvBuffer]⟩, ?_, ?_, ?_, ?_, ?_⟩
  · simp [step, hallows, hloop]
  · simp [Worker.pollEvent, H3Event.isGoAway, hstream, Worker.onData, hr, hdiscard, Worker.discardResponseBody, hs, hc,
      Worker.settle, hblocked]
  · simp [Worker.pollEvent, H3Event.isGoAway, hstream, Worker.onData, hr, hdiscard, Worker.discardResponseBody, hs, hc,
      Worker.settle]
  · simp [Transport.after, hread, Transport.fired_put_self, hrecv]
  · simp [Transport.after, hread, Transport.streams_put_self, hrecv]

/-- A state in which stream 0 of a live request has readable bytes behind a Data event that has fired and does
not come again. -/
def LeftBehind (settings : BridgeSettings) (s : Reading) : Prop :=
  s.loop.worker.responseBlocked = none ∧
    (∃ id, (s.loop.worker.requests.lookup id).map PendingRequest.streamId = some (some 0)) ∧
    s.transport.fired 0 = true ∧ 0 < (s.transport.streams 0).readable ∧
    ∀ c rooms, s.step .reference settings (.work (.poll 0 .data c) rooms) = none

lemma no_data_event (hfired : s.transport.fired 0 = true) (c : Choices) (rooms : List ℕ) :
    s.step C settings (.work (.poll 0 .data c) rooms) = none := by
  simp [step, Transport.allows, Transport.announces, hfired]

/-- The body of the warmup has one byte more than the buffer. -/
def largeWarmup : List ReadingEvent :=
  .work .warmup [] :: responseStarts [h3BodyRecvBuffer + 1] ++ [discardEvent (List.replicate h3BodyRecvBuffer 0)]

lemma leftBehind_of_discard : ∃ s : Reading,
    Runs.Run (fun s e s' => s.step .reference WorkerLoop.warmedSettings e = some s')
      (start WorkerLoop.warmedSettings) largeWarmup s ∧ FreshIds (largeWarmup.filterMap ReadingEvent.worker) ∧
    s.LeftBehind WorkerLoop.warmedSettings := by
  have hexec : (Runs.exec (step .reference WorkerLoop.warmedSettings) (start WorkerLoop.warmedSettings)
      (.work .warmup [] :: responseStarts [h3BodyRecvBuffer + 1])).map (fun s =>
        ((s.loop.worker.streamToRequest.lookup 0,
          (s.loop.worker.requests.lookup 0).map fun r => (r.streamId, r.discardBody)),
          (s.loop.worker.responseBlocked, s.loop.worker.result.isNone), s.transport.fired 0,
          (s.transport.streams 0).frames)) =
      some ((some 0, some (some 0, true)), (none, true), false, [h3BodyRecvBuffer + 1]) := by
    decide +kernel
  obtain ⟨s, hs, hview⟩ := Option.map_eq_some_iff.mp hexec
  simp only [Prod.mk.injEq, Option.isNone_iff_eq_none] at hview
  obtain ⟨⟨hstream, hrequest⟩, ⟨hblocked, hresult⟩, hfired, hframes⟩ := hview
  obtain ⟨r, hr, hview⟩ := Option.map_eq_some_iff.mp hrequest
  simp only [Prod.mk.injEq] at hview
  obtain ⟨s', hstep, hblocked', hrequests, hfired', hframes'⟩ := discard_leaves_bytes
    (C := .reference) (c := { WorkerLoop.idleChoices with received := .ok (List.replicate h3BodyRecvBuffer 0) })
    hstream hr hview.1 hview.2 hblocked hresult hfired hframes (by omega) rfl List.length_replicate
  refine ⟨s', (Runs.run_of_exec hs).append (.cons hstep .nil), ⟨by decide, by decide, by decide⟩, hblocked', ⟨0, ?_⟩,
    hfired', ?_, no_data_event hfired'⟩
  · rw [hrequests, hr, Option.map_some, hview.1]
  · simp [BodyStream.readable, hframes']

/-- The body of a request comes in three frames, the second one empty, and is read until the transport is done. -/
def emptyFrameBetween : List ReadingEvent :=
  .work (.command (.opens 1 [] false true false) fun _ => true) [] :: responseStarts [3, 0, 2] ++
    [drainEvent (ascii "abc")]

lemma leftBehind_of_emptyFrame : ∃ s : Reading,
    Runs.Run (fun s e s' => s.step .reference WorkerLoop.warmedSettings e = some s')
      (start WorkerLoop.warmedSettings) emptyFrameBetween s ∧
    FreshIds (emptyFrameBetween.filterMap ReadingEvent.worker) ∧ s.LeftBehind WorkerLoop.warmedSettings := by
  have hexec : (Runs.exec (step .reference WorkerLoop.warmedSettings) (start WorkerLoop.warmedSettings)
      emptyFrameBetween).map (fun s => (s.loop.worker.responseBlocked,
        (s.loop.worker.requests.lookup 1).map PendingRequest.streamId, s.transport.fired 0,
        (s.transport.streams 0).frames)) = some (none, some (some 0), true, [2]) := by
    decide +kernel
  obtain ⟨s, hs, hview⟩ := Option.map_eq_some_iff.mp hexec
  simp only [Prod.mk.injEq] at hview
  obtain ⟨hblocked, hrequest, hfired, hframes⟩ := hview
  refine ⟨s, Runs.run_of_exec hs, ⟨by decide, by decide, by decide⟩, hblocked, ⟨1, hrequest⟩, hfired, ?_,
    no_data_event hfired⟩
  simp [BodyStream.readable, hframes]

/-- One byte of a warmup body that is larger than the buffer is left behind the Data event, and so are the bytes
behind an empty DATA frame of any other body. -/
theorem warmup_body_left_behind_data_event :
    (∃ s : Reading,
      Runs.Run (fun s e s' => s.step .reference WorkerLoop.warmedSettings e = some s')
        (start WorkerLoop.warmedSettings) largeWarmup s ∧
      FreshIds (largeWarmup.filterMap ReadingEvent.worker) ∧ s.LeftBehind WorkerLoop.warmedSettings) ∧
    ∃ s : Reading,
      Runs.Run (fun s e s' => s.step .reference WorkerLoop.warmedSettings e = some s')
        (start WorkerLoop.warmedSettings) emptyFrameBetween s ∧
      FreshIds (emptyFrameBetween.filterMap ReadingEvent.worker) ∧ s.LeftBehind WorkerLoop.warmedSettings :=
  ⟨leftBehind_of_discard, leftBehind_of_emptyFrame⟩

end Reading

end Pingola
