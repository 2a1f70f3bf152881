import Pingola.Config
import Pingola.Http3.Decode
import Pingola.Lib.Runs
import Pingola.Lib.Table

/-!
# The upstream HTTP/3 worker

The loop over one upstream connection in `upstream_h3.rs`. What quiche answers and which channels
have room is part of the event that a turn of the loop handles; a turn is one command, one round
of `dispatch_waiting`, `drive_pending_writes` or the poll loop, or the retry at the start of
`process_h3_events`. The body channel of a request is the list of all messages sent into it, and a
channel, a completion and a `finished` flag go by the id of their request. Errors of quiche are
their printed texts, and a decoding error is its outermost text. What only affects the transport
(shutting a stream, allocation of buffers, logging) is left out.
-/

namespace Pingola
open ByteText

def warmupRequestId : ℕ := 0

def h3BodyRecvBuffer : ℕ := 64 * 1024

def pseudoStatus : Bytes := ascii ":status"

/-- `StatusCode::from_u16`. -/
def statusFromU16 (code : ℕ) : Option ℕ := if code < 100 ∨ 1000 ≤ code then none else some code

/-- `StatusCode::is_informational`. -/
def isInformational (status : ℕ) : Bool := decide (100 ≤ status ∧ status < 200)

def appendH3Header (C : HttpCrate) (headers : HeaderMap) (h : H3Header) : Except Bytes HeaderMap := do
  let name ← context "invalid HTTP/3 header name" (C.headerNameFromBytes h.name)
  if name = ascii "connection" ∨ name = ascii "transfer-encoding" ∨ name = ascii "upgrade" ∨
      name = ascii "keep-alive" ∨ name = ascii "proxy-connection" then
    .error (ascii "HTTP/3 peer sent forbidden connection-specific header " ++ name)
  else
    let value ← context "invalid HTTP/3 header value" (C.headerValueFromBytes h.value)
    .ok (headers ++ [(name, value)])

structure ResponseScan where
  status : Option ℕ
  regularSeen : Bool
  headers : HeaderMap

def responseScan (C : HttpCrate) (s : ResponseScan) (h : H3Header) : Except Bytes ResponseScan :=
  if h.isPseudo then
    if s.regularSeen ∨ h.name ≠ pseudoStatus ∨ s.status.isSome then
      .error (ascii "invalid HTTP/3 response pseudo-header ordering")
    else do
      let value ← context "invalid :status encoding" ((some h.value).filter isUtf8)
      let code ← context "invalid :status value" (parseUnsigned (2 ^ 16) value)
      let status ← context "invalid HTTP status" (statusFromU16 code)
      .ok { s with status := some status }
  else do
    let headers ← appendH3Header C s.headers h
    .ok { s with regularSeen := true, headers := headers }

def decodeResponseHeaders (C : HttpCrate) (list : List H3Header) : Except Bytes (ℕ × HeaderMap) := do
  let s ← list.foldlM (responseScan C) ⟨none, false, []⟩
  let status ← context "HTTP/3 response missing :status" s.status
  .ok (status, s.headers)

def decodeTrailers (C : HttpCrate) (list : List H3Header) : Except Bytes HeaderMap :=
  list.foldlM (fun headers h =>
    if h.isPseudo then .error (ascii "HTTP/3 trailer contains pseudo-header")
    else appendH3Header C headers h) []

/-- `Frame<Bytes>`. -/
inductive BodyFrame where
  | data (bytes : Bytes)
  | trailers (headers : HeaderMap)

abbrev BodyMessage := Except Bytes BodyFrame

inductive PendingWrite where
  | body (data : Bytes) (offset : ℕ) (fin : Bool)
  | trailers (headers : List H3Header)

/-- A sender is present or taken: `opened`, `response` and `bodyRx` say whether the request still
has it. -/
structure PendingRequest where
  headers : List H3Header
  hasBody : Bool
  allowEarlyData : Bool
  opened : Bool
  response : Bool
  bodyRx : Bool
  streamId : Option ℕ
  responseStarted : Bool
  pendingWrite : Option PendingWrite
  pendingResponse : Option BodyFrame
  discardBody : Bool

/-- The head of a response, which takes the receiver of its body channel along. -/
structure ResponseHead where
  status : ℕ
  headers : HeaderMap

/-- What a request's owner hears through its three oneshot channels. -/
inductive Reply where
  | opened (id : ℕ) (result : Except Bytes Unit)
  | response (id : ℕ) (result : Except Bytes ResponseHead)
  | written (id : ℕ) (result : Except Bytes Unit)

inductive Command where
  | opens (id : ℕ) (headers : List H3Header) (hasBody allowEarlyData opened : Bool)
  | body (id : ℕ) (data : Bytes) (fin : Bool)
  | trailers (id : ℕ) (headers : List H3Header)
  | cancel (id : ℕ)

/-- Why a worker ended: its own bookkeeping, a failed `expect` or `unreachable!`, or the
transport. -/
inductive Failure where
  | internal (message : Bytes)
  | panics (message : Bytes)
  | transport (message : Bytes)

def Failure.message : Failure → Bytes
  | .internal m | .panics m | .transport m => m

structure Worker where
  requests : Table ℕ PendingRequest
  streamToRequest : Table ℕ ℕ
  waiting : List ℕ
  pendingWrites : List ℕ
  bodyBuf : Bytes
  responseBlocked : Option ℕ
  draining : Bool
  sent : ℕ → List BodyMessage
  finished : ℕ → Bool
  replies : List Reply
  result : Option (Except Failure Unit)

/-- The worker with the variables that only the loop around its functions uses. -/
structure WorkerLoop where
  worker : Worker
  warmupPending : Bool
  warmupDone : Bool
  pendingSend : Bool

/-- How far the handshake is; early data only counts before it is established. -/
inductive Readiness where
  | established
  | earlyData
  | handshaking
  deriving DecidableEq

/-- `send_request`; blocked are `StreamBlocked` and `StreamLimit`. -/
inductive OpenOutcome where
  | opened (stream : ℕ)
  | blocked
  | failed (error : Bytes)

/-- `send_body` and `send_additional_headers`; blocked are `Done` and `StreamBlocked`. -/
inductive WriteOutcome where
  | wrote (n : ℕ)
  | blocked
  | failed (error : Bytes)

/-- What a bounded channel says to `try_send`. -/
inductive ChannelAnswer where
  | ready
  | full
  | closed

inductive TrySendError where
  | full (message : BodyMessage)
  | closed (message : BodyMessage)

/-- How the loop of `drain_response_body` ends. -/
inductive DrainEnd where
  | full
  | closed
  | done
  | failed (error : Bytes)

/-- The pieces that rounds of `drain_response_body` receive, and what stops it. -/
structure Drain where
  reads : List Bytes
  last : DrainEnd

/-- `h3::Event`. -/
inductive H3Event where
  | headers (list : List H3Header)
  | data
  | finished
  | reset (code : ℕ)
  | goAway
  | priorityUpdate

def H3Event.isGoAway : H3Event → Bool
  | .goAway => true
  | _ => false

inductive DeliveryRetry where
  | ready
  | blocked
  | closed (message : Bytes)

/-- What is not up to the worker while it handles an event: whether an error fits into the body
channel of a request, whether the receiver of a head is still there, the answer of the body channel
to a frame, and what `recv_body` gives to the two functions that call it. -/
structure Choices where
  fits : ℕ → Bool
  delivered : Bool
  answer : ChannelAnswer
  drain : Drain
  received : Except Bytes Bytes

inductive WorkerEvent where
  | command (c : Command) (fits : ℕ → Bool)
  | warmup
  | dispatch (ready : Readiness) (outcome : OpenOutcome) (fits : ℕ → Bool)
  | write (outcome : WriteOutcome) (fits : ℕ → Bool)
  | retry (c : Choices)
  | poll (stream : ℕ) (event : H3Event) (c : Choices)
  | capacity
  | flush (scheduled : Bool)
  | pacing
  | stop (result : Except Bytes Unit) (fits : ℕ → Bool)

/-- The settings that the loop reads. -/
structure BridgeSettings where
  serverName : Bytes
  warmupPath : Option Bytes

def PendingRequest.fresh (headers : List H3Header) (hasBody allowEarlyData opened : Bool) :
    PendingRequest :=
  { headers, hasBody, allowEarlyData, opened, response := true, bodyRx := true, streamId := none
    responseStarted := false, pendingWrite := none, pendingResponse := none, discardBody := false }

/-- The request that `enqueue_warmup_request` makes up, without a caller. -/
def PendingRequest.warmup (path authority : Bytes) : PendingRequest :=
  { headers := [⟨pseudoMethod, ascii "GET"⟩, ⟨pseudoScheme, ascii "https"⟩,
      ⟨pseudoAuthority, authority⟩, ⟨pseudoPath, path⟩, ⟨hostName, authority⟩]
    hasBody := false, allowEarlyData := false, opened := false, response := false, bodyRx := false
    streamId := none, responseStarted := false, pendingWrite := none, pendingResponse := none
    discardBody := true }

/-- The oneshot part of `PendingRequest::fail`. -/
def PendingRequest.failReplies (r : PendingRequest) (id : ℕ) (message : Bytes) : List Reply :=
  (if r.opened then [.opened id (.error message)] else []) ++
    (if r.response then [.response id (.error message)] else []) ++
    (if r.pendingWrite.isSome then [.written id (.error message)] else [])

/-- What becomes of a write after one call of quiche. -/
inductive WriteResult where
  | complete
  | again (write : PendingWrite)
  | failed (message : Bytes)

def PendingWrite.send : PendingWrite → WriteOutcome → WriteResult
  | .body data offset fin, .wrote n =>
    if offset + n = data.length then .complete else .again (.body data (offset + n) fin)
  | .trailers _, .wrote _ => .complete
  | write, .blocked => .again write
  | .body _ _ _, .failed error => .failed (ascii "HTTP/3 request body send failed: " ++ error)
  | .trailers _, .failed error => .failed (ascii "HTTP/3 request trailer send failed: " ++ error)

def DrainEnd.retry : DrainEnd → Except Failure DeliveryRetry
  | .full => .ok .blocked
  | .closed => .ok (.closed (ascii "downstream dropped HTTP/3 response body"))
  | .done => .ok .ready
  | .failed error => .error (.transport (ascii "HTTP/3 response body receive failed: " ++ error))

namespace Worker

def start : Worker :=
  { requests := ∅, streamToRequest := ∅, waiting := [], pendingWrites := [], bodyBuf := []
    responseBlocked := none, draining := false, sent := fun _ => [], finished := fun _ => false
    replies := [], result := none }

variable (w : Worker)

def setRequest (id : ℕ) (r : PendingRequest) : Worker :=
  { w with requests := w.requests.insert id r }

/-- A message goes into the body channel of a request. -/
def send (id : ℕ) (m : BodyMessage) : Worker :=
  { w with sent := Function.update w.sent id (w.sent id ++ [m]) }

def reply (rs : List Reply) : Worker := { w with replies := w.replies ++ rs }

/-- `Sender::try_send`, which hands the message back when it does not take it. -/
def trySend (id : ℕ) (m : BodyMessage) : ChannelAnswer → Worker × Except TrySendError Unit
  | .ready => (w.send id m, .ok ())
  | .full => (w, .error (.full m))
  | .closed => (w, .error (.closed m))

/-- `PendingRequest::fail`. -/
def fail (fits : ℕ → Bool) (id : ℕ) (r : PendingRequest) (message : Bytes) : Worker :=
  let w := w.reply (r.failReplies id message)
  if !r.response && fits id then w.send id (.error message) else w

def stopMessage : Except Failure Unit → Bytes
  | .ok _ => ascii "upstream QUIC worker stopped"
  | .error f => ascii "upstream QUIC worker stopped: " ++ f.message

/-- The end of the worker: `fail_all`, after which its state is gone. -/
def stop (fits : ℕ → Bool) (result : Except Failure Unit) : Worker :=
  let failed := w.requests.entries.foldl (fun w e => w.fail fits e.1 e.2 (stopMessage result)) w
  { failed with
    requests := ∅, streamToRequest := ∅, responseBlocked := none, result := some result }

/-- A panic drops the state without a word to anyone. -/
def crash (message : String) : Worker :=
  { w with
    requests := ∅, streamToRequest := ∅, responseBlocked := none
    result := some (.error (.panics (ascii message))) }

def cancelRequest (fits : ℕ → Bool) (id : ℕ) (message : Bytes) : Worker :=
  match w.requests.lookup id with
  | none => w
  | some r =>
    let streams := r.streamId.elim w.streamToRequest w.streamToRequest.erase
    { w with requests := w.requests.erase id, streamToRequest := streams }.fail fits id r message

def enqueueWrite (id : ℕ) (write : PendingWrite) : Worker :=
  match w.requests.lookup id with
  | none =>
    w.reply [.written id (.error (ascii "HTTP/3 request ended before its body was sent"))]
  | some r =>
    if r.streamId.isNone then
      w.reply [.written id (.error (ascii "HTTP/3 request body arrived before the stream opened"))]
    else if r.pendingWrite.isSome then
      w.reply [.written id (.error (ascii "HTTP/3 request has more than one pending body write"))]
    else
      { w.setRequest id { r with pendingWrite := some write } with
        pendingWrites := w.pendingWrites ++ [id] }

/-- `handle_command`, which accepts new requests unless the connection is draining. -/
def handleCommand (fits : ℕ → Bool) : Command → Worker
  | .opens id headers hasBody allowEarlyData opened =>
    if w.draining then
      let message := ascii "upstream HTTP/3 connection is draining after GOAWAY"
      w.reply ((if opened then [.opened id (.error message)] else []) ++
        [.response id (.error message)])
    else
      { w.setRequest id (.fresh headers hasBody allowEarlyData opened) with
        waiting := w.waiting ++ [id] }
  | .body id data fin => w.enqueueWrite id (.body data 0 fin)
  | .trailers id headers => w.enqueueWrite id (.trailers headers)
  | .cancel id => w.cancelRequest fits id (ascii "downstream cancelled HTTP/3 request")

def enqueueWarmupRequest (path authority : Bytes) : Worker :=
  if (w.requests.lookup warmupRequestId).isSome then w
  else
    { w.setRequest warmupRequestId (.warmup path authority) with
      waiting := w.waiting ++ [warmupRequestId] }

/-- A round of `drive_pending_writes`. -/
def drivePendingWrite (fits : ℕ → Bool) (outcome : WriteOutcome) : Worker :=
  match w.pendingWrites with
  | [] => w
  | id :: rest =>
    let w := { w with pendingWrites := rest }
    match w.requests.lookup id with
    | none => w
    | some r =>
      match r.streamId, r.pendingWrite with
      | some _, some write =>
        match write.send outcome with
        | .complete => (w.setRequest id { r with pendingWrite := none }).reply [.written id (.ok ())]
        | .again write =>
          { w.setRequest id { r with pendingWrite := some write } with
            pendingWrites := rest ++ [id] }
        | .failed message =>
          ((w.setRequest id { r with pendingWrite := none }).reply
            [.written id (.error message)]).cancelRequest fits id message
      | _, _ => w

/-- What a round of `dispatch_waiting` finds at the front of the queue, with the rest of it. -/
inductive Waiting where
  | nothing
  /-- A request that has ended or has its stream. -/
  | settled (rest : List ℕ)
  /-- A request for which the connection is not ready. -/
  | deferred (id : ℕ) (rest : List ℕ)
  /-- A request that is handed to `send_request`. -/
  | sends (id : ℕ) (r : PendingRequest) (rest : List ℕ)

def nextWaiting (ready : Readiness) : Waiting :=
  match w.waiting with
  | [] => .nothing
  | id :: rest =>
    match w.requests.lookup id with
    | none => .settled rest
    | some r =>
      if r.streamId.isSome then .settled rest
      else if ready = .earlyData ∧ r.allowEarlyData = false ∨ ready = .handshaking then .deferred id rest
      else .sends id r rest

/-- A round of `dispatch_waiting`; the outcome is what `send_request` returns. -/
def dispatchWaiting (fits : ℕ → Bool) (ready : Readiness) (outcome : OpenOutcome) : Worker :=
  match w.nextWaiting ready with
  | .nothing => w
  | .settled rest => { w with waiting := rest }
  | .deferred id rest => { w with waiting := rest ++ [id] }
  | .sends id r rest =>
    let w := { w with waiting := rest }
    match outcome with
    | .opened stream =>
      { w.setRequest id { r with streamId := some stream, opened := false } with
        streamToRequest := w.streamToRequest.insert stream id }.reply
          (if r.opened then [.opened id (.ok ())] else [])
    | .blocked => { w with waiting := id :: rest }
    | .failed error =>
      match w.requests.lookup id with
      | none => w.crash "request still exists"
      | some r =>
        { w with requests := w.requests.erase id }.fail fits id r
          (ascii "HTTP/3 request open failed: " ++ error)

/-- A piece of the body is appended to `body_buf`, and all of the buffer is split off into the
frame. -/
def forward (id : ℕ) (bytes : Bytes) : Worker :=
  { w.send id (.ok (.data (w.bodyBuf ++ bytes))) with bodyBuf := [] }

def drainResponseBody (id : ℕ) (d : Drain) : Worker × Except Failure DeliveryRetry :=
  match w.requests.lookup id with
  | none => (w, .error (.internal (ascii "HTTP/3 data has no request state")))
  | some r =>
    if r.streamId.isNone then
      (w, .error (.internal (ascii "HTTP/3 data arrived before the request stream opened")))
    else (d.reads.foldl (fun w bytes => w.forward id bytes) w, d.last.retry)

/-- The warmup body is read into the front of `body_buf`, which keeps its length. -/
def discardResponseBody (id : ℕ) (received : Except Bytes Bytes) : Worker × Except Failure DeliveryRetry :=
  if ((w.requests.lookup id).bind PendingRequest.streamId).isNone then
    (w, .error (.internal (ascii "HTTP/3 discard body has no request stream")))
  else
    let buf := if w.bodyBuf.length < h3BodyRecvBuffer then
      w.bodyBuf ++ List.replicate (h3BodyRecvBuffer - w.bodyBuf.length) 0 else w.bodyBuf
    match received with
    | .ok bytes => ({ w with bodyBuf := bytes ++ buf.drop bytes.length }, .ok .ready)
    | .error error =>
      ({ w with bodyBuf := buf },
        .error (.transport (ascii "HTTP/3 warmup body discard failed: " ++ error)))

/-- What `process_h3_events` does with the outcome of a delivery. -/
def settle (c : Choices) (id : ℕ) : Worker × Except Failure DeliveryRetry → Worker
  | (w, .ok .ready) => w
  | (w, .ok .blocked) => { w with responseBlocked := some id }
  | (w, .ok (.closed message)) => w.cancelRequest c.fits id message
  | (w, .error f) => w.stop c.fits (.error f)

/-- A failure of the worker's own bookkeeping, which ends the connection. -/
def internal (c : Choices) (message : String) : Worker :=
  w.stop c.fits (.error (.internal (ascii message)))

/-- The retry of the one delivery that a full channel held up. -/
def retryDelivery (c : Choices) : Worker :=
  match w.responseBlocked with
  | none => w
  | some id =>
    let w := { w with responseBlocked := none }
    match w.requests.lookup id with
    | none => w
    | some r =>
      match r.pendingResponse with
      | none => settle c id (w.drainResponseBody id c.drain)
      | some frame =>
        let w := w.setRequest id { r with pendingResponse := none }
        match w.requests.lookup id with
        | none => w.internal c "HTTP/3 response has no request state"
        | some r =>
          match w.trySend id (.ok frame) c.answer with
          | (w, .ok _) => w
          | (w, .error (.full (.ok frame))) =>
            { w.setRequest id { r with pendingResponse := some frame } with
              responseBlocked := some id }
          | (w, .error (.closed _)) =>
            w.cancelRequest c.fits id (ascii "downstream dropped HTTP/3 response trailers")
          | (w, .error (.full (.error _))) =>
            w.crash "only successful response frames are buffered"

/-- The first headers of a response that are not informational. -/
def startResponse (c : Choices) (id : ℕ) (head : ResponseHead) : Worker :=
  match w.requests.lookup id with
  | none => w.internal c "HTTP/3 response has no request state"
  | some r =>
    if r.discardBody then w.setRequest id { r with responseStarted := true }
    else if !r.bodyRx then w.internal c "HTTP/3 response body receiver missing"
    else if !r.response then w.internal c "HTTP/3 response sender missing"
    else
      let w := w.setRequest id
        { r with bodyRx := false, response := false, responseStarted := true }
      if c.delivered then w.reply [.response id (.ok head)]
      else w.cancelRequest c.fits id (ascii "downstream dropped HTTP/3 response headers")

def sendTrailers (c : Choices) (id : ℕ) (trailers : HeaderMap) : Worker :=
  match w.trySend id (.ok (.trailers trailers)) c.answer with
  | (w, .ok _) => w
  | (w, .error (.full (.ok frame))) =>
    match w.requests.lookup id with
    | none => w.internal c "HTTP/3 response has no request state"
    | some r =>
      { w.setRequest id { r with pendingResponse := some frame } with responseBlocked := some id }
  | (w, .error (.closed _)) =>
    w.cancelRequest c.fits id (ascii "downstream dropped HTTP/3 response trailers")
  | (w, .error (.full (.error _))) => w.crash "only successful response frames are queued"

def onHeaders (C : HttpCrate) (w : Worker) (c : Choices) (id : ℕ) (list : List H3Header) : Worker :=
  match w.requests.lookup id with
  | none => w.internal c "HTTP/3 response has no request state"
  | some r =>
    if r.responseStarted then
      match decodeTrailers C list with
      | .error e => w.cancelRequest c.fits id (ascii "invalid upstream HTTP/3 trailers: " ++ e)
      | .ok trailers => w.sendTrailers c id trailers
    else
      match decodeResponseHeaders C list with
      | .error e => w.cancelRequest c.fits id (ascii "invalid upstream HTTP/3 response: " ++ e)
      | .ok (status, headers) =>
        if isInformational status then w else w.startResponse c id ⟨status, headers⟩

def onData (c : Choices) (id : ℕ) : Worker :=
  if (w.requests.lookup id).any PendingRequest.discardBody then
    settle c id (w.discardResponseBody id c.received)
  else settle c id (w.drainResponseBody id c.drain)

def onFinished (stream id : ℕ) : Worker :=
  let w := { w with streamToRequest := w.streamToRequest.erase stream }
  match w.requests.lookup id with
  | none => w
  | some r =>
    let w := { w with requests := w.requests.erase id }
    let finish : Worker := { w with finished := Function.update w.finished id true }
    if r.discardBody then finish
    else
      let w := if r.responseStarted then finish
        else if r.response then
          w.reply [.response id (.error (ascii "HTTP/3 response finished before headers"))]
        else w
      if r.pendingWrite.isSome then
        w.reply [.written id
          (.error (ascii "HTTP/3 response finished before request upload completed"))]
      else w

/-- A round of the poll loop of `process_h3_events`. -/
def pollEvent (C : HttpCrate) (w : Worker) (stream : ℕ) (event : H3Event) (c : Choices) : Worker :=
  if event.isGoAway then { w with draining := true }
  else
    match w.streamToRequest.lookup stream with
    | none => w
    | some id =>
      match event with
      | .headers list => w.onHeaders C c id list
      | .data => w.onData c id
      | .finished => w.onFinished stream id
      | .reset code =>
        w.cancelRequest c.fits id (ascii "HTTP/3 stream reset by upstream code=" ++ natText code)
      | .goAway => w.crash "GOAWAY is handled before request lookup"
      | .priorityUpdate => w

/-- The body sender that the loop waits on for capacity. -/
def responseWaiter : Option PendingRequest := w.responseBlocked.bind w.requests.lookup

end Worker

namespace WorkerLoop

def start (settings : BridgeSettings) : WorkerLoop :=
  ⟨.start, settings.warmupPath.isSome, false, false⟩

/-- The part of the loop that queues the warmup request. -/
def warmup (settings : BridgeSettings) (l : WorkerLoop) : WorkerLoop :=
  if l.warmupPending && !l.warmupDone then
    match settings.warmupPath with
    | some path =>
      { l with
        worker := l.worker.enqueueWarmupRequest path settings.serverName
        warmupDone := true, warmupPending := false }
    | none => { l with warmupPending := false }
  else l

def turn (C : HttpCrate) (settings : BridgeSettings) (l : WorkerLoop) : WorkerEvent → WorkerLoop
  | .command c fits => { l with worker := l.worker.handleCommand fits c }
  | .warmup => l.warmup settings
  | .dispatch ready outcome fits => { l with worker := l.worker.dispatchWaiting fits ready outcome }
  | .write outcome fits => { l with worker := l.worker.drivePendingWrite fits outcome }
  | .retry c => { l with worker := l.worker.retryDelivery c }
  | .poll stream event c => { l with worker := l.worker.pollEvent C stream event c }
  | .capacity =>
    match l.worker.responseWaiter with
    | none => { l with worker := l.worker.crash "response capacity waiter is guarded" }
    | some _ => l
  | .flush scheduled => { l with pendingSend := l.pendingSend || scheduled }
  | .pacing =>
    if l.pendingSend then { l with pendingSend := false }
    else { l with worker := l.worker.crash "pacing branch requires a scheduled QUIC packet" }
  | .stop result fits => { l with worker := l.worker.stop fits (result.mapError .transport) }

/-- When the loop can come to an event: it has not ended, dispatches only while it is not draining,
polls only without a blocked response, and takes the guarded branches of its `select!` only with
their guards. -/
def enabled (l : WorkerLoop) (e : WorkerEvent) : Bool :=
  l.worker.result.isNone &&
    match e with
    | .dispatch _ _ _ => !l.worker.draining
    | .poll _ _ _ => l.worker.responseBlocked.isNone
    | .capacity => l.worker.responseWaiter.isSome
    | .pacing => l.pendingSend
    | _ => true

def step (C : HttpCrate) (settings : BridgeSettings) (l : WorkerLoop) (e : WorkerEvent) :
    Option WorkerLoop :=
  if l.enabled e then some (l.turn C settings e) else none

end WorkerLoop

end Pingola
