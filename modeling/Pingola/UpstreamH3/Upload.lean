import Pingola.UpstreamH3.BodyWriter

/-!
# Uploads

A request body on its way from its writer to the stream: the writer, the command channel and the worker
as one system, among all that the worker does for other requests. The answers of `send_body` are any that
quiche can give.
-/

namespace Pingola
open ByteText

namespace Reply

/-- The answer to the Open command of a request. -/
def openedOf (id : ℕ) : Reply → Option (Except Bytes Unit)
  | .opened id' result => if id' = id then some result else none
  | _ => none

/-- The completion of a Body command of a request. -/
def writtenOf (id : ℕ) : Reply → Option (Except Bytes Unit)
  | .written id' result => if id' = id then some result else none
  | _ => none

end Reply

namespace Worker

variable (w : Worker) (id : ℕ)

def openings : List (Except Bytes Unit) := w.replies.filterMap (Reply.openedOf id)

def completions : List (Except Bytes Unit) := w.replies.filterMap (Reply.writtenOf id)

def pendingWriteOf : Option PendingWrite := (w.requests.lookup id).bind PendingRequest.pendingWrite

/-- The write that a round of `drive_pending_writes` takes up, with its stream. -/
def nextWrite : Option (ℕ × PendingWrite) :=
  (w.pendingWrites.head?.bind w.requests.lookup).bind fun r =>
    r.streamId.bind fun stream => r.pendingWrite.map fun write => (stream, write)

/-- What `send_body` sends in a turn, and on which stream. -/
def bodySent : WorkerEvent → Option (ℕ × BodyPart)
  | .write (.wrote n) _ =>
    match w.nextWrite with
    | some (stream, .body data offset fin) =>
      some (stream, ⟨(data.drop offset).take n, fin && offset + n == data.length⟩)
    | _ => none
  | _ => none

/-- What `send_body` can answer: it sends at most what it is given, and nothing at all only to end the
body. -/
def sendable : WorkerEvent → Bool
  | .write (.wrote n) _ =>
    match w.nextWrite with
    | some (_, .body data offset fin) =>
      offset + n ≤ data.length && (0 < n || (offset == data.length && fin))
    | _ => true
  | _ => true

end Worker

/-- Where the caller of a writer stands: between two calls, waiting for the stream or for a completion, or
at the end. -/
inductive WriterPoint where
  | ready
  | opening
  | awaiting (fin : Bool)
  | failed
  | finished
  deriving DecidableEq

/-- A request with its writer. `left` are the chunks that are still to be written, and `queued` is the
command that the worker has not received yet. All commands so far, the stream of the request and what was
sent on each stream are not in the source. -/
structure Upload where
  loop : WorkerLoop
  writer : H3RequestBodyWriter
  left : List Bytes
  point : WriterPoint
  queued : Option BodyPart
  commands : List BodyPart
  stream : Option ℕ
  log : ℕ → List BodyPart

/-- `call` is the next call of the caller, `opened` and `completed` are answers that the writer waits for,
`giveUp` the end of its wait without one, `deliver` the command that the worker receives. -/
inductive UploadEvent where
  | call
  | opened
  | completed
  | giveUp
  | deliver (part : BodyPart) (fits : ℕ → Bool)
  | work (e : WorkerEvent)

/-- Body commands of a request come from its writer, and it is opened with a body. -/
def WorkerEvent.spares (id : ℕ) : WorkerEvent → Bool
  | .command (.opens id' _ hasBody _ opened) _ => id' != id || (hasBody && opened)
  | .command (.body id' _ _) _ => id' != id
  | .command (.trailers id' _) _ => id' != id
  | _ => true

def UploadEvent.worker (id : ℕ) : UploadEvent → Option WorkerEvent
  | .deliver part fits => some (.command (.body id part.data part.fin) fits)
  | .work e => some e
  | _ => none

namespace Upload

/-- What was sent on each stream, with what a turn sends. -/
def record (log : ℕ → List BodyPart) : Option (ℕ × BodyPart) → ℕ → List BodyPart
  | none => log
  | some (stream, part) => Function.update log stream (log stream ++ [part])

def start (settings : BridgeSettings) (chunks : List Bytes) : Upload :=
  { loop := .start settings, writer := ⟨true, true, []⟩, left := chunks, point := .ready, queued := none
    commands := [], stream := none, log := fun _ => [] }

section

variable (u : Upload)

def worker : Worker := u.loop.worker

/-- `send_body_command`, if the call has a command to send. -/
def issue : Option BodyPart → Upload
  | none => { u with point := .ready }
  | some part => { u with queued := some part, commands := u.commands ++ [part], point := .awaiting part.fin }

/-- The next call once the stream is open: a chunk is written, or the body is finished. -/
def perform : Upload :=
  match u.left with
  | data :: left =>
    issue { u with writer := (u.writer.writeAllBuf data).1, left := left } (u.writer.writeAllBuf data).2
  | [] => issue { u with writer := u.writer.finish.1 } u.writer.finish.2

/-- A turn of the worker, with what it sends. -/
def after (id : ℕ) (e : WorkerEvent) (loop : WorkerLoop) : Upload :=
  { u with
    loop := loop
    stream := ((loop.worker.requests.lookup id).bind PendingRequest.streamId).or u.stream
    log := record u.log (u.worker.bodySent e) }

def step (C : HttpCrate) (settings : BridgeSettings) (id : ℕ) : UploadEvent → Option Upload
  | .call =>
    if u.point = .ready then
      some (if u.left.isEmpty && !u.writer.expectsBody then { u with point := .finished }
        else if u.writer.opens then { u with point := .opening } else u.perform)
    else none
  | .opened =>
    if u.point = .opening then
      (u.worker.openings id).head?.map fun answer =>
        match answer with
        | .ok _ => perform { u with writer.opens := false }
        | .error _ => { u with point := .failed }
    else none
  | .completed =>
    match u.point with
    | .awaiting fin =>
      (u.worker.completions id)[u.commands.length - 1]?.map fun completion =>
        match completion with
        | .ok _ => { u with point := if fin then .finished else .ready }
        | .error _ => { u with point := .failed }
    | _ => none
  | .giveUp =>
    match u.point with
    | .opening => some { u with point := .failed }
    | .awaiting _ => some { u with point := .failed }
    | _ => none
  | .deliver part fits =>
    if u.queued = some part then
      (u.loop.step C settings (.command (.body id part.data part.fin) fits)).map fun loop =>
        { u with loop := loop, queued := none }
    else none
  | .work e =>
    if e.spares id && u.worker.sendable e then (u.loop.step C settings e).map (u.after id e) else none

end

end Upload

/-! ### What the worker does to an upload -/

/-- Whether the writer of a request can have heard that the stream is open, the completions for it, and
the write that the worker holds for it. -/
@[ext] structure UploadView where
  opened : Bool
  written : List (Except Bytes Unit)
  write : Option PendingWrite

/-- A request goes on without its write: it is completed with an error, or lost. -/
inductive Drops (v : UploadView) : UploadView → Prop
  | same : Drops v v
  | lost : Drops v { v with write := none }
  | failed {write : PendingWrite} (hwrite : v.write = some write) (message : Bytes) :
      Drops v { v with written := v.written ++ [.error message], write := none }

namespace Worker

def uploadOf (w : Worker) (id : ℕ) : UploadView :=
  ⟨(w.openings id).any Except.isOk, w.completions id, w.pendingWriteOf id⟩

/-- The part of a worker that uploads depend on. -/
lemma uploadOf_congr {w w' : Worker} (hreplies : w'.replies = w.replies) (hrequests : w'.requests = w.requests)
    (id : ℕ) : w'.uploadOf id = w.uploadOf id := by
  simp only [uploadOf, openings, completions, pendingWriteOf, hreplies, hrequests]

lemma uploadOf_reply (w : Worker) (replies : List Reply) (id : ℕ) :
    (w.reply replies).uploadOf id =
      { w.uploadOf id with
        opened := (w.uploadOf id).opened || (replies.filterMap (Reply.openedOf id)).any Except.isOk
        written := (w.uploadOf id).written ++ replies.filterMap (Reply.writtenOf id) } := by
  simp [uploadOf, openings, completions, pendingWriteOf, reply]

variable {w : Worker}

/-- Replies to other requests. -/
lemma uploadOf_reply_of_ne {replies : List Reply} {id : ℕ}
    (h : ∀ reply ∈ replies, reply.openedOf id = none ∧ reply.writtenOf id = none) :
    (w.reply replies).uploadOf id = w.uploadOf id := by
  have hopened : replies.filterMap (Reply.openedOf id) = [] :=
    List.filterMap_eq_nil_iff.mpr fun r hr => (h r hr).1
  have hwritten : replies.filterMap (Reply.writtenOf id) = [] :=
    List.filterMap_eq_nil_iff.mpr fun r hr => (h r hr).2
  simp [uploadOf_reply, hopened, hwritten]

lemma uploadOf_setRequest (w : Worker) (id id' : ℕ) (r : PendingRequest) :
    (w.setRequest id' r).uploadOf id =
      { w.uploadOf id with write := if id = id' then r.pendingWrite else (w.uploadOf id).write } := by
  have hwrite : (w.setRequest id' r).pendingWriteOf id =
      if id = id' then r.pendingWrite else w.pendingWriteOf id := by
    rw [pendingWriteOf, setRequest, Table.lookup_insert_if]
    split <;> rfl
  simp only [uploadOf, hwrite]
  rfl

lemma uploadOf_erase (w : Worker) (id id' : ℕ) (streams : Table ℕ ℕ) :
    uploadOf { w with requests := w.requests.erase id', streamToRequest := streams } id =
      { w.uploadOf id with write := if id = id' then none else (w.uploadOf id).write } := by
  have hwrite : pendingWriteOf { w with requests := w.requests.erase id', streamToRequest := streams } id =
      if id = id' then none else w.pendingWriteOf id := by
    simp only [pendingWriteOf, Table.lookup_erase_if]
    split <;> rfl
  simp only [uploadOf, hwrite]
  rfl

lemma write_uploadOf {id : ℕ} {r : PendingRequest} (hr : w.requests.lookup id = some r) :
    (w.uploadOf id).write = r.pendingWrite := by
  rw [uploadOf, pendingWriteOf, hr, Option.bind_some]

lemma failReplies_filterMap (r : PendingRequest) (id id' : ℕ) (message : Bytes) :
    ((r.failReplies id' message).filterMap (Reply.openedOf id)).any Except.isOk = false ∧
      (r.failReplies id' message).filterMap (Reply.writtenOf id) =
        if id' = id ∧ r.pendingWrite.isSome = true then [.error message] else [] := by
  unfold PendingRequest.failReplies
  by_cases hid : id' = id
  · subst hid
    constructor
    · split_ifs <;> simp [Reply.openedOf, Except.isOk, Except.toBool]
    · split_ifs <;> simp_all [List.filterMap_cons, Reply.writtenOf]
  · constructor
    · split_ifs <;> simp [Reply.openedOf, hid]
    · split_ifs <;> simp_all [List.filterMap_cons, Reply.writtenOf]

lemma uploadOf_fail (w : Worker) (fits : ℕ → Bool) (id id' : ℕ) (r : PendingRequest) (message : Bytes) :
    (w.fail fits id' r message).uploadOf id =
      { w.uploadOf id with
        written := (w.uploadOf id).written ++
          if id' = id ∧ r.pendingWrite.isSome = true then [.error message] else [] } := by
  obtain ⟨hopened, hwritten⟩ := failReplies_filterMap r id id' message
  have hreply := uploadOf_reply w (r.failReplies id' message) id
  rw [hopened, hwritten, Bool.or_false] at hreply
  rw [← hreply]
  unfold fail
  split <;> exact uploadOf_congr rfl rfl id

/-- A request ends with the message. -/
lemma drops_erase_fail {id' : ℕ} {r : PendingRequest} (hr : w.requests.lookup id' = some r) (streams : Table ℕ ℕ)
    (fits : ℕ → Bool) (message : Bytes) (id : ℕ) :
    Drops (w.uploadOf id) ((fail { w with requests := w.requests.erase id', streamToRequest := streams }
      fits id' r message).uploadOf id) := by
  rw [uploadOf_fail, uploadOf_erase]
  by_cases hid : id' = id
  · subst hid
    have hwrite := write_uploadOf hr
    cases hpending : r.pendingWrite with
    | none => simpa using Drops.lost
    | some write =>
      rw [hpending] at hwrite
      simpa using Drops.failed hwrite message
  · simpa [hid, Ne.symm hid] using Drops.same

lemma drops_cancelRequest (w : Worker) (fits : ℕ → Bool) (id' : ℕ) (message : Bytes) (id : ℕ) :
    Drops (w.uploadOf id) ((w.cancelRequest fits id' message).uploadOf id) := by
  unfold cancelRequest
  split
  case h_1 => exact .same
  case h_2 r hr => exact drops_erase_fail hr _ fits message id

/-- A response is answered, which writers do not hear of. -/
lemma uploadOf_reply_response (w : Worker) (id id' : ℕ) (result : Except Bytes ResponseHead) :
    (w.reply [.response id' result]).uploadOf id = w.uploadOf id := by
  apply uploadOf_reply_of_ne
  intro reply hreply
  rw [List.mem_singleton] at hreply
  subst hreply
  exact ⟨rfl, rfl⟩

lemma uploadOf_reply_written (w : Worker) (id id' : ℕ) (result : Except Bytes Unit) :
    (w.reply [.written id' result]).uploadOf id =
      { w.uploadOf id with written := (w.uploadOf id).written ++ if id' = id then [result] else [] } := by
  rw [uploadOf_reply]
  by_cases hid : id' = id <;> simp [hid, Reply.openedOf, Reply.writtenOf]

lemma drops_onFinished (w : Worker) (stream id' id : ℕ) :
    Drops (w.uploadOf id) ((w.onFinished stream id').uploadOf id) := by
  unfold onFinished
  dsimp only
  split
  case h_1 => exact .same
  case h_2 r hr =>
    set erased : Worker :=
      { w with requests := w.requests.erase id', streamToRequest := w.streamToRequest.erase stream } with herased
    have herase : erased.uploadOf id =
        { w.uploadOf id with write := if id = id' then none else (w.uploadOf id).write } := uploadOf_erase w id id' _
    split
    case isTrue =>
      -- the warmup, which nobody waits for
      change Drops _ (erased.uploadOf id)
      rw [herase]
      split
      · exact .lost
      · exact .same
    case isFalse =>
      generalize hmid : ite (r.responseStarted = true) _ _ = mid
      have hview : mid.uploadOf id = erased.uploadOf id := by
        rw [← hmid]
        split_ifs
        · rfl
        · exact uploadOf_reply_response erased id id' _
        · rfl
      rw [herase] at hview
      have hwrite := write_uploadOf hr
      cases hpending : r.pendingWrite with
      | none =>
        simp only [Option.isSome_none, Bool.false_eq_true, if_false, hview]
        split
        · exact .lost
        · exact .same
      | some write =>
        rw [hpending] at hwrite
        simp only [Option.isSome_some, if_true]
        rw [uploadOf_reply_written, hview]
        by_cases hid : id' = id
        · subst hid
          simpa using Drops.failed hwrite _
        · simpa [hid, Ne.symm hid] using Drops.same

/-- The requests that the end of the worker fails. -/
lemma uploadOf_foldl_fail (fits : ℕ → Bool) (message : Bytes) (id : ℕ) :
    ∀ (entries : List (Sigma fun _ : ℕ => PendingRequest)) (w : Worker), entries.NodupKeys →
      (entries.foldl (fun w e => w.fail fits e.1 e.2 message) w).uploadOf id =
        { w.uploadOf id with
          written := (w.uploadOf id).written ++
            if ((entries.dlookup id).bind PendingRequest.pendingWrite).isSome = true then [.error message] else [] }
  | [], w, _ => by simp
  | ⟨id', r⟩ :: rest, w, hkeys => by
    obtain ⟨hnew, hrest⟩ := List.nodupKeys_cons.mp hkeys
    rw [List.foldl_cons, uploadOf_foldl_fail fits message id rest _ hrest, uploadOf_fail]
    by_cases hid : id' = id
    · subst hid
      rw [List.dlookup_eq_none.mpr hnew, List.dlookup_cons_eq]
      simp
    · rw [List.dlookup_cons_ne _ _ (Ne.symm hid)]
      simp [hid]

lemma drops_stop (w : Worker) (fits : ℕ → Bool) (result : Except Failure Unit) (id : ℕ) :
    Drops (w.uploadOf id) ((w.stop fits result).uploadOf id) := by
  have hfold := uploadOf_foldl_fail fits (stopMessage result) id w.requests.entries w w.requests.nodupKeys
  have hstop : (w.stop fits result).uploadOf id =
      { (w.requests.entries.foldl (fun w e => w.fail fits e.1 e.2 (stopMessage result)) w).uploadOf id with
        write := none } := rfl
  have hlookup : (w.requests.entries.dlookup id).bind PendingRequest.pendingWrite = (w.uploadOf id).write := rfl
  rw [hstop, hfold, hlookup]
  cases hwrite : (w.uploadOf id).write with
  | none => simpa using Drops.lost
  | some write => simpa using Drops.failed hwrite (stopMessage result)

/-- What can be lost with the write of an upload. -/
lemma responseBlind_uploadOf {P : UploadView → Prop} (hP : ∀ v v', Drops v v' → P v → P v') (id : ℕ) :
    ResponseBlind fun w => P (w.uploadOf id) where
  buffers _ _ _ h := h
  head {w} id' result h := by rwa [uploadOf_reply_response w id id' result]
  request {w id' r r'} hr hout h := by
    simp only [PendingRequest.outbound, Prod.mk.injEq] at hout
    have hsame : (w.setRequest id' r').uploadOf id = w.uploadOf id := by
      rw [uploadOf_setRequest]
      split
      case isTrue hid =>
        subst hid
        rw [hout.2.2.2.2.2.1, ← write_uploadOf hr]
      case isFalse => rfl
    rwa [hsame]
  cancel {w} fits id' message h := hP _ _ (drops_cancelRequest w fits id' message id) h
  finish {w} stream id' h := hP _ _ (drops_onFinished w stream id' id) h
  stop {w} fits result h := hP _ _ (drops_stop w fits result id) h
  crash {w} message h := hP _ _ .lost h

lemma uploadOf_enqueueWrite_of_ne {id id' : ℕ} (hid : id' ≠ id) (write : PendingWrite) :
    (w.enqueueWrite id' write).uploadOf id = w.uploadOf id := by
  have hreply : ∀ message, (w.reply [.written id' (.error message)]).uploadOf id = w.uploadOf id := by
    intro message
    rw [uploadOf_reply_written, if_neg hid, List.append_nil]
  unfold enqueueWrite
  split
  case h_1 => exact hreply _
  case h_2 r hr =>
    split_ifs
    · exact hreply _
    · exact hreply _
    · refine (uploadOf_setRequest w id id' { r with pendingWrite := some write }).trans ?_
      rw [if_neg (Ne.symm hid)]

/-- A request without a write takes the place of none. -/
lemma uploadOf_setRequest_new {id' : ℕ} {r : PendingRequest} (hnone : w.requests.lookup id' = none)
    (hwrite : r.pendingWrite = none) (id : ℕ) : (w.setRequest id' r).uploadOf id = w.uploadOf id := by
  rw [uploadOf_setRequest]
  split
  case isTrue hid =>
    subst hid
    have hold : (w.uploadOf id).write = none := by rw [uploadOf, pendingWriteOf, hnone, Option.bind_none]
    rw [hwrite, ← hold]
  case isFalse => rfl

lemma uploadOf_opens {id' : ℕ} (hnone : w.requests.lookup id' = none) (headers : List H3Header)
    (hasBody allowEarlyData opened : Bool) (fits : ℕ → Bool) (id : ℕ) :
    (w.handleCommand fits (.opens id' headers hasBody allowEarlyData opened)).uploadOf id = w.uploadOf id := by
  simp only [handleCommand]
  split
  case isTrue =>
    rw [uploadOf_reply]
    by_cases hid : id' = id <;> cases opened <;>
      simp [List.filterMap_cons, Reply.openedOf, Reply.writtenOf, hid, Except.isOk, Except.toBool]
  case isFalse => exact uploadOf_setRequest_new hnone rfl id

lemma uploadOf_enqueueWarmupRequest (w : Worker) (path authority : Bytes) (id : ℕ) :
    (w.enqueueWarmupRequest path authority).uploadOf id = w.uploadOf id := by
  unfold enqueueWarmupRequest
  split
  case isTrue => rfl
  case isFalse hnone =>
    exact uploadOf_setRequest_new (r := .warmup path authority) (by simpa using hnone) rfl id

/-! ### The stream of a request -/

/-- The request is on the stream, if it is still there, and no other one is. -/
def Placed (id : ℕ) (stream : Option ℕ) : Worker → Prop :=
  Each fun _ _ id' r => (id' = id → r.streamId = stream) ∧ (id' ≠ id → ∀ s, r.streamId = some s → stream ≠ some s)

lemma Placed.responseBlind (id : ℕ) (stream : Option ℕ) : ResponseBlind (Placed id stream) := by
  apply responseBlind_each
  intro waiting draining id' r r' hout h
  simp only [PendingRequest.outbound, Prod.mk.injEq] at hout
  rwa [hout.2.2.2.2.1]

lemma Placed.uploadBlind (id : ℕ) (stream : Option ℕ) : UploadBlind (Placed id stream) :=
  uploadBlind_each fun _ _ _ _ _ h => h

/-- The stream that a request has now or had before. -/
lemma Placed.or_stream {id : ℕ} {stream : Option ℕ} (h : w.Placed id stream) :
    ((w.requests.lookup id).bind PendingRequest.streamId).or stream = stream := by
  cases hr : w.requests.lookup id with
  | none => rfl
  | some r => rw [Option.bind_some, (h id r hr).1 rfl, Option.or_self]

/-- A new request has no stream yet. -/
lemma Placed.fresh {id : ℕ} {stream : Option ℕ} (h : w.Placed id stream) {id' : ℕ} {r : PendingRequest}
    (hs : r.streamId = none) (hnew : id' = id → stream = none) : (w.setRequest id' r).Placed id stream := by
  refine Each.setRequest h ⟨fun hid => ?_, fun _ s hstream => ?_⟩
  · rw [hs, hnew hid]
  · rw [hs] at hstream
    cases hstream

/-- A request gets a stream that no other one has. -/
lemma Placed.assign {s : ℕ} {r : PendingRequest} (id : ℕ) (hs : r.streamId = some s)
    (hunused : ∀ id' r', w.requests.lookup id' = some r' → r'.streamId ≠ some s) :
    (w.setRequest id r).Placed id (some s) := by
  intro id' r' hr'
  rcases Table.lookup_insert_cases hr' with ⟨rfl, rfl⟩ | ⟨hne, hr'⟩
  · exact ⟨fun _ => hs, fun hne => absurd rfl hne⟩
  · refine ⟨fun heq => absurd heq hne, fun _ s' hs' heq => ?_⟩
    rw [← heq] at hs'
    exact hunused id' r' hr' hs'

/-- A request is put on its stream. -/
lemma uploadOf_openStream {id' : ℕ} {r : PendingRequest} (hr : w.requests.lookup id' = some r) (s : ℕ)
    (streams : Table ℕ ℕ) (id : ℕ) :
    (reply { w.setRequest id' { r with streamId := some s, opened := false } with streamToRequest := streams }
      (if r.opened then [.opened id' (.ok ())] else [])).uploadOf id =
      { w.uploadOf id with opened := (w.uploadOf id).opened || (r.opened && id' == id) } := by
  have hview : uploadOf { w.setRequest id' { r with streamId := some s, opened := false } with
      streamToRequest := streams } id = w.uploadOf id := by
    refine (uploadOf_setRequest w id id' { r with streamId := some s, opened := false }).trans ?_
    split
    case isTrue hid =>
      subst hid
      rw [← write_uploadOf hr]
    case isFalse => rfl
  rw [uploadOf_reply, hview]
  by_cases hid : id' = id <;> cases r.opened <;>
    simp [hid, Reply.openedOf, Reply.writtenOf, Except.isOk, Except.toBool]

/-- A round of `dispatch_waiting`. Either it puts the request on a stream, or it can only end it. -/
lemma Placed.dispatchWaiting {id : ℕ} {stream : Option ℕ} (h : w.Placed id stream) (fits : ℕ → Bool)
    (ready : Readiness) (outcome : OpenOutcome) (hnew : ∀ s, outcome = .opened s →
      stream ≠ some s ∧ ∀ id' r, w.requests.lookup id' = some r → r.streamId ≠ some s) :
    (Drops (w.uploadOf id) ((w.dispatchWaiting fits ready outcome).uploadOf id) ∧
      (w.dispatchWaiting fits ready outcome).Placed id stream) ∨
    ∃ s r, outcome = .opened s ∧ stream = none ∧
      (w.dispatchWaiting fits ready outcome).requests.lookup id = some r ∧ r.streamId = some s ∧
      (w.dispatchWaiting fits ready outcome).Placed id (some s) ∧
      ∃ opened, (w.dispatchWaiting fits ready outcome).uploadOf id = { w.uploadOf id with opened := opened } := by
  have hround := dispatchRound w fits ready outcome
  generalize w.dispatchWaiting fits ready outcome = next at hround ⊢
  cases hround with
  | requeue queue => exact .inl ⟨.same, h⟩
  | @fails id' r rest hr hs error =>
    have hpop : Placed id stream { w with waiting := rest } := h
    have hrest : Placed id stream { w with waiting := rest, requests := w.requests.erase id' } :=
      Each.narrow hpop rfl Table.lookup_of_erase
    refine .inl ⟨drops_erase_fail (w := { w with waiting := rest }) hr _ fits _ id, ?_⟩
    exact Each.congr hrest (agenda_fail _ _ _ _ _)
  | @opens id' s r rest hr hs houtcome =>
    have hpop : Placed id stream { w with waiting := rest } := h
    obtain ⟨hother, hunused⟩ := hnew s houtcome
    have hview := uploadOf_openStream (w := { w with waiting := rest }) hr s (w.streamToRequest.insert s id') id
    by_cases hid : id' = id
    · subst hid
      refine .inr ⟨s, _, houtcome, ?_, AList.lookup_insert w.requests, rfl, ?_, _, hview⟩
      · rw [← hs, (h id' r hr).1 rfl]
      · exact assign (w := { w with waiting := rest }) id' rfl hunused
    · refine .inl ⟨?_, Each.setRequest hpop ⟨fun heq => absurd heq hid, fun _ s' hs' => ?_⟩⟩
      · rw [beq_false_of_ne hid, Bool.and_false, Bool.or_false] at hview
        exact hview ▸ .same
      · obtain rfl := Option.some.inj hs'
        exact hother

/-! ### Rounds of `drive_pending_writes` -/

lemma nextWrite_eq_some {s : ℕ} {write : PendingWrite} (h : w.nextWrite = some (s, write)) :
    ∃ id rest r, w.pendingWrites = id :: rest ∧ w.requests.lookup id = some r ∧ r.streamId = some s ∧
      r.pendingWrite = some write := by
  simp only [nextWrite, Option.bind_eq_some_iff, Option.map_eq_some_iff, Prod.mk.injEq] at h
  obtain ⟨r, ⟨id, hhead, hr⟩, s', hs, write', hwrite, rfl, rfl⟩ := h
  obtain ⟨rest, hqueue⟩ := List.head?_eq_some_iff.mp hhead
  exact ⟨id, rest, r, hqueue, hr, hs, hwrite⟩

/-- Without a write to take up, a round only shortens its queue. -/
lemma uploadOf_drivePendingWrite_of_none (h : w.nextWrite = none) (fits : ℕ → Bool) (outcome : WriteOutcome)
    (id : ℕ) : (w.drivePendingWrite fits outcome).uploadOf id = w.uploadOf id := by
  unfold drivePendingWrite
  split
  case h_1 => rfl
  case h_2 id' rest hqueue =>
    dsimp only
    split
    case h_1 => rfl
    case h_2 r hr =>
      split
      case h_1 s write hs hwrite => simp [nextWrite, hqueue, hr, hs, hwrite] at h
      case h_2 => rfl

lemma drivePendingWrite_eq {id : ℕ} {rest : List ℕ} {r : PendingRequest} {s : ℕ} {write : PendingWrite}
    (hqueue : w.pendingWrites = id :: rest) (hr : w.requests.lookup id = some r) (hs : r.streamId = some s)
    (hwrite : r.pendingWrite = some write) (fits : ℕ → Bool) (outcome : WriteOutcome) :
    w.drivePendingWrite fits outcome =
      match write.send outcome with
      | .complete =>
        (setRequest { w with pendingWrites := rest } id { r with pendingWrite := none }).reply [.written id (.ok ())]
      | .again write =>
        { setRequest { w with pendingWrites := rest } id { r with pendingWrite := some write } with
          pendingWrites := rest ++ [id] }
      | .failed message =>
        ((setRequest { w with pendingWrites := rest } id { r with pendingWrite := none }).reply
          [.written id (.error message)]).cancelRequest fits id message := by
  simp only [drivePendingWrite, hqueue, hr]
  split
  case h_1 s' write' _ hwrite' =>
    obtain rfl : write' = write := Option.some.inj (hwrite'.symm.trans hwrite)
    rfl
  case h_2 hnone => exact absurd hwrite (hnone s write hs)

/-- What becomes of the view of the request whose turn it is. -/
lemma uploadOf_drivePendingWrite_own {id : ℕ} {rest : List ℕ} {r : PendingRequest} {s : ℕ} {write : PendingWrite}
    (hqueue : w.pendingWrites = id :: rest) (hr : w.requests.lookup id = some r) (hs : r.streamId = some s)
    (hwrite : r.pendingWrite = some write) (fits : ℕ → Bool) (outcome : WriteOutcome) :
    match write.send outcome with
    | .complete => (w.drivePendingWrite fits outcome).uploadOf id =
        { w.uploadOf id with written := (w.uploadOf id).written ++ [.ok ()], write := none }
    | .again write' => (w.drivePendingWrite fits outcome).uploadOf id = { w.uploadOf id with write := some write' }
    | .failed message =>
      Drops { w.uploadOf id with written := (w.uploadOf id).written ++ [.error message], write := none }
        ((w.drivePendingWrite fits outcome).uploadOf id) := by
  have hset : ∀ write' : Option PendingWrite,
      (setRequest { w with pendingWrites := rest } id { r with pendingWrite := write' }).uploadOf id =
        { w.uploadOf id with write := write' } := by
    intro write'
    refine (uploadOf_setRequest _ id id _).trans ?_
    rw [if_pos rfl]
    rfl
  have hwritten : ∀ result, ((setRequest { w with pendingWrites := rest } id { r with pendingWrite := none }).reply
      [.written id result]).uploadOf id =
        { w.uploadOf id with written := (w.uploadOf id).written ++ [result], write := none } := by
    intro result
    rw [uploadOf_reply_written, hset, if_pos rfl]
  rw [drivePendingWrite_eq hqueue hr hs hwrite]
  cases write.send outcome with
  | complete => exact hwritten (.ok ())
  | again write' => exact hset (some write')
  | failed message =>
    dsimp only
    rw [← hwritten (.error message)]
    exact drops_cancelRequest _ _ _ _ _

/-- The view of another request. -/
lemma uploadOf_drivePendingWrite_other {id id' : ℕ} {rest : List ℕ} (hqueue : w.pendingWrites = id' :: rest)
    (hid : id' ≠ id) (fits : ℕ → Bool) (outcome : WriteOutcome) :
    Drops (w.uploadOf id) ((w.drivePendingWrite fits outcome).uploadOf id) := by
  have hset : ∀ r : PendingRequest,
      (setRequest { w with pendingWrites := rest } id' r).uploadOf id = w.uploadOf id := by
    intro r
    refine (uploadOf_setRequest _ id id' _).trans ?_
    rw [if_neg (Ne.symm hid)]
    rfl
  have hwritten : ∀ r result, ((setRequest { w with pendingWrites := rest } id' r).reply
      [.written id' result]).uploadOf id = w.uploadOf id := by
    intro r result
    rw [uploadOf_reply_written, hset, if_neg hid, List.append_nil]
  simp only [drivePendingWrite, hqueue]
  split
  case h_1 => exact .same
  case h_2 r hr =>
    split
    case h_2 => exact .same
    case h_1 =>
      split
      case h_1 => exact hwritten _ _ ▸ .same
      case h_2 write' _ => exact hset { r with pendingWrite := some write' } ▸ .same
      case h_3 message _ =>
        rw [← hwritten { r with pendingWrite := none } (.error message)]
        exact drops_cancelRequest _ _ _ _ _

lemma nextWrite_of_bodySent {e : WorkerEvent} {s : ℕ} {part : BodyPart} (h : w.bodySent e = some (s, part)) :
    ∃ write, w.nextWrite = some (s, write) := by
  unfold bodySent at h
  split at h
  case h_1 =>
    split at h
    case h_1 s' data offset fin hnext =>
      obtain rfl : s' = s := by simpa using congrArg (Option.map Prod.fst) h
      exact ⟨_, hnext⟩
    case h_2 => cases h
  case h_2 => cases h

lemma bodySent_of_none (h : w.nextWrite = none) (e : WorkerEvent) : w.bodySent e = none := by
  unfold bodySent
  rw [h]
  split <;> rfl

end Worker

/-- A turn that sends nothing on a stream. -/
lemma Upload.record_of_ne {log : ℕ → List BodyPart} {sent : Option (ℕ × BodyPart)} {s : ℕ}
    (h : ∀ s' part, sent = some (s', part) → s' ≠ s) : record log sent s = log s := by
  cases sent with
  | none => rfl
  | some p => exact Function.update_of_ne (Ne.symm (h p.1 p.2 rfl)) _ _

/-- The view of an upload agrees with its ledger. The first completions are the ones that the writer has
received. -/
structure Recorded (stream : Option ℕ) (commands log : List BodyPart) (queued : Option BodyPart) (acked : ℕ)
    (v : UploadView) : Prop where
  opened : v.opened = true → stream ≠ none
  ledger : Ledger commands v.written log queued v.write
  acked : List.replicate acked (.ok ()) <+: v.written

namespace Recorded

variable {stream : Option ℕ} {commands log : List BodyPart} {queued : Option BodyPart} {acked : ℕ}
  {v v' : UploadView}

lemma drops (h : Recorded stream commands log queued acked v) (hdrops : Drops v v') :
    Recorded stream commands log queued acked v' := by
  cases hdrops with
  | same => exact h
  | lost => exact ⟨h.opened, h.ledger.lose, h.acked⟩
  | @failed write hwrite message =>
    have hledger := h.ledger
    rw [hwrite] at hledger
    exact ⟨h.opened, hledger.fail message, h.acked.trans (List.prefix_append _ _)⟩

lemma responseBlind (stream : Option ℕ) (commands log : List BodyPart) (queued : Option BodyPart) (acked id : ℕ) :
    Worker.ResponseBlind fun w => Recorded stream commands log queued acked (w.uploadOf id) :=
  Worker.responseBlind_uploadOf (fun _ _ hdrops h => h.drops hdrops) id

/-- What one call of `send_body` makes of a write. -/
lemma send {data : Bytes} {offset : ℕ} {fin : Bool} {n : ℕ}
    (h : Recorded stream commands log queued acked v) (hwrite : v.write = some (.body data offset fin))
    (hle : offset + n ≤ data.length) :
    Recorded stream commands (log ++ [⟨(data.drop offset).take n, fin && offset + n == data.length⟩]) queued acked
      (if offset + n = data.length then { v with written := v.written ++ [.ok ()], write := none }
        else { v with write := some (.body data (offset + n) fin) }) := by
  have hledger := h.ledger
  rw [hwrite] at hledger
  obtain rfl : queued = none := by cases hledger; rfl
  split
  case isTrue heq =>
    rw [heq, beq_self_eq_true, Bool.and_true]
    exact ⟨h.opened, hledger.complete heq, h.acked.trans (List.prefix_append _ _)⟩
  case isFalse hne =>
    rw [beq_false_of_ne hne, Bool.and_false]
    exact ⟨h.opened, hledger.advance hle, h.acked⟩

/-- A round of `drive_pending_writes` for this request. -/
lemma drive_own {w : Worker} {id : ℕ} {log : ℕ → List BodyPart} {fits : ℕ → Bool} {outcome : WriteOutcome}
    {rest : List ℕ} {r : PendingRequest} {s : ℕ} {write : PendingWrite}
    (h : Recorded (some s) commands (log s) queued acked (w.uploadOf id))
    (hsendable : w.sendable (.write outcome fits) = true) (hqueue : w.pendingWrites = id :: rest)
    (hr : w.requests.lookup id = some r) (hs : r.streamId = some s) (hwrite : r.pendingWrite = some write) :
    Recorded (some s) commands (Upload.record log (w.bodySent (.write outcome fits)) s) queued acked
      ((w.drivePendingWrite fits outcome).uploadOf id) := by
  have hold : (w.uploadOf id).write = some write := (Worker.write_uploadOf hr).trans hwrite
  have hnext : w.nextWrite = some (s, write) := by simp [Worker.nextWrite, hqueue, hr, hs, hwrite]
  have hview := Worker.uploadOf_drivePendingWrite_own hqueue hr hs hwrite fits outcome
  obtain ⟨data, offset, fin, rfl⟩ : ∃ data offset fin, write = .body data offset fin := by
    have hledger := h.ledger
    rw [hold] at hledger
    cases hledger
    exact ⟨_, _, _, rfl⟩
  cases outcome with
  | blocked =>
    simp only [PendingWrite.send, ← hold] at hview
    rw [hview]
    exact h
  | failed error => exact (h.drops (.failed hold _)).drops hview
  | wrote n =>
    simp only [Worker.sendable, hnext, Bool.and_eq_true, decide_eq_true_eq] at hsendable
    have hsend := h.send hold hsendable.1
    simp only [PendingWrite.send] at hview
    simp only [Worker.bodySent, hnext, Upload.record, Function.update_self]
    split at hsend
    case isTrue heq =>
      rw [if_pos heq] at hview
      rw [hview]
      exact hsend
    case isFalse hne =>
      rw [if_neg hne] at hview
      rw [hview]
      exact hsend

/-- A round of `drive_pending_writes`, for this request or for another one. -/
lemma drivePendingWrite {w : Worker} {id : ℕ} {log : ℕ → List BodyPart} {fits : ℕ → Bool} {outcome : WriteOutcome}
    (h : Recorded stream commands (stream.elim [] log) queued acked (w.uploadOf id)) (hplaced : w.Placed id stream)
    (hsendable : w.sendable (.write outcome fits) = true) :
    Recorded stream commands (stream.elim [] (Upload.record log (w.bodySent (.write outcome fits)))) queued acked
      ((w.drivePendingWrite fits outcome).uploadOf id) := by
  cases hnext : w.nextWrite with
  | none =>
    rw [Worker.bodySent_of_none hnext, Worker.uploadOf_drivePendingWrite_of_none hnext]
    exact h
  | some next =>
    obtain ⟨s, write⟩ := next
    obtain ⟨id', rest, r, hqueue, hr, hs, hwrite⟩ := Worker.nextWrite_eq_some hnext
    by_cases hid : id' = id
    · subst hid
      obtain rfl : some s = stream := by rw [← hs, (hplaced id' r hr).1 rfl]
      exact h.drive_own hsendable hqueue hr hs hwrite
    · have hlog : stream.elim [] (Upload.record log (w.bodySent (.write outcome fits))) = stream.elim [] log := by
        cases stream with
        | none => rfl
        | some own =>
          apply Upload.record_of_ne
          intro s' part hsent heq
          obtain ⟨write', hnext'⟩ := Worker.nextWrite_of_bodySent hsent
          obtain ⟨rfl, -⟩ := Prod.mk.inj (Option.some.inj (hnext.symm.trans hnext'))
          exact (hplaced id' r hr).2 hid s hs (congrArg some heq.symm)
      rw [hlog]
      exact h.drops (Worker.uploadOf_drivePendingWrite_other hqueue hid fits outcome)

/-- The worker receives the command of the writer: it takes it, unless the request has ended. -/
lemma enqueueWrite_cases {w : Worker} {id : ℕ} {part : BodyPart}
    (h : Recorded stream commands log (some part) acked (w.uploadOf id)) (hplaced : w.Placed id stream)
    (hstream : stream ≠ none) (write : PendingWrite) :
    w.enqueueWrite id write =
        w.reply [.written id (.error (ascii "HTTP/3 request ended before its body was sent"))] ∨
      ∃ r : PendingRequest, w.enqueueWrite id write =
        { w.setRequest id { r with pendingWrite := some write } with pendingWrites := w.pendingWrites ++ [id] } := by
  have hwrite := h.ledger.write_eq_none
  unfold Worker.enqueueWrite
  split
  case h_1 => exact .inl rfl
  case h_2 r hr =>
    have hopen : r.streamId ≠ none := by rwa [(hplaced id r hr).1 rfl]
    rw [Worker.write_uploadOf hr] at hwrite
    simp only [Option.isNone_iff_eq_none, hopen, hwrite, Option.isSome_none, Bool.false_eq_true, if_false]
    exact .inr ⟨r, rfl⟩

lemma enqueueWrite {w : Worker} {id : ℕ} {part : BodyPart}
    (h : Recorded stream commands log (some part) acked (w.uploadOf id)) (hplaced : w.Placed id stream)
    (hstream : stream ≠ none) :
    Recorded stream commands log none acked ((w.enqueueWrite id (.body part.data 0 part.fin)).uploadOf id) := by
  have hwrite := h.ledger.write_eq_none
  have hledger := h.ledger
  rw [hwrite] at hledger
  rcases h.enqueueWrite_cases hplaced hstream (.body part.data 0 part.fin) with heq | ⟨r, heq⟩
  · have hrefused := hledger.refuse (ascii "HTTP/3 request ended before its body was sent")
    rw [← hwrite] at hrefused
    rw [heq, Worker.uploadOf_reply_written, if_pos rfl]
    exact ⟨h.opened, hrefused, h.acked.trans (List.prefix_append _ _)⟩
  · have hset := Worker.uploadOf_setRequest w id id { r with pendingWrite := some (.body part.data 0 part.fin) }
    rw [if_pos rfl] at hset
    rw [heq]
    exact hset ▸ ⟨h.opened, hledger.take, h.acked⟩

end Recorded

end Pingola
