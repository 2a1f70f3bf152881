import Pingola.UpstreamH3.Coherence

/-!
# Delivery of upstream HTTP/3 responses

A worker between the streams of an upstream and the readers of its responses. An upstream puts
items on a stream, a turn of the worker takes as many of them as quiche hands out in it, and a
reader calls `read_response_body` of `upstream_h3_connector.rs`. `responseBody` says what the body
of a stream is; the worker has to deliver it through the body channel of the request.
-/

namespace Pingola
open ByteText

inductive StreamItem where
  | byte (b : UInt8)
  | headers (list : List H3Header)
  | fin
  deriving DecidableEq

/-- The response on a stream as far as it has come. Its body is complete with the trailers or with
the end of the stream. -/
structure ResponseBody where
  started : Bool
  bytes : Bytes
  complete : Bool
  invalid : Bool
  deriving DecidableEq

def ResponseBody.receive (C : HttpCrate) (body : ResponseBody) (item : StreamItem) : ResponseBody :=
  if body.complete || body.invalid then body
  else
    match item with
    | .byte b => { body with bytes := body.bytes ++ [b] }
    | .fin => { body with complete := true }
    | .headers list =>
      if body.started then
        match decodeTrailers C list with
        | .ok _ => { body with complete := true }
        | .error _ => { body with invalid := true }
      else
        match decodeResponseHeaders C list with
        | .ok (status, _) => if isInformational status then body else { body with started := true }
        | .error _ => { body with invalid := true }

def responseBody (C : HttpCrate) (items : List StreamItem) : ResponseBody :=
  items.foldl (ResponseBody.receive C) ⟨false, [], false, false⟩

/-- The answers of `read_response_body`: a chunk, the clean end, or an error. -/
inductive ReadAnswer where
  | chunk (data : Bytes)
  | done
  | failed (message : Bytes)
  deriving DecidableEq

/-- An upstream session as `read_response_body` uses it, with the number of messages it has taken
from the body channel. Its `body_buffer` is never filled. -/
structure Reader where
  received : ℕ
  bodyDone : Bool
  pendingTrailers : Option HeaderMap
  answers : List ReadAnswer

def Reader.new : Reader := ⟨0, false, none, []⟩

namespace Reader

def answer (r : Reader) (a : ReadAnswer) : Reader := { r with answers := r.answers ++ [a] }

/-- The receive loop. On an empty channel the call goes on waiting while there is a sender. -/
def recv (connected finished : Bool) : Reader → List BodyMessage → Reader
  | r, [] =>
    if connected then r
    else if finished then { r with bodyDone := true }.answer .done
    else r.answer (.failed (ascii "upstream HTTP/3 response ended before the stream finished"))
  | r, .ok (.data data) :: rest =>
    if data.isEmpty then recv connected finished { r with received := r.received + 1 } rest
    else { r with received := r.received + 1 }.answer (.chunk data)
  | r, .ok (.trailers trailers) :: _ =>
    { r with received := r.received + 1, pendingTrailers := some trailers, bodyDone := true }.answer
      .done
  | r, .error error :: _ => { r with received := r.received + 1 }.answer (.failed error)

def readResponseBody (r : Reader) (head connected finished : Bool) (log : List BodyMessage) : Reader :=
  if r.bodyDone then r.answer .done
  else if !head then r.answer (.failed (ascii "upstream HTTP/3 response body is unavailable"))
  else r.recv connected finished (log.drop r.received)

/-- The data that the calls have returned. -/
def chunks (r : Reader) : List Bytes :=
  r.answers.filterMap fun
    | .chunk data => some data
    | _ => none

end Reader

/-- The worker, the streams of its requests, what quiche has handed out of each stream and what
has arrived behind that, and the readers of the responses. -/
structure Delivery where
  loop : WorkerLoop
  assigned : Table ℕ ℕ
  taken : ℕ → List StreamItem
  unread : ℕ → List StreamItem
  readers : ℕ → Reader

inductive DeliveryEvent where
  | arrive (stream : ℕ) (items : List StreamItem)
  | work (e : WorkerEvent)
  | read (id : ℕ)

/-- A reply that hands out the head of a response. -/
def Reply.isHeadOf (id : ℕ) : Reply → Bool
  | .response id' (.ok _) => id' = id
  | _ => false

namespace Delivery

def worker (D : Delivery) : Worker := D.loop.worker

def start (settings : BridgeSettings) : Delivery :=
  ⟨.start settings, ∅, fun _ => [], fun _ => [], fun _ => .new⟩

/-- What quiche hands out in a turn, and of which stream. -/
def consumed (w : Worker) : WorkerEvent → ℕ × List StreamItem
  | .poll stream (.headers list) _ => (stream, [.headers list])
  | .poll stream .finished _ => (stream, [.fin])
  | .poll stream .data c =>
    match w.streamToRequest.lookup stream with
    | none => (stream, [])
    | some id =>
      if (w.requests.lookup id).any PendingRequest.discardBody then
        (stream, (c.received.toOption.getD []).map .byte)
      else (stream, c.drain.reads.flatten.map .byte)
  | .retry c =>
    match w.responseWaiter with
    | none => (0, [])
    | some r =>
      if r.pendingResponse.isSome then (0, [])
      else (r.streamId.getD 0, c.drain.reads.flatten.map .byte)
  | _ => (0, [])

/-- The streams of the requests after a turn that leads to the given worker. -/
def assign (assigned : Table ℕ ℕ) (w : Worker) (e : WorkerEvent) : Table ℕ ℕ :=
  match e.streamId with
  | none => assigned
  | some stream =>
    match w.streamToRequest.lookup stream with
    | none => assigned
    | some id => assigned.insert id stream

/-- A turn of the worker, which takes what quiche hands out in it. -/
def after (D : Delivery) (l : WorkerLoop) (e : WorkerEvent) : Delivery :=
  let (stream, items) := consumed D.worker e
  { D with
    loop := l
    assigned := assign D.assigned l.worker e
    taken := Function.update D.taken stream (D.taken stream ++ items)
    unread := Function.update D.unread stream ((D.unread stream).drop items.length) }

/-- Items arrive on streams that a request was sent on, and a turn takes items in their order. -/
def step (C : HttpCrate) (settings : BridgeSettings) (D : Delivery) : DeliveryEvent → Option Delivery
  | .arrive stream items =>
    if D.assigned.entries.any fun e => e.2 = stream then
      some { D with unread := Function.update D.unread stream (D.unread stream ++ items) }
    else none
  | .work e => do
    let l ← D.loop.step C settings e
    let (stream, items) := consumed D.worker e
    if items <+: D.unread stream then some (D.after l e) else none
  | .read id =>
    some { D with
      readers := Function.update D.readers id ((D.readers id).readResponseBody
        (D.worker.replies.any (Reply.isHeadOf id)) (D.worker.requests.lookup id).isSome
        (D.worker.finished id) (D.worker.sent id)) }

/-- Whether an event makes the worker read a body that it throws away. -/
def discards (D : Delivery) : DeliveryEvent → Bool
  | .work (.poll stream .data _) =>
    ((D.worker.streamToRequest.lookup stream).bind D.worker.requests.lookup).any
      PendingRequest.discardBody
  | _ => false

/-- All that has arrived for a request. -/
def history (D : Delivery) (id : ℕ) : List StreamItem :=
  (D.assigned.lookup id).elim [] fun stream => D.taken stream ++ D.unread stream

end Delivery

/-! ### Responses and logs grow -/

namespace ResponseBody

/-- A later state of a response: more bytes, and nothing new once it is complete. -/
def Grows (body body' : ResponseBody) : Prop :=
  body.bytes <+: body'.bytes ∧ (body.complete = true → body' = body)

lemma Grows.refl (body : ResponseBody) : body.Grows body := ⟨List.prefix_rfl, fun _ => rfl⟩

lemma Grows.trans {a b c : ResponseBody} (hab : a.Grows b) (hbc : b.Grows c) : a.Grows c := by
  refine ⟨hab.1.trans hbc.1, fun ha => ?_⟩
  obtain rfl := hab.2 ha
  exact hbc.2 ha

lemma grows_receive (C : HttpCrate) (body : ResponseBody) (item : StreamItem) :
    body.Grows (body.receive C item) := by
  unfold receive
  split
  case isTrue => exact .refl body
  case isFalse hopen =>
    simp only [Bool.or_eq_true, not_or, Bool.not_eq_true] at hopen
    refine ⟨?_, fun hcomplete => absurd hcomplete (by simp [hopen.1])⟩
    cases item with
    | byte b => exact List.prefix_append _ _
    | fin => exact List.prefix_rfl
    | headers list =>
      dsimp only
      repeat' split
      all_goals exact List.prefix_rfl

/-- The response after its last item. -/
def ended (body : ResponseBody) : ResponseBody := { body with complete := true }

/-- An item that ends an open response changes nothing about a complete one. -/
lemma receive_ending {C : HttpCrate} {body : ResponseBody} {item : StreamItem}
    (hend : body.complete = false → body.receive C item = body.ended) :
    body.receive C item = body.ended := by
  cases hc : body.complete with
  | false => exact hend hc
  | true =>
    have hsame : body.ended = body := by rw [ended, ← hc]
    simp [receive, hc, hsame]

end ResponseBody

section

variable {C : HttpCrate}

lemma responseBody_append (items more : List StreamItem) :
    responseBody C (items ++ more) = more.foldl (ResponseBody.receive C) (responseBody C items) :=
  List.foldl_append

lemma responseBody_concat (items : List StreamItem) (item : StreamItem) :
    responseBody C (items ++ [item]) = (responseBody C items).receive C item :=
  responseBody_append items [item]

lemma responseBody_grows (items more : List StreamItem) :
    (responseBody C items).Grows (responseBody C (items ++ more)) := by
  rw [responseBody_append]
  exact List.foldlRecOn more _ (motive := fun body => (responseBody C items).Grows body) (.refl _)
    fun body h item _ => h.trans (body.grows_receive C item)

/-- Bytes of the body are appended until the response is complete. -/
lemma responseBody_bytes {items : List StreamItem} (hinvalid : (responseBody C items).invalid = false)
    (bytes : Bytes) : responseBody C (items ++ bytes.map .byte) =
      if (responseBody C items).complete then responseBody C items
      else { responseBody C items with bytes := (responseBody C items).bytes ++ bytes } := by
  induction bytes generalizing items with
  | nil => simp
  | cons b bytes ih =>
    have hreceive : responseBody C (items ++ [.byte b]) =
        if (responseBody C items).complete then responseBody C items
        else { responseBody C items with bytes := (responseBody C items).bytes ++ [b] } := by
      rw [responseBody_concat]
      simp [ResponseBody.receive, hinvalid]
    have hsplit : items ++ (b :: bytes).map StreamItem.byte =
        items ++ [.byte b] ++ bytes.map .byte := by simp
    have hvalid : (responseBody C (items ++ [.byte b])).invalid = false := by
      rw [hreceive]
      split <;> exact hinvalid
    rw [hsplit, ih hvalid, hreceive]
    by_cases hcomplete : (responseBody C items).complete <;> simp [hcomplete]

end

/-- What the messages of a body channel amount to: the bytes before the trailers, and whether
there are trailers. -/
structure Delivered where
  bytes : Bytes
  ended : Bool

def Delivered.receive (d : Delivered) : BodyMessage → Delivered
  | .ok (.data data) => if d.ended then d else { d with bytes := d.bytes ++ data }
  | .ok (.trailers _) => { d with ended := true }
  | .error _ => d

def delivered (log : List BodyMessage) : Delivered := log.foldl Delivered.receive ⟨[], false⟩

lemma delivered_append (log more : List BodyMessage) :
    delivered (log ++ more) = more.foldl Delivered.receive (delivered log) :=
  List.foldl_append

/-- A longer log has more bytes, unless the log had trailers. -/
lemma delivered_grows (log more : List BodyMessage) :
    (delivered log).bytes <+: (delivered (log ++ more)).bytes ∧
      ((delivered log).ended = true → delivered (log ++ more) = delivered log) := by
  rw [delivered_append]
  refine List.foldlRecOn more _ (motive := fun d => (delivered log).bytes <+: d.bytes ∧
    ((delivered log).ended = true → d = delivered log)) ⟨List.prefix_rfl, fun _ => rfl⟩ ?_
  intro d h m _
  unfold Delivered.receive
  split
  case h_1 data =>
    split
    case isTrue => exact h
    case isFalse hopen =>
      refine ⟨h.1.trans (List.prefix_append _ _), fun hended => absurd ?_ hopen⟩
      rw [h.2 hended]
      exact hended
  case h_2 =>
    refine ⟨h.1, fun hended => ?_⟩
    obtain rfl := h.2 hended
    cases hd : delivered log
    simp_all
  case h_3 => exact h

lemma delivered_errors {log errors : List BodyMessage} (h : ∀ m ∈ errors, ∃ e, m = .error e) :
    delivered (log ++ errors) = delivered log := by
  rw [delivered_append]
  refine List.foldlRecOn errors _ (motive := fun d => d = delivered log) rfl ?_
  rintro d rfl m hm
  obtain ⟨e, rfl⟩ := h m hm
  rfl

/-! ### Readers -/

/-- What a reader has got out of a log, against the body of its stream. -/
structure Reader.Reads (reader : Reader) (log : List BodyMessage) (body : ResponseBody) : Prop where
  received : reader.received ≤ log.length
  chunks : reader.chunks.flatten = (delivered (log.take reader.received)).bytes
  waiting : reader.bodyDone = false → (delivered (log.take reader.received)).ended = false
  complete : reader.bodyDone = true → reader.chunks.flatten = body.bytes ∧ body.complete = true
  done : .done ∈ reader.answers → reader.bodyDone = true

lemma Reader.Reads.grow {reader : Reader} {log : List BodyMessage} {body body' : ResponseBody}
    (h : reader.Reads log body) (more : List BodyMessage) (hbody : body.Grows body') :
    reader.Reads (log ++ more) body' := by
  have htake : (log ++ more).take reader.received = log.take reader.received :=
    List.take_append_of_le_length h.received
  refine ⟨?_, by rw [htake]; exact h.chunks, by rw [htake]; exact h.waiting, ?_, h.done⟩
  · have hle := h.received
    rw [List.length_append]
    omega
  · intro hdone
    obtain ⟨hchunks, hcomplete⟩ := h.complete hdone
    rw [hbody.2 hcomplete]
    exact ⟨hchunks, hcomplete⟩

namespace Reader

@[simp] lemma chunks_answer_chunk (r : Reader) (data : Bytes) :
    (r.answer (.chunk data)).chunks = r.chunks ++ [data] := by simp [chunks, answer]

@[simp] lemma chunks_answer_done (r : Reader) : (r.answer .done).chunks = r.chunks := by
  simp [chunks, answer]

@[simp] lemma chunks_answer_failed (r : Reader) (message : Bytes) :
    (r.answer (.failed message)).chunks = r.chunks := by simp [chunks, answer]

/-- An error leaves what was read as it is. -/
lemma Reads.failed {reader : Reader} {log : List BodyMessage} {body : ResponseBody}
    (h : reader.Reads log body) (message : Bytes) : (reader.answer (.failed message)).Reads log body := by
  refine ⟨h.received, ?_, h.waiting, ?_, ?_⟩
  · rw [chunks_answer_failed]
    exact h.chunks
  · rw [chunks_answer_failed]
    exact h.complete
  · simpa [answer] using h.done

/-- The next message of a log is the one behind those received. -/
lemma Reads.take_succ {reader : Reader} {log : List BodyMessage} {body : ResponseBody}
    (h : reader.Reads log body) {m : BodyMessage} {rest : List BodyMessage}
    (hdrop : log.drop reader.received = m :: rest) :
    reader.received + 1 ≤ log.length ∧ log.drop (reader.received + 1) = rest ∧
      delivered (log.take (reader.received + 1)) =
        (delivered (log.take reader.received)).receive m := by
  have hlog : log = log.take reader.received ++ m :: rest := by rw [← hdrop, List.take_append_drop]
  have hlen : (log.take reader.received).length = reader.received := List.length_take_of_le h.received
  have htake : log.take (reader.received + 1) = log.take reader.received ++ [m] := by
    conv_lhs => rw [hlog]
    rw [List.take_append, hlen, List.take_of_length_le (by omega)]
    simp
  refine ⟨?_, ?_, ?_⟩
  · have hlength := congrArg List.length hdrop
    simp only [List.length_drop, List.length_cons] at hlength
    omega
  · rw [← List.drop_drop, hdrop, List.drop_one, List.tail_cons]
  · rw [htake, delivered_append]
    rfl

/-- One call of `read_response_body` on an open body. -/
lemma Reads.recv {reader : Reader} {log : List BodyMessage} {body : ResponseBody}
    {connected finished : Bool} (h : reader.Reads log body) (hopen : reader.bodyDone = false)
    (hended : (delivered log).ended = true → (delivered log).bytes = body.bytes ∧ body.complete = true)
    (hfinished : connected = false → finished = true →
      (delivered log).bytes = body.bytes ∧ body.complete = true)
    {messages : List BodyMessage} (hdrop : log.drop reader.received = messages) :
    (reader.recv connected finished messages).Reads log body := by
  induction messages generalizing reader with
  | nil =>
    have hall : log.take reader.received = log := List.take_of_length_le (List.drop_eq_nil_iff.mp hdrop)
    unfold Reader.recv
    split_ifs with hconnected hfin
    · exact h
    · obtain ⟨hbytes, hcomplete⟩ := hfinished (by simpa using hconnected) hfin
      have hchunks := h.chunks
      rw [hall, hbytes] at hchunks
      refine ⟨h.received, ?_, by simp [answer], fun _ => ⟨?_, hcomplete⟩, fun _ => rfl⟩
      · rw [chunks_answer_done]
        exact h.chunks
      · rw [chunks_answer_done]
        exact hchunks
    · exact h.failed _
  | cons m rest ih =>
    obtain ⟨hle, hrest, htake⟩ := h.take_succ hdrop
    have hwaiting := h.waiting hopen
    match m with
    | .ok (.data data) =>
      have hreceive : (delivered (log.take reader.received)).receive (.ok (.data data)) =
          ⟨reader.chunks.flatten ++ data, false⟩ := by
        simp [Delivered.receive, hwaiting, h.chunks]
      rw [hreceive] at htake
      unfold Reader.recv
      split
      case isTrue hempty =>
        refine ih ⟨hle, ?_, ?_, fun hdone => ?_, h.done⟩ hopen hrest
        · rw [htake, List.isEmpty_iff.mp hempty, List.append_nil]
          rfl
        · intro _
          rw [htake]
        · simp [hopen] at hdone
      case isFalse =>
        refine ⟨hle, ?_, ?_, fun hdone => ?_, ?_⟩
        · rw [chunks_answer_chunk, List.flatten_concat]
          exact (congrArg Delivered.bytes htake).symm
        · intro _
          exact congrArg Delivered.ended htake
        · simp [answer, hopen] at hdone
        · simpa [answer] using h.done
    | .ok (.trailers trailers) =>
      -- behind the trailers nothing counts, so the log is the body
      have hlast : (delivered (log.take (reader.received + 1))).ended = true := by
        rw [htake]
        rfl
      have hlog := (delivered_grows (log.take (reader.received + 1)) (log.drop (reader.received + 1))).2 hlast
      rw [List.take_append_drop] at hlog
      have hchunks : reader.chunks.flatten = (delivered (log.take (reader.received + 1))).bytes := by
        rw [htake]
        exact h.chunks
      rw [← hlog] at hlast
      obtain ⟨hbytes, hcomplete⟩ := hended hlast
      refine ⟨hle, ?_, by simp [answer, Reader.recv], fun _ => ⟨?_, hcomplete⟩, fun _ => rfl⟩
      · exact (congrArg List.flatten (chunks_answer_done _)).trans hchunks
      · exact (congrArg List.flatten (chunks_answer_done _)).trans (by rw [← hbytes, hlog]; exact hchunks)
    | .error error =>
      have hnext : Reads { reader with received := reader.received + 1 } log body :=
        ⟨hle, by rw [htake]; exact h.chunks, fun _ => by rw [htake]; exact hwaiting, h.complete, h.done⟩
      exact hnext.failed error

lemma Reads.readResponseBody {reader : Reader} {log : List BodyMessage} {body : ResponseBody}
    {connected finished : Bool} (h : reader.Reads log body) (head : Bool)
    (hended : (delivered log).ended = true → (delivered log).bytes = body.bytes ∧ body.complete = true)
    (hfinished : connected = false → finished = true →
      (delivered log).bytes = body.bytes ∧ body.complete = true) :
    (reader.readResponseBody head connected finished log).Reads log body := by
  unfold Reader.readResponseBody
  split_ifs with hdone _
  · refine ⟨h.received, ?_, h.waiting, ?_, fun _ => hdone⟩
    · rw [chunks_answer_done]
      exact h.chunks
    · rw [chunks_answer_done]
      exact h.complete
  · exact h.failed _
  · exact h.recv (by simpa using hdone) hended hfinished rfl

end Reader

end Pingola
