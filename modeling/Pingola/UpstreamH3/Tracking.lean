import Pingola.UpstreamH3.Delivery

/-!
# Requests in line with their streams

What every function of the worker does for the response of one request, while the worker's buffer
holds nothing of another response: all that quiche hands out of the stream is in the body channel or
stashed, and after the end of the request its channel holds a part of the body that is marked as
complete only if it is.
-/

namespace Pingola
open ByteText

/-! ### One request -/

/-- What is outside of the worker about one request: its stream, what quiche has handed out of it,
and the reader. -/
structure View where
  stream : Option ℕ
  items : List StreamItem
  reader : Reader

/-- More items have been handed out. -/
def View.take (v : View) (items : List StreamItem) : View := { v with items := v.items ++ items }

/-- The frame that waits for room in the channel. -/
def PendingRequest.stash (r : PendingRequest) : List BodyMessage :=
  r.pendingResponse.toList.map .ok

/-- A request that is alive has passed on or stashed all that was handed out; in any case the log of
its channel is a part of the body, all of it after the trailers or with the `finished` flag. -/
structure Aligned (C : HttpCrate) (request : Option PendingRequest) (log : List BodyMessage)
    (finished : Bool) (v : View) : Prop where
  stream : ∀ r, request = some r → v.stream = r.streamId
  started : ∀ r, request = some r → (responseBody C v.items).started = r.responseStarted ∧
    (responseBody C v.items).invalid = false ∧
    ((responseBody C v.items).complete = true → r.responseStarted = true)
  live : ∀ r, request = some r → delivered (log ++ r.stash) =
    ⟨(responseBody C v.items).bytes, (responseBody C v.items).complete⟩
  bytes : (delivered log).bytes <+: (responseBody C v.items).bytes
  ended : (delivered log).ended = true → (delivered log).bytes = (responseBody C v.items).bytes ∧
    (responseBody C v.items).complete = true
  finished : finished = true → request = none ∧
    (delivered log).bytes = (responseBody C v.items).bytes ∧ (responseBody C v.items).complete = true
  reads : v.reader.Reads log (responseBody C v.items)

namespace Aligned

variable {C : HttpCrate} {log : List BodyMessage} {finished : Bool} {v : View}

/-- A request goes on: its worker has sent more messages for the items it took. -/
lemma advance {r r' : PendingRequest} (h : Aligned C (some r) log finished v)
    (more : List BodyMessage) (items : List StreamItem) (hs : r'.streamId = r.streamId)
    (hstarted : (responseBody C (v.items ++ items)).started = r'.responseStarted)
    (hinvalid : (responseBody C (v.items ++ items)).invalid = false)
    (hcomplete : (responseBody C (v.items ++ items)).complete = true → r'.responseStarted = true)
    (hlive : delivered (log ++ more ++ r'.stash) =
      ⟨(responseBody C (v.items ++ items)).bytes, (responseBody C (v.items ++ items)).complete⟩) :
    Aligned C (some r') (log ++ more) finished (v.take items) where
  stream q hq := by
    obtain rfl := Option.some.inj hq
    rw [hs]
    exact h.stream r rfl
  started q hq := by
    obtain rfl := Option.some.inj hq
    exact ⟨hstarted, hinvalid, hcomplete⟩
  live q hq := by
    obtain rfl := Option.some.inj hq
    exact hlive
  bytes := by
    have hgrows := (delivered_grows (log ++ more) r'.stash).1
    rw [hlive] at hgrows
    exact hgrows
  ended hended := by
    have hgrows := (delivered_grows (log ++ more) r'.stash).2 hended
    rw [hlive] at hgrows
    rw [← hgrows] at hended ⊢
    exact ⟨rfl, hended⟩
  finished hfinished := by simpa using (h.finished hfinished).1
  reads := h.reads.grow more (responseBody_grows v.items items)

/-- A request changes in what has nothing to do with its response. -/
lemma update {r r' : PendingRequest} (h : Aligned C (some r) log finished v)
    (hs : r'.streamId = r.streamId) (hstarted : r'.responseStarted = r.responseStarted)
    (hpending : r'.pendingResponse = r.pendingResponse) : Aligned C (some r') log finished v := by
  obtain ⟨hbegun, hinvalid, hcomplete⟩ := h.started r rfl
  refine { h with stream := ?_, started := ?_, live := ?_, finished := ?_ }
  · rintro q ⟨⟩
    rw [hs]
    exact h.stream r rfl
  · rintro q ⟨⟩
    rw [hstarted]
    exact ⟨hbegun, hinvalid, hcomplete⟩
  · rintro q ⟨⟩
    rw [PendingRequest.stash, hpending]
    exact h.live r rfl
  · intro hfinished
    simpa using (h.finished hfinished).1

/-- A request ends, or is over while quiche hands out more of its stream. -/
lemma close {request : Option PendingRequest} (h : Aligned C request log finished v)
    (errors : List BodyMessage) (herrors : ∀ m ∈ errors, ∃ e, m = .error e)
    (items : List StreamItem) : Aligned C none (log ++ errors) finished (v.take items) := by
  have hgrows := responseBody_grows (C := C) v.items items
  have hdelivered : delivered (log ++ errors) = delivered log := delivered_errors herrors
  refine ⟨by simp, by simp, by simp, ?_, ?_, ?_, h.reads.grow errors hgrows⟩
  · rw [hdelivered]
    exact h.bytes.trans hgrows.1
  · intro hended
    rw [hdelivered] at hended ⊢
    obtain ⟨hbytes, hcomplete⟩ := h.ended hended
    rw [View.take, hgrows.2 hcomplete]
    exact ⟨hbytes, hcomplete⟩
  · intro hfinished
    obtain ⟨-, hbytes, hcomplete⟩ := h.finished hfinished
    rw [hdelivered, View.take, hgrows.2 hcomplete]
    exact ⟨rfl, hbytes, hcomplete⟩

/-- A call of `read_response_body`; the sender of the channel lives as long as the request. -/
lemma read {request : Option PendingRequest} (h : Aligned C request log finished v) (head : Bool) :
    Aligned C request log finished
      { v with reader := v.reader.readResponseBody head request.isSome finished log } :=
  { h with reads := h.reads.readResponseBody head h.ended fun _ hfinished => (h.finished hfinished).2 }

variable {r : PendingRequest}

/-- A request is opened under an id that has no stream. -/
lemma opens (h : Aligned C none log finished v) (hitems : v.items = []) (hstream : v.stream = none)
    (hs : r.streamId = none) (hstarted : r.responseStarted = false)
    (hpending : r.pendingResponse = none) : Aligned C (some r) log finished v := by
  have hbody : responseBody C v.items = ⟨false, [], false, false⟩ := by rw [hitems]; rfl
  have hbytes : (delivered log).bytes = [] := by simpa [hbody] using h.bytes
  have hended : (delivered log).ended = false := by simpa [hbody] using h.ended
  refine { h with stream := ?_, started := ?_, live := ?_, finished := ?_ }
  · rintro q ⟨⟩
    rw [hs]
    exact hstream
  · rintro q ⟨⟩
    simp [hbody, hstarted]
  · rintro q ⟨⟩
    rw [PendingRequest.stash, hpending, Option.toList_none, List.map_nil, List.append_nil, hbody,
      ← hbytes, ← hended]
  · intro hfinished
    have hcomplete := (h.finished hfinished).2.2
    simp [hbody] at hcomplete

variable (h : Aligned C (some r) log finished v)
include h

/-- Without a stashed frame the log itself is the body so far. -/
lemma live_of_pending (hpending : r.pendingResponse = none) :
    delivered log = ⟨(responseBody C v.items).bytes, (responseBody C v.items).complete⟩ := by
  have hlive := h.live r rfl
  rwa [PendingRequest.stash, hpending, Option.toList_none, List.map_nil, List.append_nil] at hlive

lemma informational {list : List H3Header} {status : ℕ} {headers : HeaderMap} (hstarted : r.responseStarted = false)
    (hdecode : decodeResponseHeaders C list = .ok (status, headers)) (hinfo : isInformational status = true) :
    Aligned C (some r) log finished (v.take [.headers list]) := by
  obtain ⟨hbegun, hinvalid, hcomplete⟩ := h.started r rfl
  have hbody : responseBody C (v.items ++ [.headers list]) = responseBody C v.items := by
    rw [responseBody_concat]
    simp [ResponseBody.receive, hbegun, hstarted, hdecode, hinfo]
  have hadvance := h.advance [] [.headers list] rfl (by rw [hbody]; exact hbegun)
    (by rw [hbody]; exact hinvalid) (by rw [hbody]; exact hcomplete)
    (by rw [hbody, List.append_nil]; exact h.live r rfl)
  rwa [List.append_nil] at hadvance

lemma start {r' : PendingRequest} {list : List H3Header} {status : ℕ} {headers : HeaderMap}
    (hstarted : r.responseStarted = false) (hdecode : decodeResponseHeaders C list = .ok (status, headers))
    (hinfo : isInformational status = false) (hs : r'.streamId = r.streamId) (hstarted' : r'.responseStarted = true)
    (hpending : r'.pendingResponse = r.pendingResponse) :
    Aligned C (some r') log finished (v.take [.headers list]) := by
  obtain ⟨hbegun, hinvalid, hcomplete⟩ := h.started r rfl
  have hopen : (responseBody C v.items).complete = false := by simpa [hstarted] using hcomplete
  have hbody : responseBody C (v.items ++ [.headers list]) =
      { responseBody C v.items with started := true } := by
    rw [responseBody_concat]
    simp [ResponseBody.receive, hbegun, hstarted, hdecode, hinfo, hinvalid, hopen]
  have hadvance : Aligned C (some r') (log ++ []) finished (v.take [.headers list]) :=
    h.advance [] [.headers list] hs (by rw [hbody, hstarted']) (by rw [hbody]; exact hinvalid)
      (fun _ => hstarted') (by
        rw [hbody, List.append_nil, PendingRequest.stash, hpending]
        exact h.live r rfl)
  rwa [List.append_nil] at hadvance

/-- A piece of the body goes into the channel. -/
lemma forward (hpending : r.pendingResponse = none) (bytes : Bytes) :
    Aligned C (some r) (log ++ [.ok (.data bytes)]) finished (v.take (bytes.map .byte)) := by
  obtain ⟨hbegun, hinvalid, hcomplete⟩ := h.started r rfl
  have hlive := h.live_of_pending hpending
  have hbody := responseBody_bytes hinvalid bytes
  refine h.advance _ _ rfl ?_ ?_ ?_ ?_
  · rw [hbody]
    split <;> exact hbegun
  · rw [hbody]
    split <;> exact hinvalid
  · rw [hbody]
    split <;> exact hcomplete
  · rw [hbody, PendingRequest.stash, hpending, Option.toList_none, List.map_nil, List.append_nil,
      delivered_append, hlive]
    by_cases hc : (responseBody C v.items).complete <;> simp [Delivered.receive, hc]

/-- Trailers go into the channel, or are kept until there is room. -/
lemma trailers {r' : PendingRequest} {list : List H3Header} {headers : HeaderMap}
    (hpending : r.pendingResponse = none) (hstarted : r.responseStarted = true)
    (hdecode : decodeTrailers C list = .ok headers) (hs : r'.streamId = r.streamId)
    (hstarted' : r'.responseStarted = true) {more : List BodyMessage}
    (hmore : more ++ r'.stash = [.ok (.trailers headers)]) :
    Aligned C (some r') (log ++ more) finished (v.take [.headers list]) := by
  obtain ⟨hbegun, hinvalid, -⟩ := h.started r rfl
  have hlive := h.live_of_pending hpending
  have hbody : responseBody C (v.items ++ [.headers list]) = (responseBody C v.items).ended := by
    rw [responseBody_concat]
    refine ResponseBody.receive_ending fun hopen => ?_
    simp [ResponseBody.receive, ResponseBody.ended, hopen, hinvalid, hbegun, hstarted, hdecode]
  refine h.advance _ _ hs ?_ ?_ (fun _ => hstarted') ?_
  · rw [hbody, hstarted', ← hstarted]
    exact hbegun
  · rw [hbody]
    exact hinvalid
  · rw [hbody, List.append_assoc, hmore, delivered_append, hlive]
    rfl

/-- The stashed frame goes into the channel. -/
lemma unstash {r' : PendingRequest} {frame : BodyFrame} (hpending : r.pendingResponse = some frame)
    (hs : r'.streamId = r.streamId) (hstarted : r'.responseStarted = r.responseStarted)
    (hpending' : r'.pendingResponse = none) : Aligned C (some r') (log ++ [.ok frame]) finished v := by
  obtain ⟨hbegun, hinvalid, hcomplete⟩ := h.started r rfl
  have hlive := h.live r rfl
  have hadvance : Aligned C (some r') (log ++ [.ok frame]) finished (v.take []) := by
    refine h.advance _ [] hs ?_ ?_ ?_ ?_ <;> rw [List.append_nil]
    · rw [hstarted]
      exact hbegun
    · exact hinvalid
    · rw [hstarted]
      exact hcomplete
    · rw [PendingRequest.stash, hpending', Option.toList_none, List.map_nil, List.append_nil]
      rwa [PendingRequest.stash, hpending] at hlive
  rwa [View.take, List.append_nil] at hadvance

/-- A request gets a stream on which nothing has been handed out. -/
lemma assign (stream : ℕ) (opened : Bool) :
    Aligned C (some { r with streamId := some stream, opened := opened }) log finished
      { v with stream := some stream } :=
  { h with
    stream := by rintro q ⟨⟩; rfl
    started := by rintro q ⟨⟩; exact h.started r rfl
    live := by rintro q ⟨⟩; exact h.live r rfl
    finished := fun hfinished => by simpa using (h.finished hfinished).1 }

/-- The end of a stream ends a request that has passed everything on. -/
lemma finish (hpending : r.pendingResponse = none) (flag : Bool) : Aligned C none log flag (v.take [.fin]) := by
  obtain ⟨-, hinvalid, -⟩ := h.started r rfl
  have hlive := h.live_of_pending hpending
  have hclose : Aligned C none (log ++ []) finished (v.take [.fin]) := h.close [] (by simp) [.fin]
  rw [List.append_nil] at hclose
  refine { hclose with finished := fun _ => ⟨rfl, ?_⟩ }
  have hbody : responseBody C (v.items ++ [.fin]) = (responseBody C v.items).ended := by
    rw [responseBody_concat]
    refine ResponseBody.receive_ending fun hopen => ?_
    simp [ResponseBody.receive, ResponseBody.ended, hopen, hinvalid]
  rw [View.take, hbody, hlive]
  exact ⟨rfl, rfl⟩

end Aligned

/-! ### All requests -/

/-- The part of a worker that readers see something of. -/
def Worker.channels (w : Worker) :
    Table ℕ PendingRequest × Option ℕ × Bytes × (ℕ → List BodyMessage) × (ℕ → Bool) :=
  (w.requests, w.responseBlocked, w.bodyBuf, w.sent, w.finished)

/-- Every request is in line with its stream and its reader, only the blocked request has a stashed
frame, and the buffer of the worker is empty. -/
structure Tracks (C : HttpCrate) (w : Worker) (views : ℕ → View) : Prop where
  buffer : w.bodyBuf = []
  stashed : ∀ id r, w.requests.lookup id = some r → r.pendingResponse ≠ none →
    w.responseBlocked = some id
  aligned : ∀ id, Aligned C (w.requests.lookup id) (w.sent id) (w.finished id) (views id)

namespace Tracks

/-- Failing a request only sends an error. -/
lemma fail_effect (w : Worker) (fits : ℕ → Bool) (id : ℕ) (r : PendingRequest) (message : Bytes) :
    (w.fail fits id r message).bodyBuf = w.bodyBuf ∧
    (w.fail fits id r message).finished = w.finished ∧
    ∀ other, ∃ errors : List BodyMessage, (∀ m ∈ errors, ∃ e, m = .error e) ∧
      (w.fail fits id r message).sent other = w.sent other ++ errors := by
  unfold Worker.fail
  split
  case isFalse => exact ⟨rfl, rfl, fun other => ⟨[], by simp, by simp [Worker.reply]⟩⟩
  case isTrue =>
    refine ⟨rfl, rfl, fun other => ?_⟩
    by_cases hid : other = id
    · subst hid
      exact ⟨[.error message], by simp, by simp [Worker.send, Worker.reply]⟩
    · exact ⟨[], by simp, by simp [Worker.send, Worker.reply, hid]⟩

variable {C : HttpCrate} {w w' : Worker} {views views' : ℕ → View} (h : Tracks C w views)
include h

lemma congr (hchannels : w'.channels = w.channels) : Tracks C w' views := by
  simp only [Worker.channels, Prod.mk.injEq] at hchannels
  obtain ⟨hrequests, hblocked, hbuf, hsent, hfinished⟩ := hchannels
  refine ⟨hbuf.trans h.buffer, ?_, ?_⟩
  · simpa only [hrequests, hblocked] using h.stashed
  · simpa only [hrequests, hsent, hfinished] using h.aligned

lemma aligned_of_lookup {id : ℕ} {request : Option PendingRequest} (hr : w.requests.lookup id = request) :
    Aligned C request (w.sent id) (w.finished id) (views id) :=
  hr ▸ h.aligned id

/-- Views of requests that are over may grow. -/
lemma grow (hviews : ∀ id, views' id = views id ∨
    w.requests.lookup id = none ∧ ∃ items, views' id = (views id).take items) :
    Tracks C w views' := by
  refine { h with aligned := fun id => ?_ }
  rcases hviews id with hsame | ⟨hnone, items, hgrown⟩
  · rw [hsame]
    exact h.aligned id
  · have hclose := (h.aligned id).close [] (by simp) items
    rwa [List.append_nil, ← hgrown, ← hnone] at hclose

/-- One request changes: it is written or removed, more messages go into its channel, and its view
is another one. -/
lemma change {id : ℕ} {request : Option PendingRequest} {v : View} (more : List BodyMessage)
    (hr : w'.requests.lookup id = request) (hother : ∀ other ≠ id, w'.requests.lookup other = w.requests.lookup other)
    (hsent : w'.sent = Function.update w.sent id (w.sent id ++ more))
    (hfinished : ∀ other ≠ id, w'.finished other = w.finished other) (hbuf : w'.bodyBuf = [])
    (hblocked : w'.responseBlocked = w.responseBlocked ∨ ∀ other ≠ id, w.responseBlocked ≠ some other)
    (hstash : ∀ r, request = some r → r.pendingResponse ≠ none → w'.responseBlocked = some id)
    (haligned : Aligned C request (w.sent id ++ more) (w'.finished id) v) :
    Tracks C w' (Function.update views id v) := by
  refine ⟨hbuf, ?_, ?_⟩
  · intro other q hq hpending
    by_cases hid : other = id
    · subst hid
      exact hstash q (hr.symm.trans hq) hpending
    · rw [hother other hid] at hq
      have hold := h.stashed other q hq hpending
      rcases hblocked with hsame | hfree
      · rw [hsame]
        exact hold
      · exact absurd hold (hfree other hid)
  · intro other
    rw [hsent]
    by_cases hid : other = id
    · subst hid
      simpa [hr] using haligned
    · simpa [hid, hother other hid, hfinished other hid] using h.aligned other

/-- A request that stays alive changes. -/
lemma advance {id : ℕ} {r : PendingRequest} {v : View} (more : List BodyMessage) (hr : w'.requests.lookup id = some r)
    (hother : ∀ other ≠ id, w'.requests.lookup other = w.requests.lookup other)
    (hsent : w'.sent = Function.update w.sent id (w.sent id ++ more)) (hfinished : w'.finished = w.finished)
    (hbuf : w'.bodyBuf = [])
    (hblocked : w'.responseBlocked = w.responseBlocked ∨ ∀ other ≠ id, w.responseBlocked ≠ some other)
    (hstash : r.pendingResponse ≠ none → w'.responseBlocked = some id)
    (haligned : Aligned C (some r) (w.sent id ++ more) (w.finished id) v) :
    Tracks C w' (Function.update views id v) := by
  refine h.change more hr hother hsent (fun other _ => by rw [hfinished]) hbuf hblocked ?_ ?_
  · rintro q ⟨⟩
    exact hstash
  · rw [hfinished]
    exact haligned

variable {id : ℕ} {r : PendingRequest}

/-- A request is written, and its response is as it was. -/
lemma setRequest (hstash : r.pendingResponse ≠ none → w.responseBlocked = some id)
    (haligned : Aligned C (some r) (w.sent id) (w.finished id) (views id)) : Tracks C (w.setRequest id r) views := by
  have hchange : Tracks C (w.setRequest id r) (Function.update views id (views id)) := by
    refine h.advance [] (AList.lookup_insert _) (fun other hid => AList.lookup_insert_ne hid)
      (by simp [Worker.setRequest]) rfl h.buffer (.inl rfl) hstash ?_
    rw [List.append_nil]
    exact haligned
  rwa [Function.update_eq_self] at hchange

/-- A request changes in what has nothing to do with its response. -/
lemma update {id : ℕ} {r r' : PendingRequest} (hr : w.requests.lookup id = some r) (hs : r'.streamId = r.streamId)
    (hstarted : r'.responseStarted = r.responseStarted) (hpending : r'.pendingResponse = r.pendingResponse) :
    Tracks C (w.setRequest id r') views := by
  have haligned := h.aligned_of_lookup hr
  refine h.setRequest ?_ (haligned.update hs hstarted hpending)
  rw [hpending]
  exact h.stashed id r hr

/-- A request is added whose stream is still to come. -/
lemma insert (hnone : w.requests.lookup id = none) (hitems : (views id).items = [])
    (hstream : (views id).stream = none) (hs : r.streamId = none) (hstarted : r.responseStarted = false)
    (hpending : r.pendingResponse = none) : Tracks C (w.setRequest id r) views := by
  have haligned := h.aligned_of_lookup hnone
  refine h.setRequest ?_ (haligned.opens hitems hstream hs hstarted hpending)
  simp [hpending]

/-- A request is removed, with an error for its reader or without. -/
lemma remove {id : ℕ} {errors : List BodyMessage} (herrors : ∀ m ∈ errors, ∃ e, m = .error e)
    (hr : w'.requests.lookup id = none) (hother : ∀ other ≠ id, w'.requests.lookup other = w.requests.lookup other)
    (hsent : w'.sent = Function.update w.sent id (w.sent id ++ errors)) (hfinished : w'.finished = w.finished)
    (hbuf : w'.bodyBuf = [])
    (hblocked : w'.responseBlocked = w.responseBlocked ∨ ∀ other ≠ id, w.responseBlocked ≠ some other) :
    Tracks C w' views := by
  have hclose := (h.aligned id).close errors herrors []
  rw [View.take, List.append_nil, ← hfinished] at hclose
  have hchange := h.change errors hr hother hsent (fun other _ => by rw [hfinished]) hbuf hblocked
    (by simp) hclose
  rwa [Function.update_eq_self] at hchange

lemma erase (id : ℕ) (streams : Table ℕ ℕ) :
    Tracks C { w with requests := w.requests.erase id, streamToRequest := streams } views := by
  have hnone : ∀ m ∈ ([] : List BodyMessage), ∃ e, m = .error e := by simp
  exact h.remove hnone (AList.lookup_erase id w.requests) (fun other hid => AList.lookup_erase_ne hid)
    (by simp) rfl h.buffer (.inl rfl)

/-- The error for a request that has been removed. -/
lemma fail {id : ℕ} (hdead : w.requests.lookup id = none) (fits : ℕ → Bool) (r : PendingRequest) (message : Bytes) :
    Tracks C (w.fail fits id r message) views := by
  unfold Worker.fail
  split
  case isFalse => exact h.congr rfl
  case isTrue =>
    have herror : ∀ m ∈ [(.error message : BodyMessage)], ∃ e, m = .error e := by simp
    exact h.remove herror hdead (fun _ _ => rfl) rfl rfl h.buffer (.inl rfl)

lemma cancelRequest (fits : ℕ → Bool) (id : ℕ) (message : Bytes) :
    Tracks C (w.cancelRequest fits id message) views := by
  unfold Worker.cancelRequest
  split
  case h_1 => exact h
  case h_2 r _ =>
    exact (h.erase id _).fail (AList.lookup_erase id w.requests) fits r message

/-- A request is cancelled over the items that quiche has just handed out. -/
lemma cancelRequest_take (fits : ℕ → Bool) (id : ℕ) (message : Bytes) (items : List StreamItem) :
    Tracks C (w.cancelRequest fits id message)
      (Function.update views id ((views id).take items)) := by
  refine (h.cancelRequest fits id message).grow fun other => ?_
  by_cases hid : other = id
  · subst hid
    exact .inr ⟨w.lookup_cancelRequest fits other message, items, by simp⟩
  · exact .inl (by simp [hid])

lemma stop (fits : ℕ → Bool) (result : Except Failure Unit) : Tracks C (w.stop fits result) views := by
  have hfold := List.foldlRecOn w.requests.entries
    (fun w e => w.fail fits e.1 e.2 (Worker.stopMessage result))
    (motive := fun w' : Worker => w'.bodyBuf = w.bodyBuf ∧ w'.finished = w.finished ∧
      ∀ other, ∃ errors : List BodyMessage, (∀ m ∈ errors, ∃ e, m = .error e) ∧
        w'.sent other = w.sent other ++ errors)
    (b := w) ⟨rfl, rfl, fun _ => ⟨[], by simp, by simp⟩⟩ (by
      rintro w' ⟨hbuf, hfinished, hsent⟩ e -
      obtain ⟨hbuf', hfinished', hsent'⟩ := fail_effect w' fits e.1 e.2 (Worker.stopMessage result)
      refine ⟨hbuf'.trans hbuf, hfinished'.trans hfinished, fun other => ?_⟩
      obtain ⟨errors, herrors, heq⟩ := hsent other
      obtain ⟨errors', herrors', heq'⟩ := hsent' other
      refine ⟨errors ++ errors', ?_, by rw [heq', heq, List.append_assoc]⟩
      intro m hm
      exact (List.mem_append.mp hm).elim (herrors m) (herrors' m))
  obtain ⟨hbuf, hfinished, hsent⟩ := hfold
  refine ⟨hbuf.trans h.buffer, by simp [Worker.stop], fun id => ?_⟩
  obtain ⟨errors, herrors, heq⟩ := hsent id
  have hclose := (h.aligned id).close errors herrors []
  rw [View.take, List.append_nil, ← heq, ← hfinished] at hclose
  exact hclose

/-- Nothing is stashed while no response is blocked. -/
lemma pending_eq_none (hfree : w.responseBlocked = none) (hr : w.requests.lookup id = some r) :
    r.pendingResponse = none := by
  by_contra hpending
  have hblocked := h.stashed id r hr hpending
  simp [hfree] at hblocked

lemma block (hfree : w.responseBlocked = none) (id : ℕ) : Tracks C { w with responseBlocked := some id } views :=
  { h with stashed := fun _ _ hr hpending => absurd (h.pending_eq_none hfree hr) hpending }

/-- Pieces of the body go into the channel one by one. -/
lemma forwards (hr : w.requests.lookup id = some r) (hfree : w.responseBlocked = none) (reads : List Bytes) :
    Tracks C (reads.foldl (fun w bytes => w.forward id bytes) w)
      (Function.update views id ((views id).take (reads.flatten.map .byte))) ∧
    (reads.foldl (fun w bytes => w.forward id bytes) w).responseBlocked = none := by
  induction reads generalizing w views with
  | nil => simpa [View.take] using ⟨h, hfree⟩
  | cons bytes reads ih =>
    have haligned := h.aligned_of_lookup hr
    have hpending := h.pending_eq_none hfree hr
    have hfirst : Tracks C (w.forward id bytes)
        (Function.update views id ((views id).take (bytes.map .byte))) := by
      refine h.advance [.ok (.data bytes)] hr (fun _ _ => rfl) ?_ rfl rfl (.inl rfl)
        (by simp [hpending]) (haligned.forward hpending bytes)
      simp [Worker.forward, Worker.send, h.buffer]
    have hrest := ih hfirst hr hfree
    simpa [View.take] using hrest

/-- The body of a request on a stream is drained. -/
lemma drainResponseBody (hr : w.requests.lookup id = some r) (hs : r.streamId ≠ none)
    (hfree : w.responseBlocked = none) (c : Choices) (d : Drain) :
    Tracks C (Worker.settle c id (w.drainResponseBody id d))
      (Function.update views id ((views id).take (d.reads.flatten.map .byte))) := by
  obtain ⟨hfold, hfree'⟩ := h.forwards hr hfree d.reads
  simp only [Worker.drainResponseBody, hr, Option.isNone_iff_eq_none, hs, if_false]
  cases d.last with
  | full => exact hfold.block hfree' id
  | closed => exact hfold.cancelRequest c.fits id _
  | done => exact hfold
  | failed error => exact hfold.stop c.fits _

omit h in
lemma uploadBlind (C : HttpCrate) (views : ℕ → View) : Worker.UploadBlind (Tracks C · views) where
  queue _ h := h.congr rfl
  reply _ h := h.congr rfl
  upload _ hr h := h.update hr rfl rfl rfl
  cancel fits id message h := h.cancelRequest fits id message

lemma handleCommand (fits : ℕ → Bool) {command : Command} (hnew : ∀ id headers hasBody allowEarlyData opened,
      command = .opens id headers hasBody allowEarlyData opened →
      w.requests.lookup id = none ∧ (views id).items = [] ∧ (views id).stream = none) :
    Tracks C (w.handleCommand fits command) views := by
  cases command with
  | opens id headers hasBody allowEarlyData opened =>
    obtain ⟨hnone, hitems, hstream⟩ := hnew _ _ _ _ _ rfl
    simp only [Worker.handleCommand]
    split
    case isTrue => exact h.congr rfl
    case isFalse =>
      have hinsert : Tracks C (w.setRequest id (.fresh headers hasBody allowEarlyData opened)) views :=
        h.insert hnone hitems hstream rfl rfl rfl
      exact hinsert.congr rfl
  | body id data fin => exact (uploadBlind C views).enqueueWrite h id _
  | trailers id headers => exact (uploadBlind C views).enqueueWrite h id _
  | cancel id => exact h.cancelRequest fits id _

lemma enqueueWarmupRequest (hitems : (views warmupRequestId).items = [])
    (hstream : (views warmupRequestId).stream = none) (path authority : Bytes) :
    Tracks C (w.enqueueWarmupRequest path authority) views := by
  unfold Worker.enqueueWarmupRequest
  split
  case isTrue => exact h
  case isFalse hnone =>
    have hinsert : Tracks C (w.setRequest warmupRequestId (.warmup path authority)) views :=
      h.insert (by simpa using hnone) hitems hstream rfl rfl rfl
    exact hinsert.congr rfl

/-- The retry of a delivery whose request is gone or has a stashed frame takes nothing new. -/
lemma retryDelivery_stashed (c : Choices) (hwaiter : ∀ r, w.responseWaiter = some r → r.pendingResponse ≠ none) :
    Tracks C (w.retryDelivery c) views := by
  unfold Worker.retryDelivery
  split
  case h_1 => exact h
  case h_2 id hblocked =>
    -- nobody but the blocked request has a stash
    have hothers : ∀ other ≠ id, w.responseBlocked ≠ some other := by
      rintro other hne hb
      exact hne (Option.some.inj (hb.symm.trans hblocked))
    dsimp only
    split
    case h_1 hnone =>
      refine { h with stashed := fun other q hq hpending => ?_ }
      obtain rfl := Option.some.inj ((h.stashed other q hq hpending).symm.trans hblocked)
      simp [hnone] at hq
    case h_2 r hr =>
      have haligned := h.aligned_of_lookup hr
      split
      case h_1 hnone => exact absurd hnone (hwaiter r (by simp [Worker.responseWaiter, hblocked, hr]))
      case h_2 frame hframe =>
        -- without the frame in hand the request is as it was before the stash
        have hsent : Tracks C (({ w with responseBlocked := none }.setRequest id
            { r with pendingResponse := none }).send id (.ok frame)) (Function.update views id (views id)) :=
          h.advance [.ok frame] (AList.lookup_insert _) (fun other hid => AList.lookup_insert_ne hid) rfl rfl
            h.buffer (.inr hothers) (by simp) (haligned.unstash hframe rfl rfl rfl)
        rw [Function.update_eq_self] at hsent
        simp only [Worker.setRequest, AList.lookup_insert]
        cases c.answer with
        | ready => exact hsent
        | full =>
          have hagain : Tracks C { (w.setRequest id { r with pendingResponse := none }).setRequest id
              { r with pendingResponse := some frame } with responseBlocked := some id }
              (Function.update views id (views id)) := by
            refine h.advance [] (AList.lookup_insert _) ?_ (by simp [Worker.setRequest]) rfl h.buffer
              (.inr hothers) (fun _ => rfl) ?_
            · intro other hid
              exact (AList.lookup_insert_ne hid).trans (AList.lookup_insert_ne hid)
            · rw [List.append_nil]
              exact haligned.update rfl rfl hframe.symm
          rw [Function.update_eq_self] at hagain
          exact hagain
        | closed =>
          simp only [Worker.trySend, Worker.cancelRequest, AList.lookup_insert]
          have hnone : ∀ m ∈ ([] : List BodyMessage), ∃ e, m = .error e := by simp
          refine fail ?_ (AList.lookup_erase _ _) c.fits _ _
          refine h.remove hnone (AList.lookup_erase _ _) ?_ (by simp) rfl h.buffer (.inr hothers)
          intro other hid
          exact (AList.lookup_erase_ne hid).trans (AList.lookup_insert_ne hid)

/-- The retry of a delivery that goes on draining. -/
lemma retryDelivery_drain (c : Choices) (hblocked : w.responseBlocked = some id) (hr : w.requests.lookup id = some r)
    (hs : r.streamId ≠ none) (hpending : r.pendingResponse = none) :
    Tracks C (w.retryDelivery c)
      (Function.update views id ((views id).take (c.drain.reads.flatten.map .byte))) := by
  have hunblock : Tracks C { w with responseBlocked := none } views := by
    refine { h with stashed := fun other q hq hstash => ?_ }
    obtain rfl := Option.some.inj ((h.stashed other q hq hstash).symm.trans hblocked)
    obtain rfl := Option.some.inj (hr.symm.trans hq)
    exact absurd hpending hstash
  have hdrain := hunblock.drainResponseBody hr hs rfl c c.drain
  simpa only [Worker.retryDelivery, hblocked, hr, hpending] using hdrain

lemma startResponse {list : List H3Header} {status : ℕ} {headers : HeaderMap} (hr : w.requests.lookup id = some r)
    (hholds : r.discardBody = false → r.response = true ∧ r.bodyRx = true) (hstarted : r.responseStarted = false)
    (hdecode : decodeResponseHeaders C list = .ok (status, headers)) (hinfo : isInformational status = false)
    (c : Choices) (head : ResponseHead) :
    Tracks C (w.startResponse c id head)
      (Function.update views id ((views id).take [.headers list])) := by
  have haligned := h.aligned_of_lookup hr
  have hset : ∀ r' : PendingRequest, r'.streamId = r.streamId → r'.responseStarted = true →
      r'.pendingResponse = r.pendingResponse → Tracks C (w.setRequest id r')
        (Function.update views id ((views id).take [.headers list])) := by
    intro r' hs hstarted' hpending
    refine h.advance [] (AList.lookup_insert _) (fun other hid => AList.lookup_insert_ne hid)
      (by simp [Worker.setRequest]) rfl h.buffer (.inl rfl) ?_ ?_
    · rw [hpending]
      exact h.stashed id r hr
    · rw [List.append_nil]
      exact haligned.start hstarted hdecode hinfo hs hstarted' hpending
  simp only [Worker.startResponse, hr]
  split
  case isTrue => exact hset _ rfl rfl rfl
  case isFalse hdiscard =>
    obtain ⟨hresponse, hrx⟩ := hholds (by simpa using hdiscard)
    have hbegun := hset { r with bodyRx := false, response := false, responseStarted := true } rfl rfl rfl
    simp only [hresponse, hrx, Bool.not_true, Bool.false_eq_true, if_false]
    split
    · exact hbegun.congr rfl
    · exact hbegun.cancelRequest c.fits id _

lemma sendTrailers {list : List H3Header} {headers : HeaderMap} (hr : w.requests.lookup id = some r)
    (hfree : w.responseBlocked = none) (hstarted : r.responseStarted = true)
    (hdecode : decodeTrailers C list = .ok headers) (c : Choices) : Tracks C (w.sendTrailers c id headers)
      (Function.update views id ((views id).take [.headers list])) := by
  have haligned := h.aligned_of_lookup hr
  have hpending := h.pending_eq_none hfree hr
  unfold Worker.sendTrailers
  cases c.answer with
  | ready =>
    exact h.advance [.ok (.trailers headers)] hr (fun _ _ => rfl) rfl rfl h.buffer (.inl rfl)
      (by simp [hpending])
      (haligned.trailers hpending hstarted hdecode rfl hstarted (by simp [PendingRequest.stash, hpending]))
  | full =>
    simp only [Worker.trySend, hr]
    have hstash : Aligned C (some { r with pendingResponse := some (.trailers headers) })
        (w.sent id ++ []) (w.finished id) ((views id).take [.headers list]) := by
      refine haligned.trailers hpending hstarted hdecode ?_ ?_ ?_
      · rfl
      · exact hstarted
      · rfl
    exact h.advance [] (AList.lookup_insert _) (fun other hid => AList.lookup_insert_ne hid)
      (by simp [Worker.setRequest]) rfl h.buffer (.inr (by simp [hfree])) (fun _ => rfl) hstash
  | closed => exact h.cancelRequest_take c.fits id _ _

lemma onHeaders (hr : w.requests.lookup id = some r) (hfree : w.responseBlocked = none)
    (hholds : r.discardBody = false → r.responseStarted = false →
      r.response = true ∧ r.bodyRx = true) (c : Choices) (list : List H3Header) :
    Tracks C (w.onHeaders C c id list)
      (Function.update views id ((views id).take [.headers list])) := by
  have haligned := h.aligned_of_lookup hr
  simp only [Worker.onHeaders, hr]
  split
  case isTrue hstarted =>
    split
    · exact h.cancelRequest_take c.fits id _ _
    · exact h.sendTrailers hr hfree hstarted ‹_› c
  case isFalse hstarted =>
    have hstarted : r.responseStarted = false := by simpa using hstarted
    split
    · exact h.cancelRequest_take c.fits id _ _
    · rename_i status headers hdecode
      split
      case isTrue hinfo =>
        refine h.advance [] hr (fun _ _ => rfl) (by simp) rfl h.buffer (.inl rfl) (h.stashed id r hr) ?_
        rw [List.append_nil]
        exact haligned.informational hstarted hdecode hinfo
      case isFalse hinfo =>
        exact h.startResponse hr (fun hdiscard => hholds hdiscard hstarted) hstarted hdecode
          (by simpa using hinfo) c _

lemma onFinished (hr : w.requests.lookup id = some r) (hfree : w.responseBlocked = none) (stream : ℕ) :
    Tracks C (w.onFinished stream id) (Function.update views id ((views id).take [.fin])) := by
  have haligned := h.aligned_of_lookup hr
  have hpending := h.pending_eq_none hfree hr
  have hgone : ∀ flag, Tracks C { w with
      requests := w.requests.erase id, finished := Function.update w.finished id flag }
      (Function.update views id ((views id).take [.fin])) := by
    intro flag
    refine h.change [] (AList.lookup_erase id w.requests) (fun other hid => AList.lookup_erase_ne hid)
      (by simp) (fun other hid => by simp [hid]) h.buffer (.inl rfl) (by simp) ?_
    rw [List.append_nil]
    exact haligned.finish hpending _
  have hkept := hgone (w.finished id)
  rw [Function.update_eq_self] at hkept
  simp only [Worker.onFinished, hr]
  split_ifs
  all_goals first
    | exact (hgone true).congr rfl
    | exact hkept.congr rfl

/-- A round of `dispatch_waiting` puts a request on a new stream, or leaves the streams alone. -/
lemma dispatchWaiting (fits : ℕ → Bool) (ready : Readiness) (outcome : OpenOutcome) :
    (∃ id stream, outcome = .opened stream ∧
      (∃ r, w.requests.lookup id = some r ∧ r.streamId = none) ∧
      (w.dispatchWaiting fits ready outcome).streamToRequest = w.streamToRequest.insert stream id ∧
      Tracks C (w.dispatchWaiting fits ready outcome)
        (Function.update views id { views id with stream := some stream })) ∨
    (w.dispatchWaiting fits ready outcome).streamToRequest = w.streamToRequest ∧
      Tracks C (w.dispatchWaiting fits ready outcome) views := by
  have hround := Worker.dispatchRound w fits ready outcome
  generalize w.dispatchWaiting fits ready outcome = next at hround ⊢
  cases hround with
  | requeue queue => exact .inr ⟨rfl, h.congr rfl⟩
  | @opens id stream r rest hr hs houtcome =>
    have haligned := h.aligned_of_lookup hr
    refine .inl ⟨id, stream, houtcome, ⟨r, hr, hs⟩, rfl, ?_⟩
    refine h.advance [] (AList.lookup_insert _) (fun other hid => AList.lookup_insert_ne hid)
      (by simp [Worker.reply, Worker.setRequest]) rfl h.buffer (.inl rfl) (h.stashed id r hr) ?_
    rw [List.append_nil]
    exact haligned.assign stream false
  | @fails id r rest hr hs error =>
    have hpop : Tracks C { w with waiting := rest } views := h.congr rfl
    refine .inr ⟨?_, (hpop.erase id w.streamToRequest).fail (AList.lookup_erase id w.requests) fits r _⟩
    simp only [Worker.fail]
    split <;> rfl

end Tracks

end Pingola
