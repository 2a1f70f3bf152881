import Pingola.UpstreamH3.Frame

/-!
# Back-pressure

A whole call of `process_h3_events`: the retry of the delivery that is held up, and the poll loop, which ends
at the first event that meets a full channel. An event is delivered if none before it does, and while a
delivery is held up nothing is.
-/

namespace Pingola
open ByteText

def maxBodyFrames : ℕ := 24

/-- What quiche hands over in a round of the poll loop, and what the worker meets there. -/
structure Polled where
  stream : ℕ
  event : H3Event
  choices : Choices

namespace Worker

/-- `process_h3_events` has returned: a delivery is held up, or the worker has ended. -/
def returned (w : Worker) : Bool := w.responseBlocked.isSome || w.result.isSome

/-- The poll loop, until quiche has no more events. -/
def pollLoop (C : HttpCrate) : Worker → List Polled → Worker
  | w, [] => w
  | w, p :: polled =>
    let w := w.pollEvent C p.stream p.event p.choices
    if w.returned then w else pollLoop C w polled

def processH3Events (C : HttpCrate) (w : Worker) (c : Choices) (polled : List Polled) : Worker :=
  let w := w.retryDelivery c
  if w.returned then w else w.pollLoop C polled

end Worker

/-- The channel of a request takes a frame, or is closed. -/
def ChannelAnswer.passes : ChannelAnswer → Bool
  | .full => false
  | _ => true

/-- A body is drained up to its end, or up to a closed channel. -/
def DrainEnd.passes : DrainEnd → Bool
  | .done | .closed => true
  | _ => false

/-- A delivery that meets no full channel and no failure of the transport. -/
def Choices.passes (c : Choices) : Bool := c.answer.passes && c.drain.last.passes && c.received.isOk

/-- An event whose delivery passes. -/
def Polled.passes (p : Polled) : Bool :=
  match p.event with
  | .headers _ | .data => p.choices.passes
  | _ => true

/-- An event of a response; the others change no request. -/
def H3Event.isOfResponse : H3Event → Bool
  | .goAway | .priorityUpdate => false
  | _ => true

namespace Worker

/-! ### What an event touches -/

/-- The worker goes on, and all but one request are as they were. -/
structure SameBut (id : ℕ) (w w' : Worker) : Prop where
  result : w'.result = w.result
  blocked : w'.responseBlocked = w.responseBlocked
  requests : ∀ other, other ≠ id → w'.requests.lookup other = w.requests.lookup other

namespace SameBut

variable {id : ℕ} {w w' w'' : Worker}

lemma refl (id : ℕ) (w : Worker) : SameBut id w w := ⟨rfl, rfl, fun _ _ => rfl⟩

lemma trans (h : SameBut id w w') (h' : SameBut id w' w'') : SameBut id w w'' :=
  ⟨h'.result.trans h.result, h'.blocked.trans h.blocked,
    fun other hne => (h'.requests other hne).trans (h.requests other hne)⟩

lemma setRequest (id : ℕ) (w : Worker) (r : PendingRequest) : SameBut id w (w.setRequest id r) :=
  ⟨rfl, rfl, fun _ hne => AList.lookup_insert_ne hne⟩

lemma fail (w : Worker) (fits : ℕ → Bool) (id : ℕ) (r : PendingRequest) (message : Bytes) :
    SameBut id w (w.fail fits id r message) := by
  unfold Worker.fail
  split <;> exact ⟨rfl, rfl, fun _ _ => rfl⟩

lemma cancelRequest (w : Worker) (fits : ℕ → Bool) (id : ℕ) (message : Bytes) :
    SameBut id w (w.cancelRequest fits id message) := by
  unfold Worker.cancelRequest
  split
  case h_1 => exact .refl id w
  case h_2 r hr =>
    have herase : SameBut id w { w with
        requests := w.requests.erase id
        streamToRequest := r.streamId.elim w.streamToRequest w.streamToRequest.erase } :=
      ⟨rfl, rfl, fun _ hne => AList.lookup_erase_ne hne⟩
    exact herase.trans (.fail _ fits id r message)

lemma drainResponseBody (w : Worker) (id : ℕ) (d : Drain) : SameBut id w (w.drainResponseBody id d).1 := by
  unfold Worker.drainResponseBody
  split
  case h_1 => exact .refl id w
  case h_2 =>
    split_ifs
    · exact .refl id w
    · apply List.foldlRecOn d.reads _ (motive := SameBut id w) (.refl id w)
      intro w' hw' bytes _
      exact hw'.trans ⟨rfl, rfl, fun _ _ => rfl⟩

lemma onFinished (w : Worker) (stream id : ℕ) : SameBut id w (w.onFinished stream id) := by
  unfold Worker.onFinished
  dsimp only
  split
  case h_1 => exact ⟨rfl, rfl, fun _ _ => rfl⟩
  case h_2 =>
    have herase : ∀ other, other ≠ id → (w.requests.erase id).lookup other = w.requests.lookup other :=
      fun _ hne => AList.lookup_erase_ne hne
    split_ifs <;> exact ⟨rfl, rfl, herase⟩

end SameBut

variable {ids streams : List ℕ} {w : Worker} {id : ℕ} {r : PendingRequest}

/-- A body that is drained up to its end holds nothing up. -/
lemma sameBut_drain (hr : w.requests.lookup id = some r) (hs : r.streamId ≠ none) {c : Choices}
    (hpasses : c.passes = true) : SameBut id w (settle c id (w.drainResponseBody id c.drain)) := by
  have hdrained := SameBut.drainResponseBody w id c.drain
  simp only [Choices.passes, Bool.and_eq_true] at hpasses
  have hlast := hpasses.1.2
  simp only [Worker.drainResponseBody, hr, Option.isNone_iff_eq_none, hs, if_false] at hdrained ⊢
  cases hend : c.drain.last with
  | full => simp [hend, DrainEnd.passes] at hlast
  | failed error => simp [hend, DrainEnd.passes] at hlast
  | done => exact hdrained
  | closed => exact hdrained.trans (.cancelRequest _ c.fits id _)

lemma Coherent.sameBut_startResponse (h : Coherent ids streams w) (hr : w.requests.lookup id = some r)
    (hstarted : r.responseStarted = false) (c : Choices) (head : ResponseHead) :
    SameBut id w (w.startResponse c id head) := by
  simp only [Worker.startResponse, hr]
  split
  case isTrue => exact .setRequest id w _
  case isFalse hdiscard =>
    obtain ⟨hresponse, hrx⟩ := h.holds id r hr (by simpa using hdiscard) hstarted
    simp only [hresponse, hrx, Bool.not_true, Bool.false_eq_true, if_false]
    have hset := SameBut.setRequest id w { r with bodyRx := false, response := false, responseStarted := true }
    split
    · exact hset.trans ⟨rfl, rfl, fun _ _ => rfl⟩
    · exact hset.trans (.cancelRequest _ c.fits id _)

lemma sameBut_sendTrailers (id : ℕ) {c : Choices} (hpasses : c.passes = true) (trailers : HeaderMap) :
    SameBut id w (w.sendTrailers c id trailers) := by
  simp only [Choices.passes, Bool.and_eq_true] at hpasses
  have hanswer := hpasses.1.1
  unfold Worker.sendTrailers
  cases hend : c.answer with
  | ready => exact ⟨rfl, rfl, fun _ _ => rfl⟩
  | full => simp [hend, ChannelAnswer.passes] at hanswer
  | closed => exact .cancelRequest w c.fits id _

lemma Coherent.sameBut_onHeaders (h : Coherent ids streams w) (hr : w.requests.lookup id = some r) (C : HttpCrate)
    {c : Choices} (hpasses : c.passes = true) (list : List H3Header) : SameBut id w (w.onHeaders C c id list) := by
  simp only [Worker.onHeaders, hr]
  split
  case isTrue =>
    split
    · exact .cancelRequest w c.fits id _
    · exact sameBut_sendTrailers id hpasses _
  case isFalse hstarted =>
    split
    · exact .cancelRequest w c.fits id _
    · split
      · exact .refl id w
      · exact h.sameBut_startResponse hr (by simpa using hstarted) c _

lemma sameBut_onData (hr : w.requests.lookup id = some r) (hs : r.streamId ≠ none) {c : Choices}
    (hpasses : c.passes = true) : SameBut id w (w.onData c id) := by
  unfold Worker.onData
  split
  case isFalse => exact sameBut_drain hr hs hpasses
  case isTrue =>
    simp only [Choices.passes, Bool.and_eq_true] at hpasses
    have hreceived := hpasses.2
    simp only [discardResponseBody, hr, Option.bind_some, Option.isNone_iff_eq_none, hs, if_false]
    cases hend : c.received with
    | ok bytes => exact ⟨rfl, rfl, fun _ _ => rfl⟩
    | error error => simp [hend, Except.isOk, Except.toBool] at hreceived

/-- An event that passes touches no request but the one on its stream. -/
lemma Coherent.sameBut_pollEvent (h : Coherent ids streams w) (C : HttpCrate) {p : Polled}
    (hpasses : p.passes = true) {other : ℕ} {r : PendingRequest} (hr : w.requests.lookup other = some r)
    (hs : r.streamId = some p.stream → p.event.isOfResponse = false) :
    ∃ id, id ≠ other ∧ SameBut id w (w.pollEvent C p.stream p.event p.choices) := by
  unfold Worker.pollEvent
  split
  case isTrue => exact ⟨other + 1, by omega, rfl, rfl, fun _ _ => rfl⟩
  case isFalse hgo =>
    split
    case h_1 => exact ⟨other + 1, by omega, .refl _ w⟩
    case h_2 id hid =>
      obtain ⟨q, hq, hstream⟩ := (h.inverse p.stream id).mp hid
      have hsome : q.streamId ≠ none := by simp [hstream]
      have hne : p.event.isOfResponse = true → id ≠ other := by
        rintro hevent rfl
        rw [hr] at hq
        obtain rfl := Option.some.inj hq
        simp [hs hstream] at hevent
      cases hevent : p.event with
      | headers list =>
        have hchoices : p.choices.passes = true := by simpa [Polled.passes, hevent] using hpasses
        exact ⟨id, hne (by rw [hevent]; rfl), h.sameBut_onHeaders hq C hchoices list⟩
      | data =>
        have hchoices : p.choices.passes = true := by simpa [Polled.passes, hevent] using hpasses
        exact ⟨id, hne (by rw [hevent]; rfl), sameBut_onData hq hsome hchoices⟩
      | finished => exact ⟨id, hne (by rw [hevent]; rfl), .onFinished w p.stream id⟩
      | reset code => exact ⟨id, hne (by rw [hevent]; rfl), .cancelRequest w p.choices.fits id _⟩
      | goAway => exact absurd (by rw [hevent]; rfl) hgo
      | priorityUpdate => exact ⟨other + 1, by omega, .refl _ w⟩

/-- A retry that passes frees the slot, and touches no request but the one that was held up. -/
lemma Coherent.retryDelivery_passes (h : Coherent ids streams w) {c : Choices} {id : ℕ}
    (hblocked : w.responseBlocked = some id) (hpasses : c.passes = true) :
    SameBut id { w with responseBlocked := none } (w.retryDelivery c) := by
  unfold Worker.retryDelivery
  rw [hblocked]
  dsimp only
  split
  case h_1 => exact .refl id _
  case h_2 r hr =>
    have hs := h.blocked id r hblocked hr
    split
    case h_1 =>
      have hfree : ({ w with responseBlocked := none } : Worker).requests.lookup id = some r := hr
      exact sameBut_drain hfree hs hpasses
    case h_2 frame _ =>
      simp only [Choices.passes, Bool.and_eq_true] at hpasses
      have hanswer := hpasses.1.1
      have hset := SameBut.setRequest id { w with responseBlocked := none } { r with pendingResponse := none }
      simp only [Worker.setRequest, AList.lookup_insert] at hset ⊢
      cases hend : c.answer with
      | ready => exact hset.trans ⟨rfl, rfl, fun _ _ => rfl⟩
      | full => simp [hend, ChannelAnswer.passes] at hanswer
      | closed => exact hset.trans (.cancelRequest _ c.fits id _)

/-! ### What a call adds to the channels -/

/-- The channels only grow: nothing that was sent is taken back. -/
structure Extends (w w' : Worker) : Prop where
  sent : ∀ id, w.sent id <+: w'.sent id
  replies : w.replies <+: w'.replies
  finished : ∀ id, w.finished id = true → w'.finished id = true

namespace Extends

variable {w w' w'' : Worker}

lemma of_eq (hsent : w'.sent = w.sent) (hreplies : w'.replies = w.replies) (hfinished : w'.finished = w.finished) :
    Extends w w' :=
  ⟨fun id => by rw [hsent], by rw [hreplies], fun id h => by rwa [hfinished]⟩

lemma refl (w : Worker) : Extends w w := .of_eq rfl rfl rfl

lemma trans (h : Extends w w') (h' : Extends w' w'') : Extends w w'' :=
  ⟨fun id => (h.sent id).trans (h'.sent id), h.replies.trans h'.replies,
    fun id hid => h'.finished id (h.finished id hid)⟩

lemma send (w : Worker) (id : ℕ) (m : BodyMessage) : Extends w (w.send id m) := by
  refine ⟨fun other => ?_, List.prefix_rfl, fun _ h => h⟩
  by_cases hother : other = id
  · subst hother
    simp [Worker.send]
  · simp [Worker.send, hother]

lemma reply (w : Worker) (rs : List Reply) : Extends w (w.reply rs) :=
  ⟨fun _ => List.prefix_rfl, List.prefix_append _ _, fun _ h => h⟩

lemma finish (w : Worker) (id : ℕ) : Extends w { w with finished := Function.update w.finished id true } := by
  refine ⟨fun _ => List.prefix_rfl, List.prefix_rfl, fun other h => ?_⟩
  by_cases hother : other = id <;> simp [Function.update, hother, h]

lemma fail (w : Worker) (fits : ℕ → Bool) (id : ℕ) (r : PendingRequest) (message : Bytes) :
    Extends w (w.fail fits id r message) := by
  unfold Worker.fail
  have hreply := reply w (r.failReplies id message)
  split
  · exact hreply.trans (.send _ id _)
  · exact hreply

lemma cancelRequest (w : Worker) (fits : ℕ → Bool) (id : ℕ) (message : Bytes) :
    Extends w (w.cancelRequest fits id message) := by
  unfold Worker.cancelRequest
  split
  case h_1 => exact .refl w
  case h_2 r _ =>
    have herase : Extends w { w with
        requests := w.requests.erase id
        streamToRequest := r.streamId.elim w.streamToRequest w.streamToRequest.erase } := .of_eq rfl rfl rfl
    exact herase.trans (.fail _ fits id r message)

lemma stop (w : Worker) (fits : ℕ → Bool) (result : Except Failure Unit) : Extends w (w.stop fits result) := by
  have hfailed : Extends w (w.requests.entries.foldl (fun w e => w.fail fits e.1 e.2 (stopMessage result)) w) := by
    apply List.foldlRecOn w.requests.entries _ (motive := Extends w) (.refl w)
    intro w' hw' e _
    exact hw'.trans (.fail w' fits e.1 e.2 _)
  exact hfailed.trans (.of_eq rfl rfl rfl)

lemma onFinished (w : Worker) (stream id : ℕ) : Extends w (w.onFinished stream id) := by
  unfold Worker.onFinished
  dsimp only
  split
  case h_1 => exact .of_eq rfl rfl rfl
  case h_2 r _ =>
    have hdrop : Extends w { w with
        streamToRequest := w.streamToRequest.erase stream, requests := w.requests.erase id } := .of_eq rfl rfl rfl
    have hended := hdrop.trans (.finish _ id)
    split_ifs
    · exact hended
    · exact hended.trans (.reply _ _)
    · exact (hdrop.trans (.reply _ _)).trans (.reply _ _)
    · exact hdrop.trans (.reply _ _)
    · exact hended
    · exact hdrop.trans (.reply _ _)
    · exact hdrop

end Extends

lemma responseClosed_extends (w₀ : Worker) : ResponseClosed (Extends w₀) where
  buffers _ _ h := h.trans (.of_eq rfl rfl rfl)
  send id m h := h.trans (.send _ id m)
  head _ _ h := h.trans (.reply _ _)
  request _ _ h := h.trans (.of_eq rfl rfl rfl)
  cancel fits id message h := h.trans (.cancelRequest _ fits id message)
  finish stream id h := h.trans (.onFinished _ stream id)
  stop fits result h := h.trans (.stop _ fits result)
  crash _ h := h.trans (.of_eq rfl rfl rfl)

lemma extends_pollEvent (C : HttpCrate) (w : Worker) (stream : ℕ) (event : H3Event) (c : Choices) :
    w.Extends (w.pollEvent C stream event c) := by
  cases hevent : event.isGoAway with
  | false => exact (responseClosed_extends w).pollEvent (.refl w) C stream hevent c
  | true =>
    simp only [Worker.pollEvent, hevent, if_true]
    exact .of_eq rfl rfl rfl

lemma extends_pollLoop (C : HttpCrate) (w : Worker) (polled : List Polled) : w.Extends (w.pollLoop C polled) := by
  induction polled generalizing w with
  | nil => exact .refl w
  | cons p polled ih =>
    have hevent := extends_pollEvent C w p.stream p.event p.choices
    simp only [pollLoop]
    split
    · exact hevent
    · exact hevent.trans (ih _)

/-! ### The delivery of an event -/

/-- The frames of a drained body: what the buffer held goes out with the first piece. -/
def frames : Bytes → List Bytes → List BodyMessage
  | _, [] => []
  | buffer, bytes :: reads => .ok (.data (buffer ++ bytes)) :: frames [] reads

/-- The owner of a request hears that it failed. -/
def HearsFailure (fits : ℕ → Bool) (id : ℕ) (r : PendingRequest) (message : Bytes) (w w' : Worker) : Prop :=
  w.replies ++ r.failReplies id message <+: w'.replies ∧
    (r.response = false → fits id = true → w.sent id ++ [.error message] <+: w'.sent id)

/-- What the owner of a request gets by an event of its stream: the head if it still waits for it, the
trailers if the channel takes a frame, all that is read of the body, the end, or the failure. -/
def Delivers (C : HttpCrate) (id : ℕ) (r : PendingRequest) (p : Polled) (w w' : Worker) : Prop :=
  match p.event with
  | .headers list =>
    if r.responseStarted then
      match decodeTrailers C list with
      | .ok trailers => p.choices.answer = .ready → w.sent id ++ [.ok (.trailers trailers)] <+: w'.sent id
      | .error e => HearsFailure p.choices.fits id r (ascii "invalid upstream HTTP/3 trailers: " ++ e) w w'
    else
      match decodeResponseHeaders C list with
      | .ok (status, headers) =>
        isInformational status = false → r.discardBody = false → p.choices.delivered = true →
          w.replies ++ [.response id (.ok ⟨status, headers⟩)] <+: w'.replies
      | .error e => HearsFailure p.choices.fits id r (ascii "invalid upstream HTTP/3 response: " ++ e) w w'
  | .data => r.discardBody = false → w.sent id ++ frames w.bodyBuf p.choices.drain.reads <+: w'.sent id
  | .finished =>
    if r.responseStarted ∨ r.discardBody then w'.finished id = true
    else r.response = true →
      w.replies ++ [.response id (.error (ascii "HTTP/3 response finished before headers"))] <+: w'.replies
  | .reset code =>
    HearsFailure p.choices.fits id r (ascii "HTTP/3 stream reset by upstream code=" ++ natText code) w w'
  | .goAway | .priorityUpdate => True

lemma HearsFailure.extend {fits : ℕ → Bool} {message : Bytes} {w w' w'' : Worker}
    (h : HearsFailure fits id r message w w') (hext : w'.Extends w'') : HearsFailure fits id r message w w'' :=
  ⟨h.1.trans hext.replies, fun hresponse hfits => (h.2 hresponse hfits).trans (hext.sent id)⟩

/-- What has been delivered stays delivered. -/
lemma Delivers.extend {C : HttpCrate} {p : Polled} {w w' w'' : Worker} (h : Delivers C id r p w w')
    (hext : w'.Extends w'') : Delivers C id r p w w'' := by
  unfold Delivers at h ⊢
  split at h
  case h_1 list _ =>
    split at h
    case isTrue hstarted =>
      simp only [hstarted, if_true]
      cases htrailers : decodeTrailers C list with
      | ok trailers =>
        simp only [htrailers] at h
        exact fun hanswer => (h hanswer).trans (hext.sent id)
      | error e =>
        simp only [htrailers] at h
        exact h.extend hext
    case isFalse hstarted =>
      simp only [hstarted, Bool.false_eq_true, if_false]
      cases hhead : decodeResponseHeaders C list with
      | ok head =>
        simp only [hhead] at h
        exact fun hstatus hdiscard hdelivered => (h hstatus hdiscard hdelivered).trans hext.replies
      | error e =>
        simp only [hhead] at h
        exact h.extend hext
  case h_2 => exact fun hdiscard => (h hdiscard).trans (hext.sent id)
  case h_3 =>
    split at h
    case isTrue hended => rw [if_pos hended]; exact hext.finished id h
    case isFalse hended => rw [if_neg hended]; exact fun hresponse => (h hresponse).trans hext.replies
  case h_4 => exact h.extend hext
  case h_5 => trivial
  case h_6 => trivial

lemma hearsFailure_cancelRequest (hr : w.requests.lookup id = some r) (fits : ℕ → Bool) (message : Bytes) :
    HearsFailure fits id r message w (w.cancelRequest fits id message) := by
  simp only [Worker.cancelRequest, hr, Worker.fail]
  constructor
  · split <;> exact List.prefix_rfl
  · intro hresponse hfits
    simp [hresponse, hfits, Worker.send, Worker.reply]

lemma sent_forwards (w : Worker) (id : ℕ) (reads : List Bytes) :
    (reads.foldl (fun w bytes => w.forward id bytes) w).sent id = w.sent id ++ frames w.bodyBuf reads := by
  induction reads generalizing w with
  | nil => simp [frames]
  | cons bytes reads ih =>
    rw [List.foldl_cons, ih]
    simp [frames, Worker.forward, Worker.send]

lemma delivers_data (hr : w.requests.lookup id = some r) (hs : r.streamId ≠ none) (hdiscard : r.discardBody = false)
    (c : Choices) : w.sent id ++ frames w.bodyBuf c.drain.reads <+: (w.onData c id).sent id := by
  simp only [Worker.onData, hr, Option.any_some, hdiscard, Bool.false_eq_true, if_false,
    Worker.drainResponseBody, Option.isNone_iff_eq_none, hs]
  rw [← sent_forwards]
  set drained := c.drain.reads.foldl (fun w bytes => w.forward id bytes) w
  have hsettled : drained.Extends (settle c id (drained, c.drain.last.retry)) :=
    (responseClosed_extends drained).settle c id (.refl drained)
  exact hsettled.sent id

lemma Coherent.delivers_head (h : Coherent ids streams w) (hr : w.requests.lookup id = some r)
    (hstarted : r.responseStarted = false) (hdiscard : r.discardBody = false) {c : Choices}
    (hdelivered : c.delivered = true) (head : ResponseHead) :
    (w.startResponse c id head).replies = w.replies ++ [.response id (.ok head)] := by
  obtain ⟨hresponse, hrx⟩ := h.holds id r hr hdiscard hstarted
  simp [Worker.startResponse, hr, hdiscard, hresponse, hrx, hdelivered, Worker.reply, Worker.setRequest]

/-- An event that is handed over is delivered. -/
lemma Coherent.delivers_pollEvent (h : Coherent ids streams w) (hr : w.requests.lookup id = some r) (C : HttpCrate)
    {p : Polled} (hs : r.streamId = some p.stream) :
    Delivers C id r p w (w.pollEvent C p.stream p.event p.choices) := by
  have hsome : r.streamId ≠ none := by simp [hs]
  have hmap : w.streamToRequest.lookup p.stream = some id := (h.inverse p.stream id).mpr ⟨r, hr, hs⟩
  unfold Delivers Worker.pollEvent
  rw [hmap]
  cases hevent : p.event with
  | headers list =>
    simp only [H3Event.isGoAway, Bool.false_eq_true, if_false, Worker.onHeaders, hr]
    split
    case isTrue =>
      cases decodeTrailers C list with
      | ok trailers =>
        intro hanswer
        simp [Worker.sendTrailers, hanswer, Worker.trySend, Worker.send]
      | error e => exact hearsFailure_cancelRequest hr p.choices.fits _
    case isFalse hstarted =>
      cases decodeResponseHeaders C list with
      | ok head =>
        intro hstatus hdiscard hdelivered
        simp only [hstatus, Bool.false_eq_true, if_false]
        rw [h.delivers_head hr (by simpa using hstarted) hdiscard hdelivered]
      | error e => exact hearsFailure_cancelRequest hr p.choices.fits _
  | data => exact fun hdiscard => delivers_data hr hsome hdiscard p.choices
  | finished =>
    simp only [H3Event.isGoAway, Bool.false_eq_true, if_false, Worker.onFinished, hr]
    split
    case isTrue hended =>
      cases hdiscard : r.discardBody with
      | true => simp
      | false =>
        have hstarted : r.responseStarted = true := by simpa [hdiscard] using hended
        simp only [hstarted, if_true, Bool.false_eq_true, if_false]
        split <;> simp [Worker.reply]
    case isFalse hended =>
      simp only [not_or, Bool.not_eq_true] at hended
      intro hresponse
      simp only [hended, hresponse, Bool.false_eq_true, if_false, if_true]
      split <;> simp [Worker.reply]
  | reset code => exact hearsFailure_cancelRequest hr p.choices.fits _
  | goAway => trivial
  | priorityUpdate => trivial

/-! ### A call -/

/-- The worker once it has handled some events. -/
def pollAll (C : HttpCrate) (w : Worker) (polled : List Polled) : Worker :=
  polled.foldl (fun w p => w.pollEvent C p.stream p.event p.choices) w

/-- The worker to which a call hands over the event after the given ones. -/
def handedOver (C : HttpCrate) (w : Worker) (c : Choices) (earlier : List Polled) : Worker :=
  (w.retryDelivery c).pollAll C earlier

/-- While the events before it pass, the poll loop comes to an event of a request and finds the request as it
was. -/
lemma Coherent.pollLoop_append {p : Polled} {earlier : List Polled} (h : Coherent ids streams w) (C : HttpCrate)
    (hlive : w.returned = false) (hr : w.requests.lookup id = some r) (hs : r.streamId = some p.stream)
    (hearlier : ∀ q ∈ earlier, q.passes = true ∧ (q.stream = p.stream → q.event.isOfResponse = false))
    (later : List Polled) :
    Coherent ids streams (w.pollAll C earlier) ∧ w.Extends (w.pollAll C earlier) ∧
      (w.pollAll C earlier).requests.lookup id = some r ∧
      w.pollLoop C (earlier ++ p :: later) = (w.pollAll C earlier).pollLoop C (p :: later) := by
  induction earlier generalizing w with
  | nil => exact ⟨h, .refl w, hr, rfl⟩
  | cons q earlier ih =>
    obtain ⟨⟨hpasses, hother⟩, hearlier⟩ := List.forall_mem_cons.mp hearlier
    have hstream : r.streamId = some q.stream → q.event.isOfResponse = false := by
      intro hq
      exact hother (Option.some.inj (hq.symm.trans hs))
    -- the event touches another request, so the loop goes on with this one as it was
    obtain ⟨other, hne, hsame⟩ := h.sameBut_pollEvent C hpasses hr hstream
    set next := w.pollEvent C q.stream q.event q.choices with hnext
    have hlive' : next.returned = false := by rwa [returned, hsame.blocked, hsame.result]
    have hr' : next.requests.lookup id = some r := (hsame.requests id hne.symm).trans hr
    obtain ⟨hcoherent, hext, hbefore, hloop⟩ := ih (h.pollEvent C _ _ _) hlive' hr' hearlier
    refine ⟨hcoherent, (extends_pollEvent C w _ _ _).trans hext, hbefore, ?_⟩
    simp only [List.cons_append, pollLoop, ← hnext, hlive', Bool.false_eq_true, if_false]
    exact hloop

/-- A request that gets through the retry: its delivery is not the one that was held up, or its receiver is
there. -/
lemma Coherent.lookup_retryDelivery {c : Choices} (h : Coherent ids streams w) (hr : w.requests.lookup id = some r)
    (hpasses : w.responseBlocked ≠ none → c.passes = true)
    (hreceiver : w.responseBlocked = some id → c.answer = .ready ∧ c.drain.last = .done) :
    ∃ pending, (w.retryDelivery c).requests.lookup id = some { r with pendingResponse := pending } := by
  cases hblocked : w.responseBlocked with
  | none => exact ⟨r.pendingResponse, by simp [Worker.retryDelivery, hblocked, hr]⟩
  | some other =>
    by_cases hother : other = id
    case neg =>
      have hsame := h.retryDelivery_passes hblocked (hpasses (by simp [hblocked]))
      exact ⟨r.pendingResponse, (hsame.requests id (Ne.symm hother)).trans hr⟩
    case pos =>
      -- its own delivery is retried, which takes a held frame out of the request
      subst hother
      obtain ⟨hanswer, hdone⟩ := hreceiver hblocked
      have hs := h.blocked other r hblocked hr
      cases hpending : r.pendingResponse with
      | none =>
        have hrequests := congrArg Prod.fst
          (agenda_drainResponseBody { w with responseBlocked := none } other c.drain)
        simp only [agenda, Worker.drainResponseBody, hr, Option.isNone_iff_eq_none, hs, if_false] at hrequests
        refine ⟨none, ?_⟩
        simp only [Worker.retryDelivery, hblocked, hr, hpending, Worker.drainResponseBody,
          Option.isNone_iff_eq_none, hs, if_false, hdone, DrainEnd.retry, settle, hrequests]
        rw [← hpending]
      | some frame =>
        refine ⟨none, ?_⟩
        simp [Worker.retryDelivery, hblocked, hr, hpending, hanswer, Worker.setRequest, Worker.trySend, Worker.send]

/-- A retry that passes leaves the worker to its poll loop. -/
lemma Coherent.returned_retryDelivery {c : Choices} (h : Coherent ids streams w) (hlive : w.result = none)
    (hpasses : w.responseBlocked ≠ none → c.passes = true) : (w.retryDelivery c).returned = false := by
  cases hblocked : w.responseBlocked with
  | none => simp [Worker.retryDelivery, hblocked, returned, hlive]
  | some id =>
    have hsame := h.retryDelivery_passes hblocked (hpasses (by simp [hblocked]))
    simp [returned, hsame.blocked, hsame.result, hlive]

/-- The first event of a request is delivered if neither the retry nor an event before it is held up. -/
lemma Coherent.delivers_processH3Events {C : HttpCrate} {c : Choices} {p : Polled} {earlier : List Polled}
    (h : Coherent ids streams w) (hlive : w.result = none) (hr : w.requests.lookup id = some r)
    (hs : r.streamId = some p.stream) (hpasses : w.responseBlocked ≠ none → c.passes = true)
    (hreceiver : w.responseBlocked = some id → c.answer = .ready ∧ c.drain.last = .done)
    (hearlier : ∀ q ∈ earlier, q.passes = true ∧ (q.stream = p.stream → q.event.isOfResponse = false))
    (later : List Polled) :
    w.Extends (w.handedOver C c earlier) ∧
      Delivers C id r p (w.handedOver C c earlier) (w.processH3Events C c (earlier ++ p :: later)) := by
  have hreturned := h.returned_retryDelivery hlive hpasses
  obtain ⟨pending, hr'⟩ := h.lookup_retryDelivery hr hpasses hreceiver
  obtain ⟨hcoherent, hext, hbefore, hloop⟩ :=
    (h.retryDelivery c).pollLoop_append C hreturned hr' hs hearlier later
  have hretry : w.Extends (w.retryDelivery c) := (responseClosed_extends w).retryDelivery (.refl w) c
  refine ⟨hretry.trans hext, ?_⟩
  have hdelivers : Delivers C id r p (w.handedOver C c earlier)
      ((w.handedOver C c earlier).pollEvent C p.stream p.event p.choices) :=
    hcoherent.delivers_pollEvent hbefore C hs
  simp only [processH3Events, hreturned, Bool.false_eq_true, if_false, hloop, pollLoop]
  split
  · exact hdelivers
  · exact hdelivers.extend (extends_pollLoop C _ later)

/-- The delivery of a request that is held up meets a full channel once more. -/
def HeldUp (c : Choices) (r : PendingRequest) : Prop :=
  match r.pendingResponse with
  | some _ => c.answer = .full
  | none => c.drain.reads = [] ∧ c.drain.last = .full

/-- While a delivery is held up, a call delivers nothing, whatever events there are. -/
lemma Coherent.processH3Events_of_heldUp {c : Choices} (h : Coherent ids streams w)
    (hblocked : w.responseBlocked = some id) (hr : w.requests.lookup id = some r) (hheld : HeldUp c r) (C : HttpCrate)
    (polled : List Polled) :
    (w.processH3Events C c polled).sent = w.sent ∧ (w.processH3Events C c polled).replies = w.replies ∧
      (w.processH3Events C c polled).finished = w.finished ∧
      (w.processH3Events C c polled).responseBlocked = some id := by
  have hs := h.blocked id r hblocked hr
  unfold HeldUp at hheld
  cases hpending : r.pendingResponse with
  | none =>
    obtain ⟨hreads, hfull⟩ : c.drain.reads = [] ∧ c.drain.last = .full := by simpa [hpending] using hheld
    simp [processH3Events, Worker.retryDelivery, hblocked, hr, hpending, Worker.drainResponseBody, hs, hreads, hfull,
      DrainEnd.retry, settle, returned]
  | some frame =>
    have hfull : c.answer = .full := by simpa [hpending] using hheld
    simp [processH3Events, Worker.retryDelivery, hblocked, hr, hpending, hfull, Worker.setRequest, Worker.trySend,
      returned]

end Worker

namespace WorkerLoop

variable {C : HttpCrate} {settings : BridgeSettings} {l : WorkerLoop}

def pollOf (p : Polled) : WorkerEvent := .poll p.stream p.event p.choices

lemma exec_pollLoop (C : HttpCrate) (settings : BridgeSettings) (hlive : l.worker.returned = false)
    (polled : List Polled) :
    ∃ taken, taken <+: polled ∧
      Runs.exec (step C settings) l (taken.map pollOf) = some { l with worker := l.worker.pollLoop C polled } := by
  induction polled generalizing l with
  | nil => exact ⟨[], List.prefix_rfl, rfl⟩
  | cons p polled ih =>
    simp only [Worker.returned, Bool.or_eq_false_iff] at hlive
    have hstep : l.step C settings (pollOf p) =
        some { l with worker := l.worker.pollEvent C p.stream p.event p.choices } := by
      simp [step, enabled, turn, pollOf, Option.isSome_eq_false_iff.mp hlive.1, Option.isSome_eq_false_iff.mp hlive.2]
    simp only [Worker.pollLoop]
    split
    case isTrue => exact ⟨[p], by simp, by simp [Runs.exec, hstep]⟩
    case isFalse hnext =>
      obtain ⟨taken, htaken, hexec⟩ :=
        ih (l := { l with worker := l.worker.pollEvent C p.stream p.event p.choices }) (by simpa using hnext)
      exact ⟨p :: taken, by simpa using htaken, by simpa [Runs.exec, hstep] using hexec⟩

/-- A call of `process_h3_events` is a retry and the polls of the events it takes, in their order. -/
theorem exec_processH3Events (C : HttpCrate) (settings : BridgeSettings) (hlive : l.worker.result = none)
    (c : Choices) (polled : List Polled) :
    ∃ taken, taken <+: polled ∧ Runs.exec (step C settings) l (.retry c :: taken.map pollOf) =
      some { l with worker := l.worker.processH3Events C c polled } := by
  have hstep : l.step C settings (.retry c) = some { l with worker := l.worker.retryDelivery c } := by
    simp [step, enabled, turn, hlive]
  simp only [Worker.processH3Events]
  split
  case isTrue => exact ⟨[], List.nil_prefix, by simp [Runs.exec, hstep]⟩
  case isFalse hnext =>
    obtain ⟨taken, htaken, hexec⟩ := exec_pollLoop (l := { l with worker := l.worker.retryDelivery c }) C settings
      (by simpa using hnext) polled
    exact ⟨taken, htaken, by simpa [Runs.exec, hstep] using hexec⟩

/-- In every worker that goes on, a call delivers the first event of a request unless the retry or an event
before it meets a full channel or a failure; full channels that none of them meets do not matter. While a
delivery is held up, a call delivers nothing. -/
theorem delivered_unless_held_up {es : List WorkerEvent}
    (hrun : Runs.Run (fun l e l' => step C settings l e = some l') (start settings) es l)
    (hfresh : FreshIds es) (hlive : l.worker.result = none) :
    (∀ (id : ℕ) (r : PendingRequest) (p : Polled) (c : Choices) (earlier later : List Polled),
      l.worker.requests.lookup id = some r → r.streamId = some p.stream →
      (l.worker.responseBlocked ≠ none → c.passes = true) →
      (l.worker.responseBlocked = some id → c.answer = .ready ∧ c.drain.last = .done) →
      (∀ q ∈ earlier, q.passes = true ∧ (q.stream = p.stream → q.event.isOfResponse = false)) →
      l.worker.Extends (l.worker.handedOver C c earlier) ∧
        Worker.Delivers C id r p (l.worker.handedOver C c earlier)
          (l.worker.processH3Events C c (earlier ++ p :: later))) ∧
    ∀ (id : ℕ) (r : PendingRequest) (c : Choices) (polled : List Polled),
      l.worker.responseBlocked = some id → l.worker.requests.lookup id = some r → Worker.HeldUp c r →
      (l.worker.processH3Events C c polled).sent = l.worker.sent ∧
        (l.worker.processH3Events C c polled).replies = l.worker.replies ∧
        (l.worker.processH3Events C c polled).finished = l.worker.finished ∧
        (l.worker.processH3Events C c polled).responseBlocked = some id := by
  have h := sound_of_run hrun hfresh
  constructor
  · intro id r p c earlier later hr hs hpasses hreceiver hearlier
    exact h.delivers_processH3Events hlive hr hs hpasses hreceiver hearlier later
  · intro id r c polled hblocked hr hheld
    exact h.processH3Events_of_heldUp hblocked hr hheld C polled

/-- Two requests on their streams, of which the first has its head. -/
def twoStreams : List WorkerEvent :=
  [.command (.opens 1 [] false true false) fun _ => true, .dispatch .established (.opened 0) fun _ => true,
    .command (.opens 2 [] false true false) fun _ => true, .dispatch .established (.opened 4) fun _ => true,
    .poll 0 (.headers [⟨pseudoStatus, ascii "200"⟩]) idleChoices]

/-- The channel of the first request is filled by its body and its trailers, which meet no full channel. -/
def filledByTrailers : List WorkerEvent :=
  twoStreams ++
    [.poll 0 .data { idleChoices with drain := ⟨List.replicate (maxBodyFrames - 1) (ascii "x"), .done⟩ },
      .poll 0 (.headers [⟨ascii "x-end", ascii "1"⟩]) idleChoices]

/-- The head that waits for the second request. -/
def secondHead : Polled := ⟨4, .headers [⟨pseudoStatus, ascii "200"⟩], idleChoices⟩

/-- The stream of a request, and whether its owner waits for the head. -/
def waitsOn (r : PendingRequest) : Option ℕ × Bool := (r.streamId, !r.responseStarted && !r.discardBody)

lemma waitsOn_eq {r : PendingRequest} {stream : Option ℕ} :
    waitsOn r = (stream, true) ↔ r.streamId = stream ∧ r.responseStarted = false ∧ r.discardBody = false := by
  simp [waitsOn]

theorem delivered_unless_held_up_past_trailers : ∃ l : WorkerLoop,
    Runs.exec (step .reference warmedSettings) (start warmedSettings) filledByTrailers = some l ∧
      (l.worker.sent 1).length = maxBodyFrames ∧
      .response 2 (.ok ⟨200, []⟩) ∈
        (l.worker.processH3Events .reference idleChoices [⟨0, .finished, idleChoices⟩, secondHead]).replies := by
  have hexec : (Runs.exec (step .reference warmedSettings) (start warmedSettings) filledByTrailers).map
      (fun l => decide (l.worker.result.isNone = true ∧ (l.worker.sent 1).length = maxBodyFrames ∧
        l.worker.responseBlocked = none ∧ (l.worker.requests.lookup 2).map waitsOn = some (some 4, true))) =
      some true := by
    decide +kernel
  obtain ⟨l, hl, hview⟩ := Option.map_eq_some_iff.mp hexec
  simp only [decide_eq_true_eq, Option.isNone_iff_eq_none, Option.map_eq_some_iff, waitsOn_eq] at hview
  obtain ⟨hlive, hfull, hfree, r, hr, hs, hstarted, hdiscard⟩ := hview
  have hfresh : FreshIds filledByTrailers := ⟨by decide, by decide, by decide⟩
  obtain ⟨-, hdelivers⟩ := (delivered_unless_held_up (Runs.run_of_exec hl) hfresh hlive).1 2 r secondHead
    idleChoices [⟨0, .finished, idleChoices⟩] [] hr hs (by simp [hfree]) (by simp [hfree])
    (by simp [Polled.passes, secondHead])
  have hhead : decodeResponseHeaders .reference [⟨pseudoStatus, ascii "200"⟩] = .ok (200, []) := by decide +kernel
  simp only [Worker.Delivers, secondHead, hstarted, Bool.false_eq_true, if_false, hhead] at hdelivers
  exact ⟨l, hl, hfull, (hdelivers (by decide) hdiscard rfl).subset (by simp)⟩

/-- The body of the first request fills its channel and meets it full. -/
def filledByBody : List WorkerEvent :=
  twoStreams ++ [.poll 0 .data { idleChoices with drain := ⟨List.replicate maxBodyFrames (ascii "x"), .full⟩ }]

/-- The first request is not read, so the head of the second one is not delivered. -/
theorem full_channel_stalls_other_request : ∃ (l : WorkerLoop) (r : PendingRequest),
    Runs.exec (step .reference warmedSettings) (start warmedSettings) filledByBody = some l ∧
      l.worker.result = none ∧ (l.worker.sent 1).length = maxBodyFrames ∧
      l.worker.requests.lookup 2 = some r ∧ r.streamId = some secondHead.stream ∧ r.responseStarted = false ∧
      r.discardBody = false ∧ (l.worker.sent 2).length = 0 ∧
      ¬∃ before, l.worker.Extends before ∧ Worker.Delivers .reference 2 r secondHead before
        (l.worker.processH3Events .reference { idleChoices with drain := ⟨[], .full⟩ } [secondHead]) := by
  have hexec : (Runs.exec (step .reference warmedSettings) (start warmedSettings) filledByBody).map
      (fun l => decide (l.worker.result.isNone = true ∧ (l.worker.sent 1).length = maxBodyFrames ∧
        l.worker.responseBlocked = some 1 ∧
        (l.worker.requests.lookup 1).map (fun r => r.pendingResponse.isNone) = some true ∧
        (l.worker.requests.lookup 2).map waitsOn = some (some 4, true) ∧ (l.worker.sent 2).length = 0)) =
      some true := by
    decide +kernel
  obtain ⟨l, hl, hview⟩ := Option.map_eq_some_iff.mp hexec
  simp only [decide_eq_true_eq, Option.isNone_iff_eq_none, Option.map_eq_some_iff, waitsOn_eq] at hview
  obtain ⟨hlive, hfull, hblocked, ⟨a, ha, hpending⟩, ⟨r, hr, hs, hstarted, hdiscard⟩, hroom⟩ := hview
  refine ⟨l, r, hl, hlive, hfull, hr, hs, hstarted, hdiscard, hroom, ?_⟩
  rintro ⟨before, hext, hdelivers⟩
  have hfresh : FreshIds filledByBody := ⟨by decide, by decide, by decide⟩
  have hheld : Worker.HeldUp { idleChoices with drain := ⟨[], .full⟩ } a := by simp [Worker.HeldUp, hpending]
  obtain ⟨-, hreplies, -⟩ := (sound_of_run (Runs.run_of_exec hl) hfresh).processH3Events_of_heldUp hblocked ha hheld
    .reference [secondHead]
  have hhead : decodeResponseHeaders .reference [⟨pseudoStatus, ascii "200"⟩] = .ok (200, []) := by decide +kernel
  simp only [Worker.Delivers, secondHead, hstarted, Bool.false_eq_true, if_false, hhead] at hdelivers hreplies
  have hlonger := (hdelivers (by decide) hdiscard rfl).length_le
  have hshorter := hext.replies.length_le
  -- the replies after the call are those before it, so there is no room for the head
  rw [hreplies, List.length_append, List.length_singleton] at hlonger
  omega

end WorkerLoop

end Pingola
