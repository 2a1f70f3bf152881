import Pingola.UpstreamH3.Worker

/-!
# Coherence of the upstream HTTP/3 worker

What every turn of the worker preserves about its two maps, its blocked slot and the senders of its
requests. The ids of requests and streams so far are kept beside the worker, since a new id only
has to differ from all earlier ones.
-/

namespace Pingola
open ByteText

namespace Worker

/-- A property that does not depend on uploads and queues, and that cancellations keep. -/
structure UploadBlind (P : Worker → Prop) : Prop where
  queue : ∀ {w : Worker} (writes : List ℕ), P w → P { w with pendingWrites := writes }
  reply : ∀ {w : Worker} (rs : List Reply), P w → P (w.reply rs)
  upload : ∀ {w : Worker} {id : ℕ} {r : PendingRequest} (write : Option PendingWrite),
    w.requests.lookup id = some r → P w → P (w.setRequest id { r with pendingWrite := write })
  cancel : ∀ {w : Worker} (fits : ℕ → Bool) (id : ℕ) (message : Bytes), P w →
    P (w.cancelRequest fits id message)

namespace UploadBlind

variable {P : Worker → Prop} {w : Worker}

lemma enqueueWrite (hP : UploadBlind P) (h : P w) (id : ℕ) (write : PendingWrite) :
    P (w.enqueueWrite id write) := by
  unfold Worker.enqueueWrite
  split
  case h_1 => exact hP.reply _ h
  case h_2 r hr =>
    split_ifs
    · exact hP.reply _ h
    · exact hP.reply _ h
    · exact hP.queue _ (hP.upload (some write) hr h)

lemma drivePendingWrite (hP : UploadBlind P) (h : P w) (fits : ℕ → Bool) (outcome : WriteOutcome) :
    P (w.drivePendingWrite fits outcome) := by
  unfold Worker.drivePendingWrite
  split
  case h_1 => exact h
  case h_2 id rest _ =>
    have hpop := hP.queue rest h
    dsimp only
    split
    case h_1 => exact hpop
    case h_2 r hr =>
      split
      case h_1 =>
        split
        · exact hP.reply _ (hP.upload none hr hpop)
        · exact hP.queue _ (hP.upload (some _) hr hpop)
        · exact hP.cancel fits id _ (hP.reply _ (hP.upload none hr hpop))
      case h_2 => exact hpop

end UploadBlind

lemma lookup_cancelRequest (w : Worker) (fits : ℕ → Bool) (id : ℕ) (message : Bytes) :
    (w.cancelRequest fits id message).requests.lookup id = none := by
  unfold cancelRequest
  split
  case h_1 hnone => exact hnone
  case h_2 r _ =>
    unfold fail
    split <;> exact AList.lookup_erase id w.requests

/-- What is known of the front of the queue once a round has looked at it. -/
inductive NextWaiting (w : Worker) (ready : Readiness) : Waiting → Prop
  | nothing (hwaiting : w.waiting = []) : NextWaiting w ready .nothing
  | settled {id : ℕ} {rest : List ℕ} (hwaiting : w.waiting = id :: rest)
      (hr : ∀ r, w.requests.lookup id = some r → r.streamId ≠ none) : NextWaiting w ready (.settled rest)
  | deferred {id : ℕ} {r : PendingRequest} {rest : List ℕ} (hwaiting : w.waiting = id :: rest)
      (hr : w.requests.lookup id = some r) (hs : r.streamId = none) : NextWaiting w ready (.deferred id rest)
  | sends {id : ℕ} {r : PendingRequest} {rest : List ℕ} (hwaiting : w.waiting = id :: rest)
      (hr : w.requests.lookup id = some r) (hs : r.streamId = none)
      (hready : ¬(ready = .earlyData ∧ r.allowEarlyData = false ∨ ready = .handshaking)) :
      NextWaiting w ready (.sends id r rest)

lemma nextWaiting_spec (w : Worker) (ready : Readiness) : NextWaiting w ready (w.nextWaiting ready) := by
  unfold nextWaiting
  split
  case h_1 hwaiting => exact .nothing hwaiting
  case h_2 id rest hwaiting =>
    split
    case h_1 hnone => exact .settled hwaiting fun r hr => (by rw [hnone] at hr; cases hr)
    case h_2 r hr =>
      split
      case isTrue hstream =>
        refine .settled hwaiting fun r' hr' hs => ?_
        obtain rfl := Option.some.inj (hr.symm.trans hr')
        rw [hs] at hstream
        cases hstream
      case isFalse hopen =>
        have hs : r.streamId = none := by simpa using hopen
        split
        case isTrue => exact .deferred hwaiting hr hs
        case isFalse hready => exact .sends hwaiting hr hs hready

/-- What a round of `dispatch_waiting` can do: it changes the queue, puts a request on a stream, or ends
it. -/
inductive DispatchRound (w : Worker) (fits : ℕ → Bool) (outcome : OpenOutcome) : Worker → Prop
  | requeue (queue : List ℕ) : DispatchRound w fits outcome { w with waiting := queue }
  | opens {id stream : ℕ} {r : PendingRequest} (rest : List ℕ) (hr : w.requests.lookup id = some r)
      (hs : r.streamId = none) (houtcome : outcome = .opened stream) :
      DispatchRound w fits outcome
        ({ setRequest { w with waiting := rest } id { r with streamId := some stream, opened := false } with
          streamToRequest := w.streamToRequest.insert stream id }.reply
            (if r.opened then [.opened id (.ok ())] else []))
  | fails {id : ℕ} {r : PendingRequest} (rest : List ℕ) (hr : w.requests.lookup id = some r)
      (hs : r.streamId = none) (error : Bytes) :
      DispatchRound w fits outcome
        (fail { w with waiting := rest, requests := w.requests.erase id } fits id r
          (ascii "HTTP/3 request open failed: " ++ error))

lemma dispatchRound (w : Worker) (fits : ℕ → Bool) (ready : Readiness) (outcome : OpenOutcome) :
    DispatchRound w fits outcome (w.dispatchWaiting fits ready outcome) := by
  have hnext := nextWaiting_spec w ready
  unfold dispatchWaiting
  generalize w.nextWaiting ready = next at hnext ⊢
  cases hnext with
  | nothing => exact .requeue w.waiting
  | settled => exact .requeue _
  | deferred => exact .requeue _
  | sends hwaiting hr hs =>
    cases outcome with
    | opened stream => exact .opens _ hr hs rfl
    | blocked => exact .requeue _
    | failed error =>
      simp only [hr]
      exact .fails _ hr hs error

/-- The two maps agree, requests hold their senders until the response starts, the blocked response
is on a stream, all names come from the given ids and streams, and the worker has not ended by its
own fault. -/
structure Coherent (ids streams : List ℕ) (w : Worker) : Prop where
  inverse : ∀ stream id, w.streamToRequest.lookup stream = some id ↔
    ∃ r, w.requests.lookup id = some r ∧ r.streamId = some stream
  holds : ∀ id r, w.requests.lookup id = some r → r.discardBody = false →
    r.responseStarted = false → r.response = true ∧ r.bodyRx = true
  discards : ∀ id r, w.requests.lookup id = some r → r.discardBody = true → id = warmupRequestId
  blocked : ∀ id r, w.responseBlocked = some id → w.requests.lookup id = some r →
    r.streamId ≠ none
  known : ∀ id, w.requests.lookup id ≠ none ∨ w.responseBlocked = some id → id ∈ ids
  opened : ∀ stream, w.streamToRequest.lookup stream ≠ none → stream ∈ streams
  healthy : ∀ m, w.result ≠ some (.error (.internal m)) ∧ w.result ≠ some (.error (.panics m))

/-- The part of a worker that its coherence is about. -/
def maps (w : Worker) : Table ℕ PendingRequest × Table ℕ ℕ × Option ℕ × Option (Except Failure Unit) :=
  (w.requests, w.streamToRequest, w.responseBlocked, w.result)

namespace Coherent

variable {ids streams : List ℕ} {w : Worker}

/-- A worker that the transport or its owner ends. -/
lemma stop (fits : ℕ → Bool) {result : Except Failure Unit}
    (hresult : ∀ m, result ≠ .error (.internal m) ∧ result ≠ .error (.panics m)) :
    Coherent ids streams (w.stop fits result) where
  inverse stream id := by simp [Worker.stop]
  holds id r hr := by simp [Worker.stop] at hr
  discards id r hr := by simp [Worker.stop] at hr
  blocked id r hb := by simp [Worker.stop] at hb
  known id hid := by simp [Worker.stop] at hid
  opened stream hs := by simp [Worker.stop] at hs
  healthy m := by simpa [Worker.stop] using hresult m

variable (h : Coherent ids streams w)
include h

lemma congr {w' : Worker} (hmaps : w'.maps = w.maps) : Coherent ids streams w' := by
  simp only [maps, Prod.mk.injEq] at hmaps
  obtain ⟨hrequests, hstreams, hblocked, hresult⟩ := hmaps
  constructor
  · simpa only [hrequests, hstreams] using h.inverse
  · simpa only [hrequests] using h.holds
  · simpa only [hrequests] using h.discards
  · simpa only [hrequests, hblocked] using h.blocked
  · simpa only [hrequests, hblocked] using h.known
  · simpa only [hstreams] using h.opened
  · simpa only [hresult] using h.healthy

lemma mono {ids' streams' : List ℕ} (hids : ids ⊆ ids') (hstreams : streams ⊆ streams') : Coherent ids' streams' w :=
  { h with
    known := fun id hid => hids (h.known id hid)
    opened := fun stream hs => hstreams (h.opened stream hs) }

variable {id : ℕ} {r : PendingRequest}

/-- A request is written; if it was there before, it stays on its stream. -/
lemma put (hknown : id ∈ ids) (hs : r.streamId = (w.requests.lookup id).bind PendingRequest.streamId)
    (hb : w.responseBlocked = some id → r.streamId ≠ none) (hd : r.discardBody = true → id = warmupRequestId)
    (hh : r.discardBody = false → r.responseStarted = false →
      r.response = true ∧ r.bodyRx = true) : Coherent ids streams (w.setRequest id r) := by
  have hlookup : ∀ id', (w.setRequest id r).requests.lookup id' =
      if id' = id then some r else w.requests.lookup id' :=
    fun id' => Table.lookup_insert_if w.requests id id' r
  refine { h with inverse := ?_, holds := ?_, discards := ?_, blocked := ?_, known := ?_ }
  · intro stream id'
    rw [hlookup]
    refine (h.inverse stream id').trans ?_
    split
    case isTrue hid =>
      subst hid
      simpa [hs] using Option.bind_eq_some_iff.symm
    case isFalse => rfl
  · intro id' q hq
    rw [hlookup] at hq
    grind [h.holds id' q]
  · intro id' q hq
    rw [hlookup] at hq
    grind [h.discards id']
  · intro id' q hblocked hq
    rw [hlookup] at hq
    grind [h.blocked id' q hblocked, Worker.setRequest]
  · intro id' hid'
    rw [hlookup] at hid'
    have hid := h.known id'
    grind [Worker.setRequest]

/-- A request changes in place. -/
lemma setRequest {id : ℕ} {r r' : PendingRequest} (hr : w.requests.lookup id = some r) (hs : r'.streamId = r.streamId)
    (hd : r'.discardBody = r.discardBody) (hh : r'.discardBody = false → r'.responseStarted = false →
      r'.response = true ∧ r'.bodyRx = true) : Coherent ids streams (w.setRequest id r') := by
  refine h.put (h.known id (.inl (by simp [hr]))) (by simp [hr, hs]) ?_ ?_ hh
  · intro hblocked
    rw [hs]
    exact h.blocked id r hblocked hr
  · intro hdiscard
    exact h.discards id r hr (hd ▸ hdiscard)

/-- A request of a new id is added. -/
lemma insert (hid : id ∉ ids) (hs : r.streamId = none) (hd : r.discardBody = true → id = warmupRequestId)
    (hh : r.discardBody = false → r.responseStarted = false →
      r.response = true ∧ r.bodyRx = true) : Coherent (id :: ids) streams (w.setRequest id r) := by
  have hnew : ¬(w.requests.lookup id ≠ none ∨ w.responseBlocked = some id) :=
    fun hold => hid (h.known id hold)
  rw [not_or, not_not] at hnew
  refine (h.mono (List.subset_cons_self id ids) fun _ hm => hm).put (by simp) ?_ ?_ hd hh
  · simp [hnew.1, hs]
  · exact fun hblocked => absurd hblocked hnew.2

/-- A request leaves, and its stream with it. -/
lemma erase (hr : w.requests.lookup id = some r) :
    Coherent ids streams { w with
      requests := w.requests.erase id
      streamToRequest := r.streamId.elim w.streamToRequest w.streamToRequest.erase } := by
  have hstreams : ∀ stream, (r.streamId.elim w.streamToRequest w.streamToRequest.erase).lookup stream =
      if r.streamId = some stream then none else w.streamToRequest.lookup stream := by
    intro stream
    cases r.streamId with
    | none => simp
    | some s => simp [Table.lookup_erase_if, eq_comm]
  have hlookup := Table.lookup_erase_if w.requests id
  constructor
  · intro stream id'
    simp only [hstreams, hlookup]
    have hstream := h.inverse stream id'
    have hother := h.inverse stream id
    grind
  · intro id' q hq
    rw [hlookup] at hq
    grind [h.holds id' q]
  · intro id' q hq
    rw [hlookup] at hq
    grind [h.discards id' q]
  · intro id' q hblocked hq
    rw [hlookup] at hq
    grind [h.blocked id' q hblocked]
  · intro id' hid'
    rw [hlookup] at hid'
    have hid := h.known id'
    grind
  · intro stream hs
    rw [hstreams] at hs
    have hold := h.opened stream
    grind
  · exact h.healthy

/-- A request without a stream gets a new one. -/
lemma assign {id stream : ℕ} {r : PendingRequest} (hr : w.requests.lookup id = some r) (hs : r.streamId = none)
    (hnew : stream ∉ streams) :
    Coherent ids (stream :: streams) { w.setRequest id { r with streamId := some stream, opened := false } with
      streamToRequest := w.streamToRequest.insert stream id } := by
  have hlookup := Table.lookup_insert_if w.requests id
  have hstreams := Table.lookup_insert_if w.streamToRequest stream
  have hfree : w.streamToRequest.lookup stream = none := by
    by_contra hold
    exact hnew (h.opened stream hold)
  constructor
  · intro s id'
    simp only [Worker.setRequest, hstreams, hlookup]
    have hstream := h.inverse s id'
    have hother := h.inverse stream id'
    grind
  · intro id' q hq
    simp only [Worker.setRequest, hlookup] at hq
    grind [h.holds id' r, h.holds id' q]
  · intro id' q hq
    simp only [Worker.setRequest, hlookup] at hq
    grind [h.discards id' r, h.discards id' q]
  · intro id' q hblocked hq
    simp only [Worker.setRequest, hlookup] at hq
    grind [h.blocked id' q hblocked]
  · intro id' hid'
    simp only [Worker.setRequest, hlookup] at hid'
    have hid := h.known id'
    grind [Worker.setRequest]
  · intro s hs'
    simp only [hstreams] at hs'
    have hold := h.opened s
    grind
  · exact h.healthy

lemma fail (fits : ℕ → Bool) (id : ℕ) (r : PendingRequest) (message : Bytes) :
    Coherent ids streams (w.fail fits id r message) := by
  unfold Worker.fail
  split <;> exact h.congr rfl

lemma cancelRequest (fits : ℕ → Bool) (id : ℕ) (message : Bytes) :
    Coherent ids streams (w.cancelRequest fits id message) := by
  unfold Worker.cancelRequest
  split
  case h_1 => exact h
  case h_2 r hr => exact (h.erase hr).fail fits id r message

lemma block (hr : w.requests.lookup id = some r) (hs : r.streamId ≠ none) :
    Coherent ids streams { w with responseBlocked := some id } := by
  refine { h with blocked := ?_, known := ?_ }
  · intro id' q hb hq
    obtain rfl := Option.some.inj hb
    obtain rfl := Option.some.inj (hr.symm.trans hq)
    exact hs
  · rintro id' (hmem | hb)
    · exact h.known id' (.inl hmem)
    · obtain rfl := Option.some.inj hb
      exact h.known id (.inl (by simp [hr]))

lemma unblock : Coherent ids streams { w with responseBlocked := none } :=
  { h with
    blocked := fun _ _ hb => by simp at hb
    known := fun id hid => h.known id (.inl (hid.resolve_right (by simp))) }

omit h in
lemma uploadBlind (ids streams : List ℕ) : UploadBlind (Coherent ids streams) where
  queue _ h := h.congr rfl
  reply _ h := h.congr rfl
  upload {_ id r} _ hr h := h.setRequest hr rfl rfl (h.holds id r hr)
  cancel fits id message h := h.cancelRequest fits id message

lemma enqueueWarmupRequest (hids : warmupRequestId ∉ ids) (path authority : Bytes) :
    Coherent (warmupRequestId :: ids) streams (w.enqueueWarmupRequest path authority) := by
  unfold Worker.enqueueWarmupRequest
  split
  case isTrue => exact h.mono (List.subset_cons_self _ ids) (List.Subset.refl streams)
  case isFalse =>
    have hinsert : Coherent (warmupRequestId :: ids) streams
        (w.setRequest warmupRequestId (.warmup path authority)) :=
      h.insert hids rfl (fun _ => rfl) (by simp [PendingRequest.warmup])
    exact hinsert.congr rfl

lemma dispatchWaiting (fits : ℕ → Bool) (ready : Readiness) {outcome : OpenOutcome} {streams' : List ℕ}
    (hsub : streams ⊆ streams') (hnew : ∀ stream, outcome = .opened stream → stream ∉ streams ∧ stream ∈ streams') :
    Coherent ids streams' (w.dispatchWaiting fits ready outcome) := by
  have hmono := h.mono (List.Subset.refl ids) hsub
  have hround := dispatchRound w fits ready outcome
  generalize w.dispatchWaiting fits ready outcome = next at hround ⊢
  cases hround with
  | requeue queue => exact hmono.congr rfl
  | opens rest hr hs houtcome =>
    obtain ⟨hfresh, hmem⟩ := hnew _ houtcome
    have hassign := (h.assign hr hs hfresh).mono (List.Subset.refl ids) (List.cons_subset.mpr ⟨hmem, hsub⟩)
    exact hassign.congr rfl
  | @fails id r rest hr hs error =>
    have hpop : Coherent ids streams' { w with waiting := rest } := hmono.congr rfl
    have herase := hpop.erase hr
    rw [hs] at herase
    exact herase.fail fits id r _

/-- The body of a request on a stream is drained, whatever stops the loop. -/
lemma drainResponseBody (hr : w.requests.lookup id = some r) (hs : r.streamId ≠ none) (c : Choices) (d : Drain) :
    Coherent ids streams (settle c id (w.drainResponseBody id d)) := by
  have hfold : Coherent ids streams (d.reads.foldl (fun w bytes => w.forward id bytes) w) ∧
      (d.reads.foldl (fun w bytes => w.forward id bytes) w).requests = w.requests :=
    List.foldlRecOn d.reads _ (motive := fun w' => Coherent ids streams w' ∧ w'.requests = w.requests)
      ⟨h, rfl⟩ fun _ hw _ _ => ⟨hw.1.congr rfl, hw.2⟩
  simp only [Worker.drainResponseBody, hr, Option.isNone_iff_eq_none, hs, if_false]
  cases d.last with
  | full => exact hfold.1.block (by rw [hfold.2]; exact hr) hs
  | closed => exact hfold.1.cancelRequest c.fits id _
  | done => exact hfold.1
  | failed error => exact stop c.fits (by simp)

lemma retryDelivery (c : Choices) : Coherent ids streams (w.retryDelivery c) := by
  unfold Worker.retryDelivery
  split
  case h_1 => exact h
  case h_2 id hb =>
    dsimp only
    split
    case h_1 => exact h.unblock
    case h_2 r hr =>
      have hs := h.blocked id r hb hr
      split
      case h_1 => exact h.unblock.drainResponseBody hr hs c c.drain
      case h_2 frame _ =>
        have hset : ∀ f, Coherent ids streams
            ({ w with responseBlocked := none }.setRequest id { r with pendingResponse := f }) :=
          fun f => h.unblock.setRequest hr rfl rfl (h.holds id r hr)
        simp only [Worker.setRequest, AList.lookup_insert]
        cases c.answer with
        | ready => exact (hset none).congr rfl
        | full =>
          have hagain : Coherent ids streams (({ w with responseBlocked := none }.setRequest id
              { r with pendingResponse := none }).setRequest id { r with pendingResponse := some frame }) :=
            (hset none).setRequest (AList.lookup_insert w.requests) rfl rfl (h.holds id r hr)
          exact hagain.block (AList.lookup_insert _) hs
        | closed => exact (hset none).cancelRequest c.fits id _

lemma startResponse (hr : w.requests.lookup id = some r) (hstarted : r.responseStarted = false) (c : Choices)
    (head : ResponseHead) : Coherent ids streams (w.startResponse c id head) := by
  simp only [Worker.startResponse, hr]
  split
  case isTrue => exact h.setRequest hr rfl rfl (by simp)
  case isFalse hdiscard =>
    -- the request waits for its head, so it still has both ends
    obtain ⟨hresponse, hrx⟩ := h.holds id r hr (by simpa using hdiscard) hstarted
    have hset : Coherent ids streams (w.setRequest id
        { r with bodyRx := false, response := false, responseStarted := true }) :=
      h.setRequest hr rfl rfl (by simp)
    simp only [hresponse, hrx, Bool.not_true, Bool.false_eq_true, if_false]
    split
    · exact hset.congr rfl
    · exact hset.cancelRequest c.fits id _

lemma sendTrailers (hr : w.requests.lookup id = some r) (hs : r.streamId ≠ none) (c : Choices)
    (trailers : HeaderMap) : Coherent ids streams (w.sendTrailers c id trailers) := by
  unfold Worker.sendTrailers
  cases c.answer with
  | ready => exact h.congr rfl
  | full =>
    simp only [trySend, hr]
    have hset : Coherent ids streams
        (w.setRequest id { r with pendingResponse := some (.trailers trailers) }) :=
      h.setRequest hr rfl rfl (h.holds id r hr)
    exact hset.block (AList.lookup_insert _) hs
  | closed => exact h.cancelRequest c.fits id _

lemma onHeaders (hr : w.requests.lookup id = some r) (hs : r.streamId ≠ none) (C : HttpCrate) (c : Choices)
    (list : List H3Header) : Coherent ids streams (w.onHeaders C c id list) := by
  simp only [Worker.onHeaders, hr]
  split
  case isTrue =>
    split
    · exact h.cancelRequest c.fits id _
    · exact h.sendTrailers hr hs c _
  case isFalse hstarted =>
    split
    · exact h.cancelRequest c.fits id _
    · split
      · exact h
      · exact h.startResponse hr (by simpa using hstarted) c _

lemma onData (hr : w.requests.lookup id = some r) (hs : r.streamId ≠ none) (c : Choices) :
    Coherent ids streams (w.onData c id) := by
  unfold Worker.onData
  split
  case isFalse => exact h.drainResponseBody hr hs c c.drain
  case isTrue =>
    simp only [discardResponseBody, hr, Option.bind_some, Option.isNone_iff_eq_none, hs, if_false]
    cases c.received with
    | ok bytes => exact h.congr rfl
    | error error => exact stop c.fits (by simp)

lemma onFinished {stream id : ℕ} {r : PendingRequest} (hr : w.requests.lookup id = some r)
    (hs : r.streamId = some stream) : Coherent ids streams (w.onFinished stream id) := by
  have herase := h.erase hr
  rw [hs] at herase
  simp only [Worker.onFinished, hr]
  split_ifs <;> exact herase.congr rfl

lemma pollEvent (C : HttpCrate) (stream : ℕ) (event : H3Event) (c : Choices) :
    Coherent ids streams (w.pollEvent C stream event c) := by
  unfold Worker.pollEvent
  split
  case isTrue => exact h.congr rfl
  case isFalse hgo =>
    split
    case h_1 => exact h
    case h_2 id hid =>
      -- the stream of an event belongs to a request that is on it
      obtain ⟨r, hr, hs⟩ := (h.inverse stream id).mp hid
      have hsome : r.streamId ≠ none := by simp [hs]
      cases event with
      | headers list => exact h.onHeaders hr hsome C c list
      | data => exact h.onData hr hsome c
      | finished => exact h.onFinished hr hs
      | reset code => exact h.cancelRequest c.fits id _
      | goAway => exact absurd rfl hgo
      | priorityUpdate => exact h

lemma handleCommand (fits : ℕ → Bool) {command : Command} {ids' : List ℕ} (hsub : ids ⊆ ids')
    (hnew : ∀ id headers hasBody allowEarlyData opened,
      command = .opens id headers hasBody allowEarlyData opened → id ∉ ids ∧ id ∈ ids') :
    Coherent ids' streams (w.handleCommand fits command) := by
  have hmono := h.mono hsub (List.Subset.refl streams)
  cases command with
  | opens id headers hasBody allowEarlyData opened =>
    obtain ⟨hid, hmem⟩ := hnew _ _ _ _ _ rfl
    simp only [Worker.handleCommand]
    split
    case isTrue => exact hmono.congr rfl
    case isFalse =>
      have hinsert : Coherent (id :: ids) streams
          (w.setRequest id (.fresh headers hasBody allowEarlyData opened)) :=
        h.insert hid rfl (by simp [PendingRequest.fresh]) fun _ _ => ⟨rfl, rfl⟩
      exact (hinsert.mono (List.cons_subset.mpr ⟨hmem, hsub⟩) (List.Subset.refl streams)).congr rfl
  | body id data fin => exact (uploadBlind ids' streams).enqueueWrite hmono id _
  | trailers id headers => exact (uploadBlind ids' streams).enqueueWrite hmono id _
  | cancel id => exact hmono.cancelRequest fits id _

end Coherent

end Worker

/-- The id that an event opens a request with. -/
def WorkerEvent.requestId : WorkerEvent → Option ℕ
  | .command (.opens id _ _ _ _) _ => some id
  | _ => none

/-- The stream that quiche makes for an event. -/
def WorkerEvent.streamId : WorkerEvent → Option ℕ
  | .dispatch _ (.opened stream) _ => some stream
  | _ => none

/-- New requests have new ids, which start above the id of the warmup request, and new streams have
new stream ids. -/
structure FreshIds (es : List WorkerEvent) : Prop where
  requests : (es.filterMap WorkerEvent.requestId).Nodup
  warmup : warmupRequestId ∉ es.filterMap WorkerEvent.requestId
  streams : (es.filterMap WorkerEvent.streamId).Nodup

lemma FreshIds.of_append {past es : List WorkerEvent} (h : FreshIds (past ++ es)) : FreshIds past := by
  obtain ⟨hids, hwarm, hstreams⟩ := h
  rw [List.filterMap_append] at hids hwarm hstreams
  exact ⟨hids.of_append_left, fun hmem => hwarm (List.mem_append_left _ hmem), hstreams.of_append_left⟩

lemma FreshIds.requestId {past : List WorkerEvent} {e : WorkerEvent} {id : ℕ}
    (h : FreshIds (past ++ [e])) (he : e.requestId = some id) :
    id ∉ past.filterMap WorkerEvent.requestId ∧ id ≠ warmupRequestId := by
  obtain ⟨hids, hwarm, -⟩ := h
  have hlast : [e].filterMap WorkerEvent.requestId = [id] := by simp [he]
  rw [List.filterMap_append, hlast] at hids hwarm
  refine ⟨fun hmem => (List.nodup_append.mp hids).2.2 id hmem id (by simp) rfl, ?_⟩
  rintro rfl
  exact hwarm (by simp)

lemma FreshIds.streamId {past : List WorkerEvent} {e : WorkerEvent} {stream : ℕ}
    (h : FreshIds (past ++ [e])) (he : e.streamId = some stream) :
    stream ∉ past.filterMap WorkerEvent.streamId := by
  have hstreams := h.streams
  have hlast : [e].filterMap WorkerEvent.streamId = [stream] := by simp [he]
  rw [List.filterMap_append, hlast] at hstreams
  exact fun hmem => (List.nodup_append.mp hstreams).2.2 stream hmem stream (by simp) rfl

namespace WorkerLoop

/-- The ids that requests have had so far. -/
def usedIds (past : List WorkerEvent) (l : WorkerLoop) : List ℕ :=
  (if l.warmupDone then [warmupRequestId] else []) ++ past.filterMap WorkerEvent.requestId

/-- The invariant of the loop after the given events. -/
def Sound (past : List WorkerEvent) (l : WorkerLoop) : Prop :=
  l.worker.Coherent (l.usedIds past) (past.filterMap WorkerEvent.streamId)

lemma sound_start (settings : BridgeSettings) : (start settings).Sound [] where
  inverse stream id := by simp [start, Worker.start]
  holds id r hr := by simp [start, Worker.start] at hr
  discards id r hr := by simp [start, Worker.start] at hr
  blocked id r hb := by simp [start, Worker.start] at hb
  known id hid := by simp [start, Worker.start] at hid
  opened stream hs := by simp [start, Worker.start] at hs
  healthy m := by simp [start, Worker.start]

lemma subset_usedIds {past : List WorkerEvent} {l l' : WorkerLoop} (hdone : l.warmupDone = l'.warmupDone)
    (e : WorkerEvent) : l.usedIds past ⊆ l'.usedIds (past ++ [e]) := by
  rw [usedIds, usedIds, hdone, List.filterMap_append, ← List.append_assoc]
  exact List.subset_append_left _ _

/-- The warmup has its id from its own turn on. -/
lemma cons_subset_usedIds {past : List WorkerEvent} {l l' : WorkerLoop} (hdone : l.warmupDone = false)
    (hdone' : l'.warmupDone = true) (e : WorkerEvent) :
    warmupRequestId :: l.usedIds past ⊆ l'.usedIds (past ++ [e]) := by
  rw [usedIds, usedIds, hdone, hdone', List.filterMap_append]
  exact List.cons_subset_cons _ (List.subset_append_left _ _)

lemma subset_streams (past : List WorkerEvent) (e : WorkerEvent) :
    past.filterMap WorkerEvent.streamId ⊆ (past ++ [e]).filterMap WorkerEvent.streamId := by
  rw [List.filterMap_append]
  exact List.subset_append_left _ _

lemma step_eq_some {C : HttpCrate} {settings : BridgeSettings} {l l' : WorkerLoop} {e : WorkerEvent}
    (h : l.step C settings e = some l') : l.enabled e = true ∧ l' = l.turn C settings e := by
  unfold WorkerLoop.step at h
  split at h
  case isFalse => cases h
  case isTrue henabled => exact ⟨henabled, (Option.some.inj h).symm⟩

lemma usedIds_step {C : HttpCrate} {settings : BridgeSettings} {l l' : WorkerLoop} {e : WorkerEvent}
    (past : List WorkerEvent) (hstep : l.step C settings e = some l') :
    l.usedIds past ⊆ l'.usedIds (past ++ [e]) := by
  obtain ⟨-, rfl⟩ := step_eq_some hstep
  cases e with
  | warmup =>
    simp only [turn, WorkerLoop.warmup]
    split
    case isFalse => exact subset_usedIds rfl _
    case isTrue hpending =>
      simp only [Bool.and_eq_true, Bool.not_eq_true'] at hpending
      split
      · exact List.Subset.trans (List.subset_cons_self _ _) (cons_subset_usedIds hpending.2 rfl _)
      · exact subset_usedIds rfl _
  | capacity =>
    simp only [turn]
    split <;> exact subset_usedIds rfl _
  | pacing =>
    simp only [turn]
    split <;> exact subset_usedIds rfl _
  | _ => exact subset_usedIds rfl _

/-- A new id is not among those used so far. -/
lemma notMem_usedIds {past : List WorkerEvent} {e : WorkerEvent} {id : ℕ} (l : WorkerLoop)
    (hfresh : FreshIds (past ++ [e])) (he : e.requestId = some id) : id ∉ l.usedIds past := by
  obtain ⟨hnew, hwarm⟩ := hfresh.requestId he
  rw [usedIds, List.mem_append, not_or]
  refine ⟨?_, hnew⟩
  split <;> simp [hwarm]

lemma mem_usedIds {past : List WorkerEvent} {e : WorkerEvent} {id : ℕ} (l : WorkerLoop)
    (he : e.requestId = some id) : id ∈ l.usedIds (past ++ [e]) := by
  rw [usedIds, List.filterMap_append]
  apply List.mem_append_right
  apply List.mem_append_right
  simp [he]

lemma mem_streams {past : List WorkerEvent} {e : WorkerEvent} {stream : ℕ} (he : e.streamId = some stream) :
    stream ∈ (past ++ [e]).filterMap WorkerEvent.streamId := by
  rw [List.filterMap_append]
  apply List.mem_append_right
  simp [he]

lemma notMem_usedIds_warmup {past : List WorkerEvent} {l : WorkerLoop} (hfresh : FreshIds past)
    (hdone : l.warmupDone = false) : warmupRequestId ∉ l.usedIds past := by
  simpa [usedIds, hdone] using hfresh.warmup

lemma Sound.step {past : List WorkerEvent} {l l' : WorkerLoop} {e : WorkerEvent} (h : l.Sound past)
    (C : HttpCrate) (settings : BridgeSettings) (hfresh : FreshIds (past ++ [e]))
    (hstep : l.step C settings e = some l') : l'.Sound (past ++ [e]) := by
  have hids : l.usedIds past ⊆ l.usedIds (past ++ [e]) := subset_usedIds rfl e
  have hstreams := subset_streams past e
  obtain ⟨henabled, rfl⟩ := step_eq_some hstep
  cases e with
  | command command fits =>
    refine (h.handleCommand fits hids ?_).mono (List.Subset.refl _) hstreams
    rintro id headers hasBody allowEarlyData opened rfl
    exact ⟨notMem_usedIds l hfresh rfl, mem_usedIds l rfl⟩
  | warmup =>
    simp only [turn, WorkerLoop.warmup]
    split
    case isFalse => exact h.mono hids hstreams
    case isTrue hpending =>
      simp only [Bool.and_eq_true, Bool.not_eq_true'] at hpending
      split
      case h_1 path _ =>
        have hnew := notMem_usedIds_warmup hfresh.of_append hpending.2
        refine (h.enqueueWarmupRequest hnew path settings.serverName).mono ?_ hstreams
        exact cons_subset_usedIds hpending.2 rfl _
      case h_2 => exact h.mono hids hstreams
  | dispatch ready outcome fits =>
    refine (h.dispatchWaiting fits ready hstreams ?_).mono hids (List.Subset.refl _)
    rintro stream rfl
    exact ⟨hfresh.streamId rfl, mem_streams rfl⟩
  | write outcome fits =>
    exact ((Worker.Coherent.uploadBlind _ _).drivePendingWrite h fits outcome).mono hids hstreams
  | retry c => exact (h.retryDelivery c).mono hids hstreams
  | poll stream event c => exact (h.pollEvent C stream event c).mono hids hstreams
  | capacity =>
    simp only [enabled, Bool.and_eq_true] at henabled
    obtain ⟨r, hr⟩ := Option.isSome_iff_exists.mp henabled.2
    simp only [turn, hr]
    exact h.mono hids hstreams
  | flush scheduled => exact h.mono hids hstreams
  | pacing =>
    simp only [enabled, Bool.and_eq_true] at henabled
    simp only [turn, henabled.2, if_true]
    exact h.mono hids hstreams
  | stop result fits => exact .stop fits (by cases result <;> simp [Except.mapError])

lemma sound_of_run {C : HttpCrate} {settings : BridgeSettings} {es : List WorkerEvent} {l : WorkerLoop}
    (hrun : Runs.Run (fun l e l' => step C settings l e = some l') (start settings) es l)
    (hfresh : FreshIds es) : l.Sound es := by
  refine hrun.invariant (fun past l => FreshIds past → l.Sound past) ?_ (fun _ => sound_start settings)
    hfresh
  intro past l e l' hstep h hpast
  exact (h hpast.of_append).step C settings hpast hstep

/-- In every run the two maps are inverse to each other, every request but the warmup holds its
sender and receiver until its response starts, and no internal failure ends the worker. -/
theorem maps_inverse_and_senders_held {C : HttpCrate} {settings : BridgeSettings}
    {es : List WorkerEvent} {l : WorkerLoop}
    (hrun : Runs.Run (fun l e l' => step C settings l e = some l') (start settings) es l)
    (hfresh : FreshIds es) :
    (∀ stream id, l.worker.streamToRequest.lookup stream = some id ↔
      ∃ r, l.worker.requests.lookup id = some r ∧ r.streamId = some stream) ∧
    (∀ id r, l.worker.requests.lookup id = some r → id ≠ warmupRequestId → r.responseStarted = false →
      r.response = true ∧ r.bodyRx = true) ∧
    ∀ m, l.worker.result ≠ some (.error (.internal m)) ∧
      l.worker.result ≠ some (.error (.panics m)) := by
  have h := sound_of_run hrun hfresh
  refine ⟨h.inverse, ?_, h.healthy⟩
  intro id r hr hid hstarted
  refine h.holds id r hr ?_ hstarted
  by_contra hdiscard
  exact hid (h.discards id r hr (by simpa using hdiscard))

def warmedSettings : BridgeSettings := ⟨ascii "origin.example", some (ascii "/ping")⟩

/-- All channels have room, and nothing is received. -/
def idleChoices : Choices := ⟨fun _ => true, true, .ready, ⟨[], .done⟩, .ok []⟩

/-- The trailers of the first request find its channel full while the second one waits for its
head. -/
def blockedTrailers : List WorkerEvent :=
  [.warmup, .dispatch .established (.opened 0) fun _ => true,
    .command (.opens 1 [] false true false) fun _ => true,
    .dispatch .established (.opened 4) fun _ => true,
    .command (.opens 2 [] true false true) fun _ => true,
    .dispatch .established (.opened 8) fun _ => true,
    .poll 4 (.headers [⟨pseudoStatus, ascii "200"⟩]) idleChoices,
    .poll 4 .data { idleChoices with drain := ⟨[ascii "hi"], .done⟩ },
    .poll 4 (.headers [⟨ascii "x-end", ascii "1"⟩]) { idleChoices with answer := .full }]

theorem maps_inverse_and_senders_held_blocked : ∃ (l : WorkerLoop) (r : PendingRequest),
    Runs.exec (step .reference warmedSettings) (start warmedSettings) blockedTrailers = some l ∧
      l.worker.responseBlocked = some 1 ∧ l.worker.requests.lookup 2 = some r ∧ r.streamId = some 8 ∧
      r.response = true ∧ r.bodyRx = true := by
  have hexec : (Runs.exec (step .reference warmedSettings) (start warmedSettings) blockedTrailers).map
      (fun l => (l.worker.responseBlocked, l.worker.streamToRequest.lookup 8,
        (l.worker.requests.lookup 2).map PendingRequest.responseStarted)) = some (some 1, some 2, some false) := by
    decide +kernel
  obtain ⟨l, hl, hview⟩ := Option.map_eq_some_iff.mp hexec
  simp only [Prod.mk.injEq] at hview
  obtain ⟨hblocked, hstream, hstarted⟩ := hview
  have hfresh : FreshIds blockedTrailers := ⟨by decide, by decide, by decide⟩
  obtain ⟨hinverse, hholds, -⟩ := maps_inverse_and_senders_held (Runs.run_of_exec hl) hfresh
  obtain ⟨r, hr, hid⟩ := (hinverse 8 2).mp hstream
  rw [hr, Option.map_some, Option.some.injEq] at hstarted
  exact ⟨l, r, hl, hblocked, hr, hid, hholds 2 r hr (by decide) hstarted⟩

end WorkerLoop

end Pingola
