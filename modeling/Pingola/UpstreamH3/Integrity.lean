import Pingola.UpstreamH3.Tracking

/-!
# Integrity of upstream HTTP/3 responses

The readers of a worker get the bodies of their streams, as long as the worker does not read a body
that it throws away: `discard_response_body` leaves its bytes in the buffer, from where they go in
front of the next piece of another response.
-/

namespace Pingola
open ByteText WorkerLoop

namespace Delivery

def view (D : Delivery) (id : ℕ) : View :=
  ⟨D.assigned.lookup id, (D.assigned.lookup id).elim [] D.taken, D.readers id⟩

/-- The views after items have been taken from a stream. -/
def viewTaking (D : Delivery) (stream : ℕ) (items : List StreamItem) (id : ℕ) : View :=
  if D.assigned.lookup id = some stream then (D.view id).take items else D.view id

lemma view_after {D : Delivery} {l : WorkerLoop} {e : WorkerEvent} (he : e.streamId = none) :
    (D.after l e).view = D.viewTaking (consumed D.worker e).1 (consumed D.worker e).2 := by
  funext id
  simp only [view, viewTaking, after, assign, he, View.take]
  cases hid : D.assigned.lookup id with
  | none => simp
  | some stream =>
    by_cases hstream : stream = (consumed D.worker e).1
    · simp [hstream]
    · simp [hstream]

lemma viewTaking_nil (D : Delivery) (stream : ℕ) : D.viewTaking stream [] = D.view := by
  funext id
  simp [viewTaking, View.take]

lemma view_after_idle {D : Delivery} {l : WorkerLoop} {e : WorkerEvent} (he : e.streamId = none)
    (hidle : consumed D.worker e = (0, [])) : (D.after l e).view = D.view := by
  rw [view_after he, hidle, viewTaking_nil]

end Delivery

/-- The invariant of a delivery after the given events of the worker. -/
structure Faithful (C : HttpCrate) (past : List WorkerEvent) (D : Delivery) : Prop where
  sound : D.loop.Sound past
  tracks : Tracks C D.worker D.view
  known : ∀ id, D.assigned.lookup id ≠ none → id ∈ D.loop.usedIds past
  opened : ∀ id stream, D.assigned.lookup id = some stream →
    stream ∈ past.filterMap WorkerEvent.streamId
  quiet : ∀ stream, stream ∉ past.filterMap WorkerEvent.streamId →
    D.taken stream = [] ∧ D.unread stream = []

namespace Faithful

variable {C : HttpCrate} {settings : BridgeSettings} {past : List WorkerEvent} {D : Delivery}

lemma start (C : HttpCrate) (settings : BridgeSettings) : Faithful C [] (.start settings) where
  sound := WorkerLoop.sound_start settings
  tracks := by
    have hnone : ∀ id, (Delivery.start settings).worker.requests.lookup id = none := fun _ => rfl
    refine ⟨rfl, fun id r hr => by simp [hnone] at hr, fun id => ?_⟩
    rw [hnone]
    refine ⟨by simp, by simp, by simp, List.prefix_rfl, fun hended => ?_, fun hfinished => ?_, ?_⟩
    · cases hended
    · cases hfinished
    · refine ⟨le_rfl, rfl, fun _ => rfl, fun hdone => ?_, fun hmem => ?_⟩
      · cases hdone
      · cases hmem
  known id hid := by simp [Delivery.start] at hid
  opened id stream hid := by simp [Delivery.start] at hid
  quiet _ _ := ⟨rfl, rfl⟩

/-- A stream is given to a request that is alive. -/
lemma assigned_after {l : WorkerLoop} {e : WorkerEvent} (hsound : l.Sound (past ++ [e])) {id stream : ℕ}
    (hid : (D.after l e).assigned.lookup id = some stream) :
    D.assigned.lookup id = some stream ∨
      l.worker.requests.lookup id ≠ none ∧ e.streamId = some stream := by
  simp only [Delivery.after, Delivery.assign] at hid
  split at hid
  case h_1 => exact .inl hid
  case h_2 new he =>
    split at hid
    case h_1 => exact .inl hid
    case h_2 target htarget =>
      rcases Table.lookup_insert_cases hid with ⟨rfl, rfl⟩ | ⟨-, hid⟩
      · obtain ⟨r, hr, -⟩ := (hsound.inverse stream id).mp htarget
        exact .inr ⟨by simp [hr], he⟩
      · exact .inl hid

variable (h : Faithful C past D)
include h

lemma coherent : D.worker.Coherent (D.loop.usedIds past) (past.filterMap WorkerEvent.streamId) :=
  h.sound

lemma mapped_of_assigned {id stream : ℕ} (halive : D.worker.requests.lookup id ≠ none)
    (hstream : D.assigned.lookup id = some stream) : D.worker.streamToRequest.lookup stream = some id := by
  obtain ⟨r, hr⟩ := Option.ne_none_iff_exists'.mp halive
  exact (h.coherent.inverse stream id).mpr
    ⟨r, hr, ((h.tracks.aligned id).stream r hr).symm.trans hstream⟩

/-- Items of a stream change the view of nobody who is alive, but of the request that is on the
stream. -/
lemma viewTaking_of_unmapped {id stream : ℕ} (hid : D.worker.streamToRequest.lookup stream ≠ some id)
    (items : List StreamItem) :
    D.viewTaking stream items id = D.view id ∨
      D.worker.requests.lookup id = none ∧ ∃ items', D.viewTaking stream items id = (D.view id).take items' := by
  unfold Delivery.viewTaking
  split
  case isFalse => exact .inl rfl
  case isTrue hstream =>
    refine .inr ⟨?_, items, rfl⟩
    by_contra halive
    exact hid (h.mapped_of_assigned halive hstream)

/-- A request on a stream is the only one there that is alive. -/
lemma taking_of_mapped {w : Worker} {id stream : ℕ} {items : List StreamItem}
    (hid : D.worker.streamToRequest.lookup stream = some id) (hturn : ∀ views, Tracks C D.worker views →
      Tracks C w (Function.update views id ((views id).take items))) :
    Tracks C w (D.viewTaking stream items) := by
  obtain ⟨r, hr, hs⟩ := (h.coherent.inverse stream id).mp hid
  have hassigned : D.assigned.lookup id = some stream := by
    rw [← hs]
    exact (h.tracks.aligned id).stream r hr
  have hmid : Tracks C D.worker (Function.update (D.viewTaking stream items) id (D.view id)) := by
    refine h.tracks.grow fun other => ?_
    by_cases hother : other = id
    · subst hother
      exact .inl (by simp)
    · rw [Function.update_of_ne hother]
      refine h.viewTaking_of_unmapped ?_ items
      rw [hid]
      exact fun heq => hother (Option.some.inj heq).symm
  have hfinal := hturn _ hmid
  have hviews : Function.update (Function.update (D.viewTaking stream items) id (D.view id)) id
      ((Function.update (D.viewTaking stream items) id (D.view id) id).take items) =
        D.viewTaking stream items := by
    rw [Function.update_idem, Function.update_self, Function.update_eq_self_iff, Delivery.viewTaking,
      if_pos hassigned]
  rwa [hviews] at hfinal

/-- Nobody is alive on a stream that is not in the map. -/
lemma taking_of_unmapped {stream : ℕ} (hnone : D.worker.streamToRequest.lookup stream = none)
    (items : List StreamItem) : Tracks C D.worker (D.viewTaking stream items) :=
  h.tracks.grow fun _ => h.viewTaking_of_unmapped (by simp [hnone]) items

lemma pollEvent {stream : ℕ} {event : H3Event} {c : Choices} (hfree : D.worker.responseBlocked = none)
    (hdiscards : D.discards (.work (.poll stream event c)) = false) :
    Tracks C (D.worker.pollEvent C stream event c)
      (D.viewTaking (Delivery.consumed D.worker (.poll stream event c)).1
        (Delivery.consumed D.worker (.poll stream event c)).2) := by
  cases hid : D.worker.streamToRequest.lookup stream with
  | none =>
    have hunmapped := h.taking_of_unmapped hid
    cases event with
    | headers list =>
      simpa [Worker.pollEvent, H3Event.isGoAway, Delivery.consumed, hid] using hunmapped [.headers list]
    | data =>
      simpa [Worker.pollEvent, H3Event.isGoAway, Delivery.consumed, hid] using hunmapped []
    | finished =>
      simpa [Worker.pollEvent, H3Event.isGoAway, Delivery.consumed, hid] using hunmapped [.fin]
    | reset code =>
      simpa [Worker.pollEvent, H3Event.isGoAway, hid, Delivery.consumed, Delivery.viewTaking_nil] using h.tracks
    | goAway =>
      simp only [Delivery.consumed, Delivery.viewTaking_nil]
      exact h.tracks.congr rfl
    | priorityUpdate =>
      simpa [Worker.pollEvent, H3Event.isGoAway, hid, Delivery.consumed, Delivery.viewTaking_nil] using h.tracks
  | some id =>
    obtain ⟨r, hr, hs⟩ := (h.coherent.inverse stream id).mp hid
    cases event with
    | headers list =>
      simp only [Worker.pollEvent, H3Event.isGoAway, hid]
      exact h.taking_of_mapped hid fun views hviews =>
        hviews.onHeaders hr hfree (h.coherent.holds id r hr) c list
    | data =>
      have hkept : r.discardBody = false := by simpa [Delivery.discards, hid, hr] using hdiscards
      simp only [Worker.pollEvent, H3Event.isGoAway, hid, Worker.onData, Delivery.consumed, hr,
        Option.any_some, hkept]
      exact h.taking_of_mapped hid fun views hviews =>
        hviews.drainResponseBody hr (by simp [hs]) hfree c c.drain
    | finished =>
      simp only [Worker.pollEvent, H3Event.isGoAway, hid]
      exact h.taking_of_mapped hid fun views hviews => hviews.onFinished hr hfree stream
    | reset code =>
      simp only [Worker.pollEvent, H3Event.isGoAway, hid, Delivery.consumed, Delivery.viewTaking_nil]
      exact h.tracks.cancelRequest c.fits id _
    | goAway =>
      simp only [Delivery.consumed, Delivery.viewTaking_nil]
      exact h.tracks.congr rfl
    | priorityUpdate =>
      simpa [Worker.pollEvent, H3Event.isGoAway, hid, Delivery.consumed, Delivery.viewTaking_nil] using h.tracks

lemma retryDelivery (c : Choices) :
    Tracks C (D.worker.retryDelivery c)
      (D.viewTaking (Delivery.consumed D.worker (.retry c)).1
        (Delivery.consumed D.worker (.retry c)).2) := by
  cases hwaiter : D.worker.responseWaiter with
  | none =>
    simp only [Delivery.consumed, hwaiter, Delivery.viewTaking_nil]
    exact h.tracks.retryDelivery_stashed c (by simp [hwaiter])
  | some r =>
    obtain ⟨id, hblocked, hr⟩ := Option.bind_eq_some_iff.mp hwaiter
    cases hpending : r.pendingResponse with
    | some frame =>
      simp only [Delivery.consumed, hwaiter, hpending, Option.isSome_some, if_true,
        Delivery.viewTaking_nil]
      refine h.tracks.retryDelivery_stashed c ?_
      rintro q hq
      obtain rfl := Option.some.inj (hwaiter.symm.trans hq)
      simp [hpending]
    | none =>
      have hs := h.coherent.blocked id r hblocked hr
      obtain ⟨stream, hstream⟩ := Option.ne_none_iff_exists'.mp hs
      have hid := (h.coherent.inverse stream id).mpr ⟨r, hr, hstream⟩
      simp only [Delivery.consumed, hwaiter, hpending, hstream]
      exact h.taking_of_mapped hid fun views hviews =>
        hviews.retryDelivery_drain c hblocked hr hs hpending

lemma dispatchWaiting {l : WorkerLoop} {ready : Readiness} {outcome : OpenOutcome} {fits : ℕ → Bool}
    (hfresh : FreshIds (past ++ [.dispatch ready outcome fits]))
    (hl : l.worker = D.worker.dispatchWaiting fits ready outcome) :
    Tracks C l.worker (D.after l (.dispatch ready outcome fits)).view := by
  rw [hl]
  rcases h.tracks.dispatchWaiting fits ready outcome with
    ⟨id, stream, rfl, ⟨r, hr, hs⟩, hstreams, htracks⟩ | ⟨hstreams, htracks⟩
  · -- nothing was ever handed out on the new stream
    have hquiet := (h.quiet stream (hfresh.streamId rfl)).1
    have hnone : D.assigned.lookup id = none := by
      rw [← hs]
      exact (h.tracks.aligned id).stream r hr
    have hassigned : (D.after l (.dispatch ready (.opened stream) fits)).assigned =
        D.assigned.insert id stream := by
      simp [Delivery.after, Delivery.assign, WorkerEvent.streamId, hl, hstreams]
    have hview : (D.after l (.dispatch ready (.opened stream) fits)).view =
        Function.update D.view id { D.view id with stream := some stream } := by
      funext other
      rw [Delivery.view, hassigned]
      by_cases hother : other = id
      · subst hother
        simp [Delivery.view, Delivery.after, Delivery.consumed, hnone, hquiet]
      · simp [Delivery.view, Delivery.after, Delivery.consumed, hother, AList.lookup_insert_ne hother]
    rw [hview]
    exact htracks
  · have hassigned : (D.after l (.dispatch ready outcome fits)).assigned = D.assigned := by
      cases outcome with
      | opened stream =>
        have hfree : D.worker.streamToRequest.lookup stream = none := by
          by_contra hmapped
          exact hfresh.streamId rfl (h.coherent.opened stream hmapped)
        simp [Delivery.after, Delivery.assign, WorkerEvent.streamId, hl, hstreams, hfree]
      | blocked => rfl
      | failed error => rfl
    have hview : (D.after l (.dispatch ready outcome fits)).view = D.view := by
      funext other
      rw [Delivery.view, hassigned]
      simp [Delivery.view, Delivery.after, Delivery.consumed]
    rw [hview]
    exact htracks

/-- What a turn does to the requests, for the items that it takes. -/
lemma turn {l : WorkerLoop} {e : WorkerEvent} (hfresh : FreshIds (past ++ [e]))
    (hstep : D.loop.step C settings e = some l) (hdiscards : D.discards (.work e) = false) :
    Tracks C l.worker (D.after l e).view := by
  have hempty : ∀ id, id ∉ D.loop.usedIds past → D.worker.requests.lookup id = none ∧
      (D.view id).items = [] ∧ (D.view id).stream = none := by
    intro id hid
    have hnone : D.assigned.lookup id = none := by
      by_contra hassigned
      exact hid (h.known id hassigned)
    refine ⟨?_, by simp [Delivery.view, hnone], hnone⟩
    by_contra halive
    exact hid (h.coherent.known id (.inl halive))
  obtain ⟨henabled, rfl⟩ := WorkerLoop.step_eq_some hstep
  simp only [WorkerLoop.enabled, Bool.and_eq_true] at henabled
  cases e with
  | command command fits =>
    rw [Delivery.view_after_idle rfl rfl]
    refine h.tracks.handleCommand fits ?_
    rintro id headers hasBody allowEarlyData opened rfl
    exact hempty id (WorkerLoop.notMem_usedIds D.loop hfresh rfl)
  | warmup =>
    rw [Delivery.view_after_idle rfl rfl]
    simp only [WorkerLoop.turn, WorkerLoop.warmup]
    split
    case isFalse => exact h.tracks
    case isTrue hpending =>
      simp only [Bool.and_eq_true, Bool.not_eq_true'] at hpending
      obtain ⟨-, hitems, hstream⟩ :=
        hempty warmupRequestId (WorkerLoop.notMem_usedIds_warmup hfresh.of_append hpending.2)
      split
      case h_1 path _ => exact h.tracks.enqueueWarmupRequest hitems hstream path settings.serverName
      case h_2 => exact h.tracks
  | dispatch ready outcome fits => exact h.dispatchWaiting hfresh rfl
  | write outcome fits =>
    rw [Delivery.view_after_idle rfl rfl]
    exact (Tracks.uploadBlind C _).drivePendingWrite h.tracks fits outcome
  | retry c =>
    rw [Delivery.view_after rfl]
    exact h.retryDelivery c
  | poll stream event c =>
    rw [Delivery.view_after rfl]
    exact h.pollEvent (Option.isNone_iff_eq_none.mp henabled.2) hdiscards
  | capacity =>
    rw [Delivery.view_after_idle rfl rfl]
    obtain ⟨r, hr⟩ := Option.isSome_iff_exists.mp henabled.2
    simp only [WorkerLoop.turn, hr]
    exact h.tracks
  | flush scheduled =>
    rw [Delivery.view_after_idle rfl rfl]
    exact h.tracks
  | pacing =>
    rw [Delivery.view_after_idle rfl rfl]
    simp only [WorkerLoop.turn, henabled.2, if_true]
    exact h.tracks
  | stop result fits =>
    rw [Delivery.view_after_idle rfl rfl]
    exact h.tracks.stop fits _

lemma work {l : WorkerLoop} {e : WorkerEvent} (hfresh : FreshIds (past ++ [e]))
    (hstep : D.loop.step C settings e = some l)
    (htaken : (Delivery.consumed D.worker e).2 <+: D.unread (Delivery.consumed D.worker e).1)
    (hdiscards : D.discards (.work e) = false) : Faithful C (past ++ [e]) (D.after l e) := by
  have hsound := h.sound.step C settings hfresh hstep
  have hids := WorkerLoop.usedIds_step past hstep
  have hstreams := WorkerLoop.subset_streams past e
  refine ⟨hsound, h.turn hfresh hstep hdiscards, ?_, ?_, ?_⟩
  · intro id hid
    obtain ⟨stream, hstream⟩ := Option.ne_none_iff_exists'.mp hid
    rcases assigned_after hsound hstream with hold | ⟨halive, -⟩
    · exact hids (h.known id (by simp [hold]))
    · exact hsound.known id (.inl halive)
  · intro id stream hid
    rcases assigned_after hsound hid with hold | ⟨-, he⟩
    · exact hstreams (h.opened id stream hold)
    · simp [he]
  · intro stream hnew
    obtain ⟨hnone, hunread⟩ := h.quiet stream fun hmem => hnew (hstreams hmem)
    by_cases hstream : stream = (Delivery.consumed D.worker e).1
    · rw [← hstream, hunread, List.prefix_nil] at htaken
      simp [Delivery.after, ← hstream, htaken, hnone, hunread]
    · simp [Delivery.after, hstream, hnone, hunread]

lemma arrive {stream : ℕ} (hstream : D.assigned.entries.any (fun e => e.2 = stream) = true)
    (items : List StreamItem) :
    Faithful C past
      { D with unread := Function.update D.unread stream (D.unread stream ++ items) } := by
  refine { h with quiet := fun other hnew => ?_ }
  obtain ⟨hnone, hunread⟩ := h.quiet other hnew
  by_cases hother : other = stream
  · obtain ⟨⟨id, s⟩, hmem, hs⟩ := List.any_eq_true.mp hstream
    have hlookup : D.assigned.lookup id = some s := AList.mem_lookup_iff.mpr hmem
    obtain rfl : s = stream := by simpa using hs
    exact absurd (h.opened id s hlookup) (hother ▸ hnew)
  · exact ⟨hnone, by simp [hother, hunread]⟩

lemma read (id : ℕ) (head : Bool) :
    Faithful C past { D with readers := Function.update D.readers id ((D.readers id).readResponseBody
      head (D.worker.requests.lookup id).isSome (D.worker.finished id) (D.worker.sent id)) } := by
  refine { h with tracks := { h.tracks with aligned := fun other => ?_ } }
  by_cases hother : other = id
  · subst hother
    simpa [Delivery.view, Delivery.worker] using (h.tracks.aligned other).read head
  · simpa [Delivery.view, Delivery.worker, hother] using h.tracks.aligned other

end Faithful

/-- The events of the worker among those of a delivery. -/
def DeliveryEvent.workerEvent : DeliveryEvent → Option WorkerEvent
  | .work e => some e
  | _ => none

namespace Delivery

lemma faithful_step {C : HttpCrate} {settings : BridgeSettings} {past : List WorkerEvent}
    {D D' : Delivery} {e : DeliveryEvent} (h : Faithful C past D)
    (hfresh : FreshIds (past ++ e.workerEvent.toList)) (hstep : D.step C settings e = some D')
    (hdiscards : D.discards e = false) : Faithful C (past ++ e.workerEvent.toList) D' := by
  cases e with
  | arrive stream items =>
    simp only [step] at hstep
    split at hstep
    case isFalse => cases hstep
    case isTrue hstream =>
      obtain rfl := Option.some.inj hstep
      simpa [DeliveryEvent.workerEvent] using h.arrive hstream items
  | work e =>
    obtain ⟨l, hl, hrest⟩ := Option.bind_eq_some_iff.mp hstep
    dsimp only at hrest
    split at hrest
    case isFalse => cases hrest
    case isTrue htaken =>
      obtain rfl := Option.some.inj hrest
      exact h.work hfresh hl htaken hdiscards
  | read id =>
    obtain rfl := Option.some.inj hstep
    simpa [DeliveryEvent.workerEvent] using h.read id _

lemma faithful_of_run {C : HttpCrate} {settings : BridgeSettings} {es : List DeliveryEvent}
    {D : Delivery} (hrun : Runs.Run (fun D e D' => step C settings D e = some D' ∧ D.discards e = false)
      (start settings) es D) (hfresh : FreshIds (es.filterMap DeliveryEvent.workerEvent)) :
    Faithful C (es.filterMap DeliveryEvent.workerEvent) D := by
  refine hrun.invariant (fun past D => FreshIds (past.filterMap DeliveryEvent.workerEvent) →
    Faithful C (past.filterMap DeliveryEvent.workerEvent) D) ?_ (fun _ => .start C settings) hfresh
  intro past D e D' hstep h hpast
  have hlast : [e].filterMap DeliveryEvent.workerEvent = e.workerEvent.toList := by
    cases e <;> rfl
  rw [List.filterMap_append, hlast] at hpast ⊢
  exact faithful_step (h hpast.of_append) hpast hstep.1 hstep.2

/-- In every run in which the worker throws no body away, the chunks of a reader are the beginning of
the body on its stream, and all of a complete body after a clean end. -/
theorem chunks_prefix_of_body {C : HttpCrate} {settings : BridgeSettings} {es : List DeliveryEvent}
    {D : Delivery} (hrun : Runs.Run (fun D e D' => step C settings D e = some D' ∧ D.discards e = false)
      (start settings) es D) (hfresh : FreshIds (es.filterMap DeliveryEvent.workerEvent)) (id : ℕ) :
    (D.readers id).chunks.flatten <+: (responseBody C (D.history id)).bytes ∧
    (.done ∈ (D.readers id).answers →
      (D.readers id).chunks.flatten = (responseBody C (D.history id)).bytes ∧
        (responseBody C (D.history id)).complete = true) := by
  have haligned := (faithful_of_run hrun hfresh).tracks.aligned id
  have hreads : (D.readers id).Reads (D.worker.sent id) (responseBody C (D.view id).items) :=
    haligned.reads
  have hgrows : (responseBody C (D.view id).items).Grows (responseBody C (D.history id)) := by
    unfold view history
    cases D.assigned.lookup id with
    | none => exact .refl _
    | some stream => exact responseBody_grows (D.taken stream) (D.unread stream)
  refine ⟨?_, fun hdone => ?_⟩
  · have hlog := (delivered_grows ((D.worker.sent id).take (D.readers id).received)
      ((D.worker.sent id).drop (D.readers id).received)).1
    rw [List.take_append_drop, ← hreads.chunks] at hlog
    exact hlog.trans (haligned.bytes.trans hgrows.1)
  · obtain ⟨hchunks, hcomplete⟩ := hreads.complete (hreads.done hdone)
    rw [hgrows.2 hcomplete]
    exact ⟨hchunks, hcomplete⟩

def okHead : List H3Header := [⟨pseudoStatus, ascii "200"⟩]

/-- A request, its response in two pieces with a full channel in between, and reads to the end. -/
def readToEnd : List DeliveryEvent :=
  [.work (.command (.opens 1 [] false true false) fun _ => true),
    .work (.dispatch .established (.opened 4) fun _ => true),
    .arrive 4 (.headers okHead :: (ascii "hi").map .byte),
    .work (.poll 4 (.headers okHead) idleChoices),
    .work (.poll 4 .data { idleChoices with drain := ⟨[ascii "h"], .full⟩ }), .read 1,
    .work (.retry { idleChoices with drain := ⟨[ascii "i"], .done⟩ }),
    .arrive 4 [.fin], .work (.poll 4 .finished idleChoices), .read 1, .read 1]

theorem chunks_prefix_of_body_to_end : ∃ D : Delivery,
    (D.readers 1).answers = [.chunk (ascii "h"), .chunk (ascii "i"), .done] ∧
      (D.readers 1).chunks.flatten = (responseBody .reference (D.history 1)).bytes ∧
      (responseBody .reference (D.history 1)).complete = true := by
  have hexec : (Runs.exec (fun D e => if !D.discards e then D.step .reference warmedSettings e else none)
      (start warmedSettings) readToEnd).map (fun D => (D.readers 1).answers) =
        some [.chunk (ascii "h"), .chunk (ascii "i"), .done] := by
    decide +kernel
  obtain ⟨D, hD, hanswers⟩ := Option.map_eq_some_iff.mp hexec
  have hrun : Runs.Run (fun D e D' => step .reference warmedSettings D e = some D' ∧ D.discards e = false)
      (start warmedSettings) readToEnd D :=
    (Runs.run_of_exec_guarded hD).mono fun _ _ _ h => ⟨h.1, by simpa using h.2⟩
  have hfresh : FreshIds (readToEnd.filterMap DeliveryEvent.workerEvent) :=
    ⟨by decide, by decide, by decide⟩
  exact ⟨D, hanswers, (chunks_prefix_of_body hrun hfresh 1).2 (by rw [hanswers]; decide)⟩

/-- The warmup response has a body, and the next request is answered after it. -/
def afterWarmup : List DeliveryEvent :=
  [.work .warmup, .work (.dispatch .established (.opened 0) fun _ => true),
    .arrive 0 (.headers okHead :: (ascii "pong").map .byte),
    .work (.poll 0 (.headers okHead) idleChoices),
    .work (.poll 0 .data { idleChoices with received := .ok (ascii "pong") }),
    .work (.command (.opens 1 [] false true false) fun _ => true),
    .work (.dispatch .established (.opened 4) fun _ => true),
    .arrive 4 (.headers okHead :: (ascii "hi").map .byte ++ [.fin]),
    .work (.poll 4 (.headers okHead) idleChoices),
    .work (.poll 4 .data { idleChoices with drain := ⟨[ascii "hi"], .done⟩ }),
    .work (.poll 4 .finished idleChoices), .read 1, .read 1]

/-- The reader gets the body of the warmup in front of its own, and then a clean end. -/
theorem chunks_start_with_warmup_body : ∃ D : Delivery,
    Runs.exec (step .reference warmedSettings) (start warmedSettings) afterWarmup = some D ∧
      FreshIds (afterWarmup.filterMap DeliveryEvent.workerEvent) ∧
      (responseBody .reference (D.history 1)).bytes = ascii "hi" ∧
      (D.readers 1).chunks.flatten.take 4 = ascii "pong" ∧ .done ∈ (D.readers 1).answers ∧
      ¬(D.readers 1).chunks.flatten <+: (responseBody .reference (D.history 1)).bytes := by
  have hexec : (Runs.exec (step .reference warmedSettings) (start warmedSettings) afterWarmup).map
      (fun D => ((responseBody .reference (D.history 1)).bytes, (D.readers 1).chunks.flatten.take 4,
        (D.readers 1).answers.getLast?)) = some (ascii "hi", ascii "pong", some .done) := by
    decide +kernel
  obtain ⟨D, hD, hview⟩ := Option.map_eq_some_iff.mp hexec
  simp only [Prod.mk.injEq] at hview
  obtain ⟨hbody, hchunks, hlast⟩ := hview
  refine ⟨D, hD, ⟨by decide, by decide, by decide⟩, hbody, hchunks, List.mem_of_getLast? hlast, ?_⟩
  intro hprefix
  have htake := (List.take_prefix 4 _).trans hprefix
  rw [hchunks, hbody] at htake
  exact absurd htake (by decide)

end Delivery

end Pingola
