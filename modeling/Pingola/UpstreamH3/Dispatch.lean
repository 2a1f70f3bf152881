import Pingola.UpstreamH3.Connector
import Pingola.UpstreamH3.Frame

/-!
# Waiting requests

A request waits in a queue until `dispatch_waiting` finds it a stream. The connector decides whether
it may go into early data, the queue carries it through stream limits and the handshake, and a pass
over the queue either gives it a stream, ends it, or leaves it in the queue once.
-/

namespace Pingola
open ByteText

def OpenOutcome.isBlocked : OpenOutcome → Bool
  | .blocked => true
  | _ => false

namespace Worker

/-- What a round of `dispatch_waiting` hands to `send_request`: the id of the request, its headers and
`fin`. -/
def sendRequest (w : Worker) (ready : Readiness) : Option (ℕ × List H3Header × Bool) :=
  match w.nextWaiting ready with
  | .sends id r _ => some (id, r.headers, !r.hasBody)
  | _ => none

variable {w : Worker}

/-- What a round does to the requests and the queue. The first waiting request leaves the queue if it
has ended or has a stream; else it goes to the back of the queue, stays in front, gets a stream, or
ends. -/
lemma agenda_dispatchWaiting (w : Worker) (fits : ℕ → Bool) (ready : Readiness) (outcome : OpenOutcome) :
    (w.waiting = [] ∧ (w.dispatchWaiting fits ready outcome).agenda = w.agenda) ∨
    ∃ id rest, w.waiting = id :: rest ∧
      (((∀ r, w.requests.lookup id = some r → r.streamId ≠ none) ∧
          (w.dispatchWaiting fits ready outcome).agenda = (w.requests, rest, w.draining)) ∨
        ∃ r, w.requests.lookup id = some r ∧ r.streamId = none ∧
          ((w.dispatchWaiting fits ready outcome).agenda = (w.requests, rest ++ [id], w.draining) ∨
            (w.dispatchWaiting fits ready outcome).agenda = (w.requests, id :: rest, w.draining) ∨
            (∃ stream, (w.dispatchWaiting fits ready outcome).agenda =
              (w.requests.insert id { r with streamId := some stream, opened := false }, rest, w.draining)) ∨
            (w.dispatchWaiting fits ready outcome).agenda = (w.requests.erase id, rest, w.draining))) := by
  have hnext := nextWaiting_spec w ready
  unfold dispatchWaiting
  generalize w.nextWaiting ready = next at hnext ⊢
  cases hnext with
  | nothing hwaiting => exact .inl ⟨hwaiting, rfl⟩
  | settled hwaiting hr => exact .inr ⟨_, _, hwaiting, .inl ⟨hr, rfl⟩⟩
  | deferred hwaiting hr hs => exact .inr ⟨_, _, hwaiting, .inr ⟨_, hr, hs, .inl rfl⟩⟩
  | sends hwaiting hr hs =>
    refine .inr ⟨_, _, hwaiting, .inr ⟨_, hr, hs, ?_⟩⟩
    cases outcome with
    | opened stream => exact .inr (.inr (.inl ⟨stream, rfl⟩))
    | blocked => exact .inr (.inl rfl)
    | failed error =>
      simp only [hr]
      exact .inr (.inr (.inr (agenda_fail _ _ _ _ _)))

lemma draining_dispatchWaiting (w : Worker) (fits : ℕ → Bool) (ready : Readiness) (outcome : OpenOutcome) :
    (w.dispatchWaiting fits ready outcome).draining = w.draining := by
  have hagenda := agenda_dispatchWaiting w fits ready outcome
  simp only [agenda, Prod.mk.injEq] at hagenda
  grind

/-! ### The queue -/

/-- The request was opened with what it has to send now. -/
def Origin (past : List WorkerEvent) (id : ℕ) (r : PendingRequest) : Prop :=
  ∃ opened fits, .command (.opens id r.headers r.hasBody r.allowEarlyData opened) fits ∈ past

/-- A request without a stream waits exactly once, and one that may go into early data was opened so. -/
def Pending (past : List WorkerEvent) (waiting : List ℕ) (_draining : Bool) (id : ℕ) (r : PendingRequest) : Prop :=
  (r.streamId = none → waiting.count id = 1) ∧ (r.allowEarlyData = true → Origin past id r)

/-- All requests are pending in this sense, and only ids in use wait. -/
def Orderly (ids : List ℕ) (past : List WorkerEvent) (w : Worker) : Prop :=
  w.Each (Pending past) ∧ ∀ id ∈ w.waiting, id ∈ ids

lemma Pending.congr {past : List WorkerEvent} {waiting waiting' : List ℕ} {draining draining' : Bool} {id : ℕ}
    {r : PendingRequest} (h : Pending past waiting draining id r) (hcount : waiting'.count id = waiting.count id) :
    Pending past waiting' draining' id r := ⟨fun hr => hcount.trans (h.1 hr), h.2⟩

lemma Pending.mono {past past' : List WorkerEvent} {waiting : List ℕ} {draining : Bool} {id : ℕ}
    {r : PendingRequest} (h : Pending past waiting draining id r) (hpast : past ⊆ past') :
    Pending past' waiting draining id r := by
  refine ⟨h.1, fun hearly => ?_⟩
  obtain ⟨opened, fits, hmem⟩ := h.2 hearly
  exact ⟨opened, fits, hpast hmem⟩

namespace Orderly

variable {ids ids' : List ℕ} {past past' : List WorkerEvent} {w w' : Worker}

lemma responseBlind (ids : List ℕ) (past : List WorkerEvent) : ResponseBlind (Orderly ids past) := by
  refine (responseBlind_each ?_).and (responseBlind_queue fun waiting _ => ∀ id ∈ waiting, id ∈ ids)
  intro waiting draining id r r' hout h
  simp only [PendingRequest.outbound, Prod.mk.injEq] at hout
  obtain ⟨hheaders, hbody, hearly, -, hstream, -⟩ := hout
  simp only [Pending, Origin, hheaders, hbody, hearly, hstream]
  exact h

lemma uploadBlind (ids : List ℕ) (past : List WorkerEvent) : UploadBlind (Orderly ids past) :=
  (uploadBlind_each fun _ _ _ _ _ h => h).and (uploadBlind_queue fun waiting _ => ∀ id ∈ waiting, id ∈ ids)

lemma mono (h : Orderly ids past w) (hids : ids ⊆ ids') (hpast : past ⊆ past') : Orderly ids' past' w :=
  ⟨fun id r hr => (h.1 id r hr).mono hpast, fun id hid => hids (h.2 id hid)⟩

lemma drains (h : Orderly ids past w) : Orderly ids past { w with draining := true } := h

/-- A request with a new id joins the queue. -/
lemma push {id : ℕ} {r : PendingRequest} (h : Orderly ids past w) (hid : id ∉ ids)
    (hr : r.allowEarlyData = true → Origin past id r) :
    Orderly (id :: ids) past { w.setRequest id r with waiting := w.waiting ++ [id] } := by
  have hnew : w.waiting.count id = 0 := List.count_eq_zero.mpr fun hmem => hid (h.2 id hmem)
  constructor
  · intro id' r' hr'
    rcases Table.lookup_insert_cases hr' with ⟨rfl, rfl⟩ | ⟨hne, hr'⟩
    · exact ⟨fun _ => by simp [hnew], hr⟩
    · apply (h.1 id' r' hr').congr
      simp [List.count_append, Ne.symm hne]
  · intro id' hid'
    rcases List.mem_append.mp hid' with hold | hlast
    · exact List.mem_cons_of_mem id (h.2 id' hold)
    · exact List.mem_cons.mpr (.inl (List.mem_singleton.mp hlast))

/-- The queue after a round: the ids that it counts are those of before, but for the one in front. -/
lemma pop {id : ℕ} {rest queue : List ℕ} {requests : Table ℕ PendingRequest} (h : Orderly ids past w)
    (hwaiting : w.waiting = id :: rest) (hagenda : w'.agenda = (requests, queue, w.draining))
    (hqueue : ∀ id', id' ≠ id → queue.count id' = w.waiting.count id') (hsub : queue ⊆ w.waiting)
    (hrequests : ∀ id', id' ≠ id → requests.lookup id' = w.requests.lookup id')
    (hself : ∀ r, requests.lookup id = some r → Pending past queue w.draining id r) : Orderly ids past w' := by
  simp only [agenda, Prod.mk.injEq] at hagenda
  obtain ⟨heq, hwaiting', hdraining⟩ := hagenda
  constructor
  · intro id' r hr
    rw [heq] at hr
    rw [hwaiting', hdraining]
    by_cases hid : id' = id
    · subst hid
      exact hself r hr
    · rw [hrequests id' hid] at hr
      exact (h.1 id' r hr).congr (hqueue id' hid)
  · intro id' hid'
    rw [hwaiting'] at hid'
    exact h.2 id' (hsub hid')

lemma dispatchWaiting (h : Orderly ids past w) (fits : ℕ → Bool) (ready : Readiness) (outcome : OpenOutcome) :
    Orderly ids past (w.dispatchWaiting fits ready outcome) := by
  rcases agenda_dispatchWaiting w fits ready outcome with ⟨-, hsame⟩ | ⟨id, rest, hwaiting, hcases⟩
  · simp only [agenda, Prod.mk.injEq] at hsame
    refine ⟨h.1.congr (by simp only [agenda, hsame]), fun id hid => h.2 id ?_⟩
    rw [hsame.2.1] at hid
    exact hid
  have hfront : ∀ id', id' ≠ id → rest.count id' = w.waiting.count id' := by
    intro id' hid
    rw [hwaiting, List.count_cons_of_ne (Ne.symm hid)]
  have hrest : rest ⊆ w.waiting := by
    rw [hwaiting]
    exact List.subset_cons_self id rest
  rcases hcases with ⟨hstreamed, hagenda⟩ | ⟨r, hr, hstream, hagenda | hagenda | ⟨stream, hagenda⟩ | hagenda⟩
  · apply h.pop hwaiting hagenda hfront hrest fun _ _ => rfl
    intro r hr
    exact ⟨fun hnone => absurd hnone (hstreamed r hr), (h.1 id r hr).2⟩
  · apply h.pop hwaiting hagenda _ _ fun _ _ => rfl
    · intro r hr
      apply (h.1 id r hr).congr
      rw [hwaiting]
      simp
    · intro id' hid
      rw [List.count_append, hfront id' hid]
      simp [Ne.symm hid]
    · intro id' hid'
      rw [hwaiting]
      simpa [or_comm] using hid'
  · apply h.pop hwaiting hagenda _ _ fun _ _ => rfl
    · intro r hr
      apply (h.1 id r hr).congr
      rw [hwaiting]
    · intro id' _
      rw [hwaiting]
    · rw [hwaiting]
      exact List.Subset.refl _
  · apply h.pop hwaiting hagenda hfront hrest fun id' hid => AList.lookup_insert_ne hid
    intro r' hr'
    rw [AList.lookup_insert] at hr'
    obtain rfl := Option.some.inj hr'
    exact ⟨fun hnone => (by cases hnone), (h.1 id r hr).2⟩
  · apply h.pop hwaiting hagenda hfront hrest fun id' hid => AList.lookup_erase_ne hid
    intro r' hr'
    rw [AList.lookup_erase] at hr'
    cases hr'

lemma opens (h : Orderly ids past w) {fits : ℕ → Bool} {id : ℕ} {headers : List H3Header}
    {hasBody allowEarlyData opened : Bool} (hid : id ∉ ids)
    (hpast : .command (.opens id headers hasBody allowEarlyData opened) fits ∈ past) :
    Orderly (id :: ids) past (w.handleCommand fits (.opens id headers hasBody allowEarlyData opened)) := by
  simp only [Worker.handleCommand]
  split
  case isTrue => exact h.mono (List.subset_cons_self id ids) (List.Subset.refl past)
  case isFalse => exact h.push hid fun _ => ⟨opened, fits, hpast⟩

lemma enqueueWarmupRequest (h : Orderly ids past w) (hids : warmupRequestId ∉ ids) (path authority : Bytes) :
    Orderly (warmupRequestId :: ids) past (w.enqueueWarmupRequest path authority) := by
  unfold Worker.enqueueWarmupRequest
  split
  case isTrue => exact h.mono (List.subset_cons_self _ ids) (List.Subset.refl past)
  case isFalse => exact h.push hids fun hearly => (by cases hearly)

end Orderly

end Worker

namespace WorkerLoop

variable {C : HttpCrate} {settings : BridgeSettings}

end WorkerLoop

end Pingola
