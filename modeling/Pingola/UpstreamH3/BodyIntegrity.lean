import Pingola.UpstreamH3.Upload

/-!
# Request bodies arrive whole

A request body that its writer has finished was sent on the stream of its request: all bytes, in order,
with the end of the stream at the end.
-/

namespace Pingola
open ByteText

/-! ### A turn -/

namespace WorkerLoop

variable {C : HttpCrate} {settings : BridgeSettings} {l l' : WorkerLoop} {past : List WorkerEvent} {e : WorkerEvent}
  {id : ℕ} {stream : Option ℕ} {commands : List BodyPart} {queued : Option BodyPart} {acked : ℕ}

lemma Sound.lookup_eq_none (h : l.Sound past) {id' : ℕ} (hid : id' ∉ l.usedIds past) :
    l.worker.requests.lookup id' = none := by
  by_contra hsome
  exact hid (h.known id' (.inl hsome))

/-- The stream of a request was opened in the run. -/
lemma Sound.stream_mem (h : l.Sound past) {id' s : ℕ} {r : PendingRequest}
    (hr : l.worker.requests.lookup id' = some r) (hs : r.streamId = some s) : s ∈ past.filterMap WorkerEvent.streamId := by
  apply h.opened
  rw [(h.inverse s id').mpr ⟨r, hr, hs⟩]
  exact Option.some_ne_none _

/-- A turn that neither opens a stream nor writes to one. -/
lemma upload_turn_quiet {log : List BodyPart} (hsound : l.Sound past) (hfresh : FreshIds (past ++ [e]))
    (hstep : l.step C settings e = some l') (hspares : e.spares id = true)
    (hused : stream ≠ none → id ∈ l.usedIds past) (hplaced : l.worker.Placed id stream)
    (hrec : Recorded stream commands log queued acked (l.worker.uploadOf id))
    (hdispatch : ∀ ready outcome fits, e ≠ .dispatch ready outcome fits)
    (hwrite : ∀ outcome fits, e ≠ .write outcome fits) :
    l'.worker.Placed id stream ∧ Recorded stream commands log queued acked (l'.worker.uploadOf id) := by
  have hR := (Worker.Placed.responseBlind id stream).and (Recorded.responseBlind stream commands log queued acked id)
  have hU := Worker.Placed.uploadBlind id stream
  have hnone : ∀ id', id' ∉ l.usedIds past → id' = id → stream = none := by
    rintro id' hid rfl
    by_contra hsome
    exact hid (hused hsome)
  refine step_of_responseBlind hR hstep ⟨hplaced, hrec⟩ ?_ ?_ (fun _ _ _ he _ => absurd he (hdispatch _ _ _))
    (fun _ _ he => absurd he (hwrite _ _)) (fun _ _ _ => ⟨hplaced, hrec⟩)
  · rintro c fits rfl
    cases c with
    | opens id' headers hasBody allowEarlyData opened =>
      have hnew : id' ∉ l.usedIds past := notMem_usedIds l hfresh rfl
      refine ⟨?_, ?_⟩
      · simp only [Worker.handleCommand]
        split
        · exact hplaced
        · exact hplaced.fresh (r := .fresh headers hasBody allowEarlyData opened) rfl (hnone id' hnew)
      · rwa [Worker.uploadOf_opens (hsound.lookup_eq_none hnew)]
    | body id' data fin =>
      have hid : id' ≠ id := by simpa [WorkerEvent.spares] using hspares
      refine ⟨hU.enqueueWrite hplaced id' _, ?_⟩
      simp only [Worker.handleCommand]
      rwa [Worker.uploadOf_enqueueWrite_of_ne hid]
    | trailers id' headers =>
      have hid : id' ≠ id := by simpa [WorkerEvent.spares] using hspares
      refine ⟨hU.enqueueWrite hplaced id' _, ?_⟩
      simp only [Worker.handleCommand]
      rwa [Worker.uploadOf_enqueueWrite_of_ne hid]
    | cancel id' => exact hR.cancel fits id' _ ⟨hplaced, hrec⟩
  · rintro rfl
    unfold WorkerLoop.warmup
    split
    case isFalse => exact ⟨hplaced, hrec⟩
    case isTrue hpending =>
      simp only [Bool.and_eq_true, Bool.not_eq_true'] at hpending
      split
      case h_2 => exact ⟨hplaced, hrec⟩
      case h_1 path _ =>
        refine ⟨?_, ?_⟩
        · simp only [Worker.enqueueWarmupRequest]
          split
          · exact hplaced
          · exact hplaced.fresh (r := .warmup path settings.serverName) rfl
              (hnone _ (notMem_usedIds_warmup hfresh.of_append hpending.2))
        · rwa [Worker.uploadOf_enqueueWarmupRequest]

/-- A turn, with the stream that the request then has and what was then sent. -/
lemma upload_turn {log : ℕ → List BodyPart} (hsound : l.Sound past) (hfresh : FreshIds (past ++ [e]))
    (hstep : l.step C settings e = some l') (hspares : e.spares id = true) (hsendable : l.worker.sendable e = true)
    (hlog : ∀ s, s ∉ past.filterMap WorkerEvent.streamId → log s = [])
    (hknown : ∀ s, stream = some s → s ∈ past.filterMap WorkerEvent.streamId)
    (hused : stream ≠ none → id ∈ l.usedIds past) (hplaced : l.worker.Placed id stream)
    (hrec : Recorded stream commands (stream.elim [] log) queued acked (l.worker.uploadOf id)) :
    ∃ stream', ((l'.worker.requests.lookup id).bind PendingRequest.streamId).or stream = stream' ∧
      (stream ≠ none → stream' = stream) ∧ l'.worker.Placed id stream' ∧
      Recorded stream' commands (stream'.elim [] (Upload.record log (l.worker.bodySent e))) queued acked
        (l'.worker.uploadOf id) := by
  cases e with
  | dispatch ready outcome fits =>
    obtain ⟨-, rfl⟩ := step_eq_some hstep
    have hnew : ∀ s, outcome = .opened s →
        stream ≠ some s ∧ ∀ id' r, l.worker.requests.lookup id' = some r → r.streamId ≠ some s := by
      rintro s rfl
      have hs : s ∉ past.filterMap WorkerEvent.streamId := hfresh.streamId rfl
      exact ⟨fun heq => hs (hknown s heq), fun id' r hr heq => hs (hsound.stream_mem hr heq)⟩
    rcases hplaced.dispatchWaiting fits ready outcome hnew with
      ⟨hdrops, hplaced'⟩ | ⟨s, r, rfl, rfl, hr, hs, hplaced', hview⟩
    · exact ⟨stream, hplaced'.or_stream, fun _ => rfl, hplaced', hrec.drops hdrops⟩
    · obtain ⟨opened, hview⟩ := hview
      refine ⟨some s, ?_, fun hne => absurd rfl hne, hplaced', ?_⟩
      · simp only [turn, hr, Option.bind_some, hs, Option.some_or]
      · simp only [turn, hview]
        refine ⟨fun _ => Option.some_ne_none s, ?_, hrec.acked⟩
        simpa [Worker.bodySent, Upload.record, hlog s (hfresh.streamId rfl)] using hrec.ledger
  | write outcome fits =>
    obtain ⟨-, rfl⟩ := step_eq_some hstep
    have hplaced' := (Worker.Placed.uploadBlind id stream).drivePendingWrite hplaced fits outcome
    exact ⟨stream, hplaced'.or_stream, fun _ => rfl, hplaced', hrec.drivePendingWrite hplaced hsendable⟩
  | _ =>
    obtain ⟨hplaced', hrec'⟩ :=
      upload_turn_quiet hsound hfresh hstep hspares hused hplaced hrec (by simp) (by simp)
    exact ⟨stream, hplaced'.or_stream, fun _ => rfl, hplaced', hrec'⟩

end WorkerLoop

namespace Upload

/-- How many commands the writer has heard of. -/
def acked (u : Upload) : ℕ :=
  match u.point with
  | .awaiting _ => u.commands.length - 1
  | .failed => 0
  | _ => u.commands.length

/-- What the writer has not sent yet. -/
def rest (u : Upload) : Bytes := u.writer.pending ++ u.left.flatten

/-- Where the commands end, which depends on where the writer stands. -/
def Ends (u : Upload) : Prop :=
  match u.point with
  | .ready | .opening => BodyPart.NoFin u.commands
  | .awaiting fin =>
    u.commands ≠ [] ∧ if fin then BodyPart.EndsInFin u.commands ∧ u.rest = [] else BodyPart.NoFin u.commands
  | .failed => True
  | .finished => BodyPart.EndsInFin u.commands ∧ u.rest = []

/-- The writer's side of an upload. -/
structure Writes (chunks : List Bytes) (u : Upload) : Prop where
  expects : u.writer.expectsBody = true
  opened : u.writer.opens = false → u.stream ≠ none
  unopened : u.writer.opens = true → u.commands = []
  bytes : BodyPart.bytes u.commands ++ u.rest = chunks.flatten
  ends : u.Ends

/-- An upload after the given turns of the worker. -/
structure Intact (id : ℕ) (chunks : List Bytes) (past : List WorkerEvent) (u : Upload) : Prop where
  sound : u.loop.Sound past
  unsent : ∀ s, s ∉ past.filterMap WorkerEvent.streamId → u.log s = []
  known : ∀ s, u.stream = some s → s ∈ past.filterMap WorkerEvent.streamId
  used : u.stream ≠ none → id ∈ u.loop.usedIds past
  placed : u.worker.Placed id u.stream
  recorded : Recorded u.stream u.commands (u.stream.elim [] u.log) u.queued u.acked (u.worker.uploadOf id)
  writes : u.Writes chunks

namespace Intact

variable {id : ℕ} {chunks : List Bytes} {past : List WorkerEvent} {u : Upload}

lemma start (settings : BridgeSettings) (id : ℕ) (chunks : List Bytes) :
    Intact id chunks [] (.start settings chunks) where
  sound := WorkerLoop.sound_start settings
  unsent _ _ := rfl
  known _ h := by cases h
  used h := absurd rfl h
  placed id r hr := by simp [Upload.start, Upload.worker, WorkerLoop.start, Worker.start] at hr
  recorded := ⟨fun h => (by cases h), .start _ rfl, List.nil_prefix⟩
  writes := ⟨rfl, fun h => (by cases h), fun _ => rfl, rfl, BodyPart.noFin_nil⟩

/-- The completions that the writer has heard of, with the next one. -/
lemma acked_succ {written : List (Except Bytes Unit)} {n : ℕ} (h : List.replicate n (.ok ()) <+: written)
    (hnext : written[n]? = some (.ok ())) : List.replicate (n + 1) (.ok ()) <+: written := by
  obtain ⟨more, rfl⟩ := h
  rw [List.getElem?_append_right (by simp), List.length_replicate, Nat.sub_self] at hnext
  cases more with
  | nil => cases hnext
  | cons result more =>
    obtain rfl := Option.some.inj hnext
    exact ⟨more, by simp [List.replicate_succ']⟩

variable (h : u.Intact id chunks past)
include h

/-- What the writer does leaves the worker alone. -/
lemma of_writer {u' : Upload} (hloop : u'.loop = u.loop) (hstream : u'.stream = u.stream) (hlog : u'.log = u.log)
    (hrec : Recorded u.stream u'.commands (u.stream.elim [] u.log) u'.queued u'.acked (u.worker.uploadOf id))
    (hwrites : u'.Writes chunks) : u'.Intact id chunks past where
  sound := hloop ▸ h.sound
  unsent := hlog ▸ h.unsent
  known := hstream ▸ h.known
  used := by rw [hstream, hloop]; exact h.used
  placed := by rw [Upload.worker, hloop, hstream]; exact h.placed
  recorded := by rw [Upload.worker, hloop, hstream, hlog]; exact hrec
  writes := hwrites

/-- All commands so far are completed. -/
lemma length_written (hacked : u.acked = u.commands.length) :
    (u.worker.uploadOf id).written.length = u.commands.length := by
  have hle := h.recorded.ledger.length_le
  have hge := h.recorded.acked.length_le
  rw [List.length_replicate, hacked] at hge
  omega

/-- A call that keeps the bytes of the body together, once all commands so far are completed. -/
lemma issue (hacked : u.acked = u.commands.length) (hnoFin : BodyPart.NoFin u.commands) {writer : H3RequestBodyWriter}
    {left : List Bytes} {command : Option BodyPart} (hexpects : writer.expectsBody = true)
    (hopens : writer.opens = false) (hstream : u.stream ≠ none)
    (hbytes : BodyPart.bytes command.toList ++ (writer.pending ++ left.flatten) = u.rest)
    (hfin : ∀ part, command = some part → part.fin = true → writer.pending ++ left.flatten = []) :
    (Upload.issue { u with writer := writer, left := left } command).Intact id chunks past := by
  have hall := h.recorded.acked
  rw [hacked] at hall
  have hnever : writer.opens ≠ true := by simp [hopens]
  cases command with
  | none =>
    refine h.of_writer rfl rfl rfl ⟨h.recorded.opened, h.recorded.ledger, hall⟩
      ⟨hexpects, fun _ => hstream, fun hopen => absurd hopen hnever, ?_, hnoFin⟩
    have hrest : writer.pending ++ left.flatten = u.rest := hbytes
    exact (congrArg _ hrest).trans h.writes.bytes
  | some part =>
    have hsend := h.recorded.ledger.send (h.length_written hacked) part
    refine h.of_writer rfl rfl rfl ⟨h.recorded.opened, hsend, ?_⟩
      ⟨hexpects, fun _ => hstream, fun hopen => absurd hopen hnever, ?_, by simp [Upload.issue], ?_⟩
    · simpa [Upload.issue, Upload.acked] using hall
    · rw [← h.writes.bytes, ← hbytes]
      simp [Upload.issue, Upload.rest]
    · change if part.fin then BodyPart.EndsInFin (u.commands ++ [part]) ∧ writer.pending ++ left.flatten = []
        else BodyPart.NoFin (u.commands ++ [part])
      split
      case isTrue hpart => exact ⟨BodyPart.endsInFin_append.mpr ⟨hnoFin, hpart⟩, hfin part rfl hpart⟩
      case isFalse hpart =>
        exact BodyPart.noFin_append.mpr ⟨hnoFin, BodyPart.noFin_singleton.mpr (by simpa using hpart)⟩

lemma perform (hacked : u.acked = u.commands.length) (hnoFin : BodyPart.NoFin u.commands)
    (hopens : u.writer.opens = false) : u.perform.Intact id chunks past := by
  have hstream := h.writes.opened hopens
  unfold Upload.perform
  split
  case h_1 data left hleft =>
    obtain ⟨hbytes, hpart, hkeeps, hexpects⟩ := u.writer.writeAllBuf_spec data
    refine h.issue hacked hnoFin (hexpects.trans h.writes.expects) (hkeeps.trans hopens) hstream ?_ ?_
    · rw [← List.append_assoc, hbytes, Upload.rest, hleft, List.flatten_cons, List.append_assoc]
    · intro part hcommand hfin
      rw [hcommand] at hpart
      rw [hpart part (by simp)] at hfin
      cases hfin
  case h_2 hleft =>
    obtain ⟨hcommand, hpending, hkeeps, hexpects⟩ := u.writer.finish_spec
    refine h.issue hacked hnoFin (hexpects.trans h.writes.expects) (hkeeps.trans hopens) hstream ?_ ?_
    · simp [hcommand, hpending, Upload.rest]
    · intro part _ _
      rw [hpending, hleft]
      rfl

variable {C : HttpCrate} {settings : BridgeSettings} {u' : Upload}

/-- The writer goes on to another point. -/
lemma at_point {point : WriterPoint}
    (hacked : List.replicate (Upload.acked { u with point := point }) (.ok ()) <+: (u.worker.uploadOf id).written)
    (hends : Upload.Ends { u with point := point }) : Intact id chunks past { u with point := point } :=
  h.of_writer rfl rfl rfl ⟨h.recorded.opened, h.recorded.ledger, hacked⟩
    ⟨h.writes.expects, h.writes.opened, h.writes.unopened, h.writes.bytes, hends⟩

lemma fails : Intact id chunks past { u with point := .failed } :=
  h.at_point List.nil_prefix trivial

lemma call (hstep : u.step C settings id .call = some u') : u'.Intact id chunks past := by
  simp only [Upload.step] at hstep
  split at hstep
  case isFalse => cases hstep
  case isTrue hpoint =>
    have hacked : u.acked = u.commands.length := by simp [Upload.acked, hpoint]
    have hnoFin : BodyPart.NoFin u.commands := by simpa [Upload.Ends, hpoint] using h.writes.ends
    obtain rfl := Option.some.inj hstep
    simp only [h.writes.expects, Bool.not_true, Bool.and_false, Bool.false_eq_true, if_false]
    split
    case isTrue =>
      have hall := h.recorded.acked
      rw [hacked] at hall
      exact h.at_point hall hnoFin
    case isFalse hopens => exact h.perform hacked hnoFin (by simpa using hopens)

lemma hearOpened (hstep : u.step C settings id .opened = some u') : u'.Intact id chunks past := by
  simp only [Upload.step] at hstep
  split at hstep
  case isFalse => cases hstep
  case isTrue hpoint =>
    have hacked : u.acked = u.commands.length := by simp [Upload.acked, hpoint]
    have hnoFin : BodyPart.NoFin u.commands := by simpa [Upload.Ends, hpoint] using h.writes.ends
    obtain ⟨answer, hanswer, rfl⟩ := Option.map_eq_some_iff.mp hstep
    cases answer with
    | error message => exact h.fails
    | ok _ =>
      have hstream : u.stream ≠ none := by
        apply h.recorded.opened
        exact List.any_eq_true.mpr ⟨_, List.mem_of_mem_head? hanswer, rfl⟩
      have hopened : Intact id chunks past { u with writer.opens := false } :=
        h.of_writer rfl rfl rfl h.recorded
          ⟨h.writes.expects, fun _ => hstream, fun hopen => (by cases hopen), h.writes.bytes, h.writes.ends⟩
      exact hopened.perform hacked hnoFin rfl

lemma hearCompleted (hstep : u.step C settings id .completed = some u') : u'.Intact id chunks past := by
  simp only [Upload.step] at hstep
  split at hstep
  case h_2 => cases hstep
  case h_1 fin hpoint =>
    obtain ⟨completion, hcompletion, rfl⟩ := Option.map_eq_some_iff.mp hstep
    cases completion with
    | error message => exact h.fails
    | ok _ =>
      obtain ⟨hcommands, hends⟩ : u.commands ≠ [] ∧ if fin then BodyPart.EndsInFin u.commands ∧ u.rest = []
          else BodyPart.NoFin u.commands := by
        simpa [Upload.Ends, hpoint] using h.writes.ends
      have hacked := h.recorded.acked
      rw [Upload.acked, hpoint] at hacked
      have hall := acked_succ hacked hcompletion
      rw [Nat.sub_add_cancel (List.length_pos_iff.mpr hcommands)] at hall
      cases fin with
      | false => exact h.at_point hall hends
      | true => exact h.at_point hall hends

lemma giveUp (hstep : u.step C settings id .giveUp = some u') : u'.Intact id chunks past := by
  simp only [Upload.step] at hstep
  split at hstep
  case h_1 =>
    obtain rfl := Option.some.inj hstep
    exact h.fails
  case h_2 =>
    obtain rfl := Option.some.inj hstep
    exact h.fails
  case h_3 => cases hstep

/-- A command that the worker has not received was sent on an open stream. -/
lemma stream_ne_none {part : BodyPart} (hqueued : u.queued = some part) : u.stream ≠ none := by
  apply h.writes.opened
  by_contra hopens
  have hledger := h.recorded.ledger
  rw [h.writes.unopened (by simpa using hopens), hqueued] at hledger
  generalize (u.worker.uploadOf id).write = write at hledger
  cases hledger with
  | queued hcommands => simp at hcommands

lemma deliver {part : BodyPart} {fits : ℕ → Bool}
    (hfresh : FreshIds (past ++ [.command (.body id part.data part.fin) fits]))
    (hstep : u.step C settings id (.deliver part fits) = some u') :
    u'.Intact id chunks (past ++ [.command (.body id part.data part.fin) fits]) := by
  simp only [Upload.step] at hstep
  split at hstep
  case isFalse => cases hstep
  case isTrue hqueued =>
    have hstream := h.stream_ne_none hqueued
    obtain ⟨loop, hturn, rfl⟩ := Option.map_eq_some_iff.mp hstep
    have hrec := h.recorded
    rw [hqueued] at hrec
    have hused := u.loop.usedIds_step past hturn
    have hsound := h.sound.step C settings hfresh hturn
    obtain ⟨-, rfl⟩ := WorkerLoop.step_eq_some hturn
    exact
      { sound := hsound
        unsent := fun s hs => h.unsent s fun hmem => hs (WorkerLoop.subset_streams past _ hmem)
        known := fun s hs => WorkerLoop.subset_streams past _ (h.known s hs)
        used := fun hs => hused (h.used hs)
        placed := (Worker.Placed.uploadBlind id u.stream).enqueueWrite h.placed id _
        recorded := hrec.enqueueWrite h.placed hstream
        writes := ⟨h.writes.expects, h.writes.opened, h.writes.unopened, h.writes.bytes, h.writes.ends⟩ }

lemma work {e : WorkerEvent} (hfresh : FreshIds (past ++ [e])) (hstep : u.step C settings id (.work e) = some u') :
    u'.Intact id chunks (past ++ [e]) := by
  simp only [Upload.step] at hstep
  split at hstep
  case isFalse => cases hstep
  case isTrue hallowed =>
    rw [Bool.and_eq_true] at hallowed
    obtain ⟨loop, hturn, rfl⟩ := Option.map_eq_some_iff.mp hstep
    have hsound := h.sound.step C settings hfresh hturn
    have hused := u.loop.usedIds_step past hturn
    obtain ⟨stream, hstream, hsame, hplaced, hrec⟩ := WorkerLoop.upload_turn h.sound hfresh hturn hallowed.1
      hallowed.2 h.unsent h.known h.used h.placed h.recorded
    have hnow : ∀ s, stream = some s → u.stream = some s ∨
        ∃ r, loop.worker.requests.lookup id = some r ∧ r.streamId = some s := by
      intro s hs
      rw [hs] at hstream
      rcases Option.or_eq_some_iff.mp hstream with hlive | ⟨-, hbefore⟩
      · obtain ⟨r, hr, hrs⟩ := Option.bind_eq_some_iff.mp hlive
        exact .inr ⟨r, hr, hrs⟩
      · exact .inl hbefore
    subst hstream
    refine
      { sound := hsound
        unsent := fun s hs => by
          have hpast := fun hmem => hs (WorkerLoop.subset_streams past e hmem)
          refine (record_of_ne fun s' part hsent heq => ?_).trans (h.unsent s hpast)
          obtain ⟨write, hnext⟩ := Worker.nextWrite_of_bodySent hsent
          obtain ⟨id', rest, r, -, hr, hrs, -⟩ := Worker.nextWrite_eq_some hnext
          exact hpast (heq ▸ h.sound.stream_mem hr hrs)
        known := fun s hs => by
          rcases hnow s hs with hbefore | ⟨r, hr, hrs⟩
          · exact WorkerLoop.subset_streams past e (h.known s hbefore)
          · exact hsound.stream_mem hr hrs
        used := fun hs => by
          obtain ⟨s, hs⟩ := Option.ne_none_iff_exists'.mp hs
          rcases hnow s hs with hbefore | ⟨r, hr, -⟩
          · exact hused (h.used (by simp [hbefore]))
          · exact hsound.known id (.inl (by simp [hr]))
        placed := hplaced
        recorded := hrec
        writes := ⟨h.writes.expects, fun hopens hnone => ?_, h.writes.unopened, h.writes.bytes, h.writes.ends⟩ }
    have hbefore := h.writes.opened hopens
    exact hbefore ((hsame hbefore).symm.trans hnone)

/-- A step of the upload is a turn of the worker or none. -/
lemma step {e : UploadEvent} (hfresh : FreshIds (past ++ [e].filterMap (·.worker id)))
    (hstep : u.step C settings id e = some u') : u'.Intact id chunks (past ++ [e].filterMap (·.worker id)) := by
  cases e with
  | call => simpa [UploadEvent.worker] using h.call hstep
  | opened => simpa [UploadEvent.worker] using h.hearOpened hstep
  | completed => simpa [UploadEvent.worker] using h.hearCompleted hstep
  | giveUp => simpa [UploadEvent.worker] using h.giveUp hstep
  | deliver part fits => exact h.deliver hfresh hstep
  | work e => exact h.work hfresh hstep

/-- All commands of a finished body are completed, and the stream has what they say. -/
lemma finished (hpoint : u.point = .finished) :
    ∃ s, u.stream = some s ∧ BodyPart.bytes (u.log s) = chunks.flatten ∧ BodyPart.EndsInFin (u.log s) ∧
      u.worker.completions id = u.commands.map fun _ => .ok () := by
  have hacked : u.acked = u.commands.length := by simp [Upload.acked, hpoint]
  obtain ⟨hends, hrest⟩ : BodyPart.EndsInFin u.commands ∧ u.rest = [] := by
    simpa [Upload.Ends, hpoint] using h.writes.ends
  have hlen := h.length_written hacked
  have hall : u.worker.completions id = List.replicate u.commands.length (.ok ()) := by
    have hacks := h.recorded.acked
    rw [hacked] at hacks
    exact (hacks.eq_of_length (by rw [List.length_replicate, hlen])).symm
  have hsent := h.recorded.ledger.sent hlen fun result hresult => by
    rw [show (u.worker.uploadOf id).written = u.worker.completions id from rfl, hall] at hresult
    exact List.eq_of_mem_replicate hresult
  have hopens : u.writer.opens = false := by
    by_contra hopen
    rw [h.writes.unopened (by simpa using hopen)] at hends
    obtain ⟨before, last, hnil, -⟩ := hends
    simp at hnil
  obtain ⟨s, hs⟩ := Option.ne_none_iff_exists'.mp (h.writes.opened hopens)
  rw [hs] at hsent
  refine ⟨s, hs, ?_, hsent.endsInFin hends, ?_⟩
  · rw [← h.writes.bytes, hrest, List.append_nil]
    exact hsent.bytes
  · rw [hall, List.map_const']

end Intact

lemma Intact.of_run {C : HttpCrate} {settings : BridgeSettings} {id : ℕ} {chunks : List Bytes}
    {es : List UploadEvent} {u : Upload}
    (hrun : Runs.Run (fun u e u' => u.step C settings id e = some u') (.start settings chunks) es u)
    (hfresh : FreshIds (es.filterMap (·.worker id))) : u.Intact id chunks (es.filterMap (·.worker id)) := by
  refine hrun.invariant (fun past u => FreshIds (past.filterMap (·.worker id)) →
    u.Intact id chunks (past.filterMap (·.worker id))) ?_ (fun _ => .start settings id chunks) hfresh
  intro past u e u' hstep h hpast
  rw [List.filterMap_append] at hpast ⊢
  exact (h hpast.of_append).step hpast hstep

/-- In every run of an upload, whatever the worker does for other requests and however `send_body` divides
or defers the writes: once all calls of the writer have succeeded, its stream has the bytes of all chunks in
order, ended once, at the end, and each command was completed once. At any time there is at most one
completion for a command, and the worker takes a command unless the request has ended. -/
theorem body_sent_whole_once {C : HttpCrate} {settings : BridgeSettings} {id : ℕ} {chunks : List Bytes}
    {es : List UploadEvent} {u : Upload}
    (hrun : Runs.Run (fun u e u' => u.step C settings id e = some u') (.start settings chunks) es u)
    (hfresh : FreshIds (es.filterMap (·.worker id))) :
    (u.point = .finished → ∃ s, u.stream = some s ∧ BodyPart.bytes (u.log s) = chunks.flatten ∧
      BodyPart.EndsInFin (u.log s) ∧ u.worker.completions id = u.commands.map fun _ => .ok ()) ∧
    (u.worker.completions id).length ≤ u.commands.length ∧
    ∀ part fits, u.queued = some part →
      (u.worker.handleCommand fits (.body id part.data part.fin)).replies = u.worker.replies ∨
      (u.worker.handleCommand fits (.body id part.data part.fin)).replies = u.worker.replies ++
        [.written id (.error (ascii "HTTP/3 request ended before its body was sent"))] := by
  have h := Intact.of_run hrun hfresh
  refine ⟨h.finished, ?_, fun part fits hqueued => ?_⟩
  · have hle := h.recorded.ledger.length_le
    exact (Nat.le_add_right _ _).trans ((Nat.le_add_right _ _).trans hle)
  · have hrec := h.recorded
    rw [hqueued] at hrec
    simp only [Worker.handleCommand]
    rcases hrec.enqueueWrite_cases h.placed (h.stream_ne_none hqueued) (.body part.data 0 part.fin) with
      heq | ⟨r, heq⟩
    · rw [heq]
      exact .inr rfl
    · rw [heq]
      exact .inl rfl

/-- Two chunks go into one command, which takes three calls of `send_body`. -/
def twoChunks : List UploadEvent :=
  [.work (.command (.opens 1 [] true false true) fun _ => true),
    .work (.dispatch .established (.opened 0) fun _ => true), .call, .opened, .call, .call,
    .deliver ⟨[1, 2, 3], true⟩ fun _ => true, .work (.write (.wrote 2) fun _ => true),
    .work (.write .blocked fun _ => true), .work (.write (.wrote 1) fun _ => true), .completed]

theorem body_sent_whole_once_two_chunks :
    ∃ u, Runs.exec (fun u e => Upload.step u .reference WorkerLoop.warmedSettings 1 e)
        (.start WorkerLoop.warmedSettings [[1, 2], [3]]) twoChunks = some u ∧
      u.point = .finished ∧ ∃ s, u.stream = some s ∧ BodyPart.bytes (u.log s) = [1, 2, 3] ∧
      BodyPart.EndsInFin (u.log s) ∧ u.worker.completions 1 = u.commands.map fun _ => .ok () := by
  have hexec : (Runs.exec (fun u e => Upload.step u .reference WorkerLoop.warmedSettings 1 e)
      (.start WorkerLoop.warmedSettings [[1, 2], [3]]) twoChunks).map Upload.point = some .finished := by
    decide +kernel
  obtain ⟨u, hu, hpoint⟩ := Option.map_eq_some_iff.mp hexec
  have hfresh : FreshIds (twoChunks.filterMap (·.worker 1)) := ⟨by decide, by decide, by decide⟩
  exact ⟨u, hu, hpoint, (body_sent_whole_once (Runs.run_of_exec hu) hfresh).1 hpoint⟩

end Upload

end Pingola
