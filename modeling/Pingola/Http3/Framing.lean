import Pingola.Http3.Session

/-!
# Frames of an HTTP/3 response

A response is one header block, body frames and at most one block of trailers, and the end of the
stream comes with its last frame. Every operation of a session is a sequence of calls of the
functions that send frames; `Outcome` says what such a call can do.
-/

namespace Pingola
open ByteText

namespace OutboundFrame

def isBody : OutboundFrame → Bool
  | headers _ => false
  | body _ _ => true

def fin : OutboundFrame → Bool
  | headers _ => false
  | body _ fin => fin

/-- The length of a body frame. -/
def size : OutboundFrame → ℕ
  | headers _ => 0
  | body data _ => data.length

end OutboundFrame

/-- Nothing, or a header block, body frames and possibly a block of trailers. -/
def Framed (frames : List OutboundFrame) : Prop :=
  frames = [] ∨ ∃ head bodies trailers, frames = .headers head :: (bodies ++ trailers) ∧
    (∀ frame ∈ bodies, frame.isBody = true) ∧ (trailers = [] ∨ ∃ list, trailers = [.headers list])

structure WellFramed (frames : List OutboundFrame) : Prop where
  framed : Framed frames
  finLast : ∀ before frame after, frames = before ++ frame :: after → frame.fin = true → after = []
  bodyAfterHead : ∀ before data fin after, frames = before ++ .body data fin :: after →
    ∃ list rest, before = .headers list :: rest

/-- The functions of a session that send frames. -/
inductive SessionCall where
  | headers (header : ResponseHeader) (last : Bool) (written : Bytes → ResponseHeader)
  | body (data : Bytes) (last : Bool)
  | trailers (fields : HeaderMap)
  | finish
  | shutdown

def SessionCall.run (env : SessionEnv) (s : H3Session) : SessionCall → H3Session
  | .headers header last written => (s.sendHeaders env header last written).1
  | .body data last => (s.sendBody env data last).1
  | .trailers fields => (s.writeTrailers env fields).1
  | .finish => (s.finish env).1
  | .shutdown => s.shutdown env

def runCalls (env : SessionEnv) (s : H3Session) (calls : List SessionCall) : H3Session :=
  calls.foldl (fun s call => call.run env s) s

/-- The call that a task makes. -/
def HttpTask.call : HttpTask → Option SessionCall
  | .header response last => some (.headers response last fun date =>
      if response.headers.any fun p => p.1 == dateName then response
      else response.insertTypedHeader dateName date)
  | .body (some data) last =>
    if !data.isEmpty then some (.body data last) else if last then some (.body [] true) else none
  | .body none last => if last then some (.body [] true) else none
  | .trailer (some trailers) => some (.trailers trailers)
  | _ => none

/-- The calls of `response_duplex_vec`. -/
def taskCalls (env : SessionEnv) (s : H3Session) (endStream : Bool) : List HttpTask → List SessionCall
  | [] => if endStream then [.finish] else []
  | task :: tasks =>
    task.call.toList ++
      match s.applyTask env task with
      | (s, .ok last) => taskCalls env s (last || endStream) tasks
      | (_, .error _) => []

def SessionOperation.calls (env : SessionEnv) (s : H3Session) : SessionOperation → List SessionCall
  | .writeResponseHeader header last => (HttpTask.header header last).call.toList
  | .writeResponseHeaderRef header last => [.headers header last fun _ => ⟨header.status, []⟩]
  | .writeBody data last => [.body data last]
  | .writeTrailers trailers => [.trailers trailers]
  | .finish => [.finish]
  | .shutdown => [.shutdown]
  | .responseDuplexOne task => taskCalls env s false [task]
  | .responseDuplexVec tasks => taskCalls env s false tasks

/-- All calls that a sequence of operations makes. -/
def sessionCalls (env : SessionEnv) (s : H3Session) : List SessionOperation → List SessionCall
  | [] => []
  | op :: ops => op.calls env s ++ sessionCalls env (s.perform env op) ops

/-- A shutdown does not send the end of a response that has no header block, and once trailers are
sent, none of the other sends before the given one is delivered. -/
def SessionCall.Orderly (env : SessionEnv) (s : H3Session) (sends : ℕ) : SessionCall → Prop
  | .shutdown => s.ended = true ∨ s.responseWritten.isSome = true ∨ env.delivers s.sends = false
  | .trailers fields => s.ended = true ∨ s.responseWritten = none ∨
      H3Session.trailerFields fields = [] ∨ env.delivers s.sends = false ∨
        ∀ n, s.sends < n → n < sends → env.delivers n = false
  | _ => True

/-! ### Operations as calls -/

section

variable (env : SessionEnv) (s : H3Session)

lemma runCalls_append (calls more : List SessionCall) :
    runCalls env s (calls ++ more) = runCalls env (runCalls env s calls) more :=
  List.foldl_append

lemma applyTask_fst (task : HttpTask) : (s.applyTask env task).1 = runCalls env s task.call.toList := by
  cases task with
  | header header last => rfl
  | body data last =>
    cases data with
    | none => cases last <;> rfl
    | some data => cases data <;> cases last <;> rfl
  | upgradedBody data last => rfl
  | trailer trailers => cases trailers <;> rfl
  | done => rfl
  | failed error => rfl

lemma finish_fst (endStream : Bool) : (if endStream then
      let (s, result) := s.finish env
      (s, result.map fun _ => endStream)
    else (s, Except.ok endStream)).1 = runCalls env s (if endStream then [.finish] else []) := by
  cases endStream <;> rfl

lemma responseDuplexVec_fst (endStream : Bool) (tasks : List HttpTask) : (match s.applyTasks env endStream tasks with
      | (s, .error e) => (s, Except.error e)
      | (s, .ok endStream) =>
        if endStream then
          let (s, result) := s.finish env
          (s, result.map fun _ => endStream)
        else (s, .ok endStream)).1 = runCalls env s (taskCalls env s endStream tasks) := by
  induction tasks generalizing s endStream with
  | nil => exact finish_fst env s endStream
  | cons task tasks ih =>
    have hfst := applyTask_fst env s task
    rw [H3Session.applyTasks, taskCalls, runCalls_append, ← hfst]
    cases h : s.applyTask env task with
    | mk t result =>
      cases result with
      | error e => rfl
      | ok last => exact ih t (last || endStream)

lemma perform_eq (op : SessionOperation) : s.perform env op = runCalls env s (op.calls env s) := by
  cases op with
  | responseDuplexOne task =>
    refine Eq.trans ?_ (responseDuplexVec_fst env s false [task])
    simp only [H3Session.perform, H3Session.responseDuplexOne, H3Session.applyTasks, Bool.or_false]
    cases s.applyTask env task with
    | mk t result => cases result <;> rfl
  | responseDuplexVec tasks => exact responseDuplexVec_fst env s false tasks
  | _ => rfl

lemma foldl_perform (ops : List SessionOperation) :
    ops.foldl (H3Session.perform env) s = runCalls env s (sessionCalls env s ops) := by
  induction ops generalizing s with
  | nil => rfl
  | cons op ops ih =>
    rw [List.foldl_cons, sessionCalls, runCalls_append, ih, perform_eq]

end

/-! ### What a call can do -/

/-- The part of a session that decides about its frames. -/
structure Progress where
  ended : Bool
  written : Bool
  bodySent : ℕ
  sends : ℕ
  frames : List OutboundFrame

def H3Session.progress (s : H3Session) : Progress :=
  ⟨s.ended, s.responseWritten.isSome, s.bodySent, s.sends, s.frames⟩

/-- What is delivered of a frame that only ends the stream. -/
def SessionEnv.finFrames (env : SessionEnv) (send : ℕ) : List OutboundFrame :=
  if env.delivers send then [.body [] true] else []

/-- The outcomes of a call, by what it sends and what is delivered of it. -/
inductive Outcome (env : SessionEnv) (p : Progress) : SessionCall → Progress → Prop
  | quiet {call} : Outcome env p call p
  | lost {call} : p.ended = false → env.delivers p.sends = false →
      Outcome env p call { p with sends := p.sends + 1 }
  | cut : p.ended = false → env.delivers p.sends = false →
      Outcome env p .shutdown { p with sends := p.sends + 1, ended := true }
  | head {response written} (list : List H3Header) : p.ended = false → p.written = false →
      env.delivers p.sends = true → Outcome env p (.headers response false written)
        { p with sends := p.sends + 1, written := true, frames := p.frames ++ [.headers list] }
  | headAndFin {response written} (list : List H3Header) : p.ended = false → p.written = false →
      env.delivers p.sends = true → Outcome env p (.headers response true written)
        { p with
          sends := p.sends + 1 + 1, written := true, ended := true
          frames := p.frames ++ .headers list :: env.finFrames (p.sends + 1) }
  | body {call} (data : Bytes) (last : Bool) : p.ended = false → p.written = true →
      env.delivers p.sends = true → Outcome env p call
        { p with
          sends := p.sends + 1, ended := last, bodySent := p.bodySent + data.length
          frames := p.frames ++ [.body data last] }
  | shut : p.ended = false → env.delivers p.sends = true → Outcome env p .shutdown
      { p with sends := p.sends + 1, ended := true, frames := p.frames ++ [.body [] true] }
  | trailers {fields} (list : List H3Header) : p.ended = false → p.written = true →
      H3Session.trailerFields fields ≠ [] → env.delivers p.sends = true →
      Outcome env p (.trailers fields)
        { p with
          sends := p.sends + 1 + 1, ended := env.delivers (p.sends + 1)
          frames := p.frames ++ .headers list :: env.finFrames (p.sends + 1) }

section

variable {env : SessionEnv} (s : H3Session)

lemma sendFrame_of_delivers (frame : OutboundFrame) (h : env.delivers s.sends = true) :
    s.sendFrame env frame = ({ s with sends := s.sends + 1, frames := s.frames ++ [frame] }, .ok ()) := by
  unfold SessionEnv.delivers at h
  unfold H3Session.sendFrame
  cases hanswer : env.answer s.sends <;> cases htimeout : env.writeTimeout s.sends <;> simp_all

lemma sendFrame_of_not_delivers (frame : OutboundFrame) (h : env.delivers s.sends = false) :
    ∃ e, s.sendFrame env frame = ({ s with sends := s.sends + 1 }, .error e) := by
  unfold SessionEnv.delivers at h
  unfold H3Session.sendFrame
  cases hanswer : env.answer s.sends <;> cases htimeout : env.writeTimeout s.sends <;> simp_all

/-- The end of a stream after a header block, which the session regards as sent in any case. -/
lemma progress_sendFrame_fin : (s.sendFrame env (.body [] true)).1.progress =
      { s.progress with
        sends := s.sends + 1
        frames := s.frames ++ env.finFrames s.sends } := by
  unfold SessionEnv.finFrames
  cases hfin : env.delivers s.sends with
  | true => rw [sendFrame_of_delivers s _ hfin]; rfl
  | false =>
    obtain ⟨e, he⟩ := sendFrame_of_not_delivers s (.body [] true) hfin
    simp [he, H3Session.progress]

/-- The end of a stream that the session only regards as sent if it is delivered. -/
lemma progress_sendFin (env : SessionEnv) {s : H3Session} (hended : s.ended = false) :
    (s.sendFin env).1.progress =
      { s.progress with
        sends := s.sends + 1, ended := env.delivers s.sends
        frames := s.frames ++ env.finFrames s.sends } := by
  unfold H3Session.sendFin SessionEnv.finFrames
  cases hfin : env.delivers s.sends with
  | true => rw [sendFrame_of_delivers s _ hfin]; rfl
  | false =>
    obtain ⟨e, he⟩ := sendFrame_of_not_delivers s (.body [] true) hfin
    simp [he, H3Session.progress, hended]

lemma outcome_sendFin {s : H3Session} {call : SessionCall} (hended : s.ended = false)
    (hwritten : s.responseWritten.isSome = true) :
    Outcome env s.progress call (s.sendFin env).1.progress := by
  rw [progress_sendFin env hended, SessionEnv.finFrames]
  cases hfin : env.delivers s.sends with
  | true =>
    have hbody : Outcome env s.progress call _ := .body [] true hended hwritten hfin
    exact hbody
  | false =>
    have hlost : Outcome env s.progress call _ := .lost hended hfin
    simpa [H3Session.progress, hended] using hlost

lemma outcome_headers (response : ResponseHeader) (last : Bool) (written : Bytes → ResponseHeader) :
    Outcome env s.progress (.headers response last written)
      (s.sendHeaders env response last written).1.progress := by
  unfold H3Session.sendHeaders
  split
  case isTrue => exact .quiet
  case isFalse hended =>
    simp only [Bool.not_eq_true] at hended
    split
    case isTrue => exact .quiet
    case isFalse =>
      split
      case isTrue => exact .quiet
      case isFalse hwritten =>
        simp only [Bool.not_eq_true] at hwritten
        -- encoding fills the buffer and taking it empties it again, nothing else changes
        dsimp only
        generalize hlist : (s.encodeResponseHeaders (env.date s.sends) response).wireHeaders = list
        generalize hq : ({ s.encodeResponseHeaders (env.date s.sends) response with
          wireHeaders := [] } : H3Session) = q
        have hsame : q.progress = s.progress := by subst hq; rfl
        have hsends : q.sends = s.sends := congrArg Progress.sends hsame
        have hqended : q.ended = false := (congrArg Progress.ended hsame).trans hended
        cases hd : env.delivers s.sends with
        | false =>
          obtain ⟨e, he⟩ := sendFrame_of_not_delivers q (.headers list) (hsends ▸ hd)
          have hlost : Outcome env s.progress (.headers response last written) _ := .lost hended hd
          rw [← hsame] at hlost
          rw [he, ← hsame]
          exact hlost
        | true =>
          rw [sendFrame_of_delivers q (.headers list) (hsends ▸ hd)]
          cases last with
          | false =>
            have hhead : Outcome env s.progress (.headers response false written) _ :=
              .head list hended hwritten hd
            rw [← hsame] at hhead ⊢
            simpa [H3Session.progress, hqended] using hhead
          | true =>
            simp only [if_true]
            rw [progress_sendFrame_fin]
            have hfin : Outcome env s.progress (.headers response true written) _ :=
              .headAndFin list hended hwritten hd
            rw [← hsame] at hfin ⊢
            simpa [H3Session.progress] using hfin

lemma outcome_body (data : Bytes) (last : Bool) :
    Outcome env s.progress (.body data last) (s.sendBody env data last).1.progress := by
  unfold H3Session.sendBody
  split
  case isTrue => exact .quiet
  case isFalse hended =>
    simp only [Bool.not_eq_true] at hended
    split
    case isTrue => exact .quiet
    case isFalse hwritten =>
      have hwritten' : s.responseWritten.isSome = true := by simpa [Option.isSome_iff_ne_none] using hwritten
      split
      case isTrue => exact .quiet
      case isFalse =>
        cases hd : env.delivers s.sends with
        | false =>
          obtain ⟨e, he⟩ := sendFrame_of_not_delivers s (.body data last) hd
          rw [he]
          exact .lost hended hd
        | true =>
          rw [sendFrame_of_delivers s _ hd]
          have hbody : Outcome env s.progress (.body data last) _ := .body data last hended hwritten' hd
          simpa [H3Session.progress, hended] using hbody

lemma outcome_trailers (fields : HeaderMap) :
    Outcome env s.progress (.trailers fields) (s.writeTrailers env fields).1.progress := by
  unfold H3Session.writeTrailers
  split
  case isTrue => exact .quiet
  case isFalse hended =>
    simp only [Bool.not_eq_true] at hended
    split
    case isTrue => exact .quiet
    case isFalse hwritten =>
      have hwritten' : s.responseWritten.isSome = true := by simpa [Option.isSome_iff_ne_none] using hwritten
      dsimp only
      split
      case isTrue =>
        exact outcome_sendFin (s := { s with wireHeaders := H3Session.trailerFields fields }) hended hwritten'
      case isFalse hfields =>
        cases hd : env.delivers s.sends with
        | false =>
          obtain ⟨e, he⟩ := sendFrame_of_not_delivers { s with wireHeaders := [] }
            (.headers (H3Session.trailerFields fields)) hd
          rw [he]
          exact .lost hended hd
        | true =>
          rw [sendFrame_of_delivers { s with wireHeaders := [] } _ hd]
          dsimp only
          generalize hq : ({ s with
            wireHeaders := [], sends := s.sends + 1
            frames := s.frames ++ [.headers (H3Session.trailerFields fields)] } : H3Session) = q
          have hqended : q.ended = false := by subst hq; exact hended
          rw [progress_sendFin env hqended]
          subst hq
          have htrailers : Outcome env s.progress (.trailers fields) _ :=
            .trailers (H3Session.trailerFields fields) hended hwritten' (by simpa using hfields) hd
          simpa [H3Session.progress] using htrailers

lemma outcome_shutdown : Outcome env s.progress .shutdown (s.shutdown env).progress := by
  unfold H3Session.shutdown
  split
  case isTrue => exact .quiet
  case isFalse hended =>
    simp only [Bool.not_eq_true] at hended
    cases hd : env.delivers s.sends with
    | false =>
      obtain ⟨e, he⟩ := sendFrame_of_not_delivers s (.body [] true) hd
      rw [he]
      exact .cut hended hd
    | true =>
      rw [sendFrame_of_delivers s _ hd]
      exact .shut hended hd

lemma outcome_run (call : SessionCall) : Outcome env s.progress call (call.run env s).progress := by
  cases call with
  | headers response last written => exact outcome_headers s response last written
  | body data last => exact outcome_body s data last
  | trailers fields => exact outcome_trailers s fields
  | finish =>
    simp only [SessionCall.run, H3Session.finish]
    split
    case isTrue => exact .quiet
    case isFalse hopen =>
      simp only [Bool.or_eq_true, not_or, Bool.not_eq_true] at hopen
      exact outcome_sendFin hopen.1 (by simpa [Option.isSome_iff_ne_none] using hopen.2)
  | shutdown => exact outcome_shutdown s

/-! ### What holds of every session -/

lemma Outcome.grows {p q : Progress} {call : SessionCall} (h : Outcome env p call q) :
    p.frames <+: q.frames ∧ p.sends ≤ q.sends := by
  cases h with
  | quiet => exact ⟨List.prefix_rfl, le_rfl⟩
  | lost => exact ⟨List.prefix_rfl, Nat.le_succ _⟩
  | cut => exact ⟨List.prefix_rfl, Nat.le_succ _⟩
  | head => exact ⟨List.prefix_append _ _, Nat.le_succ _⟩
  | headAndFin => exact ⟨List.prefix_append _ _, by dsimp only; omega⟩
  | body => exact ⟨List.prefix_append _ _, Nat.le_succ _⟩
  | shut => exact ⟨List.prefix_append _ _, Nat.le_succ _⟩
  | trailers => exact ⟨List.prefix_append _ _, by dsimp only; omega⟩

/-- The end of the stream comes last, lengths add up, nothing is sent before the header block while
the session is open, and the frames are those whose sends were delivered. -/
structure Consistent (env : SessionEnv) (p : Progress) : Prop where
  finEnds : ∀ frame ∈ p.frames, frame.fin = true → p.ended = true
  finLast : ∀ frame ∈ p.frames.dropLast, frame.fin = false
  size : p.bodySent = (p.frames.map OutboundFrame.size).sum
  blank : p.ended = false → p.written = false → p.frames = []
  headed : p.written = true → ∃ list rest, p.frames = .headers list :: rest
  count : p.frames.length = (List.range p.sends).countP env.delivers

lemma consistent_new (altSvc : Option Bytes) : Consistent env (H3Session.new altSvc).progress where
  finEnds frame hframe := by simp [H3Session.new, H3Session.progress] at hframe
  finLast frame hframe := by simp [H3Session.new, H3Session.progress] at hframe
  size := rfl
  blank _ _ := rfl
  headed h := by simp [H3Session.new, H3Session.progress] at h
  count := rfl

lemma countP_range_succ (n : ℕ) : (List.range (n + 1)).countP env.delivers =
    (List.range n).countP env.delivers + if env.delivers n then 1 else 0 := by
  rw [List.range_succ, List.countP_append, List.countP_singleton]

lemma length_finFrames (n : ℕ) : (env.finFrames n).length = if env.delivers n then 1 else 0 := by
  unfold SessionEnv.finFrames
  split <;> rfl

lemma size_finFrames (n : ℕ) : ((env.finFrames n).map OutboundFrame.size).sum = 0 := by
  unfold SessionEnv.finFrames
  split <;> rfl

lemma Consistent.not_fin {p : Progress} (h : Consistent env p) (hended : p.ended = false) :
    ∀ frame ∈ p.frames, frame.fin = false := by
  intro frame hframe
  by_contra hfin
  have hends := h.finEnds frame hframe (by simpa using hfin)
  rw [hended] at hends
  cases hends

/-- Frames that do not end the stream are followed by at most one more frame. -/
lemma not_fin_dropLast {frames last : List OutboundFrame} (h : ∀ frame ∈ frames, frame.fin = false)
    (hlast : last.length ≤ 1) : ∀ frame ∈ (frames ++ last).dropLast, frame.fin = false := by
  intro frame hframe
  cases last with
  | nil =>
    rw [List.append_nil] at hframe
    exact h frame (List.dropLast_subset _ hframe)
  | cons f rest =>
    obtain rfl : rest = [] := List.length_eq_zero_iff.mp (by simpa using hlast)
    rw [List.dropLast_concat] at hframe
    exact h frame hframe

lemma Consistent.append_body {p : Progress} (h : Consistent env p) (hended : p.ended = false)
    (hd : env.delivers p.sends = true) (data : Bytes) (last : Bool)
    (hblank : last = false → p.written = true) :
    Consistent env { p with
      sends := p.sends + 1, ended := last, bodySent := p.bodySent + data.length
      frames := p.frames ++ [.body data last] } where
  finEnds frame hframe hfin := by
    rcases List.mem_append.mp hframe with hold | hnew
    · rw [h.not_fin hended frame hold] at hfin
      cases hfin
    · obtain rfl := List.mem_singleton.mp hnew
      exact hfin
  finLast := not_fin_dropLast (h.not_fin hended) le_rfl
  size := by simp [h.size, OutboundFrame.size]
  blank hopen hwritten := by
    have hopen' : last = false := hopen
    have hwritten' : p.written = false := hwritten
    rw [hblank hopen'] at hwritten'
    cases hwritten'
  headed hwritten := by
    obtain ⟨list, rest, hrest⟩ := h.headed hwritten
    exact ⟨list, rest ++ [.body data last], by rw [hrest]; rfl⟩
  count := by simp [h.count, countP_range_succ, hd]

/-- A header block goes out, and possibly the end of the stream behind it. -/
lemma Consistent.append_headers {p : Progress} (h : Consistent env p) (hended : p.ended = false)
    (hd : env.delivers p.sends = true) (list : List H3Header) {ended : Bool}
    (hends : env.delivers (p.sends + 1) = true → ended = true) :
    Consistent env { p with
      sends := p.sends + 1 + 1, written := true, ended := ended
      frames := p.frames ++ .headers list :: env.finFrames (p.sends + 1) } := by
  have hold : ∀ frame ∈ p.frames ++ [.headers list], frame.fin = false := by
    intro frame hframe
    rcases List.mem_append.mp hframe with hframe | hframe
    · exact h.not_fin hended frame hframe
    · obtain rfl := List.mem_singleton.mp hframe
      rfl
  constructor
  · intro frame hframe hfin
    rw [List.append_cons] at hframe
    rcases List.mem_append.mp hframe with hframe | hframe
    · rw [hold frame hframe] at hfin
      cases hfin
    · apply hends
      by_contra hlost
      simp [SessionEnv.finFrames, hlost] at hframe
  · dsimp only
    rw [List.append_cons]
    refine not_fin_dropLast hold ?_
    rw [length_finFrames]
    split <;> omega
  · simp [h.size, OutboundFrame.size, size_finFrames]
  · intro _ hwritten
    cases hwritten
  · intro _
    by_cases hwritten : p.written = true
    · obtain ⟨first, rest, hrest⟩ := h.headed hwritten
      exact ⟨first, rest ++ .headers list :: env.finFrames (p.sends + 1), by rw [hrest]; rfl⟩
    · have hblank := h.blank hended (by simpa using hwritten)
      exact ⟨list, env.finFrames (p.sends + 1), by rw [hblank]; rfl⟩
  · simp only [List.length_append, List.length_cons, length_finFrames, h.count, countP_range_succ, hd,
      if_true]
    omega

lemma Consistent.lost {p : Progress} (h : Consistent env p) (hd : env.delivers p.sends = false) :
    Consistent env { p with sends := p.sends + 1 } :=
  { h with count := by simp [h.count, countP_range_succ, hd] }

lemma Consistent.step {p q : Progress} {call : SessionCall} (h : Consistent env p)
    (hstep : Outcome env p call q) : Consistent env q := by
  cases hstep with
  | quiet => exact h
  | lost _ hd => exact h.lost hd
  | cut _ hd =>
    refine { h.lost hd with finEnds := fun _ _ _ => rfl, blank := fun hopen => ?_ }
    cases hopen
  | head list hended hwritten hd =>
    have hblank := h.blank hended hwritten
    constructor
    · intro frame hframe hfin
      obtain rfl : frame = .headers list := by simpa [hblank] using hframe
      cases hfin
    · intro frame hframe
      simp [hblank] at hframe
    · simp [h.size, OutboundFrame.size]
    · intro _ hnew
      cases hnew
    · exact fun _ => ⟨list, [], by simp [hblank]⟩
    · simp [h.count, countP_range_succ, hd]
  | headAndFin list hended _ hd => exact h.append_headers hended hd list fun _ => rfl
  | body data last hended hwritten hd => exact h.append_body hended hd data last fun _ => hwritten
  | shut hended hd => exact h.append_body hended hd [] true fun hlast => by cases hlast
  | trailers list hended hwritten _ hd =>
    have hnext : Consistent env { p with
        sends := p.sends + 1 + 1, written := true, ended := env.delivers (p.sends + 1)
        frames := p.frames ++ .headers list :: env.finFrames (p.sends + 1) } :=
      h.append_headers hended hd list id
    rw [← hwritten] at hnext
    exact hnext

/-! ### Runs of calls -/

lemma runCalls_grows (env : SessionEnv) (s : H3Session) (calls : List SessionCall) :
    s.frames <+: (runCalls env s calls).frames ∧ s.sends ≤ (runCalls env s calls).sends := by
  induction calls generalizing s with
  | nil => exact ⟨List.prefix_rfl, le_rfl⟩
  | cons call calls ih =>
    obtain ⟨hframes, hsends⟩ := (outcome_run s call : Outcome env _ _ _).grows
    obtain ⟨hframes', hsends'⟩ := ih (call.run env s)
    exact ⟨hframes.trans hframes', hsends.trans hsends'⟩

lemma consistent_runCalls (env : SessionEnv) (altSvc : Option Bytes) (calls : List SessionCall) :
    Consistent env (runCalls env (.new altSvc) calls).progress :=
  List.foldlRecOn calls _ (motive := fun s : H3Session => Consistent env s.progress)
    (consistent_new altSvc) fun s h call _ => h.step (outcome_run s call)

/-! ### The grammar -/

/-- A header block and body frames only, if anything. -/
def Plain (frames : List OutboundFrame) : Prop :=
  frames = [] ∨ ∃ head bodies, frames = .headers head :: bodies ∧ ∀ frame ∈ bodies, frame.isBody = true

lemma Plain.framed {frames : List OutboundFrame} (h : Plain frames) : Framed frames := by
  rcases h with hnil | ⟨head, bodies, hframes, hbodies⟩
  · exact .inl hnil
  · exact .inr ⟨head, bodies, [], by simp [hframes], hbodies, .inl rfl⟩

lemma Plain.append_body {list : List H3Header} {rest frames : List OutboundFrame}
    (h : Plain (.headers list :: rest)) (hframes : ∀ frame ∈ frames, frame.isBody = true) :
    Plain (.headers list :: rest ++ frames) := by
  rcases h with hnil | ⟨head, bodies, heq, hbodies⟩
  · cases hnil
  · obtain ⟨-, rfl⟩ := List.cons.inj heq
    refine .inr ⟨list, rest ++ frames, rfl, fun frame hframe => ?_⟩
    rcases List.mem_append.mp hframe with hframe | hframe
    · exact hbodies frame hframe
    · exact hframes frame hframe

lemma Plain.append_headers {list list' : List H3Header} {rest : List OutboundFrame}
    (h : Plain (.headers list :: rest)) : Framed (.headers list :: rest ++ [.headers list']) := by
  rcases h with hnil | ⟨head, bodies, heq, hbodies⟩
  · cases hnil
  · obtain ⟨-, rfl⟩ := List.cons.inj heq
    exact .inr ⟨list, rest, [.headers list'], rfl, hbodies, .inr ⟨list', rfl⟩⟩

lemma isBody_finFrames (n : ℕ) : ∀ frame ∈ env.finFrames n, frame.isBody = true := by
  intro frame hframe
  unfold SessionEnv.finFrames at hframe
  split at hframe
  · obtain rfl := List.mem_singleton.mp hframe
    rfl
  · cases hframe

/-- Nothing follows a second header block. -/
lemma Framed.eq_nil_of_headers {first : OutboundFrame} {list : List H3Header}
    {after : List OutboundFrame} (rest : List OutboundFrame) (h : Framed (first :: (rest ++ .headers list :: after))) :
    after = [] := by
  rcases h with hnil | ⟨head, bodies, trailers, heq, hbodies, htrailers⟩
  · cases hnil
  · have hrest : rest ++ .headers list :: after = bodies ++ trailers := (List.cons.inj heq).2
    rcases List.eq_nil_or_concat after with hafter | ⟨init, last, rfl⟩
    · exact hafter
    · -- the block would have to be one of the body frames
      exfalso
      have hmem : OutboundFrame.headers list ∈ bodies := by
        rcases htrailers with rfl | ⟨list', rfl⟩
        · rw [List.append_nil] at hrest
          rw [← hrest]
          simp
        · have hconcat : (rest ++ .headers list :: init) ++ [last] = bodies ++ [.headers list'] := by
            simpa using hrest
          have hinit : rest ++ .headers list :: init = bodies := (List.append_inj' hconcat rfl).1
          rw [← hinit]
          simp
      exact absurd (hbodies _ hmem) (by simp [OutboundFrame.isBody])

lemma Framed.bodyAfterHead {frames : List OutboundFrame} (h : Framed frames)
    (before : List OutboundFrame) (data : Bytes) (fin : Bool) (after : List OutboundFrame)
    (hframes : frames = before ++ .body data fin :: after) : ∃ list rest, before = .headers list :: rest := by
  rcases h with hnil | ⟨head, bodies, trailers, heq, -, -⟩
  · simp [hnil] at hframes
  · cases before with
    | nil =>
      rw [heq, List.nil_append] at hframes
      cases (List.cons.inj hframes).1
    | cons first rest =>
      rw [heq, List.cons_append] at hframes
      exact ⟨head, rest, by rw [(List.cons.inj hframes).1]⟩

/-- While all goes well a session has sent no trailers yet, or has sent them and nothing else is
delivered before the given send. -/
def OnTrack (env : SessionEnv) (sends : ℕ) (p : Progress) : Prop :=
  Plain p.frames ∨ Framed p.frames ∧ ∀ n, p.sends ≤ n → n < sends → env.delivers n = false

lemma OnTrack.step {s : H3Session} {call : SessionCall} {sends : ℕ} (h : OnTrack env sends s.progress)
    (hs : Consistent env s.progress) (hcall : call.Orderly env s sends)
    (hsends : (call.run env s).sends ≤ sends) : OnTrack env sends (call.run env s).progress := by
  have hstep : Outcome env s.progress call (call.run env s).progress := outcome_run s call
  have hbound : (call.run env s).progress.sends ≤ sends := hsends
  generalize (call.run env s).progress = q at hstep hbound
  rcases h with hplain | ⟨hframed, hsilent⟩
  · cases hstep with
    | quiet => exact .inl hplain
    | lost => exact .inl hplain
    | cut => exact .inl hplain
    | head list hended hwritten =>
      refine .inl (.inr ⟨list, [], ?_, by simp⟩)
      simp [hs.blank hended hwritten]
    | headAndFin list hended hwritten =>
      refine .inl (.inr ⟨list, env.finFrames (s.progress.sends + 1), ?_, isBody_finFrames _⟩)
      simp [hs.blank hended hwritten]
    | body data last _ hwritten =>
      obtain ⟨list, rest, hrest⟩ := hs.headed hwritten
      rw [hrest] at hplain
      refine .inl ?_
      dsimp only
      rw [hrest]
      exact hplain.append_body (by simp [OutboundFrame.isBody])
    | shut hended hd =>
      have hwritten : s.progress.written = true := by
        rcases hcall with hcall | hcall | hcall
        · exact absurd (hcall.symm.trans hended) (by simp)
        · exact hcall
        · exact absurd (hcall.symm.trans hd) (by simp)
      obtain ⟨list, rest, hrest⟩ := hs.headed hwritten
      rw [hrest] at hplain
      refine .inl ?_
      dsimp only
      rw [hrest]
      exact hplain.append_body (by simp [OutboundFrame.isBody])
    | trailers list hended hwritten hfields hd =>
      -- the frame that would end the stream is lost as well, so the trailers stay the last frame
      have hlater : ∀ n, s.sends < n → n < sends → env.delivers n = false := by
        rcases hcall with hcall | hcall | hcall | hcall | hcall
        · exact absurd (hcall.symm.trans hended) (by simp)
        · simp [H3Session.progress, hcall] at hwritten
        · exact absurd hcall hfields
        · exact absurd (hcall.symm.trans hd) (by simp)
        · exact hcall
      have hbound' : s.sends + 1 + 1 ≤ sends := hbound
      have hfin : env.finFrames (s.progress.sends + 1) = [] := by
        have hlost := hlater (s.sends + 1) (by omega) (by omega)
        simp [SessionEnv.finFrames, H3Session.progress, hlost]
      obtain ⟨first, rest, hrest⟩ := hs.headed hwritten
      rw [hrest] at hplain
      refine .inr ⟨?_, fun n hn => hlater n ?_⟩
      · dsimp only
        rw [hrest, hfin]
        exact hplain.append_headers
      · have hn' : s.sends + 1 + 1 ≤ n := hn
        omega
  · -- whatever is sent now is lost
    have hlost : s.progress.sends < q.sends → env.delivers s.progress.sends = false :=
      fun hlt => hsilent s.progress.sends le_rfl (by omega)
    cases hstep with
    | quiet => exact .inr ⟨hframed, hsilent⟩
    | lost => exact .inr ⟨hframed, fun n hn => hsilent n (Nat.le_of_succ_le hn)⟩
    | cut => exact .inr ⟨hframed, fun n hn => hsilent n (Nat.le_of_succ_le hn)⟩
    | head list _ _ hd => exact absurd (hd.symm.trans (hlost (by simp))) (by simp)
    | headAndFin list _ _ hd => exact absurd (hd.symm.trans (hlost (by dsimp only; omega))) (by simp)
    | body data last _ _ hd => exact absurd (hd.symm.trans (hlost (by simp))) (by simp)
    | shut _ hd => exact absurd (hd.symm.trans (hlost (by simp))) (by simp)
    | trailers list _ _ _ hd => exact absurd (hd.symm.trans (hlost (by dsimp only; omega))) (by simp)

lemma onTrack_runCalls {altSvc : Option Bytes} {calls : List SessionCall}
    (horderly : ∀ before call after, calls = before ++ call :: after →
      call.Orderly env (runCalls env (.new altSvc) before) (runCalls env (.new altSvc) calls).sends) :
    OnTrack env (runCalls env (.new altSvc) calls).sends (runCalls env (.new altSvc) calls).progress := by
  have hprefix : ∀ before after, calls = before ++ after →
      OnTrack env (runCalls env (.new altSvc) calls).sends (runCalls env (.new altSvc) before).progress := by
    intro before
    induction before using List.reverseRecOn with
    | nil => exact fun _ _ => .inl (.inl rfl)
    | append_singleton before call ih =>
      intro after hcalls
      rw [List.append_assoc, List.singleton_append] at hcalls
      have hgrows := runCalls_grows env (call.run env (runCalls env (.new altSvc) before)) after
      rw [runCalls_append]
      refine (ih _ hcalls).step (consistent_runCalls env altSvc before) (horderly before call after hcalls) ?_
      rw [hcalls, runCalls_append]
      exact hgrows.2
  exact hprefix calls [] (by simp)

lemma frames_writeTrailers {s : H3Session} {fields : HeaderMap} (hended : s.ended = false)
    (hwritten : s.responseWritten ≠ none) (hfields : H3Session.trailerFields fields ≠ [])
    (hd : env.delivers s.sends = true) : (s.writeTrailers env fields).1.frames =
      s.frames ++ .headers (H3Session.trailerFields fields) :: env.finFrames (s.sends + 1) := by
  rw [H3Session.writeTrailers, if_neg (by simp [hended]), if_neg (by simpa using hwritten)]
  dsimp only
  rw [if_neg (by simpa using hfields), sendFrame_of_delivers { s with wireHeaders := [] } _ hd]
  dsimp only
  generalize hq : ({ s with
    wireHeaders := [], sends := s.sends + 1
    frames := s.frames ++ [.headers (H3Session.trailerFields fields)] } : H3Session) = q
  have hqended : q.ended = false := by subst hq; exact hended
  have hfin := congrArg Progress.frames (progress_sendFin env hqended)
  subst hq
  simpa [H3Session.progress] using hfin

lemma countP_range_add_two_le {a n m : ℕ} (ha : env.delivers a = true) (han : a < n)
    (hn : env.delivers n = true) (hnm : n < m) :
    (List.range a).countP env.delivers + 2 ≤ (List.range m).countP env.delivers := by
  have hmono : ∀ {k l : ℕ}, k ≤ l →
      (List.range k).countP env.delivers ≤ (List.range l).countP env.delivers :=
    fun hkl => (List.range_sublist.mpr hkl).countP_le
  have hfirst : (List.range (a + 1)).countP env.delivers = (List.range a).countP env.delivers + 1 := by
    rw [countP_range_succ, ha, if_pos rfl]
  have hsecond : (List.range (n + 1)).countP env.delivers = (List.range n).countP env.delivers + 1 := by
    rw [countP_range_succ, hn, if_pos rfl]
  have hbetween := hmono (show a + 1 ≤ n from han)
  have hafter := hmono (show n + 1 ≤ m from hnm)
  omega

/-- A call that is out of order leaves frames that no further frame can mend. -/
lemma orderly_of_framed {altSvc : Option Bytes} {before after : List SessionCall} {call : SessionCall}
    (h : Framed (runCalls env (.new altSvc) (before ++ call :: after)).frames) :
    call.Orderly env (runCalls env (.new altSvc) before)
      (runCalls env (.new altSvc) (before ++ call :: after)).sends := by
  have hs := consistent_runCalls env altSvc before
  have hend := consistent_runCalls env altSvc (before ++ call :: after)
  rw [runCalls_append] at h hend ⊢
  generalize runCalls env (.new altSvc) before = s at h hs hend ⊢
  have hgrows : (call.run env s).frames <+: (runCalls env s (call :: after)).frames :=
    (runCalls_grows env (call.run env s) after).1
  by_contra hbad
  cases call with
  | shutdown =>
    simp only [SessionCall.Orderly, not_or, Bool.not_eq_true, Bool.not_eq_false] at hbad
    obtain ⟨hended, hwritten, hd⟩ := hbad
    have hframes : (SessionCall.shutdown.run env s).frames = [.body [] true] := by
      have hblank : s.frames = [] := hs.blank hended hwritten
      simp [SessionCall.run, H3Session.shutdown, hended, sendFrame_of_delivers s _ hd, hblank]
    rw [hframes] at hgrows
    obtain ⟨rest, hrest⟩ := hgrows
    obtain ⟨list, before, hbefore⟩ := h.bodyAfterHead [] [] true rest hrest.symm
    cases hbefore
  | trailers fields =>
    simp only [SessionCall.Orderly, not_or, Bool.not_eq_true, not_forall, Bool.not_eq_false] at hbad
    obtain ⟨hended, hwritten, hfields, hd, n, hlow, hhigh, hn⟩ := hbad
    have hsome : s.responseWritten.isSome = true := Option.isSome_iff_ne_none.mpr hwritten
    obtain ⟨first, rest, hrest⟩ := hs.headed hsome
    have hrest' : s.frames = .headers first :: rest := hrest
    -- two frames are delivered after the header block, and the first of them is the trailers
    have hcount : s.frames.length + 2 ≤ (runCalls env s (.trailers fields :: after)).frames.length := by
      have hold : s.frames.length = (List.range s.sends).countP env.delivers := hs.count
      have hnew : (runCalls env s (.trailers fields :: after)).frames.length =
          (List.range (runCalls env s (.trailers fields :: after)).sends).countP env.delivers := hend.count
      rw [hold, hnew]
      exact countP_range_add_two_le hd hlow hn hhigh
    have hframes : (SessionCall.run env s (.trailers fields)).frames =
        s.frames ++ .headers (H3Session.trailerFields fields) :: env.finFrames (s.sends + 1) :=
      frames_writeTrailers hended hwritten hfields hd
    rw [hframes] at hgrows
    obtain ⟨more, hmore⟩ := hgrows
    rw [List.append_assoc, List.cons_append] at hmore
    rw [← hmore, hrest', List.cons_append] at h
    have hnil := h.eq_nil_of_headers rest
    rw [← hmore, hnil] at hcount
    simp at hcount
  | headers response last written => exact hbad trivial
  | body data last => exact hbad trivial
  | finish => exact hbad trivial

lemma fin_dropLast {frames before after : List OutboundFrame} {frame : OutboundFrame}
    (h : ∀ frame ∈ frames.dropLast, frame.fin = false) (hframes : frames = before ++ frame :: after)
    (hfin : frame.fin = true) : after = [] := by
  by_contra hafter
  have hmem : frame ∈ frames.dropLast := by
    rw [hframes, List.dropLast_append_of_ne_nil (List.cons_ne_nil _ _),
      List.dropLast_cons_of_ne_nil hafter]
    simp
  rw [h frame hmem] at hfin
  cases hfin

end

/-- Whatever operations a session performs and whatever becomes of their frames, the frames form a
response exactly if every call that is made is in order. -/
theorem response_wellFramed_iff (env : SessionEnv) (altSvc : Option Bytes)
    (ops : List SessionOperation) :
    let s := ops.foldl (H3Session.perform env) (.new altSvc)
    WellFramed s.frames ∧ s.bodySent = (s.frames.map OutboundFrame.size).sum ↔
      ∀ before call after, sessionCalls env (.new altSvc) ops = before ++ call :: after →
        call.Orderly env (runCalls env (.new altSvc) before) s.sends := by
  dsimp only
  rw [foldl_perform]
  generalize sessionCalls env (.new altSvc) ops = calls
  have hs := consistent_runCalls env altSvc calls
  constructor
  · rintro ⟨hframes, -⟩ before call after rfl
    exact orderly_of_framed hframes.framed
  · intro horderly
    have hframed : Framed (runCalls env (.new altSvc) calls).frames := by
      rcases onTrack_runCalls horderly with hplain | ⟨hframed, -⟩
      · exact hplain.framed
      · exact hframed
    exact ⟨⟨hframed, fun before frame after => fin_dropLast hs.finLast, hframed.bodyAfterHead⟩, hs.size⟩

/-- Every frame is taken at once. -/
def openStream : SessionEnv := ⟨fun _ => .accepted, fun _ => none, fun _ => ascii "Thu, 01 Jan 1970"⟩

/-- A session that is shut down before its response has sent a body frame without a header block; a
response with trailers goes on after them. -/
theorem response_frames_out_of_order :
    ([SessionOperation.shutdown].foldl (H3Session.perform openStream) (.new none)).frames =
      [.body [] true] ∧
    ¬ Framed [.body [] true] ∧
    ([SessionOperation.writeResponseHeader ⟨200, []⟩ false, .writeBody (ascii "hi") false,
      .writeTrailers [(ascii "x-end", ascii "1")]].foldl (H3Session.perform openStream) (.new none)).frames =
      [.headers [⟨ascii ":status", ascii "200"⟩, ⟨dateName, ascii "Thu, 01 Jan 1970"⟩],
        .body (ascii "hi") false, .headers [⟨ascii "x-end", ascii "1"⟩], .body [] true] ∧
    ¬ Framed [.headers [⟨ascii ":status", ascii "200"⟩, ⟨dateName, ascii "Thu, 01 Jan 1970"⟩],
        .body (ascii "hi") false, .headers [⟨ascii "x-end", ascii "1"⟩], .body [] true] := by
  refine ⟨by decide +kernel, fun h => ?_, by decide +kernel, fun h => ?_⟩
  · obtain ⟨list, rest, hbefore⟩ := h.bodyAfterHead [] [] true [] rfl
    cases hbefore
  · cases h.eq_nil_of_headers [.body (ascii "hi") false]

end Pingola
