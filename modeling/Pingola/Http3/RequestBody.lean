import Pingola.Lib.ByteText
import Mathlib.Logic.Function.Iterate

/-!
# The request body of an HTTP/3 session

`read_body_bytes` of `H3Session` and the retry buffer that it fills. What the channel of the inbound
frames answers is a tape: a frame, that the channel is closed, that the read timeout has passed, or that
the caller gives up the call. A call reads the tape up to the answer that ends it, and a call that comes
to the end of the tape still waits.
-/

namespace Pingola
open ByteText

inductive InboundFrame where
  | body (data : Bytes) (fin : Bool)
  | datagram (data : Bytes)

inductive RecvAnswer where
  | frame (frame : InboundFrame)
  | closed
  | timedOut
  | dropped

/-- The answer is the last one of the request. -/
def RecvAnswer.ends : RecvAnswer → Bool
  | frame (.body _ fin) => fin
  | closed => true
  | _ => false

def retryBodyLimit : ℕ := 64 * 1024

/-- The result of a call, if it returns. -/
abbrev ReadResult := Option (Except Bytes (Option Bytes))

/-- The bytes that a call hands out. -/
def ReadResult.bytes : ReadResult → Bytes
  | some (.ok (some body)) => body
  | _ => []

/-- The fields of `H3Session` that reading the request uses. -/
structure H3RequestSide where
  requestFin : Bool
  bodyRead : ℕ
  retryBuffer : Option Bytes
  retryTruncated : Bool

namespace H3RequestSide

def new (requestFin : Bool) : H3RequestSide := ⟨requestFin, 0, none, false⟩

def enableRetryBuffering (s : H3RequestSide) : H3RequestSide :=
  if s.retryBuffer.isNone then { s with retryBuffer := some [] } else s

def retryBufferTruncated (s : H3RequestSide) : Bool := s.retryTruncated

def getRetryBuffer (s : H3RequestSide) : Option Bytes :=
  if s.retryTruncated then none else s.retryBuffer.filter fun buffer => !buffer.isEmpty

def bodyBytesRead (s : H3RequestSide) : ℕ := s.bodyRead

/-- What a read does with a body that it is about to return; the sum of the lengths saturates. -/
def countBody (s : H3RequestSide) (body : Bytes) : H3RequestSide :=
  let s := { s with bodyRead := s.bodyRead + body.length }
  match s.retryBuffer with
  | none => s
  | some buffer =>
    if s.retryTruncated then s
    else if retryBodyLimit < min (buffer.length + body.length) (2 ^ 64 - 1) then
      { s with retryBuffer := some [], retryTruncated := true }
    else { s with retryBuffer := some (buffer ++ body) }

lemma requestFin_countBody (s : H3RequestSide) (body : Bytes) :
    (s.countBody body).requestFin = s.requestFin := by
  unfold countBody
  dsimp only
  split
  · rfl
  · split_ifs <;> rfl

/-- The limit is far below where the sum of the lengths saturates. -/
lemma countBody_of_buffer {s : H3RequestSide} {buffer body : Bytes} (hbuffer : s.retryBuffer = some buffer)
    (ht : s.retryTruncated = false) :
    s.countBody body =
      if retryBodyLimit < buffer.length + body.length then
        { s with bodyRead := s.bodyRead + body.length, retryBuffer := some [], retryTruncated := true }
      else
        { s with bodyRead := s.bodyRead + body.length, retryBuffer := some (buffer ++ body) } := by
  have hlimit : retryBodyLimit < min (buffer.length + body.length) (2 ^ 64 - 1) ↔
      retryBodyLimit < buffer.length + body.length :=
    lt_min_iff.trans (and_iff_left (by decide))
  simp only [countBody, hbuffer, ht, Bool.false_eq_true, if_false, hlimit]

/-- The loop of `read_body_bytes`. -/
def readLoop (s : H3RequestSide) : List RecvAnswer → ReadResult × H3RequestSide × List RecvAnswer
  | [] => (none, s, [])
  | .dropped :: tape => (none, s, tape)
  | .timedOut :: tape => (some (.error (ascii "HTTP/3 request body read timed out")), s, tape)
  | .closed :: tape => (some (.ok none), { s with requestFin := true }, tape)
  | .frame (.datagram _) :: tape => readLoop s tape
  | .frame (.body data fin) :: tape =>
    let s := { s with requestFin := fin }
    if data.isEmpty then
      if fin then (some (.ok none), s, tape) else readLoop s tape
    else (some (.ok (some data)), s.countBody data, tape)

def readBodyBytes (s : H3RequestSide) (tape : List RecvAnswer) :
    ReadResult × H3RequestSide × List RecvAnswer :=
  if s.requestFin then (some (.ok none), s, tape) else s.readLoop tape

end H3RequestSide

/-- The results of the calls so far, and where they leave the session and the tape. -/
structure BodyReads where
  results : List ReadResult
  session : H3RequestSide
  unread : List RecvAnswer

namespace BodyReads

/-- One more call. -/
def read (r : BodyReads) : BodyReads :=
  let call := r.session.readBodyBytes r.unread
  ⟨r.results ++ [call.1], call.2.1, call.2.2⟩

/-- All bytes that were handed out. -/
def returned (r : BodyReads) : Bytes := r.results.flatMap ReadResult.bytes

/-- Calls on a new session that buffers for a retry. -/
def start (requestFin : Bool) (tape : List RecvAnswer) (calls : ℕ) : BodyReads :=
  read^[calls] ⟨[], (H3RequestSide.new requestFin).enableRetryBuffering, tape⟩

end BodyReads

/-! ### One call -/

namespace H3RequestSide

variable {s : H3RequestSide} {tape : List RecvAnswer}

/-- A call takes answers off the tape. They may end the request, and the last one may bring a body. -/
def ReadsTo (s : H3RequestSide) (tape : List RecvAnswer)
    (call : ReadResult × H3RequestSide × List RecvAnswer) : Prop :=
  ∃ taken, tape = taken ++ call.2.2 ∧
    (call.1.bytes = [] ∧ call.2.1 = { s with requestFin := taken.any RecvAnswer.ends } ∨
      call.2.1 = countBody { s with requestFin := taken.any RecvAnswer.ends } call.1.bytes)

lemma ReadsTo.cons {call : ReadResult × H3RequestSide × List RecvAnswer} {answer : RecvAnswer}
    (h : s.ReadsTo tape call) (hends : answer.ends = false) : s.ReadsTo (answer :: tape) call := by
  obtain ⟨taken, htape, hsession⟩ := h
  refine ⟨answer :: taken, by rw [List.cons_append, ← htape], ?_⟩
  simpa only [List.any_cons, hends, Bool.false_or] using hsession

lemma readLoop_spec (hfin : s.requestFin = false) (tape : List RecvAnswer) :
    s.ReadsTo tape (s.readLoop tape) := by
  have hsame : { s with requestFin := false } = s := by rw [← hfin]
  induction tape with
  | nil => exact ⟨[], rfl, .inl ⟨rfl, hsame.symm⟩⟩
  | cons answer tape ih =>
    cases answer with
    | closed => exact ⟨[.closed], rfl, .inl ⟨rfl, rfl⟩⟩
    | timedOut => exact ⟨[.timedOut], rfl, .inl ⟨rfl, hsame.symm⟩⟩
    | dropped => exact ⟨[.dropped], rfl, .inl ⟨rfl, hsame.symm⟩⟩
    | frame frame =>
      cases frame with
      | datagram data => exact ih.cons rfl
      | body data fin =>
        cases data with
        | cons b data =>
          refine ⟨[.frame (.body (b :: data) fin)], rfl, .inr ?_⟩
          cases fin <;> rfl
        | nil =>
          cases fin with
          | true => exact ⟨[.frame (.body [] true)], rfl, .inl ⟨rfl, rfl⟩⟩
          | false =>
            have hloop : s.readLoop (.frame (.body [] false) :: tape) = s.readLoop tape := by
              simp [readLoop, hsame]
            rw [hloop]
            exact ih.cons rfl

/-- After the end of the request a call returns at once. -/
lemma readBodyBytes_of_fin (hfin : s.requestFin = true) (tape : List RecvAnswer) :
    s.readBodyBytes tape = (some (.ok none), s, tape) := by
  rw [readBodyBytes, if_pos hfin]

lemma readBodyBytes_of_not_fin (hfin : s.requestFin = false) (tape : List RecvAnswer) :
    s.ReadsTo tape (s.readBodyBytes tape) := by
  rw [readBodyBytes, if_neg (by rw [hfin]; exact Bool.false_ne_true)]
  exact readLoop_spec hfin tape

end H3RequestSide

/-! ### All calls -/

/-- The counter and the buffer stand for the bytes that were handed out. -/
structure H3RequestSide.Accounts (s : H3RequestSide) (returned : Bytes) : Prop where
  read : s.bodyRead = returned.length
  truncated : s.retryTruncated = decide (retryBodyLimit < returned.length)
  buffer : ∃ buffer, s.retryBuffer = some buffer ∧ (s.retryTruncated = false → buffer = returned)

namespace H3RequestSide.Accounts

variable {s : H3RequestSide} {returned : Bytes}

lemma countBody (h : s.Accounts returned) (body : Bytes) : (s.countBody body).Accounts (returned ++ body) := by
  obtain ⟨hread, htruncated, buffer, hbuffer, hkept⟩ := h
  cases ht : s.retryTruncated with
  | true =>
    have hcount : s.countBody body = { s with bodyRead := s.bodyRead + body.length } := by
      simp [H3RequestSide.countBody, hbuffer, ht]
    rw [ht, eq_comm, decide_eq_true_iff] at htruncated
    rw [hcount]
    refine ⟨by simp [hread], ?_, buffer, hbuffer, fun hfalse => ?_⟩
    · dsimp only
      rw [ht, List.length_append, eq_comm, decide_eq_true_iff]
      omega
    · dsimp only at hfalse
      rw [ht] at hfalse
      cases hfalse
  | false =>
    obtain rfl := hkept ht
    rw [countBody_of_buffer hbuffer ht, ← List.length_append]
    split_ifs with hover
    · refine ⟨?_, ?_, [], rfl, fun hfalse => by cases hfalse⟩
      · rw [hread, List.length_append]
      · exact (decide_eq_true hover).symm
    · refine ⟨?_, ?_, buffer ++ body, rfl, fun _ => rfl⟩
      · rw [hread, List.length_append]
      · exact ht.trans (decide_eq_false hover).symm

lemma getRetryBuffer (h : s.Accounts returned) :
    s.getRetryBuffer =
      if returned ≠ [] ∧ returned.length ≤ retryBodyLimit then some returned else none := by
  obtain ⟨-, htruncated, buffer, hbuffer, hkept⟩ := h
  by_cases hover : retryBodyLimit < returned.length
  · rw [H3RequestSide.getRetryBuffer, htruncated, decide_eq_true hover, if_pos rfl, if_neg (by omega)]
  · have ht : s.retryTruncated = false := htruncated.trans (decide_eq_false hover)
    obtain rfl := hkept ht
    rw [H3RequestSide.getRetryBuffer, ht, if_neg Bool.false_ne_true, hbuffer]
    cases buffer with
    | nil => rfl
    | cons b buffer =>
      rw [if_pos ⟨List.cons_ne_nil b buffer, Nat.not_lt.mp hover⟩]
      rfl

end H3RequestSide.Accounts

namespace BodyReads

variable {r : BodyReads}

lemma returned_read (r : BodyReads) :
    r.read.returned = r.returned ++ (r.session.readBodyBytes r.unread).1.bytes := by
  simp [returned, read]

/-- After the end of the request no call hands out anything. -/
lemma returned_iterate_of_fin (hfin : r.session.requestFin = true) (calls : ℕ) :
    (read^[calls] r).returned = r.returned := by
  have hkeeps : ∀ calls, (read^[calls] r).session = r.session ∧ (read^[calls] r).returned = r.returned := by
    intro calls
    induction calls with
    | zero => exact ⟨rfl, rfl⟩
    | succ calls ih =>
      have hcall := H3RequestSide.readBodyBytes_of_fin (s := (read^[calls] r).session) (ih.1 ▸ hfin)
        (read^[calls] r).unread
      rw [Function.iterate_succ_apply']
      refine ⟨?_, ?_⟩
      · rw [read, hcall]
        exact ih.1
      · rw [returned_read, hcall, ih.2]
        exact List.append_nil _
  exact (hkeeps calls).2

/-- What holds between calls on a session that buffers. -/
structure Reached (requestFin : Bool) (tape : List RecvAnswer) (r : BodyReads) : Prop where
  accounts : r.session.Accounts r.returned
  fin : ∃ taken, tape = taken ++ r.unread ∧
    r.session.requestFin = (requestFin || taken.any RecvAnswer.ends)

lemma Reached.read {requestFin : Bool} {tape : List RecvAnswer} (h : r.Reached requestFin tape) :
    r.read.Reached requestFin tape := by
  obtain ⟨haccounts, taken, htape, hfin⟩ := h
  cases hended : r.session.requestFin with
  | true =>
    have hcall := H3RequestSide.readBodyBytes_of_fin hended r.unread
    have hsession : r.read.session = r.session := by rw [BodyReads.read, hcall]
    have hreturned : r.read.returned = r.returned := by
      rw [returned_read, hcall]
      exact List.append_nil _
    refine ⟨?_, taken, ?_, ?_⟩
    · rw [hsession, hreturned]
      exact haccounts
    · rw [htape, BodyReads.read, hcall]
    · rw [hsession, hfin]
  | false =>
    obtain ⟨more, hmore, hcall⟩ := H3RequestSide.readBodyBytes_of_not_fin hended r.unread
    rw [hended, eq_comm, Bool.or_eq_false_iff] at hfin
    have haccounts' : H3RequestSide.Accounts
        { r.session with requestFin := more.any RecvAnswer.ends } r.returned :=
      ⟨haccounts.read, haccounts.truncated, haccounts.buffer⟩
    have hsession : r.read.session = (r.session.readBodyBytes r.unread).2.1 := rfl
    refine ⟨?_, taken ++ more, ?_, ?_⟩
    · rw [returned_read, hsession]
      rcases hcall with ⟨hnone, hcall⟩ | hcall
      · rw [hnone, hcall, List.append_nil]
        exact haccounts'
      · rw [hcall]
        exact haccounts'.countBody _
    · rw [htape, hmore, List.append_assoc]
      rfl
    · rw [List.any_append, hfin.1, hfin.2, Bool.false_or, Bool.false_or, hsession]
      rcases hcall with ⟨-, hcall⟩ | hcall
      · rw [hcall]
      · rw [hcall, H3RequestSide.requestFin_countBody]

lemma reached_start (requestFin : Bool) (tape : List RecvAnswer) (calls : ℕ) :
    (start requestFin tape calls).Reached requestFin tape := by
  induction calls with
  | zero => exact ⟨⟨rfl, rfl, [], rfl, fun _ => rfl⟩, [], rfl, (Bool.or_false _).symm⟩
  | succ calls ih =>
    rw [start, Function.iterate_succ_apply']
    exact ih.read

lemma start_add (requestFin : Bool) (tape : List RecvAnswer) (calls more : ℕ) :
    start requestFin tape (calls + more) = read^[more] (start requestFin tape calls) := by
  rw [start, Nat.add_comm, Function.iterate_add_apply]
  rfl

lemma returned_read_le (r : BodyReads) : r.returned.length ≤ r.read.returned.length := by
  rw [returned_read, List.length_append]
  exact Nat.le_add_right _ _

lemma returned_start_mono (requestFin : Bool) (tape : List RecvAnswer) :
    Monotone fun calls => (start requestFin tape calls).returned.length := by
  apply monotone_nat_of_le_succ
  intro calls
  rw [start_add _ _ calls 1]
  exact returned_read_le _

/-- After any number of reads of any frames the retry buffer is what was handed out, up to its limit, and
the end of the request is final. -/
theorem retryBuffer_of_reads (requestFin : Bool) (tape : List RecvAnswer) (calls : ℕ) :
    let reads := start requestFin tape
    (reads calls).session.getRetryBuffer =
        (if (reads calls).returned ≠ [] ∧ (reads calls).returned.length ≤ 64 * 1024 then
          some (reads calls).returned else none) ∧
      ((reads calls).session.retryBufferTruncated = true ↔
        ∃ before ≤ calls, 64 * 1024 < (reads before).returned.length) ∧
      (∀ later ≥ calls, (reads calls).session.retryBufferTruncated = true →
        (reads later).session.retryBufferTruncated = true) ∧
      (reads calls).session.bodyBytesRead = (reads calls).returned.length ∧
      ∀ taken, tape = taken ++ (reads calls).unread →
        (requestFin = true ∨ ∃ answer ∈ taken, answer.ends = true) →
        ∀ later ≥ calls, (reads later).returned = (reads calls).returned := by
  intro reads
  have hmono : Monotone fun calls => (reads calls).returned.length := returned_start_mono requestFin tape
  have htruncated : ∀ calls, (reads calls).session.retryBufferTruncated = true ↔
      64 * 1024 < (reads calls).returned.length := by
    intro calls
    rw [H3RequestSide.retryBufferTruncated, (reached_start requestFin tape calls).accounts.truncated,
      decide_eq_true_iff, retryBodyLimit]
  obtain ⟨haccounts, taken, htape, hfin⟩ := reached_start requestFin tape calls
  refine ⟨haccounts.getRetryBuffer, ?_, ?_, haccounts.read, ?_⟩
  · rw [htruncated]
    constructor
    · intro hover
      exact ⟨calls, le_rfl, hover⟩
    · rintro ⟨before, hbefore, hover⟩
      exact hover.trans_le (hmono hbefore)
  · intro later hlater hover
    rw [htruncated] at hover ⊢
    exact hover.trans_le (hmono hlater)
  · intro taken' htape' hends later hlater
    obtain rfl : taken' = taken := List.append_cancel_right (htape'.symm.trans htape)
    obtain ⟨more, rfl⟩ := Nat.exists_eq_add_of_le hlater
    have hended : (start requestFin tape calls).session.requestFin = true := by
      rw [hfin, Bool.or_eq_true, List.any_eq_true]
      exact hends
    rw [show reads (calls + more) = _ from start_add requestFin tape calls more]
    exact returned_iterate_of_fin hended more

theorem no_bytes_after_fin :
    let reads := start false [.frame (.body [0x61] true), .frame (.body [0x62] false)]
    (reads 1).returned = [0x61] ∧ (reads 3).returned = (reads 1).returned := by
  intro reads
  obtain ⟨-, -, -, -, hended⟩ :=
    retryBuffer_of_reads false [.frame (.body [0x61] true), .frame (.body [0x62] false)] 1
  exact ⟨by rfl, hended [.frame (.body [0x61] true)] rfl (.inr ⟨_, List.mem_cons_self, rfl⟩) 3 (by decide)⟩

end BodyReads

end Pingola
