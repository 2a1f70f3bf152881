import Pingola.Lib.ByteText

/-!
# The body of a stream in the transport

What quiche keeps of the DATA frames of a stream, how `recv_body` reads them, and when the Data event of the
stream is armed again. `recv_body` stops at a frame without payload that has bytes behind it and leaves the event
as it is, so such a frame hides the ones behind it.
-/

namespace Pingola

/-- The DATA frames of a stream that have not been consumed. -/
structure BodyStream where
  /-- The readable bytes of each frame, in order. -/
  frames : List ℕ
  /-- The bytes of the last frame that have not arrived. -/
  missing : ℕ
  /-- Bytes behind these frames that make no DATA frame yet: a part of a frame header, or a frame of another type. -/
  behind : Bool
  /-- The stream is in `State::Data`, within its first frame. -/
  inData : Bool
  /-- `data_event_triggered`. A frame of another type arms the event again before the DATA frame behind it is
  entered, and counts as doing so when it comes next. -/
  fired : Bool

/-- What else happens to a stream. -/
inductive TransportEvent where
  /-- A part of a frame header arrives, or a frame of another type. -/
  | other
  /-- The header of a DATA frame is complete. -/
  | dataHeader (length : ℕ)
  | payload (n : ℕ)
  /-- `poll` looks at the stream and has no event for it. -/
  | passed
  /-- A frame of another type is skipped. -/
  | skipped

namespace BodyStream

def empty : BodyStream := ⟨[], 0, false, false, false⟩

/-- The readable bytes of the body. -/
def readable (s : BodyStream) : ℕ := s.frames.sum

def isEmpty (s : BodyStream) : Bool := s.frames.isEmpty && !s.fired

/-- `try_trigger_data_event`, which needs a DATA frame and an armed event. -/
def trigger (s : BodyStream) : BodyStream := { s with inData := true, fired := true }

def addPayload (n : ℕ) : List ℕ → List ℕ
  | [] => []
  | [last] => [last + n]
  | frame :: next :: frames => frame :: addPayload n (next :: frames)

def step (s : BodyStream) : TransportEvent → Option BodyStream
  | .other => if s.missing = 0 then some { s with behind := true } else none
  | .dataHeader length =>
    if s.missing = 0 then some { s with frames := s.frames ++ [0], missing := length, behind := false } else none
  | .payload n =>
    if n ≤ s.missing ∧ s.frames ≠ [] then
      some { s with frames := addPayload n s.frames, missing := s.missing - n }
    else none
  | .passed =>
    if s.frames = [] then
      -- a part of a header is not enough to go on, which arms the event again
      if s.behind then some { s with behind := false, fired := false } else none
    else if s.fired then some { s with inData := true }
    else none
  | .skipped => some { s with fired := false }

/-- The loop of `recv_body_buf` in `State::Data`, for a buffer with so much room. -/
def recvLoop (missing : ℕ) (behind fired : Bool) : ℕ → List ℕ → ℕ × BodyStream
  | _, [] => (0, ⟨[], missing, behind, false, fired⟩)
  | room, [n] =>
    if n = 0 then
      -- the stream is readable behind an empty frame: 0 bytes are read, which ends the frame and the loop
      if missing = 0 ∧ behind = true then (0, ⟨[], 0, true, false, fired⟩)
      else (0, ⟨[0], missing, behind, true, false⟩)
    else if n ≤ room then (n, if missing = 0 then empty else ⟨[0], missing, behind, true, false⟩)
    else (room, ⟨[n - room], missing, behind, true, fired⟩)
  | room, n :: next :: frames =>
    if n = 0 then (0, ⟨next :: frames, missing, behind, false, fired⟩)
    else if room < n then (room, ⟨(n - room) :: next :: frames, missing, behind, true, fired⟩)
    -- the next frame is entered before the loop finds the buffer full
    else if room = n then (n, ⟨next :: frames, missing, behind, true, fired⟩)
    else
      let (read, s) := recvLoop missing behind fired (room - n) (next :: frames)
      (n + read, s)

/-- `recv_body`, where 0 stands for `Done`. -/
def recvBody (s : BodyStream) (room : ℕ) : ℕ × BodyStream :=
  if s.inData && decide (0 < room) then recvLoop s.missing s.behind s.fired room s.frames else (0, s)

/-- Calls of `recv_body` with these buffers, one after the other. -/
def recvAll (s : BodyStream) : List ℕ → List ℕ × BodyStream
  | [] => ([], s)
  | room :: rooms =>
    let (read, s) := s.recvBody room
    let (reads, s) := s.recvAll rooms
    (read :: reads, s)

/-- No frame without payload has bytes behind it. -/
def unbroken (missing : ℕ) (behind : Bool) : List ℕ → Bool
  | [] => true
  | [n] => n != 0 || missing != 0 || !behind
  | n :: next :: frames => n != 0 && unbroken missing behind (next :: frames)

/-- The room that one read needs for all frames: their readable bytes, and one byte for a last frame that has none. -/
def demand : List ℕ → ℕ
  | [] => 0
  | [n] => max n 1
  | n :: next :: frames => n + demand (next :: frames)

def Unbroken (s : BodyStream) : Prop := unbroken s.missing s.behind s.frames = true

/-- A stream whose Data event has fired is within a DATA frame. -/
def Steady (s : BodyStream) : Prop := s.fired = true → s.inData = true ∧ s.frames ≠ []

/-! ### Reading -/

/-- What a read leaves of unbroken frames. The event is armed again after a read that was done, and after one with
room for all of them. -/
structure ReadOf (room : ℕ) (frames : List ℕ) (r : ℕ × BodyStream) : Prop where
  unbroken : r.2.Unbroken
  steady : r.2.Steady
  done : r.1 = 0 → r.2.fired = false
  all : demand frames ≤ room → r.2.fired = false

lemma demand_pos (n : ℕ) (frames : List ℕ) : 0 < demand (n :: frames) := by
  induction frames generalizing n with
  | nil => simp [demand]
  | cons next frames ih =>
    rw [demand]
    exact Nat.add_pos_right n (ih next)

lemma readOf_recvLoop {missing : ℕ} {behind fired : Bool} {room : ℕ} {frames : List ℕ} (hroom : 0 < room)
    (hframes : fired = true → frames ≠ []) (h : unbroken missing behind frames = true) :
    ReadOf room frames (recvLoop missing behind fired room frames) := by
  fun_induction recvLoop missing behind fired room frames with
  | case1 =>
    obtain rfl : fired = false := by simpa using hframes
    exact ⟨rfl, by simp [Steady], by simp, by simp⟩
  | case2 room hbehind => simp [unbroken, hbehind] at h
  | case3 room hbehind => exact ⟨by simpa [Unbroken] using h, by simp [Steady], by simp, by simp⟩
  | case4 room n hn hle =>
    split_ifs with hmissing
    · exact ⟨rfl, by simp [Steady, empty], by simp [empty], by simp [empty]⟩
    · exact ⟨by simp [Unbroken, unbroken, hmissing], by simp [Steady], by simp, by simp⟩
  | case5 room n hn hle =>
    have hleft : n - room ≠ 0 := by omega
    exact ⟨by simp [Unbroken, unbroken, hleft], by simp [Steady], by simp; omega, by simp [demand]; omega⟩
  | case6 room next frames => simp [unbroken] at h
  | case7 room n next frames hn hlt =>
    simp only [unbroken, Bool.and_eq_true] at h
    have hleft : n - room ≠ 0 := by omega
    exact ⟨by simp [Unbroken, unbroken, hleft, h.2], by simp [Steady], by simp; omega, by simp [demand]; omega⟩
  | case8 n next frames hn =>
    -- the buffer is full at the end of a frame, and the next one needs a byte of its own
    simp only [unbroken, Bool.and_eq_true] at h
    refine ⟨h.2, by simp [Steady], by simp; omega, fun hdemand => ?_⟩
    have hnext := demand_pos next frames
    rw [demand] at hdemand
    omega
  | case9 room n next frames hn hlt hne read s hloop ih =>
    simp only [unbroken, Bool.and_eq_true] at h
    obtain ⟨hunbroken, hsteady, -, hall⟩ := ih (by omega) (by simp) h.2
    rw [hloop] at hunbroken hsteady hall
    refine ⟨hunbroken, hsteady, by simp; omega, fun hdemand => hall ?_⟩
    rw [demand] at hdemand
    omega

variable {s s' : BodyStream} {room : ℕ} {rooms : List ℕ}

lemma readOf_recvBody (hs : s.Steady) (hu : s.Unbroken) (hroom : 0 < room) :
    ReadOf room s.frames (s.recvBody room) := by
  unfold recvBody
  cases hdata : s.inData with
  | true =>
    simp only [hroom, decide_true, Bool.and_self, if_true]
    exact readOf_recvLoop hroom (fun hfired => (hs hfired).2) hu
  | false =>
    have hfired : s.fired = false := by
      by_contra hne
      have hin := (hs (by simpa using hne)).1
      rw [hdata] at hin
      cases hin
    exact ⟨hu, hs, fun _ => hfired, fun _ => hfired⟩

lemma recvAll_cons (s : BodyStream) (room : ℕ) (rooms : List ℕ) :
    s.recvAll (room :: rooms) =
      ((s.recvBody room).1 :: ((s.recvBody room).2.recvAll rooms).1, ((s.recvBody room).2.recvAll rooms).2) := rfl

lemma length_recvAll (s : BodyStream) (rooms : List ℕ) : (s.recvAll rooms).1.length = rooms.length := by
  induction rooms generalizing s with
  | nil => rfl
  | cons room rooms ih => rw [recvAll_cons, List.length_cons, ih, List.length_cons]

lemma steady_recvAll (hs : s.Steady) (hu : s.Unbroken) (hrooms : ∀ room ∈ rooms, 0 < room) :
    (s.recvAll rooms).2.Steady := by
  induction rooms generalizing s with
  | nil => exact hs
  | cons room rooms ih =>
    have hread := readOf_recvBody hs hu (hrooms room List.mem_cons_self)
    rw [recvAll_cons]
    exact ih hread.steady hread.unbroken fun room' hroom => hrooms room' (List.mem_cons_of_mem _ hroom)

/-- Reads until one is done arm the event again. -/
lemma fired_recvAll_of_done (hs : s.Steady) (hu : s.Unbroken) (hrooms : ∀ room ∈ rooms, 0 < room)
    (hdone : (s.recvAll rooms).1.getLast? = some 0) : (s.recvAll rooms).2.fired = false := by
  induction rooms generalizing s with
  | nil => cases hdone
  | cons room rooms ih =>
    have hread := readOf_recvBody hs hu (hrooms room List.mem_cons_self)
    rw [recvAll_cons] at hdone ⊢
    cases rooms with
    | nil => exact hread.done (by simpa [recvAll] using hdone)
    | cons room' rooms =>
      refine ih hread.steady hread.unbroken (fun _ hmem => hrooms _ (List.mem_cons_of_mem _ hmem)) ?_
      rw [recvAll_cons] at hdone ⊢
      simpa using hdone

/-! ### Everything else -/

lemma addPayload_ne_nil {n : ℕ} {frames : List ℕ} (h : frames ≠ []) : addPayload n frames ≠ [] := by
  fun_cases addPayload n frames with
  | case1 => exact absurd rfl h
  | case2 => simp
  | case3 => simp

lemma Steady.trigger (h : s.frames ≠ []) : s.trigger.Steady := fun _ => ⟨rfl, h⟩

lemma Steady.step {ev : TransportEvent} (h : s.Steady) (hstep : s.step ev = some s') :
    s'.Steady ∧ (s'.fired = true → s.fired = true) := by
  cases ev with
  | other =>
    obtain ⟨-, hstep⟩ := Option.ite_none_right_eq_some.mp hstep
    obtain rfl := Option.some.inj hstep
    exact ⟨h, id⟩
  | dataHeader length =>
    obtain ⟨-, hstep⟩ := Option.ite_none_right_eq_some.mp hstep
    obtain rfl := Option.some.inj hstep
    exact ⟨fun hfired => ⟨(h hfired).1, by simp⟩, id⟩
  | payload n =>
    obtain ⟨hn, hstep⟩ := Option.ite_none_right_eq_some.mp hstep
    obtain rfl := Option.some.inj hstep
    exact ⟨fun hfired => ⟨(h hfired).1, addPayload_ne_nil hn.2⟩, id⟩
  | passed =>
    simp only [BodyStream.step] at hstep
    split_ifs at hstep with hframes hbehind hfired
    · obtain rfl := Option.some.inj hstep
      exact ⟨by simp [Steady], by simp⟩
    · obtain rfl := Option.some.inj hstep
      exact ⟨fun _ => ⟨rfl, hframes⟩, id⟩
  | skipped =>
    obtain rfl := Option.some.inj hstep
    exact ⟨by simp [Steady], by simp⟩

end BodyStream

end Pingola
