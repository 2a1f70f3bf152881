import Pingola.Config
import Pingola.Http3.Decode

/-!
# The response side of an HTTP/3 session

`H3Session` of `h3_session.rs` as far as it writes a response. A session numbers its sends; what
becomes of each of them, the write timeout in force and the cached date are the surroundings of a
session. A frame that is not delivered is gone. The session keeps the list of the frames that were
delivered, which the source leaves to the QUIC driver.
-/

namespace Pingola
open ByteText

inductive OutboundFrame where
  | headers (list : List H3Header)
  | body (data : Bytes) (fin : Bool)
  deriving DecidableEq

/-- The frame channel takes a frame, takes it only after the write timeout, or is closed. -/
inductive SendAnswer where
  | accepted
  | late
  | closed

structure SessionEnv where
  answer : ℕ → SendAnswer
  writeTimeout : ℕ → Option ℕ
  date : ℕ → Bytes

/-- Whether the frame of a send reaches the driver. -/
def SessionEnv.delivers (env : SessionEnv) (send : ℕ) : Bool :=
  match env.answer send, env.writeTimeout send with
  | .accepted, _ => true
  | .late, none => true
  | .late, some _ => false
  | .closed, _ => false

/-- Errors by their Pingora type, and the error that a task brings along. -/
inductive SessionError where
  | write (context : Bytes)
  | internal (context : Bytes)
  | failed (error : Bytes)

inductive HttpTask where
  | header (header : ResponseHeader) (last : Bool)
  | body (data : Option Bytes) (last : Bool)
  | upgradedBody (data : Option Bytes) (last : Bool)
  | trailer (trailers : Option HeaderMap)
  | done
  | failed (error : Bytes)

structure H3Session where
  ended : Bool
  bodySent : ℕ
  responseWritten : Option ResponseHeader
  altSvc : Option Bytes
  wireHeaders : List H3Header
  sends : ℕ
  frames : List OutboundFrame

def dateName : Bytes := ascii "date"

def altSvcName : Bytes := ascii "alt-svc"

/-- `StatusCode::is_informational` for the status of a header. -/
def ResponseHeader.isInformational (header : ResponseHeader) : Bool :=
  decide (100 ≤ header.status ∧ header.status < 200)

namespace H3Session

def new (altSvc : Option Bytes) : H3Session :=
  ⟨false, 0, none, altSvc, [], 0, []⟩

/-- `HeaderName` equality, which is exact. -/
def hopByHop (name : Bytes) : Bool :=
  name == ascii "connection" || name == ascii "transfer-encoding" || name == ascii "upgrade" ||
    name == ascii "trailer" || name == ascii "keep-alive" || name == ascii "proxy-connection"

variable (env : SessionEnv) (s : H3Session)

def sendFrame (frame : OutboundFrame) : H3Session × Except SessionError Unit :=
  let tried := { s with sends := s.sends + 1 }
  let delivered := { tried with frames := s.frames ++ [frame] }
  match env.writeTimeout s.sends with
  | some _ =>
    match env.answer s.sends with
    | .accepted => (delivered, .ok ())
    | .late => (tried, .error (.write (ascii "HTTP/3 response write timed out")))
    | .closed => (tried, .error (.write (ascii "HTTP/3 response stream closed")))
  | none =>
    match env.answer s.sends with
    | .accepted | .late => (delivered, .ok ())
    | .closed => (tried, .error (.write (ascii "HTTP/3 response stream closed")))

def encodeResponseHeaders (date : Bytes) (s : H3Session) (header : ResponseHeader) : H3Session :=
  let own := header.headers.any fun p => p.1 == altSvcName
  { s with
    wireHeaders := [⟨ascii ":status", natText header.status⟩, ⟨dateName, date⟩] ++
      (if own then [] else s.altSvc.toList.map fun value => ⟨altSvcName, value⟩) ++
      (header.headers.filter fun p => !(hopByHop p.1 || p.1 == dateName || p.1 == altSvcName)).map
        fun p => ⟨p.1, p.2⟩ }

/-- The common body of `send_headers_box` and `send_headers_ref`, which differ in the header that
they remember as written. -/
def sendHeaders (header : ResponseHeader) (last : Bool) (written : Bytes → ResponseHeader) :
    H3Session × Except SessionError Unit :=
  if s.ended then (s, .ok ())
  else if header.isInformational then (s, .ok ())
  else if s.responseWritten.isSome then (s, .ok ())
  else
    let s := s.encodeResponseHeaders (env.date s.sends) header
    match { s with wireHeaders := [] }.sendFrame env (.headers s.wireHeaders) with
    | (s, .error e) => (s, .error e)
    | (s, .ok _) =>
      let s := { s with responseWritten := some (written (env.date s.sends)), ended := last }
      if last then s.sendFrame env (.body [] true) else (s, .ok ())

def sendHeadersBox (header : ResponseHeader) (last : Bool) : H3Session × Except SessionError Unit :=
  s.sendHeaders env header last fun date =>
    if header.headers.any fun p => p.1 == dateName then header
    else header.insertTypedHeader dateName date

def sendHeadersRef (header : ResponseHeader) (last : Bool) : H3Session × Except SessionError Unit :=
  s.sendHeaders env header last fun _ => ⟨header.status, []⟩

def sendBody (data : Bytes) (last : Bool) : H3Session × Except SessionError Unit :=
  if s.ended then (s, .ok ())
  else if s.responseWritten.isNone then
    (s, .error (.write (ascii "HTTP/3 response body sent before headers")))
  else if data.isEmpty && !last then (s, .ok ())
  else
    match s.sendFrame env (.body data last) with
    | (s, .error e) => (s, .error e)
    | (s, .ok _) =>
      ({ s with bodySent := s.bodySent + data.length, ended := s.ended || last }, .ok ())

/-- The empty frame with the end of the stream, after which the session has ended. -/
def sendFin : H3Session × Except SessionError Unit :=
  match s.sendFrame env (.body [] true) with
  | (s, .error e) => (s, .error e)
  | (s, .ok _) => ({ s with ended := true }, .ok ())

/-- The trailer fields that go on the wire. -/
def trailerFields (trailers : HeaderMap) : List H3Header :=
  (trailers.filter fun p => !hopByHop p.1).map fun p => ⟨p.1, p.2⟩

def writeTrailers (trailers : HeaderMap) : H3Session × Except SessionError Unit :=
  if s.ended then (s, .ok ())
  else if s.responseWritten.isNone then
    (s, .error (.write (ascii "HTTP/3 trailers sent before response headers")))
  else
    let s := { s with wireHeaders := trailerFields trailers }
    if s.wireHeaders.isEmpty then s.sendFin env
    else
      match { s with wireHeaders := [] }.sendFrame env (.headers s.wireHeaders) with
      | (s, .error e) => (s, .error e)
      | (s, .ok _) => s.sendFin env

def finish : H3Session × Except SessionError Unit :=
  if s.ended || s.responseWritten.isNone then (s, .ok ()) else s.sendFin env

/-- The session ends also when the frame is not delivered. -/
def shutdown : H3Session :=
  if s.ended then s
  else { (s.sendFrame env (.body [] true)).1 with ended := true }

/-- The result says whether the task ends the response. -/
def applyTask : HttpTask → H3Session × Except SessionError Bool
  | .header header last =>
    let (s, result) := s.sendHeadersBox env header last
    (s, result.map fun _ => last)
  | .body (some data) last =>
    if !data.isEmpty then
      let (s, result) := s.sendBody env data last
      (s, result.map fun _ => last)
    else if last then
      let (s, result) := s.sendBody env [] true
      (s, result.map fun _ => last)
    else (s, .ok last)
  | .body none last =>
    if last then
      let (s, result) := s.sendBody env [] true
      (s, result.map fun _ => last)
    else (s, .ok last)
  | .upgradedBody _ _ => (s, .error (.internal (ascii "upgraded body on HTTP/3 session")))
  | .trailer (some trailers) =>
    let (s, result) := s.writeTrailers env trailers
    (s, result.map fun _ => true)
  | .trailer none => (s, .ok true)
  | .done => (s, .ok true)
  | .failed error => (s, .error (.failed error))

def responseDuplexOne (task : HttpTask) : H3Session × Except SessionError Bool :=
  match s.applyTask env task with
  | (s, .error e) => (s, .error e)
  | (s, .ok endStream) =>
    if endStream then
      let (s, result) := s.finish env
      (s, result.map fun _ => endStream)
    else (s, .ok endStream)

/-- The loop of `response_duplex_vec`, which an error leaves at once. -/
def applyTasks (env : SessionEnv) (s : H3Session) (endStream : Bool) :
    List HttpTask → H3Session × Except SessionError Bool
  | [] => (s, .ok endStream)
  | task :: tasks =>
    match s.applyTask env task with
    | (s, .error e) => (s, .error e)
    | (s, .ok last) => applyTasks env s (last || endStream) tasks

def responseDuplexVec (tasks : List HttpTask) : H3Session × Except SessionError Bool :=
  match s.applyTasks env false tasks with
  | (s, .error e) => (s, .error e)
  | (s, .ok endStream) =>
    if endStream then
      let (s, result) := s.finish env
      (s, result.map fun _ => endStream)
    else (s, .ok endStream)

end H3Session

/-- The operations of a session that write a response. -/
inductive SessionOperation where
  | writeResponseHeader (header : ResponseHeader) (last : Bool)
  | writeResponseHeaderRef (header : ResponseHeader) (last : Bool)
  | writeBody (data : Bytes) (last : Bool)
  | writeTrailers (trailers : HeaderMap)
  | finish
  | shutdown
  | responseDuplexOne (task : HttpTask)
  | responseDuplexVec (tasks : List HttpTask)

/-- An operation, whose result its caller may ignore. -/
def H3Session.perform (env : SessionEnv) (s : H3Session) : SessionOperation → H3Session
  | .writeResponseHeader header last => (s.sendHeadersBox env header last).1
  | .writeResponseHeaderRef header last => (s.sendHeadersRef env header last).1
  | .writeBody data last => (s.sendBody env data last).1
  | .writeTrailers trailers => (s.writeTrailers env trailers).1
  | .finish => (s.finish env).1
  | .shutdown => s.shutdown env
  | .responseDuplexOne task => (s.responseDuplexOne env task).1
  | .responseDuplexVec tasks => (s.responseDuplexVec env tasks).1

end Pingola
