import Pingola.UpstreamH3.Frame

/-!
# Request bodies

`H3RequestBodyWriter` of `upstream_h3_connector.rs` turns the chunks of a body into Body commands, one at
a time. The ledger of an upload says how the commands, their completions and what was sent on the stream
go together.
-/

namespace Pingola
open ByteText

def upstreamBodyBatchThreshold : ℕ := 64 * 1024

/-- Bytes of a body, and whether the body ends with them: a Body command, or what one call of `send_body`
has sent. -/
structure BodyPart where
  data : Bytes
  fin : Bool
  deriving DecidableEq

/-- `opens` says that the answer to the Open command was not received yet. -/
structure H3RequestBodyWriter where
  opens : Bool
  expectsBody : Bool
  pending : Bytes

namespace H3RequestBodyWriter

variable (writer : H3RequestBodyWriter)

def flushPending (fin : Bool) : H3RequestBodyWriter × Option BodyPart :=
  if writer.pending.isEmpty then (writer, none) else ({ writer with pending := [] }, some ⟨writer.pending, fin⟩)

/-- `write_all_buf` once the stream is open, with the command that it sends. -/
def writeAllBuf (data : Bytes) : H3RequestBodyWriter × Option BodyPart :=
  if data.isEmpty then (writer, none)
  else if writer.pending.isEmpty && upstreamBodyBatchThreshold ≤ data.length then (writer, some ⟨data, false⟩)
  else
    let writer := { writer with pending := if writer.pending.isEmpty then data else writer.pending ++ data }
    if upstreamBodyBatchThreshold ≤ writer.pending.length then writer.flushPending false else (writer, none)

/-- `finish` of a writer that expects a body, once the stream is open. -/
def finish : H3RequestBodyWriter × Option BodyPart :=
  if writer.pending.isEmpty then (writer, some ⟨[], true⟩) else writer.flushPending true

end H3RequestBodyWriter

/-! ### Parts of a body -/

namespace BodyPart

/-- The bytes of parts in a row. -/
def bytes (parts : List BodyPart) : Bytes := (parts.map data).flatten

@[simp] lemma bytes_nil : bytes [] = [] := rfl

@[simp] lemma bytes_append (parts more : List BodyPart) : bytes (parts ++ more) = bytes parts ++ bytes more := by
  simp [bytes]

@[simp] lemma bytes_singleton (part : BodyPart) : bytes [part] = part.data := by
  simp [bytes]

def NoFin (parts : List BodyPart) : Prop := ∀ part ∈ parts, part.fin = false

/-- The body ends once, with the last part. -/
def EndsInFin (parts : List BodyPart) : Prop := ∃ before last, parts = before ++ [⟨last, true⟩] ∧ NoFin before

lemma noFin_nil : NoFin [] := fun _ h => by cases h

lemma noFin_append {parts more : List BodyPart} : NoFin (parts ++ more) ↔ NoFin parts ∧ NoFin more := by
  simp only [NoFin, List.mem_append]
  constructor
  · exact fun h => ⟨fun part hp => h part (.inl hp), fun part hp => h part (.inr hp)⟩
  · rintro ⟨hparts, hmore⟩ part (hp | hp)
    · exact hparts part hp
    · exact hmore part hp

lemma noFin_singleton {part : BodyPart} : NoFin [part] ↔ part.fin = false := by
  simp [NoFin]

lemma endsInFin_append {parts : List BodyPart} {part : BodyPart} :
    EndsInFin (parts ++ [part]) ↔ NoFin parts ∧ part.fin = true := by
  constructor
  · rintro ⟨before, last, heq, hbefore⟩
    obtain ⟨rfl, hlast⟩ := List.append_inj' heq rfl
    obtain rfl := List.singleton_inj.mp hlast
    exact ⟨hbefore, rfl⟩
  · rintro ⟨hparts, hfin⟩
    exact ⟨parts, part.data, by rw [← hfin], hparts⟩

end BodyPart

namespace H3RequestBodyWriter

variable {writer : H3RequestBodyWriter}

/-- A chunk goes into commands or is kept back, in order, and ends nothing. -/
lemma writeAllBuf_spec (writer : H3RequestBodyWriter) (data : Bytes) :
    BodyPart.bytes (writer.writeAllBuf data).2.toList ++ (writer.writeAllBuf data).1.pending =
      writer.pending ++ data ∧
    BodyPart.NoFin (writer.writeAllBuf data).2.toList ∧ (writer.writeAllBuf data).1.opens = writer.opens ∧
    (writer.writeAllBuf data).1.expectsBody = writer.expectsBody := by
  unfold writeAllBuf
  split
  case isTrue hempty =>
    rw [List.isEmpty_iff] at hempty
    simp [hempty, BodyPart.noFin_nil]
  case isFalse =>
    split
    case isTrue hlarge =>
      simp only [Bool.and_eq_true, List.isEmpty_iff] at hlarge
      simp [hlarge.1, BodyPart.noFin_singleton]
    case isFalse =>
      have hjoined : (if writer.pending.isEmpty then data else writer.pending ++ data) = writer.pending ++ data := by
        cases hpending : writer.pending <;> simp
      simp only [hjoined]
      split
      case isFalse => simp [BodyPart.noFin_nil]
      case isTrue =>
        unfold flushPending
        split <;> simp [BodyPart.noFin_nil, BodyPart.noFin_singleton]

/-- The end of the body goes with all that was kept back. -/
lemma finish_spec (writer : H3RequestBodyWriter) :
    writer.finish.2 = some ⟨writer.pending, true⟩ ∧ writer.finish.1.pending = [] ∧
      writer.finish.1.opens = writer.opens ∧ writer.finish.1.expectsBody = writer.expectsBody := by
  unfold finish flushPending
  split
  case isTrue hempty =>
    rw [List.isEmpty_iff] at hempty
    simp [hempty]
  case isFalse => simp

end H3RequestBodyWriter

/-! ### The ledger -/

def AllOk (results : List (Except Bytes Unit)) : Prop := ∀ result ∈ results, result = .ok ()

lemma allOk_append {results : List (Except Bytes Unit)} {result : Except Bytes Unit} :
    AllOk (results ++ [result]) ↔ AllOk results ∧ result = .ok () := by
  simp only [AllOk, List.mem_append, List.mem_singleton]
  constructor
  · exact fun h => ⟨fun r hr => h r (.inl hr), h result (.inr rfl)⟩
  · rintro ⟨hresults, hresult⟩ r (hr | rfl)
    · exact hresults r hr
    · exact hresult

/-- What was sent on the stream is what the commands say, with the end where they have it. -/
structure Sent (commands log : List BodyPart) : Prop where
  bytes : BodyPart.bytes log = BodyPart.bytes commands
  noFin : BodyPart.NoFin commands → BodyPart.NoFin log
  endsInFin : BodyPart.EndsInFin commands → BodyPart.EndsInFin log

/-- The commands of an upload, their completions and what was sent on the stream, with the command that
the worker has not taken yet and the write that it has not completed. -/
inductive Ledger (commands : List BodyPart) (written : List (Except Bytes Unit)) (log : List BodyPart) :
    Option BodyPart → Option PendingWrite → Prop
  | settled (hlen : written.length ≤ commands.length)
      (hsent : written.length = commands.length → AllOk written → Sent commands log) :
      Ledger commands written log none none
  | queued {before : List BodyPart} {part : BodyPart} (hcommands : commands = before ++ [part])
      (hlen : written.length ≤ before.length)
      (hsent : written.length = before.length → AllOk written → Sent before log) :
      Ledger commands written log (some part) none
  | writing {before : List BodyPart} {data : Bytes} {offset : ℕ} {fin : Bool}
      (hcommands : commands = before ++ [⟨data, fin⟩]) (hlen : written.length ≤ before.length)
      (hoffset : offset ≤ data.length)
      (hsent : written.length = before.length → AllOk written →
        BodyPart.bytes log = BodyPart.bytes before ++ data.take offset ∧
          (BodyPart.NoFin before → BodyPart.NoFin log)) :
      Ledger commands written log none (some (.body data offset fin))

namespace Ledger

variable {commands log : List BodyPart} {written : List (Except Bytes Unit)} {part : BodyPart}
  {queued : Option BodyPart} {write : Option PendingWrite}

lemma start (log : List BodyPart) (hlog : log = []) : Ledger [] [] log none none := by
  subst hlog
  exact .settled le_rfl fun _ _ => ⟨rfl, fun h => h, fun h => h⟩

/-- There is at most one completion for a command, and none yet for one that is not completed. -/
lemma length_le (h : Ledger commands written log queued write) :
    written.length + queued.toList.length + write.toList.length ≤ commands.length := by
  cases h with
  | settled hlen => exact hlen
  | queued hcommands hlen =>
    subst hcommands
    simp only [List.length_append, List.length_singleton, Option.toList_some, Option.toList_none, List.length_nil]
    omega
  | writing hcommands hlen =>
    subst hcommands
    simp only [List.length_append, List.length_singleton, Option.toList_some, Option.toList_none, List.length_nil]
    omega

/-- The writer sends a command, once the ones before are completed. -/
lemma send (h : Ledger commands written log queued write) (hlen : written.length = commands.length)
    (part : BodyPart) : Ledger (commands ++ [part]) written log (some part) write := by
  have hle := h.length_le
  cases h with
  | settled _ hsent => exact .queued rfl hlen.le hsent
  | queued =>
    simp only [Option.toList_some, List.length_singleton] at hle
    omega
  | writing =>
    simp only [Option.toList_some, List.length_singleton] at hle
    omega

/-- There is one command at a time. -/
lemma write_eq_none (h : Ledger commands written log (some part) write) : write = none := by
  cases h
  rfl

/-- The worker takes the command. -/
lemma take (h : Ledger commands written log (some part) none) :
    Ledger commands written log none (some (.body part.data 0 part.fin)) := by
  cases h with
  | queued hcommands hlen hsent =>
    refine .writing hcommands hlen (Nat.zero_le _) fun heq hok => ?_
    obtain ⟨hbytes, hnoFin, -⟩ := hsent heq hok
    exact ⟨by simp [hbytes], hnoFin⟩

/-- The worker fails the command instead of taking it. -/
lemma refuse (h : Ledger commands written log (some part) none) (message : Bytes) :
    Ledger commands (written ++ [.error message]) log none none := by
  cases h with
  | queued hcommands hlen hsent =>
    subst hcommands
    refine .settled (by simpa using hlen) fun _ hok => ?_
    cases (allOk_append.mp hok).2

/-- The worker fails the write. -/
lemma fail {pending : PendingWrite} (h : Ledger commands written log queued (some pending)) (message : Bytes) :
    Ledger commands (written ++ [.error message]) log queued none := by
  cases h with
  | writing hcommands hlen hoffset hsent =>
    subst hcommands
    refine .settled (by simpa using hlen) fun _ hok => ?_
    cases (allOk_append.mp hok).2

/-- The write is dropped without a completion. -/
lemma lose (h : Ledger commands written log queued write) : Ledger commands written log queued none := by
  cases h with
  | settled hlen hsent => exact .settled hlen hsent
  | queued hcommands hlen hsent => exact .queued hcommands hlen hsent
  | writing hcommands hlen hoffset hsent =>
    subst hcommands
    refine .settled (hlen.trans (by simp)) fun heq _ => ?_
    simp only [List.length_append, List.length_singleton] at heq
    omega

variable {data : Bytes} {offset n : ℕ} {fin : Bool}

/-- Some bytes are sent, but not the last one. -/
lemma advance (h : Ledger commands written log none (some (.body data offset fin)))
    (hle : offset + n ≤ data.length) :
    Ledger commands written (log ++ [⟨(data.drop offset).take n, false⟩]) none
      (some (.body data (offset + n) fin)) := by
  cases h with
  | writing hcommands hlen hoffset hsent =>
    refine .writing hcommands hlen hle fun heq hok => ?_
    obtain ⟨hbytes, hnoFin⟩ := hsent heq hok
    refine ⟨?_, fun hbefore => ?_⟩
    · simp [hbytes, List.take_add]
    · exact BodyPart.noFin_append.mpr ⟨hnoFin hbefore, BodyPart.noFin_singleton.mpr rfl⟩

/-- The rest is sent, with the end if the command has it. -/
lemma complete (h : Ledger commands written log none (some (.body data offset fin)))
    (heq : offset + n = data.length) :
    Ledger commands (written ++ [.ok ()]) (log ++ [⟨(data.drop offset).take n, fin⟩]) none none := by
  cases h with
  | writing hcommands hlen hoffset hsent =>
    subst hcommands
    refine .settled (by simpa using hlen) fun hlength hok => ?_
    simp only [List.length_append, List.length_singleton, Nat.add_right_cancel_iff] at hlength
    obtain ⟨hbytes, hnoFin⟩ := hsent hlength (allOk_append.mp hok).1
    refine ⟨?_, fun hall => ?_, fun hends => ?_⟩
    · have hrest : data.take offset ++ (data.drop offset).take n = data := by
        rw [← List.take_add, heq, List.take_length]
      simp [hbytes, hrest]
    · obtain ⟨hbefore, hfin⟩ := BodyPart.noFin_append.mp hall
      rw [BodyPart.noFin_singleton] at hfin
      exact BodyPart.noFin_append.mpr ⟨hnoFin hbefore, BodyPart.noFin_singleton.mpr hfin⟩
    · obtain ⟨hbefore, hfin⟩ := BodyPart.endsInFin_append.mp hends
      exact BodyPart.endsInFin_append.mpr ⟨hnoFin hbefore, hfin⟩

/-- All commands are completed without an error. -/
lemma sent (h : Ledger commands written log queued write) (hlen : written.length = commands.length)
    (hok : AllOk written) : Sent commands log := by
  have hle := h.length_le
  cases h with
  | settled _ hsent => exact hsent hlen hok
  | queued =>
    simp only [Option.toList_some, List.length_singleton] at hle
    omega
  | writing =>
    simp only [Option.toList_some, List.length_singleton] at hle
    omega

end Ledger

end Pingola
