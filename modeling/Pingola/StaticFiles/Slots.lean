import Pingola.Lib.Semaphore
import Pingola.StaticFiles.Serve

/-!
# The permits of static requests

Every call of `serve` returns the permits that it took, whichever way it ends, so the free permits and
those held by calls always add up to the size of the semaphore.
-/

namespace Pingola.StaticFiles
open ByteText

/-- The semaphores of `StaticFiles`. -/
inductive Slot where
  | request
  | stream
  | coldRead

def Slot.size : Slot → ℕ
  | .request => maxActiveStaticRequests
  | .stream => maxActiveStaticStreams
  | .coldRead => maxColdReads

namespace ServeCall

variable {env : StaticEnv} {call : ServeCall}

def permits (slot : Slot) (call : ServeCall) : ℕ :=
  match slot with
  | .request => call.requestPermit.toNat
  | .stream => call.streamPermit.toNat
  | .coldRead => call.coldReadPermit.toNat

/-- A call takes a permit to stream or to read only where it has none. -/
def HoldsByPhase (call : ServeCall) : Prop :=
  match call.phase with
  | .resolving _ _ => call.streamPermit = false ∧ call.coldReadPermit = false
  | .queued _ _ _ => call.coldReadPermit = false
  | .reading _ _ _ => call.coldReadPermit = true
  | .returned => ∀ slot, call.permits slot = 0
  | _ => True

/-- The call is about to return and has the permits of another one. -/
structure LeavesLike (old call : ServeCall) : Prop where
  phase : call.phase = .leaving
  permits : ∀ slot, call.permits slot = old.permits slot

lemma LeavesLike.holdsByPhase {old : ServeCall} (h : LeavesLike old call) : call.HoldsByPhase := by
  unfold HoldsByPhase
  rw [h.phase]
  trivial

lemma leavesLike_write (header : ResponseHeader) (body : Bytes) : LeavesLike call (call.write header body) :=
  ⟨rfl, fun _ => rfl⟩

lemma leavesLike_fail : LeavesLike call call.fail := ⟨rfl, fun _ => rfl⟩

lemma leavesLike_answer (asset : ResolvedAsset) (encoding : Encoding) (cached : CachedAsset) :
    LeavesLike call (call.answer asset encoding cached) := by
  unfold answer
  split
  · exact leavesLike_write _ _
  · exact leavesLike_write _ _

/-- The permits stay, and the call does not wait for another one. -/
lemma stream_cases (env : StaticEnv) (call : ServeCall) (asset : ResolvedAsset) :
    LeavesLike call (call.stream env asset) ∨ call.stream env asset = { call with phase := .opening asset } := by
  unfold stream
  split_ifs
  · split
    · exact .inl (leavesLike_write _ _)
    · exact .inl leavesLike_fail
  · split
    · exact .inl (leavesLike_write _ _)
    · exact .inl leavesLike_fail
  · exact .inr rfl

lemma opened_cases (asset : ResolvedAsset) (ok : Bool) :
    LeavesLike call (call.opened env asset ok) ∨
      ∃ header, call.opened env asset ok =
        { call with phase := .streaming asset asset.length, response := some ⟨header, [], false⟩ } := by
  unfold opened
  split
  · split_ifs
    · exact .inl (leavesLike_write _ _)
    · exact .inr ⟨_, rfl⟩
  · exact .inl leavesLike_fail

end ServeCall

namespace ServeState

variable {L : LruCrate} {n : ℕ} {env : StaticEnv} {roots : Table Bytes Bytes} {s t : ServeState L n} {i : ℕ}
  {call old : ServeCall}

def free (slot : Slot) (s : ServeState L n) : ℕ :=
  match slot with
  | .request => s.requestSlots
  | .stream => s.streamSlots
  | .coldRead => s.coldReadSlot

/-- No permit is lost or made up. -/
structure Conserves (s : ServeState L n) : Prop where
  slots : ∀ slot : Slot, Semaphore.Conserves slot.size (s.free slot) (ServeCall.permits slot) s.calls
  calls : ∀ i call, s.calls.lookup i = some call → call.HoldsByPhase

/-- A step gives one call a new state and moves permits between it and the semaphores. -/
def Moves (s : ServeState L n) (i : ℕ) (old : ServeCall) (t : ServeState L n) : Prop :=
  ∃ call : ServeCall, call.HoldsByPhase ∧ t.calls = s.calls.insert i call ∧
    ∀ slot, t.free slot + call.permits slot = s.free slot + old.permits slot

lemma Moves.conserves (h : Moves s i old t)
    (hold : s.calls.lookup i = some old ∨ s.calls.lookup i = none ∧ ∀ slot, old.permits slot = 0)
    (hs : s.Conserves) : t.Conserves := by
  obtain ⟨call, hcall, hcalls, hmoved⟩ := h
  refine ⟨fun slot => ?_, fun j found hfound => ?_⟩
  · rw [hcalls]
    rcases hold with hold | ⟨hnew, hnone⟩
    · exact (hs.slots slot).insert hold (hmoved slot)
    · exact (hs.slots slot).insert_new hnew (by rw [hmoved, hnone, Nat.add_zero])
  · rw [hcalls] at hfound
    rcases Table.lookup_insert_cases hfound with ⟨-, rfl⟩ | ⟨-, hother⟩
    · exact hcall
    · exact hs.calls j found hother

/-! ### One step -/

/-- The call goes on with the permits that it has. -/
lemma moves_put (hcalls : t.calls = s.calls) (hfree : ∀ slot, t.free slot = s.free slot) (hcall : call.HoldsByPhase)
    (hpermits : ∀ slot, call.permits slot = old.permits slot) : Moves s i old (t.put i call) := by
  refine ⟨call, hcall, ?_, fun slot => ?_⟩
  · rw [← hcalls]
    rfl
  · rw [hpermits]
    exact congrArg (· + old.permits slot) (hfree slot)

lemma moves_leaving (hcalls : t.calls = s.calls) (hfree : ∀ slot, t.free slot = s.free slot)
    (h : ServeCall.LeavesLike old call) : Moves s i old (t.put i call) :=
  moves_put hcalls hfree h.holdsByPhase h.permits

/-- Permits that the call has taken on its way count as held. -/
lemma Moves.of_taken {u : ServeState L n} {c : ServeCall} (h : Moves t i c u) (hcalls : t.calls = s.calls)
    (htaken : ∀ slot, t.free slot + c.permits slot = s.free slot + old.permits slot) : Moves s i old u := by
  obtain ⟨new, hnew, hinsert, hmoved⟩ := h
  exact ⟨new, hnew, hcalls ▸ hinsert, fun slot => (hmoved slot).trans (htaken slot)⟩

/-- A permit to stream is taken by a call that has none. -/
lemma moves_stream (asset : ResolvedAsset) (hstream : call.streamPermit = false) (hfree : s.streamSlots ≠ 0) :
    Moves s i call
      ({ s with streamSlots := s.streamSlots - 1 }.put i ({ call with streamPermit := true }.stream env asset)) := by
  refine Moves.of_taken (t := { s with streamSlots := s.streamSlots - 1 })
    (c := { call with streamPermit := true }) ?_ rfl fun slot => ?_
  · rcases ServeCall.stream_cases env { call with streamPermit := true } asset with h | h
    · exact moves_leaving rfl (fun _ => rfl) h
    · rw [h]
      exact moves_put rfl (fun _ => rfl) trivial fun _ => rfl
  · cases slot with
    | request => rfl
    | coldRead => rfl
    | stream =>
      simp only [ServeCall.permits, free, hstream, Bool.toNat_true, Bool.toNat_false]
      omega

lemma moves_select (root : Bytes) (asset : ResolvedAsset) (hstream : call.streamPermit = false)
    (hcold : call.coldReadPermit = false) : Moves s i call (s.select env i call root asset) := by
  unfold select
  split_ifs with hlarge hidentity hfree
  · exact moves_leaving rfl (fun _ => rfl) (ServeCall.leavesLike_write _ _)
  · exact moves_leaving rfl (fun _ => rfl) (ServeCall.leavesLike_write _ _)
  · exact moves_stream asset hstream hfree
  · split
    · exact moves_leaving rfl (fun _ => rfl) (ServeCall.leavesLike_write _ _)
    · split
      · exact moves_leaving rfl (fun slot => by cases slot <;> rfl) (ServeCall.leavesLike_answer _ _ _)
      · exact moves_put rfl (fun slot => by cases slot <;> rfl) hcold fun _ => rfl

lemma moves_serve (session : StaticRequest) (now : ℕ) :
    Moves s i (.start session) (s.serve env roots i session now) := by
  unfold serve
  dsimp only
  split_ifs with hfree hmethod
  · exact moves_leaving rfl (fun _ => rfl) (ServeCall.leavesLike_write _ _)
  -- the other paths hold the permit of the request
  all_goals
    refine Moves.of_taken (t := { s with requestSlots := s.requestSlots - 1 })
      (c := { ServeCall.start session with requestPermit := true }) ?_ rfl fun slot => ?_
    rotate_left
    · cases slot with
      | stream => rfl
      | coldRead => rfl
      | request =>
        simp only [ServeCall.permits, free, ServeCall.start, Bool.toNat_true, Bool.toNat_false]
        omega
  · exact moves_leaving rfl (fun _ => rfl) (ServeCall.leavesLike_write _ _)
  · split
    · exact moves_leaving rfl (fun _ => rfl) (ServeCall.leavesLike_write _ _)
    · split
      · exact (moves_select _ _ rfl rfl).of_taken rfl fun slot => by cases slot <;> rfl
      · exact moves_put rfl (fun slot => by cases slot <;> rfl) ⟨rfl, rfl⟩ fun _ => rfl

lemma moves_resolve {root : Bytes} {now : ℕ} (fs : ℕ → FileSystem) (hcall : call.HoldsByPhase)
    (hphase : call.phase = .resolving root now) : Moves s i call (s.resolve env i call root now fs) := by
  unfold ServeCall.HoldsByPhase at hcall
  rw [hphase] at hcall
  unfold resolve
  split
  · exact moves_leaving rfl (fun _ => rfl) (ServeCall.leavesLike_write _ _)
  · exact (moves_select _ _ hcall.1 hcall.2).of_taken rfl fun slot => by cases slot <;> rfl

lemma moves_acquireColdRead {root : Bytes} {asset : ResolvedAsset} {encoding : Encoding} (hcall : call.HoldsByPhase)
    (hphase : call.phase = .queued root asset encoding) (hfree : 0 < s.coldReadSlot) :
    Moves s i call (s.acquireColdRead env i call root asset encoding) := by
  unfold ServeCall.HoldsByPhase at hcall
  rw [hphase] at hcall
  unfold acquireColdRead
  split
  · exact moves_leaving rfl (fun slot => by cases slot <;> rfl) (ServeCall.leavesLike_answer _ _ _)
  · refine ⟨{ call with phase := .reading root asset encoding, coldReadPermit := true }, rfl, rfl, fun slot => ?_⟩
    cases slot with
    | request => rfl
    | stream => rfl
    | coldRead =>
      change s.coldReadSlot - 1 + 1 = s.coldReadSlot + call.coldReadPermit.toNat
      rw [hcall, Nat.sub_add_cancel hfree]
      rfl

lemma moves_read {root : Bytes} {asset : ResolvedAsset} {encoding : Encoding} (disk : ℕ → Disk)
    (hcall : call.HoldsByPhase) (hphase : call.phase = .reading root asset encoding) :
    Moves s i call (s.read env i call root asset encoding disk) := by
  unfold ServeCall.HoldsByPhase at hcall
  rw [hphase] at hcall
  unfold read
  split
  · exact moves_leaving rfl (fun _ => rfl) (ServeCall.leavesLike_write _ _)
  · split
    · exact moves_leaving rfl (fun _ => rfl) ServeCall.leavesLike_fail
    · rename_i body actualEncoding hread cached hcached
      have hleaves : ServeCall.LeavesLike { call with coldReadPermit := false }
          ({ call with coldReadPermit := false }.answer asset encoding cached) :=
        ServeCall.leavesLike_answer asset encoding cached
      refine ⟨_, hleaves.holdsByPhase, rfl, fun slot => ?_⟩
      rw [hleaves.permits]
      cases slot with
      | request => rfl
      | stream => rfl
      | coldRead =>
        change s.coldReadSlot + 1 + 0 = s.coldReadSlot + call.coldReadPermit.toNat
        rw [hcall]
        rfl

lemma moves_leave : Moves s i call (s.leave i call) := by
  refine ⟨call.leave, fun slot => ?_, rfl, fun slot => ?_⟩
  · cases slot <;> rfl
  · cases slot <;> rfl

lemma conserves_of_steps {ev : ServeEvent} (h : s.Steps env roots ev t) (hs : s.Conserves) : t.Conserves := by
  cases h with
  | serve hnew => exact (moves_serve _ _).conserves (.inr ⟨hnew, fun slot => by cases slot <;> rfl⟩) hs
  | resolve hcall hphase => exact (moves_resolve _ (hs.calls _ _ hcall) hphase).conserves (.inl hcall) hs
  | acquireColdRead hcall hphase hfree =>
    exact (moves_acquireColdRead (hs.calls _ _ hcall) hphase hfree).conserves (.inl hcall) hs
  | read hcall hphase => exact (moves_read _ (hs.calls _ _ hcall) hphase).conserves (.inl hcall) hs
  | openFile hcall hphase =>
    refine Moves.conserves ?_ (.inl hcall) hs
    rcases ServeCall.opened_cases _ _ with hleaves | ⟨header, hstreaming⟩
    · exact moves_leaving rfl (fun _ => rfl) hleaves
    · rw [hstreaming]
      exact moves_put rfl (fun _ => rfl) trivial fun _ => rfl
  | readChunk hcall hphase hsize =>
    refine Moves.conserves ?_ (.inl hcall) hs
    refine moves_put rfl (fun _ => rfl) ?_ fun slot => by cases slot <;> rfl
    unfold ServeCall.HoldsByPhase ServeCall.sendChunk
    dsimp only
    split_ifs <;> trivial
  | readError hcall hphase =>
    exact (moves_leaving rfl (fun _ => rfl) ServeCall.leavesLike_fail).conserves (.inl hcall) hs
  | leave hcall => exact moves_leave.conserves (.inl hcall) hs

lemma conserves_new (hosts : List Bytes) (cacheBytes : ℕ) : (new hosts cacheBytes : ServeState L n).Conserves := by
  refine ⟨fun slot => ?_, fun i call h => ?_⟩
  · cases slot <;> exact Semaphore.conserves_empty _ _
  · cases h

lemma conserves_of_run {cacheBytes : ℕ} {events : List ServeEvent}
    {s : ServeState L (perHostCapacity roots.entries.length)} (h : Run env roots cacheBytes events s) : s.Conserves :=
  Runs.Run.invariant (fun _ s => s.Conserves) (fun _ _ _ _ hstep hs => conserves_of_steps (steps_of_step _ _ hstep) hs)
    h (conserves_new _ _)

/-- At every moment of every run the free permits of each semaphore and the calls that hold one add up to its
size, so there are never more than 256 calls, 32 streams and 2 reads; once all calls have returned, by whichever
way, all permits are free again. -/
theorem static_permits_conserved {cacheBytes : ℕ} {events : List ServeEvent}
    {s : ServeState L (perHostCapacity roots.entries.length)} (h : Run env roots cacheBytes events s) :
    s.requestSlots + s.calls.entries.countP (fun e => e.2.requestPermit) = 256 ∧
      s.streamSlots + s.calls.entries.countP (fun e => e.2.streamPermit) = 32 ∧
      s.coldReadSlot + s.calls.entries.countP (fun e => e.2.coldReadPermit) = 2 ∧
      ((∀ i call, s.calls.lookup i = some call → call.phase = .returned) →
        s.requestSlots = 256 ∧ s.streamSlots = 32 ∧ s.coldReadSlot = 2) := by
  have hs := conserves_of_run h
  have hcount : ∀ (slot : Slot) (permit : ServeCall → Bool), (∀ call, call.permits slot = (permit call).toNat) →
      s.free slot + s.calls.entries.countP (fun e => permit e.2) = slot.size := by
    intro slot permit hpermit
    rw [← hs.slots slot, ← Semaphore.total_toNat]
    exact congrArg (s.free slot + ·) (congrArg (Table.total · s.calls) (funext hpermit)).symm
  refine ⟨hcount .request _ fun _ => rfl, hcount .stream _ fun _ => rfl, hcount .coldRead _ fun _ => rfl,
    fun hreturned => ?_⟩
  have hfree : ∀ slot : Slot, s.free slot = slot.size := by
    intro slot
    refine (hs.slots slot).free_eq fun e he => ?_
    have hlookup : s.calls.lookup e.1 = some e.2 := AList.mem_lookup_iff.mpr he
    have hcall := hs.calls e.1 e.2 hlookup
    unfold ServeCall.HoldsByPhase at hcall
    rw [hreturned e.1 e.2 hlookup] at hcall
    exact hcall slot
  exact ⟨hfree .request, hfree .stream, hfree .coldRead⟩

def ServePhase.isReturned : ServePhase → Bool
  | .returned => true
  | _ => false

lemma exampleDownloadsEnd_returned :
    (exampleDownloadsEnd.map fun s => s.calls.entries.all fun e => ServePhase.isReturned e.2.phase) = some true := by
  decide +kernel

/-- After the two downloads all permits are free. -/
theorem downloads_free_permits :
    ∃ s : ExampleServeState, Run exampleStaticEnv exampleRoots 0 exampleDownloads s ∧
      (∀ i call, s.calls.lookup i = some call → call.phase = .returned) ∧
      s.requestSlots = 256 ∧ s.streamSlots = 32 ∧ s.coldReadSlot = 2 := by
  obtain ⟨s, hs, hall⟩ := Option.map_eq_some_iff.mp exampleDownloadsEnd_returned
  have hrun : Run exampleStaticEnv exampleRoots 0 exampleDownloads s := Runs.run_of_exec hs
  have hreturned : ∀ i call, s.calls.lookup i = some call → call.phase = .returned := by
    intro i call hcall
    have hphase := List.all_eq_true.mp hall ⟨i, call⟩ (AList.mem_lookup_iff.mp hcall)
    cases hcase : call.phase <;> simp [hcase, ServePhase.isReturned] at hphase ⊢
  exact ⟨s, hrun, hreturned, (static_permits_conserved hrun).2.2.2 hreturned⟩

end ServeState

end Pingola.StaticFiles
