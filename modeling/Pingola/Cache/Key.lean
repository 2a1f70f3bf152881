import Pingola.Lib.ByteText
import Mathlib.Data.Countable.Basic
import Mathlib.Logic.Equiv.List

/-!
# Cache keys and their digests

A cache key is a namespace and the digest of the calls made on a fresh `AHasher`. The
digest type is a parameter: the running proxy uses 64-bit digests, while collision
freedom, which no 64-bit digest has, is assumed of an abstract one.
-/

namespace Pingola
open ByteText

/-- `Duration::from_secs`, in nanoseconds. -/
def fromSecs (n : ℕ) : ℕ := n * 1000000000

/-- One call on a `std::hash::Hasher`; integer writes carry their value. -/
inductive HashWrite where
  | bytes (b : Bytes)
  | u8 (v : ℕ)
  | u16 (v : ℕ)
  | u32 (v : ℕ)
  | u64 (v : ℕ)
  deriving DecidableEq

/-- `AHasher::default()` as the function from the calls made on it to the finished digest,
with the integer value of a digest. -/
structure AHasher (D : Type) where
  finish : List HashWrite → D
  value : D → ℕ
  value_injective : Function.Injective value

/-- Distinct call sequences have distinct digests, and no call sequence that writes anything
has the digest 0, which `edns_state` keeps for messages without an OPT record. -/
structure AHasher.CollisionFree {D : Type} (H : AHasher D) : Prop where
  injective : Function.Injective H.finish
  value_ne_zero : ∀ ws, ws ≠ [] → H.value (H.finish ws) ≠ 0

/-- `CacheNamespace`; the discriminants are those of the `repr(u8)` enumeration. -/
inductive CacheNamespace where
  | dns
  | navidrome
  deriving DecidableEq, Repr

def CacheNamespace.discriminant : CacheNamespace → UInt64
  | .dns => 1
  | .navidrome => 2

structure CacheKey (D : Type) where
  cacheNamespace : CacheNamespace
  hash : D
  deriving DecidableEq

def rotateLeft (x : UInt64) (n : UInt64) : UInt64 := (x <<< n) ||| (x >>> (64 - n))

/-- `CacheKey::storage_key`: the digest with the namespace mixed in. -/
def CacheKey.storageKey (k : CacheKey UInt64) : UInt64 :=
  k.hash ^^^ rotateLeft (k.cacheNamespace.discriminant * 0x9E3779B97F4A7C15) 17

/-- Within one namespace the physical key determines the digest. -/
lemma CacheKey.storageKey_inj {k l : CacheKey UInt64} (hn : k.cacheNamespace = l.cacheNamespace)
    (h : k.storageKey = l.storageKey) : k = l := by
  obtain ⟨n, a⟩ := k
  obtain ⟨m, b⟩ := l
  simp only at hn
  subst hn
  unfold storageKey at h
  simp only [UInt64.xor_left_inj] at h
  rw [h]

instance countableByte : Countable UInt8 :=
  Function.Injective.countable (f := UInt8.toNat) fun _ _ h => UInt8.toNat_inj.mp h

instance : Countable HashWrite := by
  let code : HashWrite → ℕ × ℕ × Bytes
    | .bytes b => (0, 0, b)
    | .u8 v => (1, v, [])
    | .u16 v => (2, v, [])
    | .u32 v => (3, v, [])
    | .u64 v => (4, v, [])
  have hcode : Function.Injective code := by
    intro a b h
    cases a <;> cases b <;> simp_all [code]
  exact hcode.countable

/-- The collision-free hasher whose digest is the call sequence itself. -/
noncomputable def sequenceHasher : AHasher (List HashWrite) where
  finish := id
  value := fun ws => (exists_injective_nat (List HashWrite)).choose ws + 1
  value_injective := fun _ _ h =>
    (exists_injective_nat (List HashWrite)).choose_spec (Nat.succ_injective h)

lemma sequenceHasher_collisionFree : sequenceHasher.CollisionFree where
  injective := Function.injective_id
  value_ne_zero := fun _ _ => Nat.succ_ne_zero _

/-- The bytes of a write, integers in little endian. -/
def HashWrite.encode : HashWrite → Bytes
  | .bytes b => b
  | .u8 v => littleEndian 1 v
  | .u16 v => littleEndian 2 v
  | .u32 v => littleEndian 4 v
  | .u64 v => littleEndian 8 v

/-- A hasher with 64-bit digests: FNV-1a over the bytes of the writes. -/
def fnvHasher : AHasher UInt64 where
  finish ws := (ws.flatMap HashWrite.encode).foldl
    (fun digest b => (digest ^^^ b.toUInt64) * 0x100000001b3) 0xcbf29ce484222325
  value := UInt64.toNat
  value_injective := fun _ _ h => UInt64.toNat_inj.mp h

end Pingola
