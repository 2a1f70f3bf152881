import Mathlib.Data.List.Pairwise

/-!
# Sorted maps

A sorted map is the list of its entries in increasing order of the keys.
-/

structure SortedMap (K V : Type) [LT K] where
  entries : List (K × V)
  sorted : entries.Pairwise fun p q => p.1 < q.1

namespace SortedMap

variable {K V : Type} [LT K]

def empty : SortedMap K V := ⟨[], List.Pairwise.nil⟩

variable [DecidableEq K]

def get? (m : SortedMap K V) (k : K) : Option V := (m.entries.find? fun p => p.1 = k).map Prod.snd

def containsKey (m : SortedMap K V) (k : K) : Bool := (m.get? k).isSome

end SortedMap
