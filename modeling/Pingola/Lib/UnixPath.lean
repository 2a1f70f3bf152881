import Pingola.Lib.ByteText

/-!
# Paths

A path is its bytes. What it means are its components, and one path lies below another one if its
components begin with those of the other.
-/

namespace UnixPath
open ByteText

inductive Component where
  | rootDir
  | curDir
  | parentDir
  | normal (part : Bytes)
  deriving DecidableEq

/-- The component of a part between separators; empty parts and dots are none. -/
def component (part : Bytes) : Option Component :=
  if part = [] ∨ part = ascii "." then none
  else if part = ascii ".." then some .parentDir
  else some (.normal part)

def isAbsolute (path : Bytes) : Bool := path.head? == some (byte '/')

/-- A dot counts only where a relative path begins. -/
def components (path : Bytes) : List Component :=
  let parts := path.splitOn (byte '/')
  (if isAbsolute path then [.rootDir] else if parts.head? = some (ascii ".") then [.curDir] else []) ++
    parts.filterMap component

/-- An absolute path replaces the one that it is joined to. -/
def join (base path : Bytes) : Bytes :=
  if isAbsolute path then path
  else if base = [] ∨ base.getLast? = some (byte '/') then base ++ path
  else base ++ byte '/' :: path

def StartsWith (path base : Bytes) : Prop := components base <+: components path

instance instDecidableStartsWith (path base : Bytes) : Decidable (StartsWith path base) :=
  inferInstanceAs (Decidable (components base <+: components path))

lemma parentDir_mem_components {path : Bytes} (h : ascii ".." ∈ path.splitOn (byte '/')) :
    .parentDir ∈ components path :=
  List.mem_append_right _ (List.mem_filterMap.mpr ⟨_, h, by decide⟩)

end UnixPath
