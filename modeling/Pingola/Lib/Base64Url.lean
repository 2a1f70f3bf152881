import Pingola.Lib.ByteText

/-!
# The URL-safe base64 encoding

The encoding of RFC 4648 with the alphabet of its section 5, with or without padding.
-/

namespace Base64Url
open ByteText

def alphabet : Bytes := ascii "ABCDEFGHIJKLMNOPQRSTUVWXYZabcdefghijklmnopqrstuvwxyz0123456789-_"

/-- The character of a value below 64. -/
def char (value : ℕ) : UInt8 := alphabet.getD value 0

/-- Three bytes are four characters; fewer bytes at the end are as many characters as hold their bits. -/
def encode (padded : Bool) : Bytes → Bytes
  | a :: b :: c :: rest =>
    char (a.toNat / 4) :: char (a.toNat % 4 * 16 + b.toNat / 16) :: char (b.toNat % 16 * 4 + c.toNat / 64) ::
      char (c.toNat % 64) :: encode padded rest
  | [a, b] =>
    char (a.toNat / 4) :: char (a.toNat % 4 * 16 + b.toNat / 16) :: char (b.toNat % 16 * 4) ::
      if padded then [byte '='] else []
  | [a] => char (a.toNat / 4) :: char (a.toNat % 4 * 16) :: if padded then [byte '=', byte '='] else []
  | [] => []

lemma length_alphabet : alphabet.length = 64 := by decide

lemma char_mem {value : ℕ} (h : value < 64) : char value ∈ alphabet := by
  rw [char, List.getD_eq_getElem?_getD, List.getElem?_eq_getElem (h.trans_eq length_alphabet.symm)]
  exact List.getElem_mem _

/-- An encoding consists of characters of the alphabet and padding. -/
lemma mem_of_mem_encode {padded : Bool} {bytes : Bytes} {x : UInt8} (h : x ∈ encode padded bytes) :
    x ∈ alphabet ∨ x = byte '=' := by
  induction bytes using encode.induct with
  | case1 a b c rest ih =>
    have ha := a.toNat_lt
    have hb := b.toNat_lt
    have hc := c.toNat_lt
    simp only [encode, List.mem_cons] at h
    rcases h with rfl | rfl | rfl | rfl | h
    iterate 4 exact .inl (char_mem (by omega))
    exact ih h
  | case2 a b =>
    have ha := a.toNat_lt
    have hb := b.toNat_lt
    simp only [encode, List.mem_cons] at h
    rcases h with rfl | rfl | rfl | h
    iterate 3 exact .inl (char_mem (by omega))
    cases padded with
    | false => cases h
    | true => exact .inr (List.mem_singleton.mp h)
  | case3 a =>
    have ha := a.toNat_lt
    simp only [encode, List.mem_cons] at h
    rcases h with rfl | rfl | h
    iterate 2 exact .inl (char_mem (by omega))
    cases padded with
    | false => cases h
    | true => exact .inr (List.eq_of_mem_replicate (n := 2) h)
  | case4 => cases h

end Base64Url
