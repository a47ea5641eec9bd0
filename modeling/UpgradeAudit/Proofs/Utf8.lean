import Mathlib.Tactic.Common
import UpgradeAudit.Text.Bytes

/-!
# Texts as bytes

The bytes of a text in UTF-8, of which there are as many as its characters take up. The byte of an
ASCII character stands in a text only where the character itself stands, and texts are ordered as
their bytes are.
-/

namespace UpgradeAudit

namespace Text

/-- The bytes of a text in UTF-8. -/
def bytes (text : List Char) : List UInt8 :=
  text.flatMap String.utf8EncodeChar

end Text

namespace Proofs

open Text (byteLength bytes)

lemma bytes_cons (c : Char) (rest : List Char) :
    bytes (c :: rest) = String.utf8EncodeChar c ++ bytes rest :=
  List.flatMap_cons

lemma bytes_append (a b : List Char) : bytes (a ++ b) = bytes a ++ bytes b :=
  List.flatMap_append

lemma length_bytes (text : List Char) : (bytes text).length = byteLength text := by
  induction text with
  | nil => rfl
  | cons c rest ih =>
    rw [bytes_cons, List.length_append, String.length_utf8EncodeChar, ih, byteLength]

lemma toUTF8_ofList (text : List Char) :
    (String.ofList text).toUTF8.data.toList = bytes text := by
  rw [String.toUTF8_eq_toByteArray, String.toByteArray_ofList, List.utf8Encode,
    List.data_toByteArray]
  rfl

lemma toUTF8_eq_bytes (text : String) : text.toUTF8.data.toList = bytes text.toList := by
  rw [← toUTF8_ofList, String.ofList_toList]

lemma utf8ByteSize_ofList (text : List Char) :
    (String.ofList text).utf8ByteSize = byteLength text := by
  rw [← length_bytes, ← toUTF8_ofList]
  rfl

lemma byteLength_toList (text : String) : byteLength text.toList = text.utf8ByteSize := by
  rw [← utf8ByteSize_ofList, String.ofList_toList]

/-- The byte of an ASCII character is part of no other character. -/
lemma eq_of_mem_utf8EncodeChar {c d : Char} (hd : d.toNat < 128)
    (h : d.toUInt8 ∈ String.utf8EncodeChar c) : c = d := by
  have hbyte : ∀ n, d.toUInt8 = UInt8.ofNat n ↔ d.toNat = n % 256 := by
    intro n
    have hbelow : d.toNat % 256 = d.toNat := Nat.mod_eq_of_lt (by omega)
    rw [← UInt8.toNat_inj, UInt8.toNat_ofNat', ← hbelow]
    exact Iff.rfl
  revert h
  fun_cases String.utf8EncodeChar c with
  | case1 v hone =>
    intro h
    rw [List.mem_singleton, hbyte] at h
    apply Char.ext
    apply UInt32.toNat_inj.mp
    change v = d.toNat
    omega
  | _ =>
    intro h
    simp only [List.mem_cons, List.not_mem_nil, or_false, hbyte] at h
    omega

section Order

lemma ofNat_cons_lt_iff {m n : Nat} (hm : m < 256) (hn : n < 256) (xs ys : List UInt8) :
    UInt8.ofNat m :: xs < UInt8.ofNat n :: ys ↔ m < n ∨ m = n ∧ xs < ys := by
  rw [List.cons_lt_cons_iff, UInt8.lt_iff_toNat_lt, ← UInt8.toNat_inj,
    UInt8.toNat_ofNat_of_lt' hm, UInt8.toNat_ofNat_of_lt' hn]

lemma utf8EncodeChar_append_lt {c d : Char} (h : c < d) (xs ys : List UInt8) :
    String.utf8EncodeChar c ++ xs < String.utf8EncodeChar d ++ ys := by
  have hval : c.val.toNat < d.val.toNat := h
  have hd : d.val.toNat < 0x110000 := by
    rcases d.valid with hlow | ⟨-, hhigh⟩
    · exact Nat.lt_trans hlow (by decide)
    · exact hhigh
  -- the first byte is greater for longer characters, and has the highest bits of the code point
  fun_cases String.utf8EncodeChar c <;> fun_cases String.utf8EncodeChar d <;>
    simp (disch := omega) only [List.cons_append, List.nil_append, ofNat_cons_lt_iff]
  case case4.case4 v _ _ _ w _ _ _ =>
    -- of two characters of four bytes, the first digit to the base 64 that differs decides
    have h18 : v / 262144 ≤ w / 262144 := Nat.div_le_div_right (Nat.le_of_lt hval)
    have h12 : v / 4096 ≤ w / 4096 := Nat.div_le_div_right (Nat.le_of_lt hval)
    have h6 : v / 64 ≤ w / 64 := Nat.div_le_div_right (Nat.le_of_lt hval)
    rcases Nat.lt_or_eq_of_le h18 with h18 | h18
    · omega
    rcases Nat.lt_or_eq_of_le h12 with h12 | h12
    · omega
    rcases Nat.lt_or_eq_of_le h6 with h6 | h6
    · omega
    · omega
  all_goals omega

lemma bytes_lt {s t : List Char} (h : s < t) : bytes s < bytes t := by
  induction s generalizing t with
  | nil =>
    cases t with
    | nil => cases h
    | cons d t =>
      obtain ⟨byte, rest, hbytes⟩ :=
        List.exists_cons_of_ne_nil (String.utf8EncodeChar_ne_nil (c := d))
      rw [bytes_cons, hbytes]
      exact List.nil_lt_cons byte _
  | cons c s ih =>
    cases t with
    | nil => cases h
    | cons d t =>
      rw [bytes_cons, bytes_cons]
      rcases List.cons_lt_cons_iff.mp h with hlt | ⟨rfl, hlt⟩
      · exact utf8EncodeChar_append_lt hlt _ _
      · exact List.append_left_lt (ih hlt)

lemma toUTF8_le_iff {s t : String} :
    s.toUTF8.data.toList ≤ t.toUTF8.data.toList ↔ s ≤ t := by
  rw [toUTF8_eq_bytes, toUTF8_eq_bytes]
  constructor
  · intro h
    exact String.not_lt.mp fun hlt => h (bytes_lt hlt)
  · intro h hlt
    by_cases heq : s = t
    · exact List.lt_irrefl _ (heq ▸ hlt)
    · have hst : s < t := Std.lt_of_le_of_ne h heq
      exact List.lt_asymm hlt (bytes_lt hst)

end Order

end Proofs

end UpgradeAudit
