import Mathlib.Data.Option.Basic
import UpgradeAudit.Proofs.Linking
import UpgradeAudit.Proofs.Numerals
import UpgradeAudit.Proofs.Spelling

/-!
# Metadata sections

The compiler writes a section of metadata behind the code, and behind that the number of its bytes
as four digits. Reading this number back takes the whole section off, whatever its characters are
and however long it is, even if there is no code before it. So the digest without metadata is that
of the code, and does not change with the metadata.
-/

namespace UpgradeAudit

/-- The digits that give the number of bytes of a metadata section. -/
def Fingerprint.lengthField (bytes : Nat) : List Char :=
  (Nat.toDigits 16 bytes).leftpad lengthDigits '0'

/-- A text is a code with a metadata section behind it. -/
def Fingerprint.AppendsMetadata (code text : String) : Prop :=
  ∃ (metadata : String) (bytes : Nat), Text.isAscii metadata.toList ∧
    metadata.toList.length = 2 * bytes ∧ bytes ≤ 0xFFFF ∧
    text = code ++ metadata ++ String.ofList (lengthField bytes)

namespace Proofs

open Fingerprint (AppendsMetadata MarkedInAnyCase Spells canonical lengthDigits lengthField
  metadataLength? trimMetadata)
open Text (isAscii lowered)

section Field

variable {bytes : Nat}

lemma lengthField_eq (bytes : Nat) : lengthField bytes =
    List.replicate (4 - (Nat.toDigits 16 bytes).length) '0' ++ Nat.toDigits 16 bytes := rfl

lemma length_lengthField (h : bytes ≤ 0xFFFF) : (lengthField bytes).length = lengthDigits := by
  have hlength : (Nat.toDigits 16 bytes).length ≤ 4 :=
    (Nat.length_toDigits_le_iff (by decide) (by decide)).mpr (by omega)
  rw [lengthField_eq, List.length_append, List.length_replicate]
  unfold lengthDigits
  omega

lemma numeral?_lengthField (h : bytes ≤ 0xFFFF) :
    Text.numeral? 16 Text.maxWord (lengthField bytes) = some bytes := by
  apply numeral?_of_digitsValue?
  · exact List.ne_nil_of_length_eq_add_one (length_lengthField h)
  · rw [lengthField_eq, digitsValue?_zeros_append (by decide)]
    exact digitsValue?_toDigits (by decide) (by decide) bytes
  · unfold Text.maxWord
    omega

lemma exists_digitChar_of_mem_lengthField {c : Char} (h : c ∈ lengthField bytes) :
    ∃ d < 16, c = d.digitChar := by
  rw [lengthField_eq, List.mem_append] at h
  rcases h with h | h
  · exact ⟨0, by decide, List.eq_of_mem_replicate h⟩
  · exact exists_digitChar_of_mem_toDigits (by decide) h

lemma isAscii_lengthField (bytes : Nat) : isAscii (lengthField bytes) := by
  have hdigits : ∀ d < 16, d.digitChar.toNat < 128 := by decide
  refine isAscii_iff.mpr fun c hc => ?_
  obtain ⟨d, hd, rfl⟩ := exists_digitChar_of_mem_lengthField hc
  exact hdigits d hd

lemma map_toLower_lengthField (bytes : Nat) :
    (lengthField bytes).map Char.toLower = lengthField bytes := by
  have hdigits : ∀ d < 16, d.digitChar.toLower = d.digitChar := by decide
  conv_rhs => rw [← List.map_id (lengthField bytes)]
  apply List.map_congr_left
  intro c hc
  obtain ⟨d, hd, rfl⟩ := exists_digitChar_of_mem_lengthField hc
  exact hdigits d hd

end Field

section Trimming

variable {code metadata : List Char} {bytes : Nat}

lemma metadataLength?_eq_some_iff {text : List Char} {characters : Nat} :
    metadataLength? text = some characters ↔ isAscii text ∧ lengthDigits ≤ text.length ∧
      ∃ bytes, Text.numeral? 16 Text.maxWord (text.drop (text.length - lengthDigits)) = some bytes ∧
        2 * bytes + lengthDigits ≤ text.length ∧ characters = 2 * bytes + lengthDigits := by
  unfold metadataLength?
  simp only [Option.bind_eq_bind, Option.bind_eq_some_iff, Option.guard_eq_some', exists_const,
    Option.pure_def, Option.some.injEq, and_assoc, eq_comm (b := characters)]

lemma metadataLength?_section (hcode : isAscii code) (hmetadata : isAscii metadata)
    (hlength : metadata.length = 2 * bytes) (hbytes : bytes ≤ 0xFFFF) :
    metadataLength? (code ++ metadata ++ lengthField bytes) = some (2 * bytes + lengthDigits) := by
  have hascii : isAscii (code ++ metadata ++ lengthField bytes) := by
    rw [isAscii_append_iff, isAscii_append_iff]
    exact ⟨⟨hcode, hmetadata⟩, isAscii_lengthField bytes⟩
  have hsize : (code ++ metadata ++ lengthField bytes).length =
      (code ++ metadata).length + lengthDigits := by
    rw [List.length_append, length_lengthField hbytes]
  have hpart : 2 * bytes ≤ (code ++ metadata).length := by
    rw [List.length_append]
    omega
  refine metadataLength?_eq_some_iff.mpr ⟨hascii, by omega, bytes, ?_, by omega, rfl⟩
  rw [hsize, Nat.add_sub_cancel, List.drop_left]
  exact numeral?_lengthField hbytes

lemma trimMetadata_section (hcode : isAscii code) (hmetadata : isAscii metadata)
    (hlength : metadata.length = 2 * bytes) (hbytes : bytes ≤ 0xFFFF) :
    trimMetadata (String.ofList (code ++ metadata ++ lengthField bytes)) = String.ofList code := by
  have hrest : (code ++ metadata ++ lengthField bytes).length - (2 * bytes + lengthDigits) =
      code.length := by
    rw [List.length_append, List.length_append, length_lengthField hbytes]
    omega
  unfold trimMetadata
  rw [String.toList_ofList, metadataLength?_section hcode hmetadata hlength hbytes]
  dsimp only
  rw [hrest, List.append_assoc, List.take_left]

end Trimming

lemma isAscii_lowered {text : String} (h : isAscii text.toList) : isAscii (lowered text) := by
  refine isAscii_iff.mpr fun c hc => ?_
  obtain ⟨d, hd, rfl⟩ := List.mem_map.mp hc
  have hlt := isAscii_iff.mp h d hd
  rw [toNat_toLower]
  split <;> omega

lemma trimMetadata_lowered {code text : String} (hcode : isAscii code.toList)
    (h : AppendsMetadata code text) :
    trimMetadata text = code ∧
      trimMetadata (String.ofList (lowered text)) = String.ofList (lowered code) := by
  obtain ⟨metadata, bytes, hmetadata, hlength, hbytes, rfl⟩ := h
  constructor
  · have htrim := trimMetadata_section hcode hmetadata hlength hbytes
    rwa [String.ofList_append, String.ofList_append, String.ofList_toList,
      String.ofList_toList] at htrim
  · have hfield : lowered (String.ofList (lengthField bytes)) = lengthField bytes := by
      rw [lowered, String.toList_ofList, map_toLower_lengthField]
    rw [lowered_append, lowered_append, hfield]
    refine trimMetadata_section (isAscii_lowered hcode) (isAscii_lowered hmetadata) ?_ hbytes
    rw [length_lowered, hlength]

/-- Metadata does not matter. Of a code and a metadata section behind it, exactly the code is left.
Two texts with one code, spelled in any way, have one digest without metadata, which is that of the
code in small letters. -/
theorem withoutMetadata_is_of_code {code first second : String} (hcode : isAscii code.toList)
    (hfirst : AppendsMetadata code first) (hsecond : AppendsMetadata code second) :
    trimMetadata first = code ∧ trimMetadata second = code ∧
      (¬MarkedInAnyCase first → ¬MarkedInAnyCase second →
        ∀ s t, Spells s first → Spells t second →
          trimMetadata (canonical s) = String.ofList (lowered code) ∧
          trimMetadata (canonical t) = String.ofList (lowered code) ∧
          (Fingerprint.of s).withoutMetadata = Fingerprint.digest (String.ofList (lowered code)) ∧
          (Fingerprint.of t).withoutMetadata = (Fingerprint.of s).withoutMetadata) := by
  obtain ⟨htrim, hlowered⟩ := trimMetadata_lowered hcode hfirst
  obtain ⟨htrim', hlowered'⟩ := trimMetadata_lowered hcode hsecond
  refine ⟨htrim, htrim', fun hunmarked hunmarked' s t hs ht => ?_⟩
  have hcanonical : trimMetadata (canonical s) = String.ofList (lowered code) := by
    rw [canonical_of_spells hunmarked hs, hlowered]
  have hcanonical' : trimMetadata (canonical t) = String.ofList (lowered code) := by
    rw [canonical_of_spells hunmarked' ht, hlowered']
  unfold Fingerprint.of
  rw [hcanonical, hcanonical']
  exact ⟨rfl, rfl, rfl, rfl⟩

theorem feCode_without_metadata :
    trimMetadata "Feaabb0002" = "Fe" ∧ trimMetadata "Fe0000" = "Fe" ∧
      trimMetadata (canonical "0xFEaAbB0002") = "fe" ∧
      (Fingerprint.of "fE0000").withoutMetadata =
        (Fingerprint.of "0xFEaAbB0002").withoutMetadata := by
  have hfirst : AppendsMetadata "Fe" "Feaabb0002" :=
    ⟨"aabb", 2, by decide, by decide, by decide, by decide⟩
  have hsecond : AppendsMetadata "Fe" "Fe0000" :=
    ⟨"", 0, by decide, by decide, by decide, by decide⟩
  obtain ⟨htrim, htrim', hspelled⟩ := withoutMetadata_is_of_code (by decide) hfirst hsecond
  obtain ⟨hcanonical, -, -, hdigest⟩ := hspelled (by decide) (by decide) "0xFEaAbB0002" "fE0000"
    (.inr ⟨"FEaAbB0002", by decide, by decide⟩) (.inl (by decide))
  exact ⟨htrim, htrim', hcanonical, hdigest⟩

end Proofs

end UpgradeAudit
