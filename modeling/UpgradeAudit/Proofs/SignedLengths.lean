import UpgradeAudit.Proofs.MetadataSection

/-!
# Texts that end in no length

The length of a metadata section is read as a numeral, and a numeral may start with a plus sign. So
four characters that are not all digits are still a length if they are a plus sign and three digits.
A text that ends in such a length loses the section before it. Every other text that does not end in
four digits is left as it is, and both of its digests agree.
-/

namespace UpgradeAudit

/-- A character is a hexadecimal digit, with letters of either case. -/
def Text.IsHexDigit (c : Char) : Prop :=
  ('0' ≤ c ∧ c ≤ '9') ∨ ('a' ≤ c ∧ c ≤ 'f') ∨ ('A' ≤ c ∧ c ≤ 'F')

instance (c : Char) : Decidable (Text.IsHexDigit c) :=
  inferInstanceAs (Decidable (_ ∨ _))

/-- The digits of a number in base sixteen, with zeros in front of them up to a width. -/
def Text.paddedHex (width n : Nat) : List Char :=
  (Nat.toDigits 16 n).leftpad width '0'

namespace Fingerprint

/-- The last four characters of a text are hexadecimal digits. -/
def EndsInDigits (text : String) : Prop :=
  lengthDigits ≤ text.toList.length ∧
    ∀ c ∈ text.toList.drop (text.toList.length - lengthDigits), Text.IsHexDigit c

-- spelled out, since the search for an instance may find the one that tries every character
instance (text : String) : Decidable (EndsInDigits text) :=
  @instDecidableAnd _ _ (Nat.decLe _ _) (List.decidableBAll _ _)

/-- A number of bytes as a plus sign and three digits. -/
def signedField (bytes : Nat) : List Char :=
  '+' :: Text.paddedHex 3 bytes

/-- A text is a code with a section behind it whose length is given with a plus sign. -/
def AppendsSignedSection (code text : String) : Prop :=
  Text.isAscii text.toList ∧ ∃ (metadata : String) (bytes : Nat),
    metadata.toList.length = 2 * bytes ∧ bytes ≤ 0xFFF ∧
      text = code ++ metadata ++ String.ofList (signedField bytes)

end Fingerprint

namespace Proofs

open Fingerprint (AppendsSignedSection EndsInDigits canonical lengthDigits metadataLength?
  signedField trimMetadata)
open Text (IsHexDigit digitValue? digitsValue? isAscii numeral? paddedHex unsignedPart)

section Digits

variable {c : Char} {digit value n : Nat} {digits : List Char}

lemma toNat_digitChar (h : digit < 16) :
    digit.digitChar.toNat = if digit < 10 then digit + 48 else digit + 87 := by
  have hall : ∀ d < 16, d.digitChar.toNat = if d < 10 then d + 48 else d + 87 := by decide
  exact hall digit h

lemma toNat_of_digitValue? (h : digitValue? 16 c = some digit) : digit < 16 ∧
    (digit < 10 ∧ c.toNat = digit + 48 ∨
      10 ≤ digit ∧ (c.toNat = digit + 87 ∨ c.toNat = digit + 55)) := by
  unfold digitValue? at h
  rw [Option.filter_eq_some_iff, decide_eq_true_eq] at h
  obtain ⟨hvalue, hlt⟩ := h
  refine ⟨hlt, ?_⟩
  simp only [Char.le_def, UInt32.le_iff_toNat_le, Char.toNat_val, Char.reduceToNat] at hvalue
  split_ifs at hvalue with hdecimal hsmall hcapital
  · obtain rfl := Option.some.inj hvalue
    omega
  · obtain rfl := Option.some.inj hvalue
    omega
  · obtain rfl := Option.some.inj hvalue
    omega

/-- Only a hexadecimal digit has a value in base sixteen, and in small letters it is the digit that
is written for this value. -/
lemma digit_of_digitValue? (h : digitValue? 16 c = some digit) :
    IsHexDigit c ∧ digit < 16 ∧ c.toLower = digit.digitChar := by
  obtain ⟨hlt, hcode⟩ := toNat_of_digitValue? h
  refine ⟨?_, hlt, ?_⟩
  · unfold IsHexDigit
    simp only [Char.le_def, UInt32.le_iff_toNat_le, Char.toNat_val, Char.reduceToNat]
    omega
  · rw [← Char.toNat_inj, toNat_toLower, toNat_digitChar hlt]
    split <;> split <;> omega

lemma isHexDigit_of_digitsValue? (h : digitsValue? 16 value digits = some n) :
    ∀ c ∈ digits, IsHexDigit c := by
  induction digits generalizing value with
  | nil => exact List.forall_mem_nil _
  | cons c rest ih =>
    obtain ⟨digit, hdigit, hrest⟩ := Option.bind_eq_some_iff.mp h
    exact List.forall_mem_cons.mpr ⟨(digit_of_digitValue? hdigit).1, ih hrest⟩

lemma paddedHex_append {width : Nat} (hwidth : 0 < width) (hdigit : digit < 16) :
    paddedHex width value ++ [digit.digitChar] = paddedHex (width + 1) (16 * value + digit) := by
  have hlast : Nat.toDigits 16 digit = [digit.digitChar] := Nat.toDigits_of_lt_base hdigit
  unfold paddedHex List.leftpad
  rcases Nat.eq_zero_or_pos value with rfl | hpos
  · rw [Nat.mul_zero, Nat.zero_add, hlast, Nat.toDigits_zero, List.length_singleton,
      List.length_singleton, Nat.add_sub_cancel]
    change List.replicate (width - 1) '0' ++ List.replicate 1 '0' ++ _ = _
    rw [List.replicate_append_replicate, Nat.sub_add_cancel hwidth]
  · rw [← Nat.toDigits_append_toDigits (by decide) hpos hdigit, hlast, List.length_append,
      List.length_singleton, Nat.add_sub_add_right, List.append_assoc]

/-- Digits in small letters are those of the number that they are read as, padded to their own
width. -/
lemma eq_paddedHex_of_digitsValue? (hne : digits ≠ [])
    (hsmall : digits.map Char.toLower = digits) (h : digitsValue? 16 0 digits = some n) :
    digits = paddedHex digits.length n := by
  -- the last digit that is read is the last one written, so digits are taken off the end
  induction digits using List.reverseRecOn generalizing n with
  | nil => contradiction
  | append_singleton first c ih =>
    rw [List.map_append, List.map_singleton] at hsmall
    obtain ⟨hfirst, hc⟩ := List.append_inj' hsmall rfl
    rw [digitsValue?_append] at h
    obtain ⟨value, hvalue, hlast⟩ := Option.bind_eq_some_iff.mp h
    obtain ⟨digit, hdigit, hn⟩ := Option.bind_eq_some_iff.mp hlast
    obtain ⟨-, hlt, hchar⟩ := digit_of_digitValue? hdigit
    obtain rfl : value * 16 + digit = n := Option.some.inj hn
    obtain rfl : c = digit.digitChar := (List.singleton_inj.mp hc).symm.trans hchar
    rw [List.length_append, List.length_singleton, Nat.mul_comm]
    rcases eq_or_ne first [] with rfl | hne
    · obtain rfl : 0 = value := Option.some.inj hvalue
      rw [Nat.mul_zero, Nat.zero_add, paddedHex, Nat.toDigits_of_lt_base hlt]
      rfl
    · rw [← paddedHex_append (List.length_pos_iff.mpr hne) hlt, ← ih hne hfirst hvalue]

lemma digitsValue?_paddedHex (width n : Nat) :
    digitsValue? 16 0 (paddedHex width n) = some n := by
  rw [paddedHex, List.leftpad, digitsValue?_zeros_append (by decide)]
  exact digitsValue?_toDigits (by decide) (by decide) n

end Digits

section Field

variable {base limit value bytes : Nat} {text field : List Char}

lemma numeral?_eq_some_iff : numeral? base limit text = some value ↔
    unsignedPart text ≠ [] ∧ digitsValue? base 0 (unsignedPart text) = some value ∧
      value ≤ limit := by
  unfold numeral?
  split
  · next hnil => simp [hnil]
  · next hne =>
    rw [Option.filter_eq_some_iff, decide_eq_true_eq]
    exact (and_iff_right hne).symm

lemma unsignedPart_cases (text : List Char) :
    (∃ digits, text = '+' :: digits ∧ unsignedPart text = digits) ∨ unsignedPart text = text := by
  unfold unsignedPart
  split
  · next digits => exact .inl ⟨digits, rfl, rfl⟩
  · exact .inr rfl

lemma length_paddedHex_eq_three_iff : (paddedHex 3 bytes).length = 3 ↔ bytes ≤ 0xFFF := by
  have hlength := @Nat.length_toDigits_le_iff 16 bytes 3 (by decide) (by decide)
  rw [paddedHex, List.length_leftpad]
  omega

lemma length_signedField (h : bytes ≤ 0xFFF) : (signedField bytes).length = lengthDigits := by
  rw [signedField, List.length_cons, length_paddedHex_eq_three_iff.mpr h]
  rfl

lemma numeral?_signedField (h : bytes ≤ 0xFFF) :
    numeral? 16 Text.maxWord (signedField bytes) = some bytes := by
  have hlength := length_paddedHex_eq_three_iff.mpr h
  refine numeral?_eq_some_iff.mpr ⟨?_, digitsValue?_paddedHex 3 bytes, ?_⟩
  · exact List.ne_nil_of_length_eq_add_one hlength
  · unfold Text.maxWord
    omega

/-- Four characters in small letters that are not all digits are read as a length only if they are
this length with a plus sign. -/
lemma eq_signedField_of_numeral? (hlength : field.length = lengthDigits)
    (hsmall : field.map Char.toLower = field) (hdigits : ¬∀ c ∈ field, IsHexDigit c)
    (h : numeral? 16 Text.maxWord field = some bytes) :
    bytes ≤ 0xFFF ∧ field = signedField bytes := by
  obtain ⟨hne, hvalue, -⟩ := numeral?_eq_some_iff.mp h
  rcases unsignedPart_cases field with ⟨digits, rfl, hunsigned⟩ | hunsigned
  · rw [hunsigned] at hne hvalue
    obtain ⟨-, hsmall⟩ := List.cons.inj hsmall
    have hthree : digits.length = 3 := Nat.succ.inj hlength
    have hpadded := eq_paddedHex_of_digitsValue? hne hsmall hvalue
    rw [hthree] at hpadded
    rw [hpadded] at hthree
    exact ⟨length_paddedHex_eq_three_iff.mp hthree, congrArg ('+' :: ·) hpadded⟩
  · rw [hunsigned] at hvalue
    exact absurd (isHexDigit_of_digitsValue? hvalue) hdigits

end Field

section Trimming

variable {code text : String}

lemma trimMetadata_eq_self_iff :
    trimMetadata text = text ↔ metadataLength? text.toList = none := by
  unfold trimMetadata
  cases hlength : metadataLength? text.toList with
  | none => exact iff_of_true rfl rfl
  | some characters =>
    obtain ⟨-, hfour, bytes, -, hfits, rfl⟩ := metadataLength?_eq_some_iff.mp hlength
    refine iff_of_false (fun hsame => ?_) (by simp)
    have hshorter := congrArg (fun t => t.toList.length) hsame
    simp only [String.toList_ofList, List.length_take] at hshorter
    unfold lengthDigits at hfour hshorter
    omega

lemma metadataLength?_of_signed {code metadata : List Char} {bytes : Nat}
    (hascii : isAscii (code ++ metadata ++ signedField bytes))
    (hlength : metadata.length = 2 * bytes) (hbytes : bytes ≤ 0xFFF) :
    metadataLength? (code ++ metadata ++ signedField bytes) =
      some (metadata.length + lengthDigits) := by
  have hsize : (code ++ metadata ++ signedField bytes).length =
      (code ++ metadata).length + lengthDigits := by
    rw [List.length_append, length_signedField hbytes]
  have hpart : metadata.length ≤ (code ++ metadata).length := by
    rw [List.length_append]
    omega
  refine metadataLength?_eq_some_iff.mpr ⟨hascii, by omega, bytes, ?_, by omega, by omega⟩
  rw [List.drop_left' (by omega)]
  exact numeral?_signedField hbytes

/-- A text with a signed length loses the section, and what is left is the code before it. -/
lemma trimMetadata_of_signed (h : AppendsSignedSection code text) :
    metadataLength? text.toList ≠ none ∧ trimMetadata text = code := by
  obtain ⟨hascii, metadata, bytes, hlength, hbytes, rfl⟩ := h
  unfold trimMetadata
  rw [String.toList_append, String.toList_append, String.toList_ofList] at hascii ⊢
  rw [metadataLength?_of_signed hascii hlength hbytes]
  refine ⟨Option.some_ne_none _, ?_⟩
  dsimp only
  rw [List.append_assoc, List.take_left' ?_, String.ofList_toList]
  rw [List.length_append, List.length_append, length_signedField hbytes, Nat.add_sub_cancel]

lemma plus_mem_of_signed (h : AppendsSignedSection code text) : '+' ∈ text.toList := by
  obtain ⟨-, metadata, bytes, -, -, rfl⟩ := h
  rw [String.toList_append, String.toList_ofList]
  exact List.mem_append_right _ List.mem_cons_self

/-- A text in small letters that does not end in digits has a length only if it is signed. -/
lemma exists_signed_of_metadataLength? (hsmall : text.toList.map Char.toLower = text.toList)
    (hdigits : ¬EndsInDigits text) (h : metadataLength? text.toList ≠ none) :
    ∃ code, AppendsSignedSection code text := by
  obtain ⟨characters, h⟩ := Option.ne_none_iff_exists'.mp h
  obtain ⟨hascii, hfour, bytes, hread, hfits, -⟩ := metadataLength?_eq_some_iff.mp h
  obtain ⟨hbytes, hfield⟩ : bytes ≤ 0xFFF ∧
      text.toList.drop (text.toList.length - lengthDigits) = signedField bytes := by
    refine eq_signedField_of_numeral? ?_ ?_ (fun hall => hdigits ⟨hfour, hall⟩) hread
    · rw [List.length_drop, Nat.sub_sub_self hfour]
    · rw [List.map_drop, hsmall]
  let start := text.toList.length - (2 * bytes + lengthDigits)
  have hbehind : (text.toList.drop start).drop (2 * bytes) = signedField bytes := by
    rw [List.drop_drop, ← hfield]
    congr 1
    omega
  refine ⟨String.ofList (text.toList.take start), hascii,
    String.ofList ((text.toList.drop start).take (2 * bytes)), bytes, ?_, hbytes, ?_⟩
  · rw [String.toList_ofList, List.length_take, List.length_drop]
    omega
  · rw [← hbehind, ← String.ofList_append, ← String.ofList_append, List.append_assoc,
      List.take_append_drop, List.take_append_drop, String.ofList_toList]

end Trimming

/-- When a text that does not end in four digits is kept. It is kept exactly if no section with a
signed length stands behind a code in it, and then both digests agree. Of a code with such a section
exactly the code is left. -/
theorem text_kept_iff_unsigned (bytecode : String) (h : ¬EndsInDigits (canonical bytecode)) :
    (trimMetadata (canonical bytecode) = canonical bytecode ↔
      ¬∃ code, AppendsSignedSection code (canonical bytecode)) ∧
    ((¬∃ code, AppendsSignedSection code (canonical bytecode)) →
      (Fingerprint.of bytecode).withoutMetadata = (Fingerprint.of bytecode).withMetadata) ∧
    ∀ code, AppendsSignedSection code (canonical bytecode) →
      trimMetadata (canonical bytecode) = code ∧
        (Fingerprint.of bytecode).withoutMetadata = Fingerprint.digest code := by
  have hkept : trimMetadata (canonical bytecode) = canonical bytecode ↔
      ¬∃ code, AppendsSignedSection code (canonical bytecode) := by
    rw [trimMetadata_eq_self_iff, ← not_iff_not, not_not]
    constructor
    · exact exists_signed_of_metadataLength? (map_toLower_canonical bytecode) h
    · rintro ⟨code, hcode⟩
      exact (trimMetadata_of_signed hcode).1
  refine ⟨hkept, fun hunsigned => ?_, fun code hcode => ?_⟩
  · unfold Fingerprint.of
    rw [hkept.mpr hunsigned]
  · obtain ⟨-, htrim⟩ := trimMetadata_of_signed hcode
    unfold Fingerprint.of
    rw [htrim]
    exact ⟨rfl, rfl⟩

theorem placeholderTail_kept :
    trimMetadata (canonical "0x6080__$0") = "6080__$0" ∧
      (Fingerprint.of "0x6080__$0").withoutMetadata =
        (Fingerprint.of "0x6080__$0").withMetadata ∧
      trimMetadata (canonical "0xFEAABB+002") = "fe" ∧
      (Fingerprint.of "0xFEAABB+002").withoutMetadata = Fingerprint.digest "fe" := by
  have hplaceholder : canonical "0x6080__$0" = "6080__$0" := by decide
  have hsigned : AppendsSignedSection "fe" (canonical "0xFEAABB+002") :=
    ⟨by decide, "aabb", 2, by decide, by decide, by decide⟩
  have hunsigned : ¬∃ code, AppendsSignedSection code (canonical "0x6080__$0") := by
    rintro ⟨code, hcode⟩
    exact absurd (plus_mem_of_signed hcode) (by decide)
  obtain ⟨hkept, hagree, -⟩ := text_kept_iff_unsigned "0x6080__$0" (by decide)
  obtain ⟨-, -, hleft⟩ := text_kept_iff_unsigned "0xFEAABB+002" (by decide)
  exact ⟨(hkept.mpr hunsigned).trans hplaceholder, hagree hunsigned, hleft "fe" hsigned⟩

/-- A plus sign is no digit, and still the length behind it is read. -/
theorem signedLength_trimmed : ¬EndsInDigits (canonical "60806040aabb+002") ∧
    trimMetadata (canonical "60806040aabb+002") ≠ canonical "60806040aabb+002" := by
  have hcanonical : canonical "60806040aabb+002" = "60806040aabb+002" := by decide
  have htrim : trimMetadata "60806040aabb+002" = "60806040" := by decide
  rw [hcanonical, htrim]
  exact ⟨by decide, by decide⟩

end Proofs

end UpgradeAudit
