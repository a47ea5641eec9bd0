import UpgradeAudit.Proofs.Diagnosis
import UpgradeAudit.Proofs.UnlinkedBytes

/-!
# What is extracted from a bytecode

A place is given in bytes of code, and each byte of code is two bytes of text. Extracting the text
at a place succeeds exactly if the exact range lies in the text and both of its ends are between two
characters. The range itself is computed in words, where each step may overflow; it never does so
for a range that lies in a text.
-/

namespace UpgradeAudit

/-- The sum of two words, unless it overflows. -/
def Word.add? (a b : UInt64) : Option UInt64 :=
  if a.toBitVec.uaddOverflow b.toBitVec then none else some (a + b)

/-- The product of two words, unless it overflows. -/
def Word.mul? (a b : UInt64) : Option UInt64 :=
  if a.toBitVec.umulOverflow b.toBitVec then none else some (a * b)

/-- The range of a place, computed in words. -/
def Link.wordRange? (start length : UInt64) : Option (UInt64 × UInt64) := do
  let first ← Word.mul? start 2
  let behind ← Word.add? start length
  let last ← Word.mul? behind 2
  return (first, last)

/-- A place lies in a text, with both of its ends between two characters. -/
structure LinkOffset.LiesIn (offset : LinkOffset) (object : String) : Prop where
  size : 2 * (offset.start.toNat + offset.length.toNat) ≤ object.utf8ByteSize
  starts : String.Pos.Raw.IsValid object ⟨2 * offset.start.toNat⟩
  ends : String.Pos.Raw.IsValid object ⟨2 * (offset.start.toNat + offset.length.toNat)⟩

instance (offset : LinkOffset) (object : String) : Decidable (offset.LiesIn object) :=
  decidable_of_iff (_ ∧ _ ∧ _) ⟨fun h => ⟨h.1, h.2.1, h.2.2⟩, fun h => ⟨h.size, h.starts, h.ends⟩⟩

/-- A reference has the library and the place that it was taken for, and the bytes of the text
there. -/
structure LinkReference.Describes (object : String) (place : String × String × LinkOffset)
    (r : LinkReference) : Prop where
  src : r.src = place.1
  name : r.name = place.2.1
  start : r.start = place.2.2.start
  length : r.length = place.2.2.length
  placeholder : r.placeholder.toUTF8 = object.toUTF8.extract (2 * r.start.toNat)
    (2 * (r.start.toNat + r.length.toNat))

/-- Places come by the paths of sources, then by the names of libraries, then as they are listed for
their library. -/
structure InTableOrder (table : Table (Table (List LinkOffset)))
    (places : List (String × String × LinkOffset)) : Prop where
  ordered : places.Pairwise fun a b =>
    a.1 < b.1 ∨ a.1 = b.1 ∧ (a.2.1 < b.2.1 ∨ a.2.1 = b.2.1)
  listed : ∀ source library,
    (places.filter fun place => place.1 = source ∧ place.2.1 = library).map (fun place => place.2.2)
      = ((table.get? source).bind fun libraries => libraries.get? library).getD []

namespace Proofs

open Text (byteLength bytes)

section Words

variable {a b c start length first last : UInt64}

lemma word_add?_eq_some_iff : Word.add? a b = some c ↔ c.toNat = a.toNat + b.toNat := by
  have hc := c.toNat_lt
  unfold Word.add? BitVec.uaddOverflow
  rw [Option.ite_none_left_eq_some, Option.some.injEq, ← UInt64.toNat_inj, UInt64.toNat_add]
  simp only [ge_iff_le, decide_eq_true_eq, UInt64.toNat_toBitVec]
  omega

lemma word_mul?_eq_some_iff : Word.mul? a b = some c ↔ c.toNat = a.toNat * b.toNat := by
  have hc := c.toNat_lt
  unfold Word.mul? BitVec.umulOverflow
  rw [Option.ite_none_left_eq_some, Option.some.injEq, ← UInt64.toNat_inj, UInt64.toNat_mul]
  simp only [ge_iff_le, decide_eq_true_eq, UInt64.toNat_toBitVec]
  omega

/-- No step of the computation in words gives anything but the exact number. -/
lemma wordRange?_eq_some_iff : Link.wordRange? start length = some (first, last) ↔
    first.toNat = 2 * start.toNat ∧ last.toNat = 2 * (start.toNat + length.toNat) := by
  have htwo : (2 : UInt64).toNat = 2 := rfl
  unfold Link.wordRange?
  simp only [Option.bind_eq_bind, Option.bind_eq_some_iff, word_mul?_eq_some_iff,
    word_add?_eq_some_iff, Option.pure_def, Option.some.injEq, Prod.mk.injEq, htwo]
  constructor
  · rintro ⟨_, hfirst, behind, hbehind, _, hlast, rfl, rfl⟩
    omega
  · rintro ⟨hfirst, hlast⟩
    have hword := last.toNat_lt
    have hbehind : (UInt64.ofNat (start.toNat + length.toNat)).toNat =
        start.toNat + length.toNat := UInt64.toNat_ofNat_of_lt' (by change _ < 2 ^ 64; omega)
    exact ⟨first, by omega, _, hbehind, last, by omega, rfl, rfl⟩

lemma charRange?_eq_wordRange? (start length : UInt64) :
    Link.charRange? start length =
      (Link.wordRange? start length).map fun range => (range.1.toNat, range.2.toNat) := by
  have hmax : Text.maxWord + 1 = 2 ^ 64 := rfl
  have hexact : ∀ n ≤ Text.maxWord, (UInt64.ofNat n).toNat = n := fun n hn =>
    UInt64.toNat_ofNat_of_lt' (by change _ < 2 ^ 64; omega)
  apply Option.ext
  rintro ⟨first, last⟩
  unfold Link.charRange?
  simp only [Option.ite_none_right_eq_some, Option.some.injEq, Prod.mk.injEq,
    Option.map_eq_some_iff, Prod.exists, wordRange?_eq_some_iff]
  constructor
  · rintro ⟨hword, rfl, rfl⟩
    have hfirst := hexact (2 * start.toNat) (by omega)
    have hlast := hexact _ hword
    exact ⟨_, _, ⟨hfirst, hlast⟩, hfirst, hlast⟩
  · rintro ⟨a, b, ⟨hfirst, hlast⟩, rfl, rfl⟩
    have hword := b.toNat_lt
    omega

end Words

section TableOrder

/-- If only one key of a table gives anything, the whole table gives what this key does. -/
lemma flatMap_entries_eq {α β : Type} (t : Table α) (key : String) {f : String × α → List β}
    (hf : ∀ entry, entry.1 ≠ key → f entry = []) :
    t.entries.flatMap f = ((t.get? key).map fun value => f (key, value)).getD [] := by
  obtain ⟨entries, hsorted⟩ := t
  rw [Table.get?_eq_lookupEntry]
  dsimp only
  induction entries with
  | nil => rfl
  | cons entry rest ih =>
    obtain ⟨hfirst, hrest⟩ := List.pairwise_cons.mp hsorted
    rw [List.flatMap_cons, lookupEntry_cons]
    by_cases hkey : entry.1 = key
    · subst hkey
      have hothers : rest.flatMap f = [] := by
        refine List.flatMap_eq_nil_iff.mpr fun other hother => hf other ?_
        exact fun heq => String.lt_irrefl _ (heq ▸ hfirst other hother)
      rw [hothers, List.append_nil, if_pos rfl]
      rfl
    · rw [hf entry hkey, List.nil_append, if_neg hkey, ih hrest]

lemma places_inTableOrder (bytecode : Bytecode) :
    InTableOrder bytecode.linkReferences (Link.places bytecode) := by
  constructor
  · unfold Link.places
    refine List.pairwise_flatMap.mpr ⟨fun source _ => ?_, ?_⟩
    · refine List.pairwise_flatMap.mpr ⟨fun library _ => ?_, ?_⟩
      · apply List.pairwise_of_forall_mem_list
        simp only [List.mem_map]
        rintro _ ⟨_, -, rfl⟩ _ ⟨_, -, rfl⟩
        exact .inr ⟨rfl, .inr rfl⟩
      · refine source.2.sorted.imp fun {first second} hlt => ?_
        simp only [List.mem_map]
        rintro _ ⟨_, -, rfl⟩ _ ⟨_, -, rfl⟩
        exact .inr ⟨rfl, .inl hlt⟩
    · refine bytecode.linkReferences.sorted.imp fun {first second} hlt => ?_
      simp only [List.mem_flatMap, List.mem_map]
      rintro _ ⟨_, -, _, -, rfl⟩ _ ⟨_, -, _, -, rfl⟩
      exact .inl hlt
  · intro source library
    have hplaces : ((Link.places bytecode).filter fun place =>
        place.1 = source ∧ place.2.1 = library).map (fun place => place.2.2) =
        bytecode.linkReferences.entries.flatMap fun libraries =>
          libraries.2.entries.flatMap fun offsets =>
            if libraries.1 = source ∧ offsets.1 = library then offsets.2 else [] := by
      unfold Link.places
      simp only [List.filter_flatMap, List.map_flatMap, List.filter_map, List.map_map]
      congr 1
      funext libraries
      congr 1
      funext offsets
      by_cases h : libraries.1 = source ∧ offsets.1 = library
      · simp [h, Function.comp_def]
      · simp [h, Function.comp_def]
    rw [hplaces, flatMap_entries_eq _ source fun libraries h => by simp [h]]
    cases bytecode.linkReferences.get? source with
    | none => rfl
    | some libraries =>
      simp only [true_and, Option.map_some, Option.getD_some, Option.bind_some]
      rw [flatMap_entries_eq _ library fun offsets h => by simp [h]]
      simp

end TableOrder

section Boundaries

variable {object : String} {offset : LinkOffset}

lemma isValid_iff {position : Nat} : String.Pos.Raw.IsValid object ⟨position⟩ ↔
    ∃ before after, object.toList = before ++ after ∧ byteLength before = position := by
  rw [String.Pos.Raw.isValid_iff_exists_append]
  constructor
  · rintro ⟨before, after, rfl, hposition⟩
    refine ⟨before.toList, after.toList, String.toList_append, ?_⟩
    rw [byteLength_toList]
    exact (congrArg String.Pos.Raw.byteIdx hposition).symm
  · rintro ⟨before, after, hobject, hposition⟩
    refine ⟨String.ofList before, String.ofList after, ?_, ?_⟩
    · rw [← String.ofList_append, ← hobject, String.ofList_toList]
    · rw [String.Pos.Raw.ext_iff, ← hposition, ← utf8ByteSize_ofList]
      rfl

lemma eq_nil_of_byteLength {text : List Char} (h : byteLength text = 0) : text = [] := by
  cases text with
  | nil => rfl
  | cons c rest =>
    have hc := c.utf8Size_pos
    rw [byteLength] at h
    omega

/-- A text can be divided at two positions at once if it can be divided at each. -/
lemma exists_division_iff {first size : Nat} :
    (∃ before inside after, object.toList = before ++ inside ++ after ∧
      byteLength before = first ∧ byteLength inside = size) ↔
    String.Pos.Raw.IsValid object ⟨first⟩ ∧ String.Pos.Raw.IsValid object ⟨first + size⟩ := by
  rw [isValid_iff, isValid_iff]
  constructor
  · rintro ⟨before, inside, after, hobject, hfirst, hsize⟩
    refine ⟨⟨before, inside ++ after, by rw [hobject, List.append_assoc], hfirst⟩, ?_⟩
    exact ⟨before ++ inside, after, hobject, by rw [Text.byteLength_append, hfirst, hsize]⟩
  · rintro ⟨⟨before, rest, hobject, hfirst⟩, whole, after, hobject', hlast⟩
    rcases List.append_eq_append_iff.mp (hobject.symm.trans hobject') with
      ⟨inside, rfl, rfl⟩ | ⟨inside, rfl, rfl⟩
    · rw [Text.byteLength_append] at hlast
      exact ⟨before, inside, after, hobject', hfirst, by omega⟩
    · -- the second position is not behind the first one only if there is nothing between them
      rw [Text.byteLength_append] at hfirst
      obtain rfl : inside = [] := eq_nil_of_byteLength (by omega)
      have hnil : byteLength ([] : List Char) = 0 := rfl
      exact ⟨whole, [], rest, by simpa using hobject, by omega, by omega⟩

lemma liesIn_iff (hsize : object.utf8ByteSize < UInt64.size) :
    offset.LiesIn object ↔ Encloses object offset := by
  have hmax : Text.maxWord + 1 = UInt64.size := rfl
  unfold Encloses
  rw [exists_division_iff, ← Nat.mul_add]
  constructor
  · rintro ⟨hlast, hstarts, hends⟩
    exact ⟨by omega, hstarts, hends⟩
  · rintro ⟨-, hstarts, hends⟩
    exact ⟨hends.le_utf8ByteSize, hstarts, hends⟩

/-- The bytes of a text between two positions at which it is divided. -/
lemma extract_toUTF8 (before inside after : List Char) :
    (String.ofList (before ++ inside ++ after)).toUTF8.extract (byteLength before)
      (byteLength before + byteLength inside) = (String.ofList inside).toUTF8 := by
  apply ByteArray.ext
  apply Array.toList_inj.mp
  rw [ByteArray.data_extract, Array.toList_extract, toUTF8_ofList, toUTF8_ofList, bytes_append,
    bytes_append, List.extract_eq_take_drop, Nat.add_sub_cancel_left, ← length_bytes,
    ← length_bytes, List.append_assoc, List.drop_left, List.take_left]

lemma takenFrom_iff (hsize : object.utf8ByteSize < UInt64.size) {r : LinkReference} :
    TakenFrom object r ↔ r.offset.LiesIn object ∧
      r.placeholder.toUTF8 = object.toUTF8.extract (2 * r.start.toNat)
        (2 * (r.start.toNat + r.length.toNat)) := by
  have hextract : ∀ before inside after, object.toList = before ++ inside ++ after →
      byteLength before = 2 * r.start.toNat → byteLength inside = 2 * r.length.toNat →
      object.toUTF8.extract (2 * r.start.toNat) (2 * (r.start.toNat + r.length.toNat)) =
        (String.ofList inside).toUTF8 := by
    intro before inside after hobject hbefore hinside
    rw [← extract_toUTF8 before inside after, ← hobject, String.ofList_toList, hbefore, hinside,
      Nat.mul_add]
  unfold TakenFrom
  rw [liesIn_iff hsize, placeholder?_eq_some_iff]
  unfold Encloses
  constructor
  · rintro ⟨hword, before, after, hobject, hbefore, hinside⟩
    refine ⟨⟨hword, before, _, after, hobject, hbefore, hinside⟩, ?_⟩
    rw [hextract before _ after hobject hbefore hinside, String.ofList_toList]
  · rintro ⟨⟨hword, before, inside, after, hobject, hbefore, hinside⟩, hbytes⟩
    rw [hextract before inside after hobject hbefore hinside, String.toUTF8_eq_toByteArray,
      String.toUTF8_eq_toByteArray, String.toByteArray_inj] at hbytes
    rw [hbytes, String.toList_ofList]
    exact ⟨hword, before, after, hobject, hbefore, hinside⟩

end Boundaries

section Reference

variable {contract object : String} {place : String × String × LinkOffset}
variable (hsize : object.utf8ByteSize < UInt64.size)

include hsize

lemma reference_eq_ok_iff_describes {r : LinkReference} :
    Link.reference contract object place = .ok r ↔
      place.2.2.LiesIn object ∧ r.Describes object place := by
  rw [reference_eq_ok_iff, takenFrom_iff hsize]
  constructor
  · rintro ⟨hsrc, hname, hoffset, hlies, hbytes⟩
    exact ⟨hoffset ▸ hlies, hsrc, hname, congrArg LinkOffset.start hoffset,
      congrArg LinkOffset.length hoffset, hbytes⟩
  · rintro ⟨hlies, hsrc, hname, hstart, hlength, hbytes⟩
    have hoffset : r.offset = place.2.2 := by rw [LinkReference.offset, hstart, hlength]
    exact ⟨hsrc, hname, hoffset, hoffset ▸ hlies, hbytes⟩

lemma exists_reference_eq_ok_iff :
    (∃ r, Link.reference contract object place = .ok r) ↔ place.2.2.LiesIn object := by
  rw [(failsWith_reference contract object place).exists_ok_iff, liesIn_iff hsize]
  split <;> simp [*]

lemma reference_eq_error_iff {error : InputError} :
    Link.reference contract object place = .error error ↔ ¬place.2.2.LiesIn object ∧
      error = .linkOutOfBounds contract place.2.1 place.2.2.start place.2.2.length := by
  rw [(failsWith_reference contract object place).eq_error_iff, liesIn_iff hsize]
  split <;> simp [*, eq_comm]

end Reference

/-- The references of a bytecode are one for each place that is listed for it, in the order of the
table, provided that all places lie in the bytecode; the error names the first place that does not.
Computing the ranges in words leads to no other answer than computing them exactly. -/
theorem extract_exact (contract : String) (bytecode : Bytecode)
    (hsize : bytecode.object.utf8ByteSize < UInt64.size) :
    ((∃ references, Link.extract contract bytecode = .ok references) ↔
      ∀ place ∈ Link.places bytecode, place.2.2.LiesIn bytecode.object) ∧
    (∀ references, Link.extract contract bytecode = .ok references ↔
      (∀ place ∈ Link.places bytecode, place.2.2.LiesIn bytecode.object) ∧
        List.Forall₂ (LinkReference.Describes bytecode.object) (Link.places bytecode)
          references) ∧
    (∀ error, Link.extract contract bytecode = .error error ↔
      ∃ before place after, Link.places bytecode = before ++ place :: after ∧
        (∀ earlier ∈ before, earlier.2.2.LiesIn bytecode.object) ∧
        ¬place.2.2.LiesIn bytecode.object ∧
        error = .linkOutOfBounds contract place.2.1 place.2.2.start place.2.2.length) ∧
    InTableOrder bytecode.linkReferences (Link.places bytecode) ∧
    ∀ start length, Link.charRange? start length =
      (Link.wordRange? start length).map fun range => (range.1.toNat, range.2.toNat) := by
  unfold Link.extract
  refine ⟨?_, fun references => ?_, fun error => ?_, places_inTableOrder bytecode,
    charRange?_eq_wordRange?⟩
  · simp only [exists_mapM_eq_ok_iff, exists_reference_eq_ok_iff hsize]
  · simp only [mapM_eq_ok_iff, reference_eq_ok_iff_describes hsize, List.forall₂_and_left]
  · simp only [mapM_eq_error_iff, exists_reference_eq_ok_iff hsize, reference_eq_error_iff hsize]

/-- A bytecode with a character of three bytes. -/
def euroBytecode (offsets : List LinkOffset) : Bytecode :=
  ⟨"60€0", Table.ofList [("lib.sol", Table.ofList [("Euro", offsets)])]⟩

/-- The second place begins between two characters and ends inside one; the third one would begin
where the bytecode does if its range were computed modulo the size of a word. -/
theorem euroBytecode_extract :
    Link.extract "Token" (euroBytecode [⟨1, 2⟩]) = .ok [⟨"lib.sol", "Euro", 1, 2, "€0"⟩] ∧
    Link.extract "Token" (euroBytecode [⟨1, 2⟩, ⟨1, 1⟩]) =
      .error (.linkOutOfBounds "Token" "Euro" 1 1) ∧
    Link.extract "Token" (euroBytecode [⟨0x8000000000000000, 1⟩, ⟨1, 1⟩]) =
      .error (.linkOutOfBounds "Token" "Euro" 0x8000000000000000 1) := by
  refine ⟨?_, ?_, ?_⟩
  · obtain ⟨-, hok, -⟩ := extract_exact "Token" (euroBytecode [⟨1, 2⟩]) (by decide +kernel)
    refine (hok _).mpr ⟨by decide +kernel, .cons ?_ .nil⟩
    exact ⟨rfl, rfl, rfl, rfl, by decide +kernel⟩
  · obtain ⟨-, -, herror, -⟩ :=
      extract_exact "Token" (euroBytecode [⟨1, 2⟩, ⟨1, 1⟩]) (by decide +kernel)
    exact (herror _).mpr ⟨[("lib.sol", "Euro", ⟨1, 2⟩)], ("lib.sol", "Euro", ⟨1, 1⟩), [],
      by decide +kernel, by decide +kernel, by decide +kernel, rfl⟩
  · obtain ⟨-, -, herror, -⟩ := extract_exact "Token"
      (euroBytecode [⟨0x8000000000000000, 1⟩, ⟨1, 1⟩]) (by decide +kernel)
    exact (herror _).mpr ⟨[], ("lib.sol", "Euro", ⟨0x8000000000000000, 1⟩),
      [("lib.sol", "Euro", ⟨1, 1⟩)], by decide +kernel, by decide +kernel, by decide +kernel, rfl⟩

end Proofs

end UpgradeAudit
