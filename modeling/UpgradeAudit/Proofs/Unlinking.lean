import UpgradeAudit.Proofs.Extraction

/-!
# Unlinking, one reference after the other

References are put back in their order, each into the text that the ones before it have left. A
reference is written if its range lies between characters of that text and is as large as its
placeholder, and is skipped otherwise. Whether the range lies in the text at all can be told from
the size of the text, which never changes. References that were taken from a bytecode are never
skipped in a text that agrees with it outside their places, so they give the bytecode back.
-/

namespace UpgradeAudit

/-- The range of a reference, counted behind the first `lead` bytes of a text, begins and ends
between two characters and has as many bytes as the placeholder. -/
structure LinkReference.FitsAt (r : LinkReference) (lead : Nat) (text : String)
    (first last : Nat) : Prop where
  range : r.charRange? = some (first, last)
  starts : String.Pos.Raw.IsValid text ⟨lead + first⟩
  ends : String.Pos.Raw.IsValid text ⟨lead + last⟩
  size : r.placeholder.utf8ByteSize = last - first

/-- What putting one reference back makes of a text: the placeholder takes the place of as many
bytes where it fits, and else nothing happens. -/
inductive LinkReference.Puts (r : LinkReference) (lead : Nat) (text : String) : String → Prop where
  | written {first last : Nat} {before inside after : String}
    (fits : r.FitsAt lead text first last) (divided : text = before ++ inside ++ after)
    (starts : before.utf8ByteSize = lead + first) (size : inside.utf8ByteSize = last - first) :
    Puts r lead text (before ++ r.placeholder ++ after)
  | skipped (unfit : ∀ first last, ¬r.FitsAt lead text first last) : Puts r lead text text

namespace Proofs

open Fingerprint (marker)
open Text (byteLength isAscii startsWith)

section Steps

variable {r : LinkReference} {body : List Char} {lead text result : String} {first last : Nat}

lemma isValid_append_lead_iff {position : Nat} :
    String.Pos.Raw.IsValid (lead ++ text) ⟨lead.utf8ByteSize + position⟩ ↔
      String.Pos.Raw.IsValid text ⟨position⟩ := by
  constructor
  · intro h
    rcases String.Pos.Raw.isValid_append.mp h with hlead | ⟨-, htext⟩
    · have hle : lead.utf8ByteSize + position ≤ lead.utf8ByteSize := hlead.le_utf8ByteSize
      obtain rfl : position = 0 := by omega
      exact String.Pos.Raw.isValid_zero
    · have hposition : (⟨lead.utf8ByteSize + position⟩ : String.Pos.Raw) - lead = ⟨position⟩ := by
        rw [String.Pos.Raw.ext_iff]
        simp
      rwa [hposition] at htext
  · intro h
    exact h.append_left lead

lemma fitsAt_append_lead_iff :
    r.FitsAt lead.utf8ByteSize (lead ++ text) first last ↔ r.FitsAt 0 text first last := by
  constructor
  · rintro ⟨hrange, hstarts, hends, hsize⟩
    rw [isValid_append_lead_iff] at hstarts hends
    exact ⟨hrange, by rwa [Nat.zero_add], by rwa [Nat.zero_add], hsize⟩
  · rintro ⟨hrange, hstarts, hends, hsize⟩
    rw [Nat.zero_add] at hstarts hends
    exact ⟨hrange, isValid_append_lead_iff.mpr hstarts, isValid_append_lead_iff.mpr hends, hsize⟩

lemma puts_append_lead (h : r.Puts 0 text result) :
    r.Puts lead.utf8ByteSize (lead ++ text) (lead ++ result) := by
  cases h with
  | @written first last before inside after fits divided starts size =>
    have hdivided : lead ++ text = lead ++ before ++ inside ++ after := by
      simp only [divided, String.append_assoc]
    have hstarts : (lead ++ before).utf8ByteSize = lead.utf8ByteSize + first := by
      rw [String.utf8ByteSize_append, starts, Nat.zero_add]
    have hputs := LinkReference.Puts.written (fitsAt_append_lead_iff.mpr fits) hdivided hstarts size
    simpa only [String.append_assoc] using hputs
  | skipped unfit =>
    exact .skipped fun first last fits => unfit first last (fitsAt_append_lead_iff.mp fits)

lemma charRange?_le (h : r.charRange? = some (first, last)) : first ≤ last := by
  obtain ⟨-, h⟩ := Option.ite_none_right_eq_some.mp h
  obtain ⟨rfl, rfl⟩ := Prod.mk.inj (Option.some.inj h)
  omega

lemma fitsAt_iff_window : r.FitsAt 0 (String.ofList body) first last ↔
    r.charRange? = some (first, last) ∧
      (∃ window, Text.window? body first last = some window) ∧
      byteLength r.placeholder.toList = last - first := by
  rw [byteLength_toList]
  constructor
  · rintro ⟨hrange, hstarts, hends, hsize⟩
    have hle := charRange?_le hrange
    rw [Nat.zero_add] at hstarts hends
    rw [← Nat.add_sub_cancel' hle] at hends
    obtain ⟨before, inside, after, hbody, hfirst, hinside⟩ :=
      exists_division_iff.mpr ⟨hstarts, hends⟩
    rw [String.toList_ofList] at hbody
    exact ⟨hrange, ⟨⟨before, inside, after⟩,
      Text.window?_eq_some_iff.mpr ⟨hle, hbody, hfirst, hinside⟩⟩, hsize⟩
  · rintro ⟨hrange, ⟨window, hwindow⟩, hsize⟩
    obtain ⟨hle, hbody, hfirst, hinside⟩ := Text.window?_eq_some_iff.mp hwindow
    have hdivided := exists_division_iff.mp ⟨window.before, window.inside, window.after,
      (String.toList_ofList (l := body)).trans hbody, hfirst, hinside⟩
    rw [Nat.add_sub_cancel' hle] at hdivided
    refine ⟨hrange, ?_, ?_, hsize⟩
    · rw [Nat.zero_add]
      exact hdivided.1
    · rw [Nat.zero_add]
      exact hdivided.2

lemma restore_puts (r : LinkReference) (body : List Char) :
    r.Puts 0 (String.ofList body) (String.ofList (r.restore body)) := by
  by_cases hfits : ∃ first last, r.FitsAt 0 (String.ofList body) first last
  · obtain ⟨first, last, hfits⟩ := hfits
    obtain ⟨hrange, ⟨window, hwindow⟩, hsize⟩ := fitsAt_iff_window.mp hfits
    obtain ⟨-, hbody, hfirst, hinside⟩ := Text.window?_eq_some_iff.mp hwindow
    have hrestore : r.restore body = window.before ++ r.placeholder.toList ++ window.after := by
      simp only [LinkReference.restore, hrange, hwindow, if_pos hsize]
    have hdivided : String.ofList body = String.ofList window.before ++
        String.ofList window.inside ++ String.ofList window.after := by
      rw [hbody, String.ofList_append, String.ofList_append]
    rw [hrestore, String.ofList_append, String.ofList_append, String.ofList_toList]
    refine .written hfits hdivided ?_ ?_
    · rw [utf8ByteSize_ofList, hfirst, Nat.zero_add]
    · rw [utf8ByteSize_ofList, hinside]
  · push Not at hfits
    rcases restore_cases r body with hsame | ⟨first, last, window, hrange, hwindow, hsize, -⟩
    · rw [hsame]
      exact .skipped hfits
    · exact absurd (fitsAt_iff_window.mpr ⟨hrange, ⟨window, hwindow⟩, hsize⟩) (hfits first last)

end Steps

/-- The number of bytes behind the marker. -/
def bodySize (bytecode : String) : Nat :=
  bytecode.utf8ByteSize - markerSize bytecode

lemma bodySize_eq {bytecode : String} {lead body : List Char}
    (h : bytecode = String.ofList (lead ++ body)) (hlead : byteLength lead = markerSize bytecode) :
    bodySize bytecode = byteLength body := by
  rw [bodySize, ← hlead, h, utf8ByteSize_ofList, Text.byteLength_append]
  omega

lemma unlink_nil (bytecode : String) : Link.unlink bytecode [] = bytecode := by
  obtain ⟨lead, body, hbytecode, -, -, hunlink⟩ := exists_lead bytecode
  rw [hunlink, List.foldl_nil, ← hbytecode]

lemma unlink_puts (bytecode : String) (done : List LinkReference) (r : LinkReference) :
    r.Puts (markerSize bytecode) (Link.unlink bytecode done)
      (Link.unlink bytecode (done ++ [r])) := by
  obtain ⟨lead, body, -, hlead, -, hunlink⟩ := exists_lead bytecode
  rw [hunlink, hunlink, List.foldl_append, List.foldl_cons, List.foldl_nil, ← hlead,
    ← utf8ByteSize_ofList, String.ofList_append, String.ofList_append]
  exact puts_append_lead (restore_puts r _)

/-- What has no room in a body has none in what becomes of it, so it can be left out. -/
lemma restoreAll_filter (references : List LinkReference) (body : List Char) :
    (references.filter fun r => r.hasRoom (byteLength body)).foldl
      (fun body r => r.restore body) body =
      references.foldl (fun body r => r.restore body) body := by
  induction references generalizing body with
  | nil => rfl
  | cons r rest ih =>
    by_cases hroom : r.hasRoom (byteLength body)
    · rw [List.filter_cons, if_pos hroom, List.foldl_cons, List.foldl_cons, ← ih (r.restore body),
        (restore_sameOutside r body).size]
    · rw [List.filter_cons, if_neg hroom, List.foldl_cons, restore_of_not_hasRoom hroom, ih body]

lemma unlink_filter (bytecode : String) (references : List LinkReference) :
    Link.unlink bytecode (references.filter fun r => r.hasRoom (bodySize bytecode)) =
      Link.unlink bytecode references := by
  obtain ⟨lead, body, hbytecode, hlead, -, hunlink⟩ := exists_lead bytecode
  rw [hunlink, hunlink, bodySize_eq hbytecode hlead, restoreAll_filter]

/-- Unlinking keeps the size of a bytecode, its marker, and every byte outside the ranges of the
references. References without room in the bytecode make no difference. Going over the references
one by one, the text starts as the bytecode, and each of them either takes the place of as many
bytes between two positions between characters, or leaves the text as it is if there is no such
place for it. -/
theorem unlink_frame (bytecode : String) (references : List LinkReference) :
    UnlinkedFrom references bytecode (Link.unlink bytecode references) ∧
    Link.unlink bytecode (references.filter fun r => r.hasRoom (bodySize bytecode)) =
      Link.unlink bytecode references ∧
    Link.unlink bytecode [] = bytecode ∧
    ∀ done r, LinkReference.Puts r (markerSize bytecode) (Link.unlink bytecode done)
      (Link.unlink bytecode (done ++ [r])) :=
  ⟨unlink_unlinkedFrom bytecode references, unlink_filter bytecode references, unlink_nil bytecode,
    unlink_puts bytecode⟩

/-! ### Linking undone -/

/-- Two texts have the same characters outside the places of some references. -/
def AgreeOutside (references : List LinkReference) (object linked : String) : Prop :=
  ∀ i < linked.toList.length, (∀ r ∈ references, ¬r.offset.Covers i) →
    linked.toList[i]? = object.toList[i]?

instance (references : List LinkReference) (object linked : String) :
    Decidable (AgreeOutside references object linked) :=
  inferInstanceAs (Decidable (∀ i < _, _))

lemma restored_eq_iff {object linked : String} {references : List LinkReference}
    (hobject : isAscii object.toList) (hreferences : ∀ r ∈ references, TakenFrom object r)
    (hlinked : isAscii linked.toList) (hlength : linked.toList.length = object.toList.length) :
    restored linked references = object.toList ↔ AgreeOutside references object linked := by
  have hmends : Mends object.toList (fun i => ∃ r ∈ references, r.offset.Covers i) linked.toList
      (restored linked references) := restoreAll_mends hobject hreferences hlinked hlength
  constructor
  · intro heq i _ hi
    rw [← hmends.outside i (by simpa using hi), heq]
  · intro hagree
    apply List.ext_getElem?
    intro i
    by_cases hcovered : ∃ r ∈ references, r.offset.Covers i
    · exact hmends.inside i hcovered
    · rw [hmends.outside i hcovered]
      by_cases hi : i < linked.toList.length
      · exact hagree i hi (by simpa using hcovered)
      · rw [List.getElem?_eq_none (by omega), List.getElem?_eq_none (by omega)]

/-- References of a bytecode, in any order and any number of times, lead back to it exactly from the
texts that agree with it outside their places, with or without a marker. -/
theorem unlink_eq_object_iff {contract linked : String} {bytecode : Bytecode}
    {references references' : List LinkReference} (hascii : isAscii bytecode.object.toList)
    (hextract : Link.extract contract bytecode = .ok references)
    (hmembers : ∀ r, r ∈ references' ↔ r ∈ references) (hlinked : isAscii linked.toList)
    (hunmarked : ¬startsWith marker linked.toList)
    (hlength : linked.toList.length = bytecode.object.toList.length) :
    (Link.unlink linked references' = bytecode.object ↔
      AgreeOutside references bytecode.object linked) ∧
    (Link.unlink ("0x" ++ linked) references' = "0x" ++ bytecode.object ↔
      AgreeOutside references bytecode.object linked) := by
  have hagree : AgreeOutside references bytecode.object linked ↔
      restored linked references' = bytecode.object.toList := by
    rw [restored_eq_iff hascii
      (fun r hr => takenFrom_of_extract hextract ((hmembers r).mp hr)) hlinked hlength]
    simp only [AgreeOutside, hmembers]
  rw [hagree, unlink_eq_restored hunmarked, unlink_marker_append]
  constructor
  · rw [← String.toList_inj, String.toList_ofList]
  · rw [← String.toList_inj, String.toList_ofList, String.toList_append]
    exact List.append_right_inj marker

def placeOf (name : String) (start length : UInt64) (text : String) : LinkReference :=
  ⟨name ++ ".sol", name, start, length, text⟩

/-- The place of one library lies inside that of another, and one place is empty. -/
def overlappingBytecode : Bytecode :=
  ⟨"73__$aa$__f3", Table.ofList [("Inner.sol", Table.ofList [("Inner", [⟨2, 1⟩, ⟨0, 0⟩])]),
    ("Outer.sol", Table.ofList [("Outer", [⟨1, 4⟩])])]⟩

theorem overlappingBytecode_recovered :
    Link.unlink "73c0ffee00f3" [placeOf "Outer" 1 4 "__$aa$__", placeOf "Inner" 2 1 "$a",
      placeOf "Outer" 1 4 "__$aa$__", placeOf "Inner" 0 0 ""] = "73__$aa$__f3" ∧
    Link.unlink ("0x" ++ "73c0ffee00f3") [placeOf "Outer" 1 4 "__$aa$__",
      placeOf "Inner" 2 1 "$a", placeOf "Outer" 1 4 "__$aa$__", placeOf "Inner" 0 0 ""] =
        "0x" ++ "73__$aa$__f3" := by
  have hextract : Link.extract "Token" overlappingBytecode =
      .ok [placeOf "Inner" 2 1 "$a", placeOf "Inner" 0 0 "", placeOf "Outer" 1 4 "__$aa$__"] := by
    rfl
  have hagree : AgreeOutside [placeOf "Inner" 2 1 "$a", placeOf "Inner" 0 0 "",
      placeOf "Outer" 1 4 "__$aa$__"] "73__$aa$__f3" "73c0ffee00f3" := by decide +kernel
  obtain ⟨hplain, hmarked⟩ := @unlink_eq_object_iff "Token" "73c0ffee00f3" overlappingBytecode _
    [placeOf "Outer" 1 4 "__$aa$__", placeOf "Inner" 2 1 "$a", placeOf "Outer" 1 4 "__$aa$__",
      placeOf "Inner" 0 0 ""] (by decide +kernel) hextract (by grind) (by decide +kernel)
    (by decide +kernel) (by decide +kernel)
  exact ⟨hplain.mpr hagree, hmarked.mpr hagree⟩

end Proofs

end UpgradeAudit
