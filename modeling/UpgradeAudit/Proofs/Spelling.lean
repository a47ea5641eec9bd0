import Mathlib.Tactic.ByContra
import UpgradeAudit.Fingerprint

/-!
# Spellings of a bytecode

One bytecode can be written with letters of either case, and with or without a marker in front. The
marker is taken off before letters are made small, and only once. So a marker with a capital letter
is taken for a part of the bytecode, and so is a second marker behind the first. All other spellings
of a bytecode have one canonical text.
-/

namespace UpgradeAudit

/-- The characters of a text in small letters. -/
def Text.lowered (text : String) : List Char :=
  text.toList.map Char.toLower

/-- Two texts differ at most in the case of their letters. -/
def Text.SameLetters (s t : String) : Prop :=
  lowered s = lowered t

instance (s t : String) : Decidable (Text.SameLetters s t) :=
  inferInstanceAs (Decidable (_ = _))

namespace Fingerprint

/-- A text starts with the marker, whatever the case of its letter. -/
def MarkedInAnyCase (text : String) : Prop :=
  Text.startsWith marker (Text.lowered text)

instance (text : String) : Decidable (MarkedInAnyCase text) :=
  inferInstanceAs (Decidable (_ = true))

/-- A text differs from another at most in the case of letters, or does so behind a marker. -/
def Spells (written text : String) : Prop :=
  Text.SameLetters written text ∨ ∃ body, written = "0x" ++ body ∧ Text.SameLetters body text

/-- A text starts with a marker that is still there in its canonical text. -/
def LeavesMarker (text : String) : Prop :=
  ∃ rest, text = "0X" ++ rest ∨ text = "0x0x" ++ rest ∨ text = "0x0X" ++ rest

end Fingerprint

namespace Proofs

open Fingerprint (LeavesMarker MarkedInAnyCase Spells canonical marker)
open Text (SameLetters lowered startsWith)

section Letters

variable {c : Char}

lemma toNat_toLower (c : Char) :
    c.toLower.toNat = if 65 ≤ c.toNat ∧ c.toNat ≤ 90 then c.toNat + 32 else c.toNat := by
  unfold Char.toLower
  simp only [ge_iff_le, UInt32.le_iff_toNat_le]
  change ((if h : 65 ≤ c.toNat ∧ c.toNat ≤ 90 then _ else _ : Char)).toNat = _
  split
  · change (c.val + 32).toNat = c.toNat + 32
    rw [UInt32.toNat_add]
    change (c.toNat + 32) % _ = _
    omega
  · rfl

lemma toLower_toLower (c : Char) : c.toLower.toLower = c.toLower := by
  rw [← Char.toNat_inj, toNat_toLower c.toLower, toNat_toLower c]
  by_cases hupper : 65 ≤ c.toNat ∧ c.toNat ≤ 90
  · rw [if_pos hupper, if_neg (by omega)]
  · rw [if_neg hupper, if_neg hupper]

lemma toLower_eq_zero_iff : c.toLower = '0' ↔ c = '0' := by
  have hzero : '0'.toNat = 48 := rfl
  rw [← Char.toNat_inj, ← Char.toNat_inj, toNat_toLower, hzero]
  split
  · omega
  · rfl

lemma toLower_eq_x_iff : c.toLower = 'x' ↔ c = 'x' ∨ c = 'X' := by
  have hsmall : 'x'.toNat = 120 := rfl
  have hcapital : 'X'.toNat = 88 := rfl
  simp only [← Char.toNat_inj, toNat_toLower, hsmall, hcapital]
  split
  · omega
  · omega

lemma map_toLower_map_toLower (text : List Char) :
    (text.map Char.toLower).map Char.toLower = text.map Char.toLower := by
  rw [List.map_map]
  apply List.map_congr_left
  intro c _
  exact toLower_toLower c

end Letters

section Marker

variable {text : List Char}

lemma startsWith_marker_iff :
    startsWith marker text ↔ text[0]? = some '0' ∧ text[1]? = some 'x' := by
  rw [Text.startsWith_iff]
  constructor
  · rintro ⟨rest, rfl⟩
    exact ⟨rfl, rfl⟩
  · rintro ⟨hzero, hx⟩
    cases text with
    | nil => cases hzero
    | cons c text =>
      cases text with
      | nil => cases hx
      | cons d rest =>
        obtain rfl := Option.some.inj hzero
        obtain rfl := Option.some.inj hx
        exact ⟨rest, rfl⟩

lemma canonical_of_unmarked (h : ¬startsWith marker text) :
    canonical (String.ofList text) = String.ofList (text.map Char.toLower) := by
  unfold startsWith at h
  rw [Option.not_isSome_iff_eq_none] at h
  unfold canonical Text.dropLead
  rw [String.toList_ofList, h, Option.getD_none]

lemma canonical_marked (text : List Char) :
    canonical (String.ofList (marker ++ text)) = String.ofList (text.map Char.toLower) := by
  unfold canonical
  rw [String.toList_ofList]
  rfl

lemma startsWith_marker_map_toLower_iff : startsWith marker (text.map Char.toLower) ↔
    ∃ rest, text = '0' :: 'x' :: rest ∨ text = '0' :: 'X' :: rest := by
  rw [startsWith_marker_iff, List.getElem?_map, List.getElem?_map]
  match text with
  | [] => simp
  | [c] => simp
  | c :: d :: rest => simp [toLower_eq_zero_iff, toLower_eq_x_iff, and_or_left, exists_or]

end Marker

section Canonical

variable {s t : String}

lemma marked_append (s : String) : "0x" ++ s = String.ofList (marker ++ s.toList) := by
  rw [String.ofList_append, String.ofList_toList]
  rfl

lemma marked_iff : startsWith marker s.toList ↔ ∃ rest, s = "0x" ++ rest := by
  rw [← Text.startsWith_toList_iff]
  rfl

lemma canonical_eq_lowered (h : ¬startsWith marker s.toList) :
    canonical s = String.ofList (lowered s) := by
  rw [lowered, ← canonical_of_unmarked h, String.ofList_toList]

lemma canonical_append_marker (s : String) : canonical ("0x" ++ s) = String.ofList (lowered s) := by
  rw [marked_append, canonical_marked, lowered]

lemma lowered_append (s t : String) : lowered (s ++ t) = lowered s ++ lowered t := by
  rw [lowered, String.toList_append, List.map_append]
  rfl

lemma length_lowered (s : String) : (lowered s).length = s.toList.length :=
  List.length_map _

lemma markedInAnyCase_of_marked (h : startsWith marker s.toList) : MarkedInAnyCase s := by
  obtain ⟨rest, rfl⟩ := marked_iff.mp h
  rw [MarkedInAnyCase, lowered_append]
  exact Text.startsWith_iff.mpr ⟨lowered rest, rfl⟩

lemma canonical_of_spells (hunmarked : ¬MarkedInAnyCase s) (h : Spells t s) :
    canonical t = String.ofList (lowered s) := by
  rcases h with hletters | ⟨body, rfl, hletters⟩
  · have ht : ¬MarkedInAnyCase t := by
      rw [MarkedInAnyCase, show lowered t = lowered s from hletters]
      exact hunmarked
    rw [canonical_eq_lowered fun hmarked => ht (markedInAnyCase_of_marked hmarked)]
    exact congrArg String.ofList hletters
  · rw [canonical_append_marker]
    exact congrArg String.ofList hletters

lemma length_canonical_of_marked (h : startsWith marker s.toList) :
    (canonical s).toList.length + 2 = s.toList.length := by
  obtain ⟨rest, rfl⟩ := marked_iff.mp h
  rw [canonical_append_marker, String.toList_ofList, length_lowered, String.toList_append,
    List.length_append, Nat.add_comm]
  rfl

lemma length_canonical_of_unmarked (h : ¬startsWith marker s.toList) :
    (canonical s).toList.length = s.toList.length := by
  rw [canonical_eq_lowered h, String.toList_ofList, length_lowered]

lemma leavesMarker_iff : LeavesMarker s ↔ ∃ rest, s.toList = '0' :: 'X' :: rest ∨
    s.toList = '0' :: 'x' :: '0' :: 'x' :: rest ∨
    s.toList = '0' :: 'x' :: '0' :: 'X' :: rest := by
  unfold LeavesMarker
  simp only [exists_or, ← Text.startsWith_toList_iff, Text.startsWith_iff]
  rfl

lemma markedInAnyCase_iff : MarkedInAnyCase s ↔
    ∃ rest, s.toList = '0' :: 'x' :: rest ∨ s.toList = '0' :: 'X' :: rest :=
  startsWith_marker_map_toLower_iff

lemma leavesMarker_append_marker_iff : LeavesMarker ("0x" ++ s) ↔ MarkedInAnyCase s := by
  have hlist : ("0x" ++ s).toList = '0' :: 'x' :: s.toList := String.toList_append
  rw [leavesMarker_iff, markedInAnyCase_iff, hlist]
  simp

lemma leavesMarker_of_unmarked_iff (h : ¬startsWith marker s.toList) :
    LeavesMarker s ↔ MarkedInAnyCase s := by
  have hsmall : ∀ rest, s.toList ≠ '0' :: 'x' :: rest := fun rest hrest =>
    h (Text.startsWith_iff.mpr ⟨rest, hrest⟩)
  simp [leavesMarker_iff, markedInAnyCase_iff, hsmall]

lemma marked_canonical_iff : startsWith marker (canonical s).toList ↔ LeavesMarker s := by
  by_cases h : startsWith marker s.toList
  · obtain ⟨rest, rfl⟩ := marked_iff.mp h
    rw [canonical_append_marker, String.toList_ofList, leavesMarker_append_marker_iff]
    rfl
  · rw [canonical_eq_lowered h, String.toList_ofList, leavesMarker_of_unmarked_iff h]
    rfl

lemma map_toLower_canonical (s : String) :
    (canonical s).toList.map Char.toLower = (canonical s).toList := by
  unfold canonical
  rw [String.toList_ofList, map_toLower_map_toLower]

lemma canonical_canonical_iff : canonical (canonical s) = canonical s ↔ ¬LeavesMarker s := by
  rw [← marked_canonical_iff]
  constructor
  · intro hsame hmarked
    have hlength := length_canonical_of_marked hmarked
    rw [hsame] at hlength
    omega
  · intro hunmarked
    rw [canonical_eq_lowered hunmarked, lowered, map_toLower_canonical, String.ofList_toList]

lemma canonical_ne (h : SameLetters s t) (hs : startsWith marker s.toList)
    (ht : ¬startsWith marker t.toList) : canonical s ≠ canonical t := by
  intro hsame
  have hletters : (lowered s).length = (lowered t).length := congrArg List.length h
  have hshorter := length_canonical_of_marked hs
  have hequal := length_canonical_of_unmarked ht
  rw [length_lowered, length_lowered] at hletters
  rw [hsame] at hshorter
  omega

lemma canonical_eq_iff (h : SameLetters s t) : canonical s = canonical t ↔
    (startsWith marker s.toList ↔ startsWith marker t.toList) := by
  by_cases hs : startsWith marker s.toList
  · by_cases ht : startsWith marker t.toList
    · refine iff_of_true ?_ (iff_of_true hs ht)
      obtain ⟨a, rfl⟩ := marked_iff.mp hs
      obtain ⟨b, rfl⟩ := marked_iff.mp ht
      unfold SameLetters at h
      rw [lowered_append, lowered_append, List.append_cancel_left_eq] at h
      rw [canonical_append_marker, canonical_append_marker, h]
    · exact iff_of_false (canonical_ne h hs ht) fun hboth => ht (hboth.mp hs)
  · by_cases ht : startsWith marker t.toList
    · exact iff_of_false (canonical_ne h.symm ht hs).symm fun hboth => hs (hboth.mpr ht)
    · refine iff_of_true ?_ (iff_of_false hs ht)
      rw [canonical_eq_lowered hs, canonical_eq_lowered ht]
      exact congrArg String.ofList h

/-- A text that leaves no marker starts with one if another text with the same letters does. -/
lemma marked_of_sameLetters (h : SameLetters s t) (ht : ¬LeavesMarker t)
    (hs : startsWith marker s.toList) : startsWith marker t.toList := by
  by_contra hunmarked
  apply ht
  rw [leavesMarker_of_unmarked_iff hunmarked, MarkedInAnyCase, ← show lowered s = lowered t from h]
  exact markedInAnyCase_of_marked hs

lemma of_eq_of_canonical (h : canonical s = canonical t) :
    Fingerprint.of s = Fingerprint.of t := by
  unfold Fingerprint.of
  rw [h]

end Canonical

/-- How far the canonical text stands for all spellings of a bytecode. Texts with the same letters
have one canonical text exactly if both or none of them start with a marker in small letters, and
the canonical text of a text is its own exactly if the text leaves no marker. Where no marker is
left, and for a bytecode that starts with none in any case, fingerprints do not depend on the
spelling. -/
theorem canonical_text_iff (s t : String) :
    (SameLetters s t → (canonical s = canonical t ↔
      (startsWith marker s.toList ↔ startsWith marker t.toList))) ∧
    (canonical (canonical s) = canonical s ↔ ¬LeavesMarker s) ∧
    (SameLetters s t → ¬LeavesMarker s → ¬LeavesMarker t →
      canonical s = canonical t ∧ Fingerprint.of s = Fingerprint.of t) ∧
    (¬MarkedInAnyCase s → Spells t s →
      canonical t = canonical s ∧ Fingerprint.of t = Fingerprint.of s) := by
  refine ⟨canonical_eq_iff, canonical_canonical_iff, ?_, ?_⟩
  · intro hletters hs ht
    have hsame : canonical s = canonical t := (canonical_eq_iff hletters).mpr
      ⟨marked_of_sameLetters hletters ht, marked_of_sameLetters hletters.symm hs⟩
    exact ⟨hsame, of_eq_of_canonical hsame⟩
  · intro hunmarked hspells
    have hsame : canonical t = canonical s :=
      (canonical_of_spells hunmarked hspells).trans
        (canonical_of_spells hunmarked (.inl rfl)).symm
    exact ⟨hsame, of_eq_of_canonical hsame⟩

/-- A marker with a capital letter stays, so that two spellings differ and the canonical text of one
is not its own. -/
theorem capitalMarker_stays : SameLetters "0X6080" "0x6080" ∧
    canonical "0X6080" ≠ canonical "0x6080" ∧
    canonical (canonical "0X6080") ≠ canonical "0X6080" := by
  have hcapital : canonical "0X6080" = "0x6080" := by decide
  have hsmall : canonical "0x6080" = "6080" := by decide
  rw [hcapital, hsmall]
  exact ⟨by decide, by decide, by decide⟩

end Proofs

end UpgradeAudit
