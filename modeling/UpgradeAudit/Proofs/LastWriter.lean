import UpgradeAudit.Proofs.Unlinking

/-!
# The last reference decides

Where ranges overlap, references may put different texts into one place. On ASCII texts what stands
there in the end is said position by position: the character of the last reference that has room in
the text and covers the position, or the one that stood there before. This does not depend on what
the other references have left behind, so going over the references once more changes nothing.
-/

namespace UpgradeAudit

/-- The character of the last reference that writes at a position of a body of some size. -/
def Link.lastWritten? (references : List LinkReference) (size position : Nat) : Option Char :=
  references.reverse.findSome? fun r => r.writes? size position

namespace Proofs

open Fingerprint (marker)
open Link (lastWritten?)
open Text (isAscii startsWith)

section Step

variable {r : LinkReference} {body : List Char}

/-- A place begins and ends between bytes of code, so both characters of a marker at the start of
the text would come from the placeholder, or both from the body. -/
lemma unmarked_restore (hr : isAscii r.placeholder.toList)
    (hplaceholder : ¬startsWith marker r.placeholder.toList) (hbody : isAscii body)
    (hunmarked : ¬startsWith marker body) : ¬startsWith marker (r.restore body) := by
  rw [startsWith_marker_iff] at hplaceholder hunmarked ⊢
  rw [getElem?_restore hr hbody, getElem?_restore hr hbody]
  unfold LinkReference.writes?
  have hpair : r.offset.Covers 0 ↔ r.offset.Covers 1 := by
    rw [covers_iff, covers_iff]
    omega
  simp only [← hpair]
  by_cases hwritten : r.hasRoom body.length ∧ r.offset.Covers 0
  · obtain ⟨-, -, hlength⟩ := (hasRoom_iff_of_isAscii hr).mp hwritten.1
    obtain ⟨hstart, hend⟩ := covers_iff.mp hwritten.2
    have hzero : 2 * r.start.toNat = 0 := by omega
    have hfirst : 0 < r.placeholder.toList.length := by omega
    have hsecond : 1 < r.placeholder.toList.length := by omega
    rw [List.getElem?_eq_getElem hfirst, List.getElem?_eq_getElem hsecond] at hplaceholder
    rw [if_pos hwritten, if_pos hwritten, hzero, Nat.sub_zero, Nat.sub_zero,
      List.getElem?_eq_getElem hfirst, List.getElem?_eq_getElem hsecond, Option.some_or,
      Option.some_or]
    exact hplaceholder
  · rw [if_neg hwritten, if_neg hwritten, Option.none_or, Option.none_or]
    exact hunmarked

end Step

section Run

variable {references : List LinkReference} {body : List Char}

lemma isAscii_restoreAll (hreferences : ∀ r ∈ references, isAscii r.placeholder.toList)
    (hbody : isAscii body) : isAscii (references.foldl (fun body r => r.restore body) body) := by
  induction references generalizing body with
  | nil => exact hbody
  | cons r rest ih =>
    rw [List.forall_mem_cons] at hreferences
    exact ih hreferences.2 (isAscii_restore hreferences.1 hbody)

lemma length_restoreAll (hreferences : ∀ r ∈ references, isAscii r.placeholder.toList)
    (hbody : isAscii body) :
    (references.foldl (fun body r => r.restore body) body).length = body.length := by
  rw [← byteLength_of_isAscii (isAscii_restoreAll hreferences hbody),
    (restoreAll_sameOutside references body).size, byteLength_of_isAscii hbody]

lemma getElem?_restoreAll (hreferences : ∀ r ∈ references, isAscii r.placeholder.toList)
    (hbody : isAscii body) (i : Nat) :
    (references.foldl (fun body r => r.restore body) body)[i]? =
      (lastWritten? references body.length i).or body[i]? := by
  induction references generalizing body with
  | nil => rfl
  | cons r rest ih =>
    rw [List.forall_mem_cons] at hreferences
    have hlast : lastWritten? (r :: rest) body.length i =
        (lastWritten? rest body.length i).or (r.writes? body.length i) := by
      unfold lastWritten?
      rw [List.reverse_cons, List.findSome?_append, List.findSome?_singleton]
    rw [List.foldl_cons, ih hreferences.2 (isAscii_restore hreferences.1 hbody),
      length_restore hreferences.1 hbody, getElem?_restore hreferences.1 hbody, hlast,
      Option.or_assoc]

lemma unmarked_restoreAll (hreferences : ∀ r ∈ references,
      isAscii r.placeholder.toList ∧ ¬startsWith marker r.placeholder.toList)
    (hbody : isAscii body) (hunmarked : ¬startsWith marker body) :
    ¬startsWith marker (references.foldl (fun body r => r.restore body) body) := by
  induction references generalizing body with
  | nil => exact hunmarked
  | cons r rest ih =>
    rw [List.forall_mem_cons] at hreferences
    obtain ⟨⟨hr, hplaceholder⟩, hrest⟩ := hreferences
    exact ih hrest (isAscii_restore hr hbody) (unmarked_restore hr hplaceholder hbody hunmarked)

/-- The size of the text is the same in both passes, and so is what the last references write. -/
lemma restoreAll_restoreAll (hreferences : ∀ r ∈ references, isAscii r.placeholder.toList)
    (hbody : isAscii body) :
    references.foldl (fun body r => r.restore body)
        (references.foldl (fun body r => r.restore body) body) =
      references.foldl (fun body r => r.restore body) body := by
  apply List.ext_getElem?
  intro i
  rw [getElem?_restoreAll hreferences (isAscii_restoreAll hreferences hbody),
    length_restoreAll hreferences hbody, getElem?_restoreAll hreferences hbody,
    ← Option.or_assoc, Option.or_self]

end Run

lemma getElem?_unlink {bytecode : String} {references : List LinkReference}
    (hbytecode : isAscii bytecode.toList)
    (hreferences : ∀ r ∈ references, isAscii r.placeholder.toList) (i : Nat) :
    (Link.unlink bytecode references).toList[markerSize bytecode + i]? =
      (lastWritten? references (bodySize bytecode) i).or
        bytecode.toList[markerSize bytecode + i]? := by
  obtain ⟨lead, body, hsplit, hlead, -, hunlink⟩ := exists_lead bytecode
  have hsize := bodySize_eq hsplit hlead
  rw [hsplit, String.toList_ofList, isAscii_append_iff] at hbytecode
  obtain ⟨hleadAscii, hbody⟩ := hbytecode
  rw [byteLength_of_isAscii hleadAscii] at hlead
  rw [byteLength_of_isAscii hbody] at hsize
  have hbehind : ∀ text : List Char, (lead ++ text)[markerSize bytecode + i]? = text[i]? := by
    intro text
    rw [← hlead, List.getElem?_append_right (Nat.le_add_right _ _), Nat.add_sub_cancel_left]
  have hbefore : bytecode.toList[markerSize bytecode + i]? = body[i]? := by
    rw [← hbehind body, hsplit, String.toList_ofList]
  rw [hunlink, String.toList_ofList, hbehind, hbefore, hsize, getElem?_restoreAll hreferences hbody]

/-- Unlinking an unlinked text changes nothing. On ASCII texts, with ASCII placeholders none of
which could be taken for a marker, this holds however the ranges of the references overlap, repeat,
or lie outside the text: each position has the character of the last reference that writes there,
and else its own. -/
theorem unlink_idempotent {bytecode : String} {references : List LinkReference}
    (hbytecode : isAscii bytecode.toList)
    (hreferences : ∀ r ∈ references,
      isAscii r.placeholder.toList ∧ ¬startsWith marker r.placeholder.toList) :
    Link.unlink (Link.unlink bytecode references) references = Link.unlink bytecode references ∧
      ∀ i, (Link.unlink bytecode references).toList[markerSize bytecode + i]? =
        (lastWritten? references (bodySize bytecode) i).or
          bytecode.toList[markerSize bytecode + i]? := by
  have hascii : ∀ r ∈ references, isAscii r.placeholder.toList := fun r hr => (hreferences r hr).1
  refine ⟨?_, getElem?_unlink hbytecode hascii⟩
  by_cases hmarked : startsWith marker bytecode.toList
  · obtain ⟨body, hsplit⟩ := Text.startsWith_iff.mp hmarked
    obtain rfl : bytecode = String.ofList (marker ++ body) := by
      rw [← hsplit, String.ofList_toList]
    rw [hsplit, isAscii_append_iff] at hbytecode
    rw [unlink_marked, unlink_marked, restoreAll_restoreAll hascii hbytecode.2]
  · have hrestored := unmarked_restoreAll hreferences hbytecode hmarked
    rw [unlink_eq_restored hmarked, restored, unlink_of_unmarked hrestored,
      restoreAll_restoreAll hascii hbytecode]

/-- Libraries in overlapping places, one of them twice, one that reaches over the end of the text,
one in a place of another size, and one in an empty place. -/
def conflictingPlaces : List LinkReference :=
  [placeOf "Outer" 0 3 "__$a$_", placeOf "Inner" 1 1 "zz", placeOf "Outer" 0 3 "__$a$_",
    placeOf "Tail" 2 2 "tttt", placeOf "Late" 4 9 "__", placeOf "Short" 0 2 "_",
    placeOf "Empty" 5 0 ""]

theorem conflictingPlaces_settled :
    Link.unlink "c0ffee00f3" conflictingPlaces = "__$attttf3" ∧
      Link.unlink "__$attttf3" conflictingPlaces = "__$attttf3" ∧
      lastWritten? conflictingPlaces 10 2 = some '$' ∧
      lastWritten? conflictingPlaces 10 8 = none := by
  have hfirst : Link.unlink "c0ffee00f3" conflictingPlaces = "__$attttf3" := by decide +kernel
  obtain ⟨hagain, -⟩ := @unlink_idempotent "c0ffee00f3" conflictingPlaces (by decide +kernel)
    (by decide +kernel)
  rw [hfirst] at hagain
  exact ⟨hfirst, hagain, by decide +kernel, by decide +kernel⟩

end Proofs

end UpgradeAudit
