import UpgradeAudit.Proofs.Recognition

/-!
# Unlinking byte by byte

Putting a reference back replaces a range of bytes by a placeholder of the same size, or does
nothing. Whatever the text and the references are, the number of bytes and all bytes outside the
ranges stay as they were, and so does a marker in front.
-/

namespace UpgradeAudit

/-- A byte of a text behind any marker is in the range that a reference stands for, where that range
can be written in words. -/
def LinkReference.Reaches (r : LinkReference) (position : Nat) : Prop :=
  ∃ first last, r.charRange? = some (first, last) ∧ first ≤ position ∧ position < last

namespace Proofs

open Fingerprint (marker)
open Text (byteLength bytes startsWith)

/-- A body has as many bytes as another, and the same ones outside the ranges of some references. -/
structure SameOutside (references : List LinkReference) (body result : List Char) : Prop where
  size : byteLength result = byteLength body
  outside : ∀ i, (∀ r ∈ references, ¬r.Reaches i) → (bytes result)[i]? = (bytes body)[i]?

variable {references : List LinkReference} {body : List Char}

lemma restore_sameOutside (r : LinkReference) (body : List Char) :
    SameOutside [r] body (r.restore body) := by
  rcases restore_cases r body with hsame | ⟨first, last, window, hrange, hwindow, hsize, hrestore⟩
  · rw [hsame]
    exact ⟨rfl, fun i _ => rfl⟩
  · obtain ⟨hle, hbody, hbefore, hinside⟩ := Text.window?_eq_some_iff.mp hwindow
    have hlength : (bytes window.before).length = first := by rw [length_bytes, hbefore]
    rw [hrestore, hbody]
    constructor
    · simp only [Text.byteLength_append]
      omega
    · intro i hi
      have hout : ¬(first ≤ i ∧ i < last) := fun h =>
        hi r List.mem_cons_self ⟨first, last, hrange, h.1, h.2⟩
      simp only [bytes_append, List.append_assoc]
      rcases Nat.lt_or_ge i first with hlt | hge
      · rw [List.getElem?_append_left (by omega), List.getElem?_append_left (by omega)]
      · have hlast : last ≤ i := by
          by_contra hlt
          exact hout ⟨hge, Nat.lt_of_not_le hlt⟩
        have hnew : (bytes r.placeholder.toList).length = last - first := by
          rw [length_bytes, hsize]
        have hold : (bytes window.inside).length = last - first := by
          rw [length_bytes, hinside]
        rw [List.getElem?_append_right (by omega), List.getElem?_append_right (by omega),
          List.getElem?_append_right (by omega), List.getElem?_append_right (by omega), hnew, hold]

/-- What one reference leaves alone, any number of them leave alone. -/
lemma restoreAll_sameOutside (references : List LinkReference) (body : List Char) :
    SameOutside references body (references.foldl (fun body r => r.restore body) body) := by
  induction references generalizing body with
  | nil => exact ⟨rfl, fun i _ => rfl⟩
  | cons r rest ih =>
    have hfirst := restore_sameOutside r body
    have hrest := ih (r.restore body)
    rw [List.foldl_cons]
    refine ⟨hrest.size.trans hfirst.size, fun i hi => ?_⟩
    rw [hrest.outside i fun q hq => hi q (List.mem_cons_of_mem r hq)]
    exact hfirst.outside i fun q hq => List.mem_singleton.mp hq ▸ hi r List.mem_cons_self

/-- The number of bytes of the marker that a bytecode may start with. -/
def markerSize (bytecode : String) : Nat :=
  if startsWith marker bytecode.toList then 2 else 0

/-- A bytecode has as many bytes as another, the marker of the other, and the same bytes outside the
ranges of some references, which are counted behind the marker. -/
structure UnlinkedFrom (references : List LinkReference) (bytecode result : String) : Prop where
  size : result.utf8ByteSize = bytecode.utf8ByteSize
  marked : startsWith marker bytecode.toList → startsWith marker result.toList
  outside : ∀ i, (∀ r ∈ references, ¬r.Reaches i) →
    result.toUTF8.data.toList[markerSize bytecode + i]? =
      bytecode.toUTF8.data.toList[markerSize bytecode + i]?

/-- The text of a bytecode behind its marker is all that unlinking works on. -/
lemma exists_lead (bytecode : String) : ∃ lead body, bytecode = String.ofList (lead ++ body) ∧
    byteLength lead = markerSize bytecode ∧
    (startsWith marker bytecode.toList → lead = marker) ∧
    ∀ references, Link.unlink bytecode references =
      String.ofList (lead ++ references.foldl (fun body r => r.restore body) body) := by
  by_cases hmarked : startsWith marker bytecode.toList
  · obtain ⟨body, hbody⟩ := Text.startsWith_iff.mp hmarked
    obtain rfl : bytecode = String.ofList (marker ++ body) := by
      rw [← hbody, String.ofList_toList]
    refine ⟨marker, body, rfl, ?_, fun _ => rfl, unlink_marked body⟩
    rw [markerSize, if_pos hmarked]
    rfl
  · refine ⟨[], bytecode.toList, by simp, ?_, fun h => absurd h hmarked, fun references => ?_⟩
    · rw [markerSize, if_neg hmarked]
      rfl
    · rw [List.nil_append, ← unlink_of_unmarked hmarked, String.ofList_toList]

lemma unlink_unlinkedFrom (bytecode : String) (references : List LinkReference) :
    UnlinkedFrom references bytecode (Link.unlink bytecode references) := by
  obtain ⟨lead, body, hbytecode, hlead, hmarker, hunlink⟩ := exists_lead bytecode
  have hsame := restoreAll_sameOutside references body
  refine ⟨?_, fun hmarked => ?_, fun i hi => ?_⟩
  · rw [hunlink, hbytecode, utf8ByteSize_ofList, utf8ByteSize_ofList, Text.byteLength_append,
      Text.byteLength_append, hsame.size]
  · rw [hunlink, String.toList_ofList, hmarker hmarked]
    exact Text.startsWith_iff.mpr ⟨_, rfl⟩
  · rw [← hlead, hunlink, hbytecode, toUTF8_ofList, toUTF8_ofList, bytes_append, bytes_append,
      ← length_bytes, List.getElem?_append_right (Nat.le_add_right _ _),
      List.getElem?_append_right (Nat.le_add_right _ _), Nat.add_sub_cancel_left]
    exact hsame.outside i hi

end Proofs

end UpgradeAudit
