import UpgradeAudit.Link
import UpgradeAudit.Proofs.Traversal
import UpgradeAudit.Proofs.Utf8

/-!
# Taking placeholders out and putting them back

The references of a bytecode hold the texts that stand at its places. On ASCII texts a byte position
is a position in the list of characters, so that putting references back can be followed character
by character: it gives the text of the bytecode inside the places and leaves the rest alone,
whatever the order of the references and wherever their places overlap.
-/

namespace UpgradeAudit

/-- The characters of a bytecode, two for each byte, that a place takes up. -/
def LinkOffset.Covers (offset : LinkOffset) (position : Nat) : Prop :=
  2 * offset.start.toNat ≤ position ∧ position < 2 * (offset.start.toNat + offset.length.toNat)

instance (offset : LinkOffset) (position : Nat) : Decidable (offset.Covers position) :=
  inferInstanceAs (Decidable (_ ∧ _))

def LinkReference.offset (r : LinkReference) : LinkOffset :=
  ⟨r.start, r.length⟩

/-- Whether a range can be written in words, ends in a body of some bytes, and has as many bytes as
the placeholder. -/
def LinkReference.hasRoom (r : LinkReference) (size : Nat) : Bool :=
  match r.charRange? with
  | none => false
  | some (first, last) => last ≤ size && r.placeholder.utf8ByteSize == last - first

/-- The character that a reference puts at a position of a body of some size, if it has room there
and covers the position. -/
def LinkReference.writes? (r : LinkReference) (size position : Nat) : Option Char :=
  if r.hasRoom size ∧ r.offset.Covers position then
    r.placeholder.toList[position - 2 * r.start.toNat]?
  else none

namespace Proofs

open Text (byteLength isAscii)

lemma charRange?_eq_some {start length : UInt64}
    (h : 2 * (start.toNat + length.toNat) ≤ Text.maxWord) :
    Link.charRange? start length =
      some (2 * start.toNat, 2 * (start.toNat + length.toNat)) := by
  simp [Link.charRange?, h]

lemma placeholder?_eq_some_iff {object text : String} {start length : UInt64} :
    Link.placeholder? object start length = some text ↔
      2 * (start.toNat + length.toNat) ≤ Text.maxWord ∧
        ∃ before after, object.toList = before ++ text.toList ++ after ∧
          byteLength before = 2 * start.toNat ∧ byteLength text.toList = 2 * length.toNat := by
  have hsize : 2 * (start.toNat + length.toNat) - 2 * start.toNat = 2 * length.toNat := by omega
  unfold Link.placeholder?
  by_cases hword : 2 * (start.toNat + length.toNat) ≤ Text.maxWord
  · rw [charRange?_eq_some hword]
    simp only [Option.bind_eq_bind, Option.bind_some, Option.bind_eq_some_iff, Option.pure_def,
      Option.some.injEq, Text.window?_eq_some_iff, hsize, hword, true_and]
    constructor
    · rintro ⟨window, ⟨-, hobject, hbefore, hinside⟩, rfl⟩
      exact ⟨window.before, window.after, by rw [String.toList_ofList]; exact hobject, hbefore,
        by rw [String.toList_ofList]; exact hinside⟩
    · rintro ⟨before, after, hobject, hbefore, hinside⟩
      exact ⟨⟨before, text.toList, after⟩, ⟨by omega, hobject, hbefore, hinside⟩,
        String.ofList_toList⟩
  · simp [Link.charRange?, hword]

/-- A reference holds the text that stands at its place in a bytecode. -/
def TakenFrom (object : String) (r : LinkReference) : Prop :=
  Link.placeholder? object r.start r.length = some r.placeholder

lemma reference_eq_ok_iff {contract object : String} {place : String × String × LinkOffset}
    {r : LinkReference} :
    Link.reference contract object place = .ok r ↔
      r.src = place.1 ∧ r.name = place.2.1 ∧ r.offset = place.2.2 ∧ TakenFrom object r := by
  obtain ⟨src, name, start, length⟩ := place
  obtain ⟨src', name', start', length', text⟩ := r
  unfold Link.reference TakenFrom LinkReference.offset
  dsimp only
  cases hfound : Link.placeholder? object start length with
  | none =>
    simp only [reduceCtorEq, false_iff, LinkOffset.mk.injEq]
    rintro ⟨-, -, ⟨rfl, rfl⟩, htaken⟩
    rw [hfound] at htaken
    cases htaken
  | some found =>
    simp only [Except.ok.injEq, LinkReference.mk.injEq, LinkOffset.mk.injEq]
    constructor
    · rintro ⟨rfl, rfl, rfl, rfl, rfl⟩
      exact ⟨rfl, rfl, ⟨rfl, rfl⟩, hfound⟩
    · rintro ⟨rfl, rfl, ⟨rfl, rfl⟩, htaken⟩
      exact ⟨rfl, rfl, rfl, rfl, Option.some.inj (hfound.symm.trans htaken)⟩

section Extracted

variable {contract : String} {bytecode : Bytecode} {references : List LinkReference}

lemma offsets_of_extract (h : Link.extract contract bytecode = .ok references) :
    references.map LinkReference.offset = (Link.places bytecode).map fun place => place.2.2 := by
  have hall := List.Forall₂.flip (mapM_eq_ok_iff.mp h)
  rw [← List.forall₂_eq_eq_eq, List.forall₂_map_left_iff, List.forall₂_map_right_iff]
  exact hall.imp fun r place hr => (reference_eq_ok_iff.mp hr).2.2.1

lemma exists_covers_iff (h : Link.extract contract bytecode = .ok references) (position : Nat) :
    (∃ r ∈ references, r.offset.Covers position) ↔
      ∃ place ∈ Link.places bytecode, place.2.2.Covers position := by
  have hoffsets : (∃ offset ∈ references.map LinkReference.offset, offset.Covers position) ↔
      ∃ offset ∈ (Link.places bytecode).map fun place => place.2.2, offset.Covers position := by
    rw [offsets_of_extract h]
  simpa only [List.mem_map, exists_exists_and_eq_and] using hoffsets

lemma takenFrom_of_extract (h : Link.extract contract bytecode = .ok references) {r : LinkReference}
    (hr : r ∈ references) : TakenFrom bytecode.object r := by
  have hall := List.Forall₂.flip (mapM_eq_ok_iff.mp h)
  obtain ⟨place, -, hplace⟩ := exists_of_forall₂_left hall hr
  exact (reference_eq_ok_iff.mp hplace).2.2.2

end Extracted

section Ascii

variable {text : List Char}

lemma isAscii_iff : isAscii text ↔ ∀ c ∈ text, c.toNat < 128 := by
  simp [isAscii]

lemma isAscii_append_iff {others : List Char} :
    isAscii (text ++ others) ↔ isAscii text ∧ isAscii others := by
  simp [isAscii]

lemma byteLength_of_isAscii (h : isAscii text) : byteLength text = text.length := by
  induction text with
  | nil => rfl
  | cons c rest ih =>
    have hc : c.toNat < 128 := isAscii_iff.mp h c List.mem_cons_self
    have hsize : c.utf8Size = 1 := by
      rw [Char.utf8Size_eq_one_iff, UInt32.le_iff_toNat_le]
      exact Nat.le_of_lt_succ hc
    have hrest : isAscii rest := isAscii_iff.mpr fun d hd =>
      isAscii_iff.mp h d (List.mem_cons_of_mem c hd)
    rw [byteLength, List.length_cons, hsize, ih hrest, Nat.add_comm]

lemma window?_of_isAscii (h : isAscii text) {first last : Nat} (hle : first ≤ last)
    (hlast : last ≤ text.length) :
    Text.window? text first last =
      some ⟨text.take first, (text.drop first).take (last - first), text.drop last⟩ := by
  have hall : text =
      text.take first ++ (text.drop first).take (last - first) ++ text.drop last := by
    have hdrop : text.drop last = (text.drop first).drop (last - first) := by
      rw [List.drop_drop]
      congr 1
      omega
    rw [hdrop, List.append_assoc, List.take_append_drop, List.take_append_drop]
  rw [hall, isAscii_append_iff, isAscii_append_iff] at h
  rw [Text.window?_eq_some_iff]
  refine ⟨hle, hall, ?_, ?_⟩
  · rw [byteLength_of_isAscii h.1.1, List.length_take]
    omega
  · rw [byteLength_of_isAscii h.1.2, List.length_take, List.length_drop]
    omega

end Ascii

section Restore

variable {r : LinkReference} {body : List Char} {size : Nat}

lemma covers_iff {i : Nat} : r.offset.Covers i ↔
    2 * r.start.toNat ≤ i ∧ i < 2 * (r.start.toNat + r.length.toNat) :=
  Iff.rfl

/-- A reference is put back in a window that is as large as its placeholder, if at all. -/
lemma restore_cases (r : LinkReference) (body : List Char) :
    r.restore body = body ∨ ∃ first last window, r.charRange? = some (first, last) ∧
      Text.window? body first last = some window ∧
      byteLength r.placeholder.toList = last - first ∧
      r.restore body = window.before ++ r.placeholder.toList ++ window.after := by
  unfold LinkReference.restore
  cases hrange : r.charRange? with
  | none => exact .inl rfl
  | some range =>
    obtain ⟨first, last⟩ := range
    cases hwindow : Text.window? body first last with
    | none => exact .inl (by simp only [hwindow])
    | some window =>
      by_cases hsize : byteLength r.placeholder.toList = last - first
      · exact .inr ⟨first, last, window, rfl, hwindow, hsize,
          by simp only [hwindow, if_pos hsize]⟩
      · exact .inl (by simp only [hwindow, if_neg hsize])

lemma restore_of_not_hasRoom (h : ¬r.hasRoom (byteLength body)) : r.restore body = body := by
  rcases restore_cases r body with hsame | ⟨first, last, window, hrange, hwindow, hsize, -⟩
  · exact hsame
  · obtain ⟨hle, hbody, hfirst, hinside⟩ := Text.window?_eq_some_iff.mp hwindow
    have hlast : last ≤ byteLength body := by
      rw [hbody, Text.byteLength_append, Text.byteLength_append]
      omega
    refine absurd ?_ h
    rw [byteLength_toList] at hsize
    simp [LinkReference.hasRoom, hrange, hlast, hsize]

/-- A reference with room is as long as its place, which ends inside the body. -/
lemma hasRoom_iff_of_isAscii (hr : isAscii r.placeholder.toList) :
    r.hasRoom size ↔ 2 * (r.start.toNat + r.length.toNat) ≤ Text.maxWord ∧
      2 * (r.start.toNat + r.length.toNat) ≤ size ∧
      r.placeholder.toList.length = 2 * r.length.toNat := by
  have hlength : r.placeholder.utf8ByteSize = r.placeholder.toList.length := by
    rw [← byteLength_toList, byteLength_of_isAscii hr]
  have hplace : 2 * (r.start.toNat + r.length.toNat) - 2 * r.start.toNat = 2 * r.length.toNat := by
    omega
  unfold LinkReference.hasRoom LinkReference.charRange?
  by_cases hword : 2 * (r.start.toNat + r.length.toNat) ≤ Text.maxWord
  · rw [charRange?_eq_some hword]
    simp [hlength, hplace, hword]
  · simp [Link.charRange?, hword]

lemma restore_of_hasRoom (hr : isAscii r.placeholder.toList) (hbody : isAscii body)
    (hroom : r.hasRoom body.length) :
    r.restore body = body.take (2 * r.start.toNat) ++ r.placeholder.toList ++
      body.drop (2 * (r.start.toNat + r.length.toNat)) := by
  obtain ⟨hword, hlast, hlength⟩ := (hasRoom_iff_of_isAscii hr).mp hroom
  have hfirst : 2 * r.start.toNat ≤ 2 * (r.start.toNat + r.length.toNat) := by omega
  have hfits : byteLength r.placeholder.toList =
      2 * (r.start.toNat + r.length.toNat) - 2 * r.start.toNat := by
    rw [byteLength_of_isAscii hr]
    omega
  simp only [LinkReference.restore, LinkReference.charRange?, charRange?_eq_some hword,
    window?_of_isAscii hbody hfirst hlast, if_pos hfits]

lemma restore_of_no_room (hbody : isAscii body) (hroom : ¬r.hasRoom body.length) :
    r.restore body = body := by
  apply restore_of_not_hasRoom
  rwa [byteLength_of_isAscii hbody]

lemma isAscii_restore (hr : isAscii r.placeholder.toList) (hbody : isAscii body) :
    isAscii (r.restore body) := by
  by_cases hroom : r.hasRoom body.length
  · rw [restore_of_hasRoom hr hbody hroom, isAscii_append_iff, isAscii_append_iff]
    exact ⟨⟨isAscii_iff.mpr fun c hc => isAscii_iff.mp hbody c (List.mem_of_mem_take hc), hr⟩,
      isAscii_iff.mpr fun c hc => isAscii_iff.mp hbody c (List.mem_of_mem_drop hc)⟩
  · rwa [restore_of_no_room hbody hroom]

lemma length_restore (hr : isAscii r.placeholder.toList) (hbody : isAscii body) :
    (r.restore body).length = body.length := by
  by_cases hroom : r.hasRoom body.length
  · obtain ⟨-, hlast, hlength⟩ := (hasRoom_iff_of_isAscii hr).mp hroom
    rw [restore_of_hasRoom hr hbody hroom, List.length_append, List.length_append,
      List.length_take, List.length_drop]
    omega
  · rw [restore_of_no_room hbody hroom]

/-- Putting one reference back decides the positions where it writes, and no others. -/
lemma getElem?_restore (hr : isAscii r.placeholder.toList) (hbody : isAscii body) (i : Nat) :
    (r.restore body)[i]? = (r.writes? body.length i).or body[i]? := by
  unfold LinkReference.writes?
  by_cases hroom : r.hasRoom body.length
  · obtain ⟨-, hlast, hlength⟩ := (hasRoom_iff_of_isAscii hr).mp hroom
    have htake : (body.take (2 * r.start.toNat)).length = 2 * r.start.toNat := by
      rw [List.length_take]
      omega
    rw [restore_of_hasRoom hr hbody hroom]
    by_cases hcovers : r.offset.Covers i
    · obtain ⟨hfirst, hi⟩ := covers_iff.mp hcovers
      rw [if_pos ⟨hroom, hcovers⟩, List.getElem?_append_left (by rw [List.length_append]; omega),
        List.getElem?_append_right (by omega), htake, List.getElem?_eq_getElem (by omega),
        Option.some_or]
    · rw [if_neg fun h => hcovers h.2, Option.none_or]
      rcases Nat.lt_or_ge i (2 * r.start.toNat) with hlt | hge
      · rw [List.append_assoc, List.getElem?_append_left (by omega), List.getElem?_take, if_pos hlt]
      · have hbehind : 2 * (r.start.toNat + r.length.toNat) ≤ i := by
          by_contra hlt
          exact hcovers (covers_iff.mpr ⟨hge, Nat.lt_of_not_le hlt⟩)
        rw [List.getElem?_append_right (by rw [List.length_append]; omega), List.length_append,
          List.getElem?_drop]
        congr 1
        omega
  · rw [restore_of_no_room hbody hroom, if_neg fun h => hroom h.1, Option.none_or]

end Restore

/-- A text has the characters of a bytecode at some positions and those of a body at all others. -/
structure Mends (object : List Char) (covered : Nat → Prop) (body result : List Char) : Prop where
  ascii : isAscii result
  length : result.length = object.length
  inside : ∀ i, covered i → result[i]? = object[i]?
  outside : ∀ i, ¬covered i → result[i]? = body[i]?

lemma Mends.trans {object body middle result : List Char} {first second : Nat → Prop}
    (h : Mends object first body middle) (h' : Mends object second middle result) :
    Mends object (fun i => first i ∨ second i) body result := by
  refine ⟨h'.ascii, h'.length, fun i hi => ?_, fun i hi => ?_⟩
  · by_cases hsecond : second i
    · exact h'.inside i hsecond
    · rw [h'.outside i hsecond, h.inside i (hi.resolve_right hsecond)]
  · rw [not_or] at hi
    rw [h'.outside i hi.2, h.outside i hi.1]

variable {object : String} {body : List Char}

lemma TakenFrom.split {r : LinkReference} (hr : TakenFrom object r)
    (hobject : isAscii object.toList) :
    2 * (r.start.toNat + r.length.toNat) ≤ Text.maxWord ∧ isAscii r.placeholder.toList ∧
      ∃ before after, object.toList = before ++ r.placeholder.toList ++ after ∧
        before.length = 2 * r.start.toNat ∧ r.placeholder.toList.length = 2 * r.length.toNat := by
  obtain ⟨hword, before, after, hsplit, hbefore, hinside⟩ := placeholder?_eq_some_iff.mp hr
  rw [hsplit, isAscii_append_iff, isAscii_append_iff] at hobject
  rw [byteLength_of_isAscii hobject.1.1] at hbefore
  rw [byteLength_of_isAscii hobject.1.2] at hinside
  exact ⟨hword, hobject.1.2, before, after, hsplit, hbefore, hinside⟩

/-- Putting one reference back gives the text of the bytecode at its place. -/
lemma restore_mends {r : LinkReference} (hobject : isAscii object.toList) (hr : TakenFrom object r)
    (hbody : isAscii body) (hlength : body.length = object.toList.length) :
    Mends object.toList r.offset.Covers body (r.restore body) := by
  obtain ⟨hword, hascii, before, after, hsplit, hbefore, hsize⟩ := hr.split hobject
  have hroom : r.hasRoom body.length := by
    rw [hasRoom_iff_of_isAscii hascii, hlength, hsplit, List.length_append, List.length_append]
    omega
  refine ⟨isAscii_restore hascii hbody, (length_restore hascii hbody).trans hlength,
    fun i hi => ?_, fun i hi => ?_⟩
  · obtain ⟨hfirst, hlast⟩ := covers_iff.mp hi
    rw [getElem?_restore hascii hbody, LinkReference.writes?, if_pos ⟨hroom, hi⟩, hsplit,
      List.getElem?_append_left (by rw [List.length_append]; omega),
      List.getElem?_append_right (by omega), hbefore, List.getElem?_eq_getElem (by omega),
      Option.some_or]
  · rw [getElem?_restore hascii hbody, LinkReference.writes?, if_neg fun h => hi h.2,
      Option.none_or]

/-- So does putting back any number of them, however their places lie. -/
lemma restoreAll_mends {references : List LinkReference} (hobject : isAscii object.toList)
    (hreferences : ∀ r ∈ references, TakenFrom object r) (hbody : isAscii body)
    (hlength : body.length = object.toList.length) :
    Mends object.toList (fun i => ∃ r ∈ references, r.offset.Covers i) body
      (references.foldl (fun body r => r.restore body) body) := by
  induction references generalizing body with
  | nil =>
    refine ⟨hbody, hlength, fun i hi => ?_, fun i _ => rfl⟩
    obtain ⟨r, hr, -⟩ := hi
    cases hr
  | cons r rest ih =>
    have hfirst := restore_mends hobject (hreferences r List.mem_cons_self) hbody hlength
    have hrest := ih (fun q hq => hreferences q (List.mem_cons_of_mem r hq)) hfirst.ascii
      hfirst.length
    simpa only [List.mem_cons, exists_eq_or_imp, List.foldl_cons] using hfirst.trans hrest

end Proofs

end UpgradeAudit
