import Mathlib.Data.List.Infix
import UpgradeAudit.Storage.TypeName

/-!
# Type identifiers without pointer marks

A replacement goes over a text from left to right, and what it puts in may run together with what
stands around it. For a mark behind a word this cannot happen as long as no end of the marked word
begins the word, or is begun by it (`Detachable`): occurrences then never overlap, so that the mark
may be taken off part by part, and one that is left has stood behind another mark. Texts without two
marks in a row therefore have a normal form, which is the same whether or not a mark stood at any
one place.
-/

namespace UpgradeAudit

namespace Text

/-- A text and what it becomes if each occurrence of a piece is replaced, from left to right. -/
inductive Replaced (piece new : List Char) : List Char → List Char → Prop
  | nil : Replaced piece new [] []
  | replace {rest result : List Char} (h : Replaced piece new rest result) :
      Replaced piece new (piece ++ rest) (new ++ result)
  | keep {c : Char} {rest result : List Char} (hc : ¬piece <+: c :: rest)
      (h : Replaced piece new rest result) : Replaced piece new (c :: rest) (c :: result)

/-- No end of a word but the empty one begins another text or is begun by it. -/
def Apart (word other : List Char) : Prop :=
  ∀ tail ∈ word.tails, tail ≠ [] → ¬tail <+: other ∧ ¬other <+: tail

instance (word other : List Char) : Decidable (Apart word other) :=
  inferInstanceAs (Decidable (∀ tail ∈ word.tails, _))

section Apart

variable {word other tail text : List Char}

/-- An end of a word and a text apart from the word do not begin at one place. -/
lemma Apart.not_isPrefix (h : Apart word other) (htail : tail <:+ word) (hne : tail ≠ [])
    (hother : other <+: text) : ¬tail <+: text := by
  intro hbegins
  obtain ⟨hleft, hright⟩ := h tail ((List.mem_tails tail word).mpr htail) hne
  have hnested := List.prefix_or_prefix_of_prefix hbegins hother
  exact hnested.elim hleft hright

lemma Apart.of_suffix (h : Apart word other) (hsuffix : tail <:+ word) : Apart tail other := by
  intro shorter hshorter
  refine h shorter ((List.mem_tails shorter word).mpr ?_)
  exact ((List.mem_tails shorter tail).mp hshorter).trans hsuffix

end Apart

/-- Of a word, a mark and the word with the mark, none overlaps another, but that the word with the
mark begins with the word. -/
structure Detachable (word mark : List Char) : Prop where
  word_ne_nil : word ≠ []
  marked_apart : Apart (word ++ mark).tail word
  word_apart : Apart word.tail (word ++ mark)
  marks_apart : Apart (mark ++ mark) word
  apart_marks : Apart word (mark ++ mark)

end Text

namespace Proofs

open Text (Apart Detachable Replaced dropTail replaceAll replaceFrom)

section Replacement

variable {d : Char} {piece new rest text result : List Char}

lemma replaceFrom_drop (c : Char) (piece new : List Char) (skip : Nat) (text : List Char) :
    replaceFrom c piece new skip text = replaceFrom c piece new 0 (text.drop skip) := by
  induction text generalizing skip with
  | nil => simp [replaceFrom]
  | cons d rest ih =>
    cases skip with
    | zero => rfl
    | succ skip => rw [replaceFrom, ih, List.drop_succ_cons]

lemma replaceAll_append (hpiece : piece ≠ []) (rest : List Char) :
    replaceAll piece new (piece ++ rest) = new ++ replaceAll piece new rest := by
  obtain ⟨c, piece, rfl⟩ := List.exists_cons_of_ne_nil hpiece
  have hstarts : c = c ∧ Text.startsWith piece (piece ++ rest) :=
    ⟨rfl, Text.startsWith_iff.mpr ⟨rest, rfl⟩⟩
  rw [replaceAll, List.cons_append, replaceFrom, if_pos hstarts, replaceFrom_drop,
    List.drop_left, replaceAll]

lemma replaceAll_cons (hpiece : piece ≠ []) (h : ¬piece <+: d :: rest) :
    replaceAll piece new (d :: rest) = d :: replaceAll piece new rest := by
  obtain ⟨c, piece, rfl⟩ := List.exists_cons_of_ne_nil hpiece
  rw [replaceAll, replaceFrom, if_neg, replaceAll]
  rintro ⟨rfl, hstarts⟩
  obtain ⟨behind, rfl⟩ := Text.startsWith_iff.mp hstarts
  exact h (List.prefix_append (d :: piece) behind)

lemma replaced_replaceAll (hpiece : piece ≠ []) (text : List Char) :
    Replaced piece new text (replaceAll piece new text) := by
  -- a replacement goes on behind the piece, so the induction is on the length
  induction hlength : text.length using Nat.strongRecOn generalizing text with
  | ind n ih =>
    by_cases hfound : piece <+: text
    · obtain ⟨rest, rfl⟩ := hfound
      have hshorter : rest.length < n := by
        have hpos := List.length_pos_iff.mpr hpiece
        rw [List.length_append] at hlength
        omega
      rw [replaceAll_append hpiece]
      exact .replace (ih _ hshorter rest rfl)
    · cases text with
      | nil =>
        obtain ⟨c, piece, rfl⟩ := List.exists_cons_of_ne_nil hpiece
        exact .nil
      | cons d rest =>
        rw [replaceAll_cons hpiece hfound]
        exact .keep hfound (ih _ (by rw [← hlength, List.length_cons]; omega) rest rfl)

lemma replaceAll_eq_iff (hpiece : piece ≠ []) :
    replaceAll piece new text = result ↔ Replaced piece new text result := by
  constructor
  · rintro rfl
    exact replaced_replaceAll hpiece text
  · intro h
    induction h with
    | nil =>
      obtain ⟨c, piece, rfl⟩ := List.exists_cons_of_ne_nil hpiece
      rfl
    | replace _ ih => rw [replaceAll_append hpiece, ih]
    | keep hc _ ih => rw [replaceAll_cons hpiece hc, ih]

lemma replaced_self (h : ¬piece <:+: text) : Replaced piece new text text := by
  induction text with
  | nil => exact .nil
  | cons c rest ih =>
    rw [List.infix_cons_iff, not_or] at h
    exact .keep h.1 (ih h.2)

/-- Two parts can be replaced on their own if no occurrence of the piece lies across their seam. -/
lemma replaced_append {front back front' back' : List Char}
    (hfront : Replaced piece new front front') (hback : Replaced piece new back back')
    (hseam : ∀ left right, piece = left ++ right → left ≠ [] → right ≠ [] → left <:+ front →
      ¬right <+: back) : Replaced piece new (front ++ back) (front' ++ back') := by
  induction hfront with
  | nil => exact hback
  | @replace rest result _ ih =>
    rw [List.append_assoc, List.append_assoc]
    refine .replace (ih fun left right hsplit hleft hright hsuffix => ?_)
    exact hseam left right hsplit hleft hright (hsuffix.trans (List.suffix_append _ _))
  | @keep c rest result hc _ ih =>
    refine .keep (fun hfound => ?_) (ih fun left right hsplit hleft hright hsuffix => ?_)
    · change piece <+: (c :: rest) ++ back at hfound
      -- the occurrence is longer than the part in front, so it lies across the seam
      rcases List.prefix_or_prefix_of_prefix hfound (List.prefix_append (c :: rest) back) with
        hshort | ⟨right, hsplit⟩
      · exact hc hshort
      · rw [← hsplit, List.prefix_append_right_inj] at hfound
        by_cases hright : right = []
        · rw [hright, List.append_nil] at hsplit
          exact hc (hsplit ▸ List.prefix_rfl)
        · exact hseam _ right hsplit.symm (List.cons_ne_nil c rest) hright List.suffix_rfl hfound
    · exact hseam left right hsplit hleft hright (hsuffix.trans (List.suffix_cons c rest))

end Replacement

section Overlaps

variable {piece new word text result : List Char}

/-- A word apart from what is put in begins the result only where it began the text. -/
lemma prefix_of_replaced (h : Replaced piece new text result) (hword : Apart word new)
    (hbegins : word <+: result) : word <+: text := by
  induction h generalizing word with
  | nil => exact hbegins
  | @replace rest result _ _ =>
    by_cases hne : word = []
    · exact hne ▸ List.nil_prefix
    · exact absurd hbegins (hword.not_isPrefix List.suffix_rfl hne (List.prefix_append new result))
  | @keep c rest result _ _ ih =>
    rcases List.prefix_cons_iff.mp hbegins with rfl | ⟨behind, rfl, hbehind⟩
    · exact List.nil_prefix
    · have hapart : Apart behind new := hword.of_suffix (List.suffix_cons c behind)
      exact List.cons_prefix_cons.mpr ⟨rfl, ih hapart hbehind⟩

/-- What occurs in two parts together occurs in the second, or begins at an end of the first. -/
lemma exists_prefix_of_infix_append {front back : List Char} (h : word <:+: front ++ back) :
    word <:+: back ∨ ∃ tail, tail <:+ front ∧ tail ≠ [] ∧ word <+: tail ++ back := by
  induction front with
  | nil => exact .inl h
  | cons c front ih =>
    rcases List.infix_cons_iff.mp h with hbegins | hoccurs
    · exact .inr ⟨c :: front, List.suffix_rfl, List.cons_ne_nil c front, hbegins⟩
    · rcases ih hoccurs with hback | ⟨tail, hsuffix, hne, hbegins⟩
      · exact .inl hback
      · exact .inr ⟨tail, hsuffix.trans (List.suffix_cons c front), hne, hbegins⟩

lemma infix_of_replaced (h : Replaced piece new text result) (hword : Apart word new)
    (hnew : Apart new word) (hoccurs : word <:+: result) : word <:+: text := by
  induction h with
  | nil => exact hoccurs
  | @replace rest result _ ih =>
    rcases exists_prefix_of_infix_append hoccurs with hrest | ⟨tail, hsuffix, hne, hbegins⟩
    · exact (ih hrest).trans (List.suffix_append piece rest).isInfix
    · exact absurd (List.prefix_append tail result) (hnew.not_isPrefix hsuffix hne hbegins)
  | @keep c rest result hc h ih =>
    rcases List.infix_cons_iff.mp hoccurs with hbegins | hrest
    · exact (prefix_of_replaced (.keep hc h) hword hbegins).isInfix
    · exact (ih hrest).trans (List.suffix_cons c rest).isInfix

end Overlaps

lemma dropTail_cases (tail text : List Char) :
    text = dropTail tail text ++ tail ∨ ¬tail <:+ text ∧ dropTail tail text = text := by
  unfold Text.dropTail Text.dropLead
  cases hlead : Text.afterLead? tail.reverse text.reverse with
  | none =>
    refine .inr ⟨?_, List.reverse_reverse text⟩
    rintro ⟨front, rfl⟩
    rw [List.reverse_append, Text.afterLead?_eq_some_iff.mpr rfl] at hlead
    cases hlead
  | some rest =>
    left
    have htext := congrArg List.reverse (Text.afterLead?_eq_some_iff.mp hlead)
    simpa using htext

lemma dropTail_isPrefix (tail text : List Char) : dropTail tail text <+: text := by
  rcases dropTail_cases tail text with hdropped | ⟨-, hdropped⟩
  · exact ⟨tail, hdropped.symm⟩
  · exact ⟨[], (List.append_nil _).trans hdropped⟩

section Marks

variable {word mark text result front front' back back' : List Char}
variable (h : Detachable word mark)

include h

lemma tail_eq_or_suffix_tail {tail : List Char} (hsuffix : tail <:+ word) :
    tail = word ∨ tail <:+ word.tail := by
  obtain ⟨c, rest, rfl⟩ := List.exists_cons_of_ne_nil h.word_ne_nil
  exact List.suffix_cons_iff.mp hsuffix

lemma mark_apart : Apart mark word := by
  refine h.marked_apart.of_suffix ?_
  rw [List.tail_append_of_ne_nil h.word_ne_nil]
  exact List.suffix_append word.tail mark

lemma marked_ne_nil : word ++ mark ≠ [] := by
  simp [h.word_ne_nil]

/-- A mark that is left behind the word stood behind another one. -/
lemma marks_of_marked (hreplaced : Replaced (word ++ mark) word text result)
    (hoccurs : word ++ mark <:+: result) : word ++ mark ++ mark <:+: text := by
  induction hreplaced with
  | nil => exact absurd (List.infix_nil.mp hoccurs) (marked_ne_nil h)
  | @replace rest result hrest ih =>
    rcases exists_prefix_of_infix_append hoccurs with hoccurs | ⟨tail, hsuffix, hne, hbegins⟩
    · exact (ih hoccurs).trans (List.suffix_append _ rest).isInfix
    · rcases tail_eq_or_suffix_tail h hsuffix with rfl | hsuffix
      · have hmark : mark <+: rest := by
          rw [List.prefix_append_right_inj] at hbegins
          exact prefix_of_replaced hrest (mark_apart h) hbegins
        exact ((List.prefix_append_right_inj _).mpr hmark).isInfix
      · exact absurd (List.prefix_append tail result)
          (h.word_apart.not_isPrefix hsuffix hne hbegins)
  | @keep c rest result hc hrest ih =>
    rcases List.infix_cons_iff.mp hoccurs with hbegins | hoccurs
    · obtain ⟨behind, hmarked, hbehind⟩ :=
        (List.prefix_cons_iff.mp hbegins).resolve_left (marked_ne_nil h)
      have hapart : Apart behind word := by
        have hbehind := h.marked_apart
        rwa [hmarked] at hbehind
      rw [hmarked] at hc
      exact absurd (List.cons_prefix_cons.mpr ⟨rfl, prefix_of_replaced hrest hapart hbehind⟩) hc
    · exact (ih hoccurs).trans (List.suffix_cons c rest).isInfix

/-- Nothing in front of the word reaches into it. -/
lemma replaced_before_word (hfront : Replaced (word ++ mark) word front front')
    (hback : Replaced (word ++ mark) word back back') (hword : word <+: back) :
    Replaced (word ++ mark) word (front ++ back) (front' ++ back') := by
  refine replaced_append hfront hback fun left right hsplit hleft hright _ => ?_
  refine h.marked_apart.not_isPrefix ?_ hright hword
  rw [hsplit, List.tail_append_of_ne_nil hleft]
  exact List.suffix_append left.tail right

lemma replaced_marked (hfront : Replaced (word ++ mark) word front front')
    (hback : Replaced (word ++ mark) word back back') :
    Replaced (word ++ mark) word (front ++ (word ++ mark ++ back)) (front' ++ (word ++ back')) := by
  refine replaced_before_word h hfront (.replace hback) ?_
  rw [List.append_assoc]
  exact List.prefix_append word (mark ++ back)

lemma replaced_unmarked (hfront : Replaced (word ++ mark) word front front')
    (hback : Replaced (word ++ mark) word back back') (hmark : ¬mark <+: back) :
    Replaced (word ++ mark) word (front ++ (word ++ back)) (front' ++ (word ++ back')) := by
  refine replaced_before_word h hfront ?_ (List.prefix_append word back)
  have hne : mark ≠ [] := fun hnil => hmark (hnil ▸ List.nil_prefix)
  have hself : ¬word ++ mark <:+: word := by
    intro hoccurs
    have hle := hoccurs.length_le
    have hpos := List.length_pos_iff.mpr hne
    rw [List.length_append] at hle
    omega
  refine replaced_append (replaced_self hself) hback fun left right hsplit hleft _ hsuffix => ?_
  rcases tail_eq_or_suffix_tail h hsuffix with rfl | hsuffix
  · rwa [← List.append_cancel_left hsplit]
  · refine absurd (hsplit ▸ List.prefix_append left right) ?_
    exact h.word_apart.not_isPrefix hsuffix hleft List.prefix_rfl

lemma not_marked_of_once (hreplaced : Replaced (word ++ mark) word text result)
    (honce : ¬mark ++ mark <:+: text) : ¬word ++ mark <:+: result := by
  intro hoccurs
  have hmarks := marks_of_marked h hreplaced hoccurs
  rw [List.append_assoc] at hmarks
  exact honce ((List.suffix_append word _).isInfix.trans hmarks)

lemma not_suffix_dropTail (hreplaced : Replaced (word ++ mark) word text result)
    (honce : ¬mark ++ mark <:+: text) : ¬mark <:+ dropTail mark result := by
  rintro ⟨rest, hrest⟩
  rcases dropTail_cases mark result with hdropped | ⟨hkept, hdropped⟩
  · have hmarks : mark ++ mark <:+: result := by
      rw [hdropped, ← hrest, List.append_assoc]
      exact List.infix_append_right
    exact honce (infix_of_replaced hreplaced h.marks_apart h.apart_marks hmarks)
  · exact hkept ⟨rest, hrest.trans hdropped⟩

end Marks

section Identifiers

open Storage (normalizeType pointer storagePointer storageValue)

lemma storagePointer_eq : storagePointer = storageValue ++ pointer := by decide +kernel

lemma pointers_eq : pointer ++ pointer = "_ptr_ptr".toList := by decide +kernel

lemma detachable_pointer : Detachable storageValue pointer where
  word_ne_nil := by decide +kernel
  marked_apart := by decide +kernel
  word_apart := by decide +kernel
  marks_apart := by decide +kernel
  apart_marks := by decide +kernel

lemma storagePointer_ne_nil : storagePointer ≠ [] :=
  storagePointer_eq ▸ marked_ne_nil detachable_pointer

lemma exists_replaced (text : List Char) :
    ∃ result, Replaced storagePointer storageValue text result :=
  ⟨_, replaced_replaceAll storagePointer_ne_nil text⟩

lemma toList_normalizeType {identifier : String} {result : List Char}
    (h : Replaced storagePointer storageValue identifier.toList result) :
    (normalizeType identifier).toList = dropTail pointer result := by
  rw [normalizeType, (replaceAll_eq_iff storagePointer_ne_nil).mpr h, String.toList_ofList]

/-- A text without two marks in a row loses all that can be taken off at once. -/
lemma normalizeType_isNormal {identifier : String}
    (honce : ¬pointer ++ pointer <:+: identifier.toList) :
    ¬storagePointer <:+: (normalizeType identifier).toList ∧
      ¬pointer <:+ (normalizeType identifier).toList := by
  obtain ⟨result, hresult⟩ := exists_replaced identifier.toList
  rw [toList_normalizeType hresult]
  rw [storagePointer_eq] at hresult ⊢
  refine ⟨fun hoccurs => ?_, not_suffix_dropTail detachable_pointer hresult honce⟩
  exact not_marked_of_once detachable_pointer hresult honce
    (hoccurs.trans (dropTail_isPrefix pointer result).isInfix)

lemma normalizeType_of_isNormal {identifier : String}
    (hmarked : ¬storagePointer <:+: identifier.toList) (htail : ¬pointer <:+ identifier.toList) :
    normalizeType identifier = identifier := by
  rw [← String.toList_inj, toList_normalizeType (replaced_self hmarked)]
  rcases dropTail_cases pointer identifier.toList with hdropped | ⟨-, hdropped⟩
  · exact absurd (hdropped ▸ List.suffix_append _ _) htail
  · exact hdropped

/-- A type identifier without two pointer marks in a row has the same normal form with and without
the mark behind any one `_storage` of it. The normal form is what is left of the two parts around it
when they lose their own marks, but for a mark at the very end; no mark is left in it to take
off. -/
theorem normalizeType_ignores_mark (p q : String)
    (h : ¬"_ptr_ptr".toList <:+: (p ++ "_storage_ptr" ++ q).toList) :
    ∃ r, normalizeType (p ++ "_storage_ptr" ++ q) = r ∧ normalizeType (p ++ "_storage" ++ q) = r ∧
      ¬"_storage_ptr".toList <:+: r.toList ∧ ¬"_ptr".toList <:+ r.toList ∧ normalizeType r = r ∧
      ∃ front back, Replaced storagePointer storageValue p.toList front ∧
        Replaced storagePointer storageValue q.toList back ∧
        (front ++ (storageValue ++ back) = r.toList ++ pointer ∨
          front ++ (storageValue ++ back) = r.toList) := by
  have hmarked : (p ++ "_storage_ptr" ++ q).toList =
      p.toList ++ (storageValue ++ pointer ++ q.toList) := by
    rw [String.toList_append, String.toList_append, List.append_assoc, ← storagePointer_eq]
    rfl
  have hplain : (p ++ "_storage" ++ q).toList = p.toList ++ (storageValue ++ q.toList) := by
    rw [String.toList_append, String.toList_append, List.append_assoc]
    rfl
  rw [← pointers_eq] at h
  have hmark : ¬pointer <+: q.toList := by
    rintro ⟨rest, hrest⟩
    refine h ⟨p.toList ++ storageValue, rest, ?_⟩
    rw [hmarked, ← hrest]
    simp only [List.append_assoc]
  obtain ⟨front, hfront⟩ := exists_replaced p.toList
  obtain ⟨back, hback⟩ := exists_replaced q.toList
  have hfirst : Replaced storagePointer storageValue (p ++ "_storage_ptr" ++ q).toList
      (front ++ (storageValue ++ back)) := by
    rw [storagePointer_eq] at hfront hback ⊢
    exact hmarked ▸ replaced_marked detachable_pointer hfront hback
  have hsecond : Replaced storagePointer storageValue (p ++ "_storage" ++ q).toList
      (front ++ (storageValue ++ back)) := by
    rw [storagePointer_eq] at hfront hback ⊢
    exact hplain ▸ replaced_unmarked detachable_pointer hfront hback hmark
  have hsame : normalizeType (p ++ "_storage" ++ q) = normalizeType (p ++ "_storage_ptr" ++ q) := by
    rw [← String.toList_inj, toList_normalizeType hfirst, toList_normalizeType hsecond]
  obtain ⟨hnormal, htail⟩ := normalizeType_isNormal h
  refine ⟨_, rfl, hsame, hnormal, htail, normalizeType_of_isNormal hnormal htail, front, back,
    hfront, hback, ?_⟩
  rw [toList_normalizeType hfirst]
  exact (dropTail_cases pointer (front ++ (storageValue ++ back))).imp id fun hdropped =>
    hdropped.2.symm

/-- The key of the mapping is marked as well, and the whole identifier ends in a mark of its own. -/
theorem bytesMapping_ignores_mark :
    ∃ r, normalizeType ("t_mapping$_t_bytes_storage_ptr_$_t_S" ++ "_storage_ptr" ++ "_$_ptr") = r ∧
      normalizeType ("t_mapping$_t_bytes_storage_ptr_$_t_S" ++ "_storage" ++ "_$_ptr") = r ∧
      normalizeType r = r ∧ r = "t_mapping$_t_bytes_storage_$_t_S_storage_$" := by
  obtain ⟨r, hfirst, hsecond, -, -, hnormal, -⟩ :=
    normalizeType_ignores_mark "t_mapping$_t_bytes_storage_ptr_$_t_S" "_$_ptr" (by decide +kernel)
  refine ⟨r, hfirst, hsecond, hnormal, ?_⟩
  rw [← hfirst]
  decide +kernel

/-- Of two marks in a row only one is taken off. -/
example : normalizeType "t_storage_ptr_ptr_$" = "t_storage_ptr_$" := by decide +kernel

end Identifiers

end Proofs

end UpgradeAudit
