import Mathlib.Data.List.Basic
import Mathlib.Data.List.TakeDrop
import Mathlib.Tactic.SplitIfs
import UpgradeAudit.Json.Reader
import UpgradeAudit.Json.Writer

/-!
# Reading what was written

The compact text of a tree is read back as the same tree, whatever stands behind it. The reader goes
down the text with fuel, and two units of fuel for each character are enough: this is proved once
for values, items and members together, by induction on the fuel (`ReadsBack`).
-/

namespace UpgradeAudit

open Json

/-- A member of an object under the pieces of its name. -/
def Json.writtenMember (member : String × Tree) : List Piece × Tree :=
  (piecesOf member.1, member.2)

/-- Trees whose numbers are natural and whose strings hold whole characters only. -/
inductive Json.Tree.Plain : Tree → Prop
  | null : Plain .null
  | bool (value : Bool) : Plain (.bool value)
  | number (n : Nat) : Plain (.number (Number.ofNat n))
  | string (text : String) : Plain (.string (piecesOf text))
  | array {items : List Tree} (h : ∀ item ∈ items, Plain item) : Plain (.array items)
  | object {members : List (String × Tree)} (h : ∀ member ∈ members, Plain member.2) :
      Plain (.object (members.map writtenMember))

namespace Proofs

section Strings

lemma escapedPiece?_control {c : Char} (h : c.toNat < 0x20) :
    escapedPiece? '0' '0' (Text.hexDigit (c.toNat / 16)) (Text.hexDigit (c.toNat % 16)) =
      some (.char c) := by
  have hall : ∀ n < 0x20, escapedPiece? '0' '0' (Text.hexDigit (n / 16)) (Text.hexDigit (n % 16)) =
      some (.char (Char.ofNat n)) := by decide
  rw [hall c.toNat h, Char.ofNat_toNat]

lemma readPieces_escaped (read : List Piece) {letter c : Char} (rest : List Char)
    (hletter : letter ≠ 'u') (hc : escapedChar? letter = some c) :
    readPieces read ('\\' :: letter :: rest) = readPieces (.char c :: read) rest := by
  rw [readPieces]
  · rw [hc]
  · intro _ _ _ _ _ hu
    exact absurd hu hletter

/-- However a character is written, it is one piece to the reader. -/
lemma readPieces_writtenChar (read : List Piece) (c : Char) (rest : List Char) :
    readPieces read (writtenChar c ++ rest) = readPieces (.char c :: read) rest := by
  unfold writtenChar
  split_ifs with hquote hbackslash hb ht hn hf hr hcontrol
  · subst hquote
    exact readPieces_escaped read rest (by decide) rfl
  · subst hbackslash
    exact readPieces_escaped read rest (by decide) rfl
  · subst hb
    exact readPieces_escaped read rest (by decide) rfl
  · subst ht
    exact readPieces_escaped read rest (by decide) rfl
  · subst hn
    exact readPieces_escaped read rest (by decide) rfl
  · subst hf
    exact readPieces_escaped read rest (by decide) rfl
  · subst hr
    exact readPieces_escaped read rest (by decide) rfl
  · simp [readPieces, escapedPiece?_control hcontrol]
  · rw [List.singleton_append, readPieces]
    · simp [hbackslash, hcontrol]
    all_goals simp_all

lemma readPieces_written (text : List Char) (read : List Piece) (rest : List Char) :
    readPieces read ((text.map Piece.char).flatMap writtenPiece ++ '"' :: rest) =
      some (read.reverse ++ text.map Piece.char, rest) := by
  induction text generalizing read with
  | nil => simp [readPieces]
  | cons c text ih =>
    have hpiece : writtenPiece (.char c) = writtenChar c := rfl
    rw [List.map_cons, List.flatMap_cons, hpiece, List.append_assoc, readPieces_writtenChar, ih]
    simp

lemma writeString_append (pieces : List Piece) (rest : List Char) :
    writeString pieces ++ rest = '"' :: (pieces.flatMap writtenPiece ++ '"' :: rest) := by
  simp [writeString]

lemma readName_writeString (name : String) (rest : List Char) :
    readName (writeString (piecesOf name) ++ ':' :: rest) = some (piecesOf name, rest) := by
  have hblanks : ∀ text : List Char, skipBlanks ('"' :: text) = '"' :: text := fun text => rfl
  have hpieces := readPieces_written name.toList [] (':' :: rest)
  have hcolon : skipBlanks (':' :: rest) = ':' :: rest := rfl
  rw [writeString_append, readName, hblanks]
  simp only [piecesOf, hpieces, List.reverse_nil, List.nil_append, Option.bind_eq_bind,
    Option.bind_some, hcolon]

end Strings

section Numbers

/-- What may stand behind a value: nothing, a comma or a closing bracket. -/
def Follows (rest : List Char) : Prop :=
  ∀ c ∈ rest.head?, c = ',' ∨ c = ']' ∨ c = '\x7d'

lemma Follows.elim {P : List Char → Prop} {rest : List Char} (h : Follows rest) (nil : P [])
    (comma : ∀ tail, P (',' :: tail)) (bracket : ∀ tail, P (']' :: tail))
    (brace : ∀ tail, P ('\x7d' :: tail)) : P rest := by
  cases rest with
  | nil => exact nil
  | cons c tail =>
    rcases h c rfl with rfl | rfl | rfl
    · exact comma tail
    · exact bracket tail
    · exact brace tail

lemma isDigit_of_mem_decimal {n : Nat} {c : Char} (h : c ∈ Text.decimal n) : c.isDigit :=
  Nat.isDigit_of_mem_toDigits (by decide) (by decide) h

lemma decimal_eq_cons (n : Nat) : ∃ d digits, Text.decimal n = d :: digits ∧ d.isDigit := by
  cases hdigits : Text.decimal n with
  | nil => exact absurd hdigits Nat.toDigits_ne_nil
  | cons d digits =>
    have hd : d.isDigit := isDigit_of_mem_decimal (n := n) (by simp [hdigits])
    exact ⟨d, digits, rfl, hd⟩

lemma digitsNat_decimal (n : Nat) : Number.digitsNat (Text.decimal n) = n := by
  have h := Nat.ofDigitChars_ten_toDigits (n := n)
  rwa [Nat.ofDigitChars_eq_foldl] at h

/-- Only zero is written with a zero in front. -/
lemma head?_decimal_ne {n : Nat} (h : 0 < n) : (Text.decimal n).head? ≠ some '0' := by
  unfold Text.decimal
  induction n using Nat.strongRecOn with
  | ind n ih =>
    by_cases hn : n < 10
    · rw [Nat.toDigits_of_lt_base hn, List.head?_cons, Ne, Option.some.injEq,
        Nat.digitChar_eq_zero]
      omega
    · rw [Nat.toDigits_of_base_le (by decide) (by omega),
        List.head?_append_of_ne_nil _ Nat.toDigits_ne_nil]
      exact ih (n / 10) (by omega) (by omega)

lemma readDigits_decimal (n : Nat) {rest : List Char} (h : Follows rest) :
    readDigits (Text.decimal n ++ rest) = some (Text.decimal n, rest) := by
  have hdigits : ∀ c ∈ Text.decimal n, c.isDigit := fun c hc => isDigit_of_mem_decimal hc
  have hrest : rest.takeWhile Char.isDigit = [] ∧ rest.dropWhile Char.isDigit = rest := by
    apply h.elim
    all_goals intros
    all_goals exact ⟨rfl, rfl⟩
  obtain ⟨d, digits, hcons, -⟩ := decimal_eq_cons n
  unfold readDigits
  rw [List.span_eq_takeWhile_dropWhile, List.takeWhile_append_of_pos hdigits,
    List.dropWhile_append_of_pos hdigits, hrest.1, hrest.2, List.append_nil, hcons]

lemma readWhole_decimal (n : Nat) {rest : List Char} (h : Follows rest) :
    readWhole (Text.decimal n ++ rest) = some (Text.decimal n, rest) := by
  unfold readWhole
  rw [readDigits_decimal n h]
  by_cases hn : n = 0
  · subst hn
    rfl
  · have hhead := head?_decimal_ne (Nat.pos_of_ne_zero hn)
    split
    · next heq =>
      have hdecimal : Text.decimal n = '0' :: _ := (Prod.mk.inj (Option.some.inj heq)).1
      simp [hdecimal] at hhead
    · rfl

lemma writeNumber_ofNat (n : Nat) : writeNumber (Number.ofNat n) = Text.decimal n := by
  simp [writeNumber, Number.ofNat]

lemma readNumber_ofNat (n : Nat) {rest : List Char} (h : Follows rest) :
    readNumber (writeNumber (Number.ofNat n) ++ rest) = some (Number.ofNat n, rest) := by
  have hunsigned : readUnsigned false (Text.decimal n ++ rest) = some (Number.ofNat n, rest) := by
    have hfraction : readFraction rest = some (none, rest) := by
      apply h.elim
      all_goals intros
      all_goals rfl
    have hexponent : readExponent rest = some (none, rest) := by
      apply h.elim
      all_goals intros
      all_goals rfl
    unfold readUnsigned
    rw [readWhole_decimal n h]
    simp [hfraction, hexponent, Number.ofNat]
  obtain ⟨d, digits, hcons, hdigit⟩ := decimal_eq_cons n
  rw [writeNumber_ofNat, hcons, List.cons_append, readNumber]
  · rw [← List.cons_append, ← hcons, hunsigned]
  · intro tail heq
    rw [(List.cons.inj heq).1] at hdigit
    cases hdigit

end Numbers

lemma isBlank_of_isDigit {c : Char} (h : c.isDigit) : isBlank c = false := by
  have hblank : ¬isBlank c := by
    intro hblank
    simp only [isBlank, Bool.or_eq_true, decide_eq_true_eq] at hblank
    rcases hblank with ((rfl | rfl) | rfl) | rfl
    all_goals cases h
  simpa using hblank

section Reader

variable {c : Char} (tail : List Char)

lemma skipBlanks_cons (h : isBlank c = false) : skipBlanks (c :: tail) = c :: tail := by
  simp [skipBlanks, h]

lemma readTree_digit (fuel : Nat) (h : c.isDigit) :
    readTree (fuel + 1) (c :: tail) =
      (readNumber (c :: tail)).map fun parts => (.number parts.1, parts.2) := by
  have hblank : skipBlanks (c :: tail) = c :: tail := skipBlanks_cons tail (isBlank_of_isDigit h)
  rw [readTree, hblank]
  split
  iterate 6
    · next heq => exact absurd ((List.cons.inj heq).1 ▸ h) (by decide)
  · rfl

lemma readTree_string (fuel : Nat) :
    readTree (fuel + 1) ('"' :: tail) =
      (readPieces [] tail).map fun parts => (.string parts.1, parts.2) := rfl

lemma readTree_array (fuel : Nat) (hblank : isBlank c = false) (hc : c ≠ ']') :
    readTree (fuel + 1) ('[' :: c :: tail) = readItems fuel [] (c :: tail) := by
  have hskip : skipBlanks ('[' :: c :: tail) = '[' :: c :: tail := rfl
  rw [readTree, hskip]
  simp only [skipBlanks_cons tail hblank]
  split
  · next heq => exact absurd (List.cons.inj heq).1 hc
  · rfl

lemma readTree_object (fuel : Nat) :
    readTree (fuel + 1) ('\x7b' :: '"' :: tail) = readMembers fuel [] ('"' :: tail) := rfl

end Reader

section Trees

/-- A written value starts with a character that is neither a blank nor the end of an array. -/
lemma write_eq_cons {tree : Tree} (h : tree.Plain) :
    ∃ c rest, write tree = c :: rest ∧ isBlank c = false ∧ c ≠ ']' := by
  cases h with
  | null => exact ⟨_, _, rfl, rfl, by decide⟩
  | bool value => cases value <;> exact ⟨_, _, rfl, rfl, by decide⟩
  | number n =>
    obtain ⟨d, digits, hcons, hdigit⟩ := decimal_eq_cons n
    refine ⟨d, digits, by rw [write, writeNumber_ofNat, hcons], isBlank_of_isDigit hdigit, ?_⟩
    rintro rfl
    cases hdigit
  | string text => exact ⟨_, _, rfl, rfl, by decide⟩
  | @array items _ => cases items <;> exact ⟨_, _, rfl, rfl, by decide⟩
  | @object members _ => cases members <;> exact ⟨_, _, rfl, rfl, by decide⟩

lemma length_write_pos {tree : Tree} (h : tree.Plain) : 0 < (write tree).length := by
  obtain ⟨c, rest, hwrite, -⟩ := write_eq_cons h
  simp [hwrite]

lemma follows_writeItems (items : List Tree) (rest : List Char) :
    Follows (writeItems items ++ rest) := by
  cases items with
  | nil =>
    intro c hc
    exact .inr (.inl (Option.some.inj hc).symm)
  | cons item items =>
    intro c hc
    exact .inl (Option.some.inj hc).symm

lemma follows_writeMembers (members : List (List Piece × Tree)) (rest : List Char) :
    Follows (writeMembers members ++ rest) := by
  cases members with
  | nil =>
    intro c hc
    exact .inr (.inr (Option.some.inj hc).symm)
  | cons member members =>
    intro c hc
    exact .inl (Option.some.inj hc).symm

/-- With enough fuel for the characters, what was written is read back. -/
structure ReadsBack (fuel : Nat) : Prop where
  tree : ∀ tree : Tree, tree.Plain → 2 * (write tree).length ≤ fuel → ∀ rest, Follows rest →
    readTree fuel (write tree ++ rest) = some (tree, rest)
  items : ∀ (item : Tree) (items : List Tree), (∀ other ∈ item :: items, other.Plain) →
    2 * ((write item).length + (writeItems items).length) ≤ fuel → ∀ read rest,
      readItems fuel read (write item ++ (writeItems items ++ rest)) =
        some (.array (read.reverse ++ item :: items), rest)
  members : ∀ (member : String × Tree) (members : List (String × Tree)),
    (∀ other ∈ member :: members, other.2.Plain) →
    2 * ((write member.2).length + (writeMembers (members.map writtenMember)).length) ≤ fuel →
    ∀ read rest,
      readMembers fuel read (writeString (piecesOf member.1) ++ ':' ::
        (write member.2 ++ (writeMembers (members.map writtenMember) ++ rest))) =
          some (.object (read.reverse ++ (member :: members).map writtenMember), rest)

section Step

variable {fuel : Nat} (ih : ReadsBack fuel)

include ih

lemma readItems_step (item : Tree) (items : List Tree) (h : ∀ other ∈ item :: items, other.Plain)
    (hfuel : 2 * ((write item).length + (writeItems items).length) ≤ fuel + 1)
    (read : List Tree) (rest : List Char) :
    readItems (fuel + 1) read (write item ++ (writeItems items ++ rest)) =
      some (.array (read.reverse ++ item :: items), rest) := by
  have hitem : item.Plain := h item List.mem_cons_self
  have hpos : 0 < (writeItems items).length := by cases items <;> simp [writeItems]
  have hfirst := ih.tree item hitem (by omega) _ (follows_writeItems items rest)
  rw [readItems, hfirst]
  cases items with
  | nil =>
    have hend : skipBlanks (writeItems [] ++ rest) = ']' :: rest := rfl
    simp [hend]
  | cons next items =>
    have hcomma : skipBlanks (writeItems (next :: items) ++ rest) =
        ',' :: (write next ++ (writeItems items ++ rest)) := by
      simp [writeItems, skipBlanks_cons, isBlank]
    have hlength : (writeItems (next :: items)).length =
        (write next).length + (writeItems items).length + 1 := by
      simp [writeItems]
    have hothers := ih.items next items
      (fun other hother => h other (List.mem_cons_of_mem _ hother)) (by omega) (item :: read) rest
    simp [hcomma, hothers]

lemma readMembers_step (member : String × Tree) (members : List (String × Tree))
    (h : ∀ other ∈ member :: members, other.2.Plain)
    (hfuel : 2 * ((write member.2).length + (writeMembers (members.map writtenMember)).length) ≤
      fuel + 1) (read : List (List Piece × Tree)) (rest : List Char) :
    readMembers (fuel + 1) read (writeString (piecesOf member.1) ++ ':' ::
      (write member.2 ++ (writeMembers (members.map writtenMember) ++ rest))) =
        some (.object (read.reverse ++ (member :: members).map writtenMember), rest) := by
  have hmember : member.2.Plain := h member List.mem_cons_self
  have hpos : 0 < (writeMembers (members.map writtenMember)).length := by
    cases members <;> simp [writeMembers, writtenMember]
  have hfirst := ih.tree member.2 hmember (by omega) _
    (follows_writeMembers (members.map writtenMember) rest)
  rw [readMembers, readName_writeString]
  simp only [hfirst]
  cases members with
  | nil =>
    have hend : skipBlanks (writeMembers [] ++ rest) = '\x7d' :: rest := rfl
    simp [hend, writtenMember]
  | cons next members =>
    have hcomma : skipBlanks (writeMembers ((next :: members).map writtenMember) ++ rest) =
        ',' :: (writeString (piecesOf next.1) ++ ':' ::
          (write next.2 ++ (writeMembers (members.map writtenMember) ++ rest))) := by
      simp [writeMembers, writtenMember, skipBlanks_cons, isBlank]
    have hlength : (write next.2).length + (writeMembers (members.map writtenMember)).length <
        (writeMembers ((next :: members).map writtenMember)).length := by
      simp [writeMembers, writtenMember]
      omega
    have hothers := ih.members next members
      (fun other hother => h other (List.mem_cons_of_mem _ hother)) (by omega)
      (writtenMember member :: read) rest
    rw [hcomma]
    simp only [writtenMember] at hothers ⊢
    rw [hothers]
    simp [writtenMember]

lemma readTree_step {tree : Tree} (h : tree.Plain) (hfuel : 2 * (write tree).length ≤ fuel + 1)
    (rest : List Char) (hrest : Follows rest) :
    readTree (fuel + 1) (write tree ++ rest) = some (tree, rest) := by
  cases h with
  | null => rfl
  | bool value => cases value <;> rfl
  | number n =>
    have hnumber := readNumber_ofNat n hrest
    obtain ⟨d, digits, hcons, hdigit⟩ := decimal_eq_cons n
    rw [writeNumber_ofNat, hcons, List.cons_append] at hnumber
    rw [write, writeNumber_ofNat, hcons, List.cons_append, readTree_digit _ _ hdigit, hnumber]
    rfl
  | string text =>
    rw [write, writeString_append, readTree_string, piecesOf, readPieces_written]
    rfl
  | @array items hitems =>
    cases items with
    | nil => rfl
    | cons item items =>
      obtain ⟨c, tail, hwrite, hblank, hbracket⟩ := write_eq_cons (hitems item List.mem_cons_self)
      have hlength : (write item).length + (writeItems items).length <
          (write (.array (item :: items))).length := by
        simp [write]
      have hread := ih.items item items hitems (by omega) [] rest
      have htext : write (.array (item :: items)) ++ rest =
          '[' :: (write item ++ (writeItems items ++ rest)) := by simp [write]
      rw [hwrite, List.cons_append] at hread htext
      rw [htext, readTree_array _ _ hblank hbracket, hread]
      rfl
  | @object members hmembers =>
    cases members with
    | nil => rfl
    | cons member members =>
      have hlength : (write member.2).length + (writeMembers (members.map writtenMember)).length <
          (write (.object ((member :: members).map writtenMember))).length := by
        simp [write, writtenMember]
        omega
      have hread := ih.members member members hmembers (by omega) [] rest
      have htext : write (.object ((member :: members).map writtenMember)) ++ rest =
          '\x7b' :: (writeString (piecesOf member.1) ++ ':' ::
            (write member.2 ++ (writeMembers (members.map writtenMember) ++ rest))) := by
        simp [write, writtenMember]
      rw [writeString_append] at hread htext
      rw [htext, readTree_object, hread]
      rfl

end Step

lemma readsBack (fuel : Nat) : ReadsBack fuel := by
  induction fuel with
  | zero =>
    constructor
    · intro tree h hfuel
      have hpos := length_write_pos h
      omega
    · intro item items h hfuel
      have hpos := length_write_pos (h item List.mem_cons_self)
      omega
    · intro member members h hfuel
      have hpos := length_write_pos (h member List.mem_cons_self)
      omega
  | succ fuel ih =>
    exact ⟨fun tree h hfuel => readTree_step ih h hfuel, readItems_step ih, readMembers_step ih⟩

theorem parse?_render {tree : Tree} (h : tree.Plain) : parse? (render tree) = some tree := by
  have hread := (readsBack (2 * (write tree).length + 2)).tree tree h (by omega) []
    (by simp [Follows])
  rw [List.append_nil] at hread
  simp [parse?, render, hread, skipBlanks]

end Trees

end Proofs

end UpgradeAudit
