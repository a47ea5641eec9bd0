import UpgradeAudit.Location
import UpgradeAudit.Proofs.Traversal
import UpgradeAudit.Proofs.Utf8

/-!
# Line numbers

The line of a byte is looked up by halving in a table of the bytes at which lines start. Since the
table is increasing and each of its entries stands right behind a newline, the search comes to the
number of newlines before the byte, whatever characters the text has. Of several sources with one
number, the one with the greatest path is meant.
-/

namespace UpgradeAudit

/-- The number of newlines among the first bytes of a text. -/
def Text.newlinesAmong (size : Nat) (text : String) : Nat :=
  (text.toUTF8.data.toList.take size).count '\n'.toUInt8

/-- The source of a path has a number. -/
def Compiler.Output.Numbered (output : Compiler.Output) (number : Nat) (path : String) : Prop :=
  ∃ source, output.sources.get? path = some source ∧ source.id.toNat = number

/-- The last path in the order of bytes whose source has a number. -/
structure Compiler.Output.LastNumbered (output : Compiler.Output) (number : Nat)
    (path : String) : Prop where
  numbered : output.Numbered number path
  greatest : ∀ other, output.Numbered number other →
    other.toUTF8.data.toList ≤ path.toUTF8.data.toList

namespace Proofs

open Compiler (Input Output)
open Text (bytes lineStarts newlinesAmong)

section Lines

variable {offset size : Nat} {text : List Char}

lemma countP_lineStarts_of_le (h : size ≤ offset) :
    (lineStarts offset text).countP (fun start => start ≤ size) = 0 := by
  rw [List.countP_eq_zero]
  intro start hstart
  have hlt := Text.lt_of_mem_lineStarts hstart
  rw [decide_eq_true_eq]
  omega

lemma countP_lineStarts (offset size : Nat) (text : List Char) :
    (lineStarts offset text).countP (fun start => start ≤ offset + size) =
      ((bytes text).take size).count '\n'.toUInt8 := by
  induction text generalizing offset size with
  | nil => simp [lineStarts, bytes]
  | cons c rest ih =>
    have hbehind : (lineStarts (offset + c.utf8Size) rest).countP
        (fun start => start ≤ offset + size) =
          ((bytes rest).take (size - c.utf8Size)).count '\n'.toUInt8 := by
      rcases Nat.le_total c.utf8Size size with hle | hle
      · rw [← ih (offset + c.utf8Size), Nat.add_assoc, Nat.add_sub_cancel' hle]
      · rw [countP_lineStarts_of_le (by omega), Nat.sub_eq_zero_of_le hle]
        rfl
    rw [bytes_cons, List.take_append, List.count_append, String.length_utf8EncodeChar, ← hbehind,
      lineStarts]
    by_cases hc : c = '\n'
    · subst hc
      have hbyte : String.utf8EncodeChar '\n' = ['\n'.toUInt8] := rfl
      have hsize : '\n'.utf8Size = 1 := rfl
      rw [if_pos rfl, List.countP_cons, Nat.add_comm, hbyte, hsize]
      congr 1
      cases size with
      | zero => simp
      | succ size => simp
    · have hnone : ((String.utf8EncodeChar c).take size).count '\n'.toUInt8 = 0 := by
        rw [List.count_eq_zero]
        intro hmem
        exact hc (eq_of_mem_utf8EncodeChar (by decide) (List.mem_of_mem_take hmem))
      rw [if_neg hc, hnone, Nat.zero_add]

lemma lineOf_ofText (id : UInt32) (path : String) (text : String) (position : Nat) :
    (SourceLines.ofText id path text.toList).lineOf position =
      1 + newlinesAmong position text := by
  have hcount := countP_lineStarts 0 position text.toList
  rw [Nat.zero_add, ← toUTF8_eq_bytes] at hcount
  unfold SourceLines.lineOf newlinesAmong
  rw [← hcount, bisect_eq_countP]
  · rfl
  · refine (SourceLines.ofText id path text.toList).increasing.imp ?_
    intro a b hlt
    simp only [decide_eq_true_eq]
    omega

end Lines

section Locations

variable {src : String} {first second third : List Char} {rest : List (List Char)}
  {start number : Nat}

lemma splitOn_eq (separator : Char) (text : List Char) :
    Text.splitOn separator text = text.splitOn separator := by
  induction text with
  | nil => rfl
  | cons c rest ih =>
    rw [Text.splitOn, List.splitOn_cons_eq_if_modifyHead, ih]
    by_cases hc : c = separator
    · simp [hc]
    · cases hparts : rest.splitOn separator with
      | nil => exact absurd hparts (List.splitOn_ne_nil separator rest)
      | cons part parts => simp [hc]

lemma parse?_of_parts (hparts : src.toList.splitOn ':' = first :: second :: third :: rest)
    (hstart : Text.numeral? 10 Text.maxWord first = some start)
    (hnumber : Text.numeral? 10 Text.maxHalfWord third = some number) :
    RawLocation.parse? src = some ⟨start, UInt32.ofNat number⟩ := by
  unfold RawLocation.parse?
  rw [splitOn_eq, hparts]
  simp [hstart, hnumber]

lemma numeral?_le {base limit value : Nat} {text : List Char}
    (h : Text.numeral? base limit text = some value) : value ≤ limit := by
  unfold Text.numeral? at h
  split at h
  · cases h
  · exact of_decide_eq_true (Option.filter_eq_some_iff.mp h).2

end Locations

section Sources

variable {input : Input} {output : Output} {number : Nat}

lemma source?_ofCompilation (input : Input) (output : Output) (id : UInt32) :
    (LineIndex.ofCompilation input output).source? id =
      (output.sources.entries.findRev? fun entry => entry.2.id = id).map fun entry =>
        .ofSource input entry.1 entry.2 := by
  have hid : ∀ entry : String × Compiler.Source,
      (SourceLines.ofSource input entry.1 entry.2).id = entry.2.id := by
    intro entry
    unfold SourceLines.ofSource
    split <;> rfl
  unfold LineIndex.source? LineIndex.ofCompilation
  rw [← List.findRev?_eq_find?_reverse, findRev?_map]
  simp only [hid]

/-- A number that some source has leads to the lines of the last path with that number. -/
lemma exists_lastNumbered (input : Input) (h : ∃ path, output.Numbered number path)
    (hnumber : number ≤ Text.maxHalfWord) :
    ∃ path source, output.sources.get? path = some source ∧ output.LastNumbered number path ∧
      (LineIndex.ofCompilation input output).source? (UInt32.ofNat number) =
        some (.ofSource input path source) := by
  have hid : ∀ id : UInt32, id = UInt32.ofNat number ↔ id.toNat = number := by
    intro id
    rw [← UInt32.toNat_inj, UInt32.toNat_ofNat_of_lt' (Nat.lt_succ_of_le hnumber)]
  rw [source?_ofCompilation]
  cases hlast : output.sources.entries.findRev? fun entry => entry.2.id = UInt32.ofNat number with
  | none =>
    obtain ⟨path, source, hsource, hid'⟩ := h
    have hno := findRev?_eq_none_iff.mp hlast _ (output.sources.mem_entries_iff.mpr hsource)
    exact absurd (decide_eq_true ((hid source.id).mpr hid')) hno
  | some entry =>
    have hentry := output.sources.mem_entries_iff.mp (mem_of_findRev? hlast)
    have hholds := findRev?_holds hlast
    simp only [decide_eq_true_eq, hid] at hholds
    refine ⟨entry.1, entry.2, hentry, ⟨⟨entry.2, hentry, hholds⟩, ?_⟩, rfl⟩
    rintro other ⟨source, hsource, hother⟩
    have hsorted : output.sources.entries.Pairwise fun a b => a.1 ≤ b.1 :=
      output.sources.sorted.imp fun hlt => Std.le_of_lt hlt
    rw [toUTF8_le_iff]
    exact findRev?_greatest hsorted hlast (output.sources.mem_entries_iff.mpr hsource)
      (decide_eq_true ((hid source.id).mpr hother))

end Sources

/-- Line numbers are right. Where the location of a node has three or more parts, the first of them
a byte and the third the number of a source, the source with this number and the greatest path is
meant; and if the input has a text for this path, then the place is named by the path and by one
more than the number of newlines among the bytes of the text before that byte. -/
theorem locator_counts_newlines {input : Input} {output : Output} {node : Node} {src : String}
    {first second third : List Char} {rest : List (List Char)} {start number : Nat}
    (hsrc : Node.src? node = some src)
    (hparts : src.toList.splitOn ':' = first :: second :: third :: rest)
    (hstart : Text.numeral? 10 Text.maxWord first = some start)
    (hnumber : Text.numeral? 10 Text.maxHalfWord third = some number)
    (hsource : ∃ path, output.Numbered number path) :
    ∃ path, output.LastNumbered number path ∧
      ∀ text, input.sources.get? path = some text →
        (LineIndex.ofCompilation input output).locator node =
          path ++ ":" ++ toString (1 + newlinesAmong start text.content) := by
  obtain ⟨path, source, -, hlast, hlines⟩ :=
    exists_lastNumbered input hsource (numeral?_le hnumber)
  refine ⟨path, hlast, ?_⟩
  intro text htext
  have hsourceLines : SourceLines.ofSource input path source =
      SourceLines.ofText source.id path text.content.toList := by
    unfold SourceLines.ofSource
    rw [htext]
  have hlocate : (LineIndex.ofCompilation input output).locate? src =
      some (path ++ ":" ++ toString (1 + newlinesAmong start text.content)) := by
    unfold LineIndex.locate?
    rw [parse?_of_parts hparts hstart hnumber]
    simp only [Option.bind_eq_bind, Option.bind_some, hlines, hsourceLines, lineOf_ofText]
    rfl
  unfold LineIndex.locator rawLocator
  rw [hsrc, Option.getD_some, hlocate, Option.getD_some]

/-- Two sources with one number. -/
def twoNumberedFour : Output where
  sources := Table.ofList [("a.sol", { id := 4 }), ("b.sol", { id := 4 })]

/-- A text whose first line has nine bytes and six characters. -/
def accentedText : String := "// é€\ncontract Ü is A\n"

def accentedInput : Input where
  sources := Table.ofList [("b.sol", ⟨accentedText⟩)]

theorem accentedInput_second_line :
    (LineIndex.ofCompilation accentedInput twoNumberedFour).locator
        (.object [("src", .text "9:1:4")]) = "b.sol:2" ∧
      (LineIndex.ofCompilation accentedInput twoNumberedFour).locator
        (.object [("src", .text "8:+1:+4:0")]) = "b.sol:1" := by
  have hb : twoNumberedFour.Numbered 4 "b.sol" := ⟨_, rfl, rfl⟩
  have hpath : ∀ path, twoNumberedFour.LastNumbered 4 path → path = "b.sol" := by
    intro path hlast
    obtain ⟨source, hget, -⟩ := hlast.numbered
    have hkeys : twoNumberedFour.sources.keys = ["a.sol", "b.sol"] := by decide +kernel
    have hmem : path ∈ twoNumberedFour.sources.keys := by
      rw [Table.mem_keys_iff, hget]
      rfl
    rw [hkeys, List.mem_cons, List.mem_singleton] at hmem
    rcases hmem with rfl | rfl
    · exact absurd (toUTF8_le_iff.mp (hlast.greatest "b.sol" hb)) (by decide)
    · rfl
  have htext : accentedInput.sources.get? "b.sol" = some ⟨accentedText⟩ := rfl
  obtain ⟨path, hlast, hline⟩ := @locator_counts_newlines accentedInput twoNumberedFour
    (.object [("src", .text "9:1:4")]) "9:1:4" ['9'] ['1'] ['4'] [] 9 4 (by decide +kernel)
    (by decide +kernel) (by decide +kernel) (by decide +kernel) ⟨_, hb⟩
  obtain ⟨path', hlast', hline'⟩ := @locator_counts_newlines accentedInput twoNumberedFour
    (.object [("src", .text "8:+1:+4:0")]) "8:+1:+4:0" ['8'] ['+', '1'] ['+', '4'] [['0']] 8 4
    (by decide +kernel) (by decide +kernel) (by decide +kernel) (by decide +kernel) ⟨_, hb⟩
  obtain rfl := hpath path hlast
  obtain rfl := hpath path' hlast'
  have hnine : newlinesAmong 9 accentedText = 1 := by decide +kernel
  have height : newlinesAmong 8 accentedText = 0 := by decide +kernel
  rw [hline _ htext, hline' _ htext, hnine, height]
  exact ⟨by decide +kernel, by decide +kernel⟩

end Proofs

end UpgradeAudit
