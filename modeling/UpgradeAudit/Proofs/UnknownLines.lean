import UpgradeAudit.Proofs.LineNumbers
import UpgradeAudit.Proofs.Numerals

/-!
# Places whose line is unknown

A location that cannot be taken apart, or whose number no source has, is given back as it is. A
source whose text is not in the input is not treated as unknown: its table of lines is empty, so
every byte of it is on the first line. So all locations without a known line are given back as they
are exactly if the input has a text for each source that a number leads to.
-/

namespace UpgradeAudit

/-- The parts of a raw location. -/
def RawLocation.parts (src : String) : List (List Char) :=
  src.toList.splitOn ':'

/-- The number that a raw location gives for its source. -/
def RawLocation.GivesNumber (src : String) (number : Nat) : Prop :=
  ∃ third, (parts src)[2]? = some third ∧ Text.numeral? 10 Text.maxHalfWord third = some number

/-- No source of an output can be told from a raw location, or no byte of it. -/
inductive RawLocation.Unresolved (output : Compiler.Output) (src : String) : Prop where
  | fewParts (h : (parts src).length < 3)
  | noStart (h : ∃ first, (parts src)[0]? = some first ∧ Text.numeral? 10 Text.maxWord first = none)
  | noNumber
      (h : ∃ third, (parts src)[2]? = some third ∧ Text.numeral? 10 Text.maxHalfWord third = none)
  | noSource (h : ∃ number, GivesNumber src number ∧ ∀ path, ¬output.Numbered number path)

/-- The input has no text for the source that a raw location means. -/
def RawLocation.Textless (input : Compiler.Input) (output : Compiler.Output) (src path : String) :
    Prop :=
  ∃ number, GivesNumber src number ∧ output.LastNumbered number path ∧
    input.sources.get? path = none

/-- The line of a raw location is not known. -/
def RawLocation.NoLine (input : Compiler.Input) (output : Compiler.Output) (src : String) : Prop :=
  Unresolved output src ∨ ∃ path, Textless input output src path

namespace Proofs

open Compiler (Input Output)
open RawLocation (GivesNumber NoLine Textless Unresolved parts)

variable {input : Input} {output : Output} {src path : String} {number : Nat}

lemma lastNumbered_unique {other : String} (h : output.LastNumbered number path)
    (hother : output.LastNumbered number other) : path = other :=
  String.le_antisymm (toUTF8_le_iff.mp (hother.greatest path h.numbered))
    (toUTF8_le_iff.mp (h.greatest other hother.numbered))

lemma givesNumber_unique {other : Nat} (h : GivesNumber src number)
    (hother : GivesNumber src other) : number = other := by
  obtain ⟨third, hthird, hnumber⟩ := h
  obtain ⟨third', hthird', hother⟩ := hother
  obtain rfl : third = third' := Option.some.inj (hthird.symm.trans hthird')
  exact Option.some.inj (hnumber.symm.trans hother)

/-- A location that is taken apart has a start and a number, and has the parts for them. -/
lemma parts_of_parse? {location : RawLocation} (h : RawLocation.parse? src = some location) :
    ∃ first second third rest number, parts src = first :: second :: third :: rest ∧
      Text.numeral? 10 Text.maxWord first = some location.start ∧
      Text.numeral? 10 Text.maxHalfWord third = some number ∧
      location.source = UInt32.ofNat number := by
  unfold RawLocation.parse? at h
  rw [splitOn_eq] at h
  split at h
  · next first second third rest hparts =>
    obtain ⟨start, hstart, h⟩ := Option.bind_eq_some_iff.mp h
    obtain ⟨number, hnumber, h⟩ := Option.bind_eq_some_iff.mp h
    obtain rfl := Option.some.inj h
    exact ⟨first, second, third, rest, number, hparts, hstart, hnumber, rfl⟩
  · cases h

lemma source?_eq_none (input : Input) (hnumber : number ≤ Text.maxHalfWord)
    (h : ∀ path, ¬output.Numbered number path) :
    (LineIndex.ofCompilation input output).source? (UInt32.ofNat number) = none := by
  rw [source?_ofCompilation, Option.map_eq_none_iff, findRev?_eq_none_iff]
  intro entry hentry hid
  apply h entry.1
  refine ⟨entry.2, output.sources.mem_entries_iff.mp hentry, ?_⟩
  rw [of_decide_eq_true hid, UInt32.toNat_ofNat_of_lt' (Nat.lt_succ_of_le hnumber)]

lemma locate?_of_unresolved (h : Unresolved output src) :
    (LineIndex.ofCompilation input output).locate? src = none := by
  unfold LineIndex.locate?
  cases hparse : RawLocation.parse? src with
  | none => rfl
  | some location =>
    obtain ⟨first, second, third, rest, number, hparts, hstart, hnumber, hsource⟩ :=
      parts_of_parse? hparse
    have hgives : GivesNumber src number := ⟨third, by rw [hparts]; rfl, hnumber⟩
    cases h with
    | fewParts h =>
      rw [hparts, List.length_cons, List.length_cons, List.length_cons] at h
      omega
    | noStart h =>
      obtain ⟨first', hfirst, hnone⟩ := h
      rw [hparts] at hfirst
      obtain rfl := Option.some.inj hfirst
      rw [hstart] at hnone
      cases hnone
    | noNumber h =>
      obtain ⟨third', hthird, hnone⟩ := h
      rw [hparts] at hthird
      obtain rfl := Option.some.inj hthird
      rw [hnumber] at hnone
      cases hnone
    | noSource h =>
      obtain ⟨number', hgives', hnone⟩ := h
      obtain rfl := givesNumber_unique hgives hgives'
      rw [Option.bind_eq_bind, Option.bind_some, hsource,
        source?_eq_none input (numeral?_le hnumber) hnone]
      rfl

/-- A location that is not given back as it is has a start, and a number that leads to a path. -/
lemma exists_parts_of_resolved (h : ¬Unresolved output src) :
    ∃ first second third rest start number, parts src = first :: second :: third :: rest ∧
      Text.numeral? 10 Text.maxWord first = some start ∧
      Text.numeral? 10 Text.maxHalfWord third = some number ∧
      ∃ path, output.Numbered number path := by
  match hparts : parts src with
  | [] => exact absurd (.fewParts (by simp [hparts])) h
  | [_] => exact absurd (.fewParts (by simp [hparts])) h
  | [_, _] => exact absurd (.fewParts (by simp [hparts])) h
  | first :: second :: third :: rest =>
    have hfirst : (parts src)[0]? = some first := by rw [hparts]; rfl
    have hthird : (parts src)[2]? = some third := by rw [hparts]; rfl
    cases hstart : Text.numeral? 10 Text.maxWord first with
    | none => exact absurd (.noStart ⟨first, hfirst, hstart⟩) h
    | some start =>
      cases hnumber : Text.numeral? 10 Text.maxHalfWord third with
      | none => exact absurd (.noNumber ⟨third, hthird, hnumber⟩) h
      | some number =>
        refine ⟨first, second, third, rest, start, number, rfl, hstart, hnumber, ?_⟩
        by_contra hnone
        exact h (.noSource ⟨number, ⟨third, hthird, hnumber⟩, not_exists.mp hnone⟩)

lemma lineOf_textless {source : Compiler.Source} (h : input.sources.get? path = none)
    (position : Nat) : (SourceLines.ofSource input path source).lineOf position = 1 := by
  have hlines : SourceLines.ofSource input path source =
      SourceLines.ofText source.id path "".toList := by
    unfold SourceLines.ofSource
    rw [h]
    rfl
  rw [hlines, lineOf_ofText]
  simp [Text.newlinesAmong]

lemma path_ofSource (input : Input) (path : String) (source : Compiler.Source) :
    (SourceLines.ofSource input path source).path = path := by
  unfold SourceLines.ofSource
  split <;> rfl

lemma locate?_of_textless (h : Textless input output src path)
    (hresolved : ¬Unresolved output src) :
    (LineIndex.ofCompilation input output).locate? src = some (path ++ ":1") := by
  obtain ⟨number, hgives, hlast, htext⟩ := h
  obtain ⟨first, second, third, rest, start, number', hparts, hstart, hnumber, -⟩ :=
    exists_parts_of_resolved hresolved
  obtain rfl := givesNumber_unique hgives ⟨third, by rw [hparts]; rfl, hnumber⟩
  obtain ⟨path', source, -, hlast', hlines⟩ :=
    exists_lastNumbered input ⟨path, hlast.numbered⟩ (numeral?_le hnumber)
  obtain rfl := lastNumbered_unique hlast hlast'
  unfold LineIndex.locate?
  rw [parse?_of_parts hparts hstart hnumber]
  simp only [Option.bind_eq_bind, Option.bind_some, hlines, lineOf_textless htext, path_ofSource,
    String.append_assoc]
  rfl

/-- The location of a byte, given by some digits, of the source with a number. -/
def locationOf (start : List Char) (number : Nat) : String :=
  String.ofList ([':'].intercalate [start, [], Nat.toDigits 10 number])

lemma parts_locationOf {start : List Char} (hstart : ':' ∉ start) (number : Nat) :
    parts (locationOf start number) = [start, [], Nat.toDigits 10 number] := by
  have hnumber : ':' ∉ Nat.toDigits 10 number := fun hmem =>
    absurd (Nat.isDigit_of_mem_toDigits (by decide) (by decide) hmem) (by decide)
  unfold parts locationOf
  rw [String.toList_ofList]
  apply List.splitOn_intercalate
  · simp [hstart, hnumber]
  · simp

lemma resolved_locationOf {start : List Char} {byte : Nat} (hstart : ':' ∉ start)
    (hbyte : Text.numeral? 10 Text.maxWord start = some byte) (hnumber : number ≤ Text.maxHalfWord)
    (h : output.Numbered number path) :
    GivesNumber (locationOf start number) number ∧
      ¬Unresolved output (locationOf start number) := by
  have hread : Text.numeral? 10 Text.maxHalfWord (Nat.toDigits 10 number) = some number :=
    numeral?_toDigits (by decide) (by decide) hnumber
  have hparts := parts_locationOf hstart number
  have hgives : GivesNumber (locationOf start number) number :=
    ⟨_, by rw [hparts]; rfl, hread⟩
  refine ⟨hgives, fun hunresolved => ?_⟩
  cases hunresolved with
  | fewParts hfew => simp [hparts] at hfew
  | noStart hnone => simp [hparts, hbyte] at hnone
  | noNumber hnone => simp [hparts, hread] at hnone
  | noSource hnone =>
    obtain ⟨other, hother, hnone⟩ := hnone
    exact hnone path (givesNumber_unique hgives hother ▸ h)

lemma locator_of_locate? {index : LineIndex} {node : Node} {place : String}
    (h : index.locate? (rawLocator node) = some place) : index.locator node = place := by
  unfold LineIndex.locator
  rw [h, Option.getD_some]

lemma locator_of_unresolved {node : Node} (h : Unresolved output (rawLocator node)) :
    (LineIndex.ofCompilation input output).locator node = rawLocator node := by
  unfold LineIndex.locator
  rw [locate?_of_unresolved h, Option.getD_none]

/-- A node that only has a location. -/
def placedNode (src : String) : Node :=
  .object [("src", .text src)]

lemma rawLocator_placedNode (src : String) : rawLocator (placedNode src) = src := rfl

/-- Without a text for a source, two of its locations get one name. -/
lemma exists_not_raw (hlast : output.LastNumbered number path)
    (htext : input.sources.get? path = none) :
    ∃ node, NoLine input output (rawLocator node) ∧
      (LineIndex.ofCompilation input output).locator node ≠ rawLocator node := by
  have hnumber : number ≤ Text.maxHalfWord := by
    obtain ⟨source, -, hid⟩ := hlast.numbered
    have hlt := source.id.toNat_lt
    unfold Text.maxHalfWord
    omega
  have hnode : ∀ start byte, ':' ∉ start → Text.numeral? 10 Text.maxWord start = some byte →
      NoLine input output (rawLocator (placedNode (locationOf start number))) ∧
        (LineIndex.ofCompilation input output).locator (placedNode (locationOf start number)) =
          path ++ ":1" := by
    intro start byte hstart hbyte
    obtain ⟨hgives, hresolved⟩ := resolved_locationOf hstart hbyte hnumber hlast.numbered
    have htextless : Textless input output (locationOf start number) path :=
      ⟨number, hgives, hlast, htext⟩
    rw [rawLocator_placedNode]
    exact ⟨.inr ⟨path, htextless⟩, locator_of_locate? (locate?_of_textless htextless hresolved)⟩
  obtain ⟨hzero, hplace⟩ := hnode ['0'] 0 (by decide) (by decide)
  obtain ⟨hone, hplace'⟩ := hnode ['1'] 1 (by decide) (by decide)
  by_cases hraw : locationOf ['0'] number = path ++ ":1"
  · refine ⟨_, hone, ?_⟩
    rw [hplace', ← hraw, rawLocator_placedNode]
    simp [locationOf]
  · exact ⟨_, hzero, by rw [hplace]; exact Ne.symm hraw⟩

/-- Which locations are given back as they are. Those that cannot be taken apart or whose number no
source has always are. One of a source without a text is named by the first line of that source. So
all locations without a known line are given back exactly if there is no such source. -/
theorem raw_without_line_iff_texts (input : Input) (output : Output) :
    (∀ node, Unresolved output (rawLocator node) →
      (LineIndex.ofCompilation input output).locator node = rawLocator node) ∧
    (∀ node path, Textless input output (rawLocator node) path →
      ¬Unresolved output (rawLocator node) →
        (LineIndex.ofCompilation input output).locator node = path ++ ":1") ∧
    ((∀ node, NoLine input output (rawLocator node) →
        (LineIndex.ofCompilation input output).locator node = rawLocator node) ↔
      ∀ number path, output.LastNumbered number path →
        ∃ text, input.sources.get? path = some text) := by
  refine ⟨fun node => locator_of_unresolved, fun node path htextless hresolved =>
    locator_of_locate? (locate?_of_textless htextless hresolved), ?_, ?_⟩
  · intro hraw number path hlast
    cases htext : input.sources.get? path with
    | some text => exact ⟨text, rfl⟩
    | none =>
      obtain ⟨node, hline, hne⟩ := exists_not_raw hlast htext
      exact absurd (hraw node hline) hne
  · rintro htexts node (hunresolved | ⟨path, number, -, hlast, hnone⟩)
    · exact locator_of_unresolved hunresolved
    · obtain ⟨text, htext⟩ := htexts number path hlast
      rw [htext] at hnone
      cases hnone

/-- A source without a text. -/
def numberedFour : Output where
  sources := Table.ofList [("a.sol", { id := 4 })]

theorem numberedFour_named_by_line :
    NoLine {} numberedFour (rawLocator (placedNode "9:1:4")) ∧
      (LineIndex.ofCompilation {} numberedFour).locator (placedNode "9:1:4") = "a.sol:1" ∧
      rawLocator (placedNode "9:1:4") ≠ "a.sol:1" := by
  have hlast : numberedFour.LastNumbered 4 "a.sol" := by
    refine ⟨⟨_, rfl, rfl⟩, ?_⟩
    rintro other ⟨source, hget, -⟩
    have hkeys : numberedFour.sources.keys = ["a.sol"] := by decide +kernel
    have hmem : other ∈ numberedFour.sources.keys := by
      rw [Table.mem_keys_iff, hget]
      rfl
    rw [hkeys, List.mem_singleton] at hmem
    obtain rfl := hmem
    exact toUTF8_le_iff.mpr (String.le_refl _)
  have hgives : GivesNumber "9:1:4" 4 := ⟨['4'], by decide +kernel, by decide +kernel⟩
  exact ⟨.inr ⟨"a.sol", 4, hgives, hlast, rfl⟩, by decide +kernel, by decide⟩

end Proofs

end UpgradeAudit
