import Mathlib.Tactic.Lemma
import UpgradeAudit.Text.Numeral

/-!
# Reading back a written number

The digits of a number are read as that number, in every base that has digits for all remainders.
Zeros in front of them change nothing.
-/

namespace UpgradeAudit.Proofs

open Text (digitValue? digitsValue? numeral? unsignedPart)

variable {base limit value n : Nat} {text : List Char}

lemma digitValue?_digitChar (hbase : base ≤ 16) (h : n < base) :
    digitValue? base n.digitChar = some n := by
  have hdigits : ∀ d < 16, (digitValue? 16 d.digitChar) = some d := by decide
  have hn := hdigits n (by omega)
  unfold digitValue? at hn ⊢
  rw [Option.filter_eq_some_iff] at hn ⊢
  exact ⟨hn.1, by simpa using h⟩

lemma exists_digitChar_of_mem_toDigits (hpos : 1 < base) {c : Char} (h : c ∈ Nat.toDigits base n) :
    ∃ d < base, c = d.digitChar := by
  induction n using Nat.strongRecOn with
  | ind n ih =>
    by_cases hn : n < base
    · rw [Nat.toDigits_of_lt_base hn, List.mem_singleton] at h
      exact ⟨n, hn, h⟩
    · rw [Nat.toDigits_of_base_le hpos (by omega), List.mem_append, List.mem_singleton] at h
      rcases h with h | h
      · exact ih _ (Nat.div_lt_self (by omega) hpos) h
      · exact ⟨n % base, Nat.mod_lt n (by omega), h⟩

lemma digitsValue?_append (base value : Nat) (first second : List Char) :
    digitsValue? base value (first ++ second) =
      (digitsValue? base value first).bind fun read => digitsValue? base read second := by
  induction first generalizing value with
  | nil => rfl
  | cons c rest ih =>
    rw [List.cons_append, digitsValue?, digitsValue?]
    cases digitValue? base c with
    | none => rfl
    | some digit => exact ih _

lemma digitsValue?_toDigits (hpos : 1 < base) (hbase : base ≤ 16) (n : Nat) :
    digitsValue? base 0 (Nat.toDigits base n) = some n := by
  induction n using Nat.strongRecOn with
  | ind n ih =>
    by_cases hn : n < base
    · rw [Nat.toDigits_of_lt_base hn, digitsValue?, digitValue?_digitChar hbase hn]
      simp [digitsValue?]
    · have hlt : n / base < n := Nat.div_lt_self (by omega) hpos
      have hdigit := digitValue?_digitChar hbase (Nat.mod_lt n (by omega : base > 0))
      rw [Nat.toDigits_of_base_le hpos (by omega), digitsValue?_append, ih _ hlt, Option.bind_some,
        digitsValue?, hdigit]
      simp [digitsValue?, Nat.div_add_mod']

lemma digitsValue?_zeros_append (hbase : 0 < base) (count : Nat) (text : List Char) :
    digitsValue? base 0 (List.replicate count '0' ++ text) = digitsValue? base 0 text := by
  induction count with
  | zero => rfl
  | succ count ih =>
    have hzero : digitValue? base '0' = some 0 := by simp [digitValue?, hbase]
    rw [List.replicate_succ, List.cons_append, digitsValue?, hzero]
    simpa using ih

lemma numeral?_of_digitsValue? (hne : text ≠ []) (h : digitsValue? base 0 text = some value)
    (hle : value ≤ limit) : numeral? base limit text = some value := by
  have hunsigned : unsignedPart text = text := by
    unfold unsignedPart
    split
    · simp [digitsValue?, digitValue?] at h
    · rfl
  unfold numeral?
  rw [hunsigned]
  split
  · contradiction
  · rw [h, Option.filter_some, decide_eq_true hle, if_pos rfl]

lemma numeral?_toDigits (hpos : 1 < base) (hbase : base ≤ 16) (hle : n ≤ limit) :
    numeral? base limit (Nat.toDigits base n) = some n :=
  numeral?_of_digitsValue? Nat.toDigits_ne_nil (digitsValue?_toDigits hpos hbase n) hle

end UpgradeAudit.Proofs
