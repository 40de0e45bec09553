import Esp32Automation.Json
import Mathlib.Data.Nat.Digits.Defs

/-!
# Whole numbers in decimal

What decimal digits spell, how `parseNumber` reads them, and the digits that a number is
written with. A numeral may have leading zeros; it is read as the number it spells as long as
that is one of the 64-bit numbers a document can hold.
-/
namespace Esp32Automation

/-- The number that decimal digits continue. -/
def decimalFrom (n : ℕ) (digits : List UInt8) : ℕ :=
  digits.foldl (fun n c => n * 10 + Number.digit c) n

theorem le_decimalFrom (n : ℕ) (digits : List UInt8) : n ≤ decimalFrom n digits := by
  induction digits generalizing n with
  | nil => exact Nat.le_refl n
  | cons c digits ih =>
    have hrec := ih (n * 10 + Number.digit c)
    have hcons : decimalFrom n (c :: digits) = decimalFrom (n * 10 + Number.digit c) digits := rfl
    rw [hcons]
    omega

theorem isDigit_iff (c : UInt8) : Number.isDigit c ↔ 48 ≤ c.toNat ∧ c.toNat ≤ 57 := by
  simp [Number.isDigit, UInt8.le_iff_toNat_le]

/-- The digit loop of the JSON parser reads a number of 64 bits as it is spelled. -/
theorem readMantissa_decimal {digits : List UInt8} (hd : digits.all Number.isDigit) (m : ℕ)
    (h : decimalFrom m digits ≤ Number.maxUint) :
    Number.readMantissa m digits = (decimalFrom m digits, []) := by
  induction digits generalizing m with
  | nil => rfl
  | cons c digits ih =>
    simp only [List.all_cons, Bool.and_eq_true] at hd
    have hcons : decimalFrom m (c :: digits) = decimalFrom (m * 10 + Number.digit c) digits := rfl
    rw [hcons] at h ⊢
    have hstep := (le_decimalFrom (m * 10 + Number.digit c) digits).trans h
    rw [Number.readMantissa, if_pos hd.1, if_neg (by omega), if_neg (by omega)]
    exact ih hd.2 _ h

/-- An integer that a document can hold: a signed or an unsigned one of 64 bits. -/
def Json.Integral (n : ℤ) : Prop := -2 ^ 63 ≤ n ∧ n ≤ 2 ^ 64 - 1

instance (n : ℤ) : Decidable (Json.Integral n) :=
  inferInstanceAs (Decidable (-2 ^ 63 ≤ n ∧ n ≤ 2 ^ 64 - 1))

/-- Decimal digits, with a minus sign or without. -/
structure Numeral where
  negative : Bool
  digits : List UInt8
  nonempty : digits ≠ []
  all_digits : digits.all Number.isDigit

namespace Numeral

def text (n : Numeral) : List UInt8 := if n.negative then 45 :: n.digits else n.digits

def value (n : Numeral) : ℤ :=
  if n.negative then -(decimalFrom 0 n.digits : ℤ) else decimalFrom 0 n.digits

/-- The first digit is no sign. -/
theorem head_digits (n : Numeral) :
    ∃ c s, n.digits = c :: s ∧ Number.isDigit c ∧ c ≠ 45 ∧ c ≠ 43 := by
  cases h : n.digits with
  | nil => exact absurd h n.nonempty
  | cons c s =>
    have hall := n.all_digits
    rw [h, List.all_cons, Bool.and_eq_true] at hall
    have hrange := (isDigit_iff c).mp hall.1
    refine ⟨c, s, rfl, hall.1, ?_, ?_⟩
    · rintro rfl
      exact absurd hrange.1 (by decide)
    · rintro rfl
      exact absurd hrange.1 (by decide)

/-- `parseNumber` reads a numeral as the number it spells. -/
theorem parseNumber_text (n : Numeral) (h : Json.Integral n.value) :
    Number.parseNumber n.text = .integer n.value := by
  obtain ⟨c, s, hs, hc, hminus, hplus⟩ := n.head_digits
  have hmax : Number.maxUint = 2 ^ 64 - 1 := rfl
  unfold Json.Integral value at h
  unfold text value
  cases hneg : n.negative with
  | false =>
    simp only [hneg, Bool.false_eq_true, if_false] at h ⊢
    have hread := readMantissa_decimal n.all_digits 0 (by omega)
    rw [hs] at hread ⊢
    unfold Number.parseNumber
    split
    next negative rest hsplit =>
      split at hsplit
      · next heq => exact absurd (List.cons.inj heq).1 hminus
      · next heq => exact absurd (List.cons.inj heq).1 hplus
      · obtain ⟨rfl, rfl⟩ := Prod.mk.inj hsplit
        simp [hc, hread]
  | true =>
    simp only [hneg, if_true] at h ⊢
    have hread := readMantissa_decimal n.all_digits 0 (by omega)
    have hbound : ¬ 9223372036854775808 < decimalFrom 0 (c :: s) := by
      rw [← hs]
      omega
    rw [hs] at hread ⊢
    unfold Number.parseNumber
    simp [hc, hread, hbound]

/-- A character that is a digit, as a byte. -/
theorem digit_toUInt8 {c : Char} (h : c.isDigit) :
    Number.isDigit c.toUInt8 ∧ Number.digit c.toUInt8 = c.toNat - '0'.toNat := by
  have hrange := Char.isDigit_iff_toNat.mp h
  have h0 : '0'.toNat = 48 := rfl
  have h9 : '9'.toNat = 57 := rfl
  have hval : c.toUInt8.toNat = c.toNat := by
    show c.val.toUInt8.toNat = c.val.toNat
    rw [UInt32.toNat_toUInt8]
    have hc : c.val.toNat = c.toNat := rfl
    omega
  refine ⟨(isDigit_iff _).mpr (by omega), ?_⟩
  rw [Number.digit, hval, h0]

/-- The digits of a natural number as bytes. -/
def natDigits (m : ℕ) : List UInt8 := (Nat.toDigits 10 m).map Char.toUInt8

theorem natDigits_all (m : ℕ) : (natDigits m).all Number.isDigit := by
  rw [natDigits, List.all_map, List.all_eq_true]
  intro c hc
  exact (digit_toUInt8 (Nat.isDigit_of_mem_toDigits (by decide) (by decide) hc)).1

theorem natDigits_ne_nil (m : ℕ) : natDigits m ≠ [] := by
  simp [natDigits, Nat.toDigits_ne_nil]

theorem decimalFrom_map {cs : List Char} (h : ∀ c ∈ cs, c.isDigit) (n : ℕ) :
    decimalFrom n (cs.map Char.toUInt8) = Nat.ofDigitChars 10 cs n := by
  induction cs generalizing n with
  | nil => simp [decimalFrom]
  | cons c cs ih =>
    have hc := (digit_toUInt8 (h c List.mem_cons_self)).2
    have hrec := ih (fun c hc => h c (List.mem_cons_of_mem _ hc)) (n * 10 + Number.digit c.toUInt8)
    rw [Nat.ofDigitChars_cons, ← hc, Nat.mul_comm, ← hrec]
    rfl

theorem decimalFrom_natDigits (m : ℕ) : decimalFrom 0 (natDigits m) = m := by
  have hdigit : ∀ c ∈ Nat.toDigits 10 m, c.isDigit := fun c hc =>
    Nat.isDigit_of_mem_toDigits (by decide) (by decide) hc
  rw [natDigits, decimalFrom_map hdigit, Nat.ofDigitChars_ten_toDigits]

/-- The numeral that a number is written with. -/
def ofInt (n : ℤ) : Numeral where
  negative := n < 0
  digits := natDigits n.natAbs
  nonempty := natDigits_ne_nil _
  all_digits := natDigits_all _

theorem ofInt_text (n : ℤ) : (ofInt n).text = ascii (toString n) := by
  cases n with
  | ofNat m =>
    have hnot : ¬ (Int.ofNat m < 0) := by simp
    simp only [text, ofInt, decide_eq_true_eq, hnot, if_false, ascii, natDigits]
    rw [← Nat.toList_repr]
    rfl
  | negSucc m =>
    have hneg : Int.negSucc m < 0 := Int.negSucc_lt_zero m
    have htext : toString (Int.negSucc m) = "-" ++ (m + 1).repr := rfl
    simp only [text, ofInt, hneg, decide_true, if_true, htext, ascii, natDigits,
      String.toList_append, List.map_append, Nat.toList_repr]
    rfl

theorem ofInt_value (n : ℤ) : (ofInt n).value = n := by
  simp only [value, ofInt, decimalFrom_natDigits, decide_eq_true_eq]
  split_ifs with h <;> omega

/-- A 64-bit number has at most twenty digits and a sign. -/
theorem ofInt_length {n : ℤ} (h : Json.Integral n) : (ofInt n).text.length ≤ 21 := by
  obtain ⟨hlo, hhi⟩ := h
  have hdigits : (natDigits n.natAbs).length ≤ 20 := by
    rw [natDigits, List.length_map]
    exact Nat.toDigits_length 10 _ 20 (by decide) (by omega)
  unfold text
  split_ifs
  · exact Nat.succ_le_succ hdigits
  · exact hdigits.trans (by decide)

end Numeral
end Esp32Automation
