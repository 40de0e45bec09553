import Esp32Automation.Decimal
import Esp32Automation.JsonDeserializer

/-!
# JSON texts

The concrete syntax of JSON, white space and escapes included: a syntax tree has a text and a
value, and both follow the tree. Numbers are whole; what a fraction is rounded to is left to
`parseNumber`. Two code units that are surrogates of each other spell one character, which a
document holds in UTF-8. A repeated key replaces the earlier value.

The deserializer recovers the value of every tree that is nested no deeper than its limit.
-/
namespace Esp32Automation.JsonText
open JsonDeserializer

/-- White space between two tokens. -/
structure Blank where
  bytes : List UInt8
  spaces : ∀ c ∈ bytes, c = 32 ∨ c = 9 ∨ c = 10 ∨ c = 13

def Blank.none : Blank := ⟨[], by simp⟩

structure HexDigit where
  byte : UInt8
  valid : (48 ≤ byte ∧ byte ≤ 57) ∨ (65 ≤ byte ∧ byte ≤ 70) ∨ (97 ≤ byte ∧ byte ≤ 102)

def HexDigit.value (d : HexDigit) : ℕ :=
  if d.byte ≤ 57 then d.byte.toNat - 48
  else if d.byte ≤ 70 then d.byte.toNat - 55 else d.byte.toNat - 87

def HexDigit.zero : HexDigit := ⟨48, by decide⟩

/-- Four hexadecimal digits behind a backslash and the letter `u`. -/
structure CodeUnit where
  a : HexDigit
  b : HexDigit
  c : HexDigit
  d : HexDigit

namespace CodeUnit

def text (u : CodeUnit) : List UInt8 := [92, 117, u.a.byte, u.b.byte, u.c.byte, u.d.byte]

def value (u : CodeUnit) : ℕ :=
  ((u.a.value * 16 + u.b.value) * 16 + u.c.value) * 16 + u.d.value

def IsHigh (u : CodeUnit) : Prop := 0xD800 ≤ u.value ∧ u.value < 0xDC00

def IsLow (u : CodeUnit) : Prop := 0xDC00 ≤ u.value ∧ u.value < 0xE000

end CodeUnit

/-- The escapes of one letter. -/
inductive Escape where
  | quote
  | backslash
  | slash
  | backspace
  | formFeed
  | newline
  | carriageReturn
  | tab

namespace Escape

def letter : Escape → UInt8
  | quote => 34
  | backslash => 92
  | slash => 47
  | backspace => 98
  | formFeed => 102
  | newline => 110
  | carriageReturn => 114
  | tab => 116

def byte : Escape → UInt8
  | quote => 34
  | backslash => 92
  | slash => 47
  | backspace => 8
  | formFeed => 12
  | newline => 10
  | carriageReturn => 13
  | tab => 9

end Escape

/-- What a string is spelled with. A byte that stands for itself is no quote, no backslash and
no terminator. -/
inductive Piece where
  | plain (c : UInt8) (h : c ≠ 34 ∧ c ≠ 92 ∧ c ≠ 0)
  | escape (e : Escape)
  | codeUnit (u : CodeUnit) (h : ¬ u.IsHigh ∧ ¬ u.IsLow)
  | surrogates (high low : CodeUnit) (hhigh : high.IsHigh) (hlow : low.IsLow)

namespace Piece

def text : Piece → List UInt8
  | plain c _ => [c]
  | escape e => [92, e.letter]
  | codeUnit u _ => u.text
  | surrogates high low _ _ => high.text ++ low.text

/-- The bytes it stands for. -/
def bytes : Piece → List UInt8
  | plain c _ => [c]
  | escape e => [e.byte]
  | codeUnit u _ => String.utf8EncodeChar (Char.ofNat u.value)
  | surrogates high low _ _ => String.utf8EncodeChar
      (Char.ofNat (0x10000 + (high.value - 0xD800) * 0x400 + (low.value - 0xDC00)))

end Piece

/-- A string in quotes, short enough for a node. -/
structure Quoted where
  pieces : List Piece
  short : (pieces.flatMap Piece.bytes).length ≤ Json.maxLength

namespace Quoted

def bytes (s : Quoted) : List UInt8 := s.pieces.flatMap Piece.bytes

def text (s : Quoted) : List UInt8 := 34 :: (s.pieces.flatMap Piece.text ++ [34])

end Quoted

/-- A numeral that the deserializer collects as a whole, of a number that a document can
hold. -/
structure Whole extends Numeral where
  short : toNumeral.text.length ≤ 63
  integral : Json.Integral toNumeral.value

mutual

inductive Tree where
  | null
  | boolean (b : Bool)
  | numeral (n : Whole)
  | string (s : Quoted)
  | emptyArray (inner : Blank)
  | array (before : Blank) (elements : Elements)
  | emptyObject (inner : Blank)
  | object (before : Blank) (members : Members)

/-- One element or more; `after` is in front of the comma or the bracket. -/
inductive Elements where
  | last (value : Tree) (after : Blank)
  | cons (value : Tree) (after before : Blank) (rest : Elements)

/-- One member or more. -/
inductive Members where
  | last (key : Quoted) (afterKey before : Blank) (value : Tree) (after : Blank)
  | cons (key : Quoted) (afterKey before : Blank) (value : Tree) (after beforeKey : Blank)
      (rest : Members)

end

mutual

def Tree.text : Tree → List UInt8
  | .null => ascii "null"
  | .boolean b => ascii (if b then "true" else "false")
  | .numeral n => n.toNumeral.text
  | .string s => s.text
  | .emptyArray inner => 91 :: (inner.bytes ++ [93])
  | .array before elements => 91 :: (before.bytes ++ (elements.text ++ [93]))
  | .emptyObject inner => 123 :: (inner.bytes ++ [125])
  | .object before members => 123 :: (before.bytes ++ (members.text ++ [125]))

def Elements.text : Elements → List UInt8
  | .last value after => value.text ++ after.bytes
  | .cons value after before rest =>
    value.text ++ (after.bytes ++ 44 :: (before.bytes ++ rest.text))

def Members.text : Members → List UInt8
  | .last key afterKey before value after =>
    key.text ++ (afterKey.bytes ++ 58 :: (before.bytes ++ (value.text ++ after.bytes)))
  | .cons key afterKey before value after beforeKey rest =>
    key.text ++ (afterKey.bytes ++ 58 :: (before.bytes ++ (value.text ++
      (after.bytes ++ 44 :: (beforeKey.bytes ++ rest.text)))))

end

mutual

/-- The document that the text stands for. -/
def Tree.value : Tree → Json
  | .null => .null
  | .boolean b => .boolean b
  | .numeral n => .integer n.toNumeral.value
  | .string s => .string s.bytes
  | .emptyArray _ => .array []
  | .array _ elements => .array elements.values
  | .emptyObject _ => .object []
  | .object _ members => .object (members.addTo [])

def Elements.values : Elements → List Json
  | .last value _ => [value.value]
  | .cons value _ _ rest => value.value :: rest.values

/-- The members so far, and those of the text. -/
def Members.addTo (ms : List (List UInt8 × Json)) : Members → List (List UInt8 × Json)
  | .last key _ _ value _ => Json.setIn key.bytes value.value ms
  | .cons key _ _ value _ _ rest => rest.addTo (Json.setIn key.bytes value.value ms)

end

mutual

/-- How deep arrays and objects are nested. -/
def Tree.depth : Tree → ℕ
  | .null | .boolean _ | .numeral _ | .string _ => 0
  | .emptyArray _ | .emptyObject _ => 1
  | .array _ elements => elements.depth + 1
  | .object _ members => members.depth + 1

def Elements.depth : Elements → ℕ
  | .last value _ => value.depth
  | .cons value _ _ rest => max value.depth rest.depth

def Members.depth : Members → ℕ
  | .last _ _ _ value _ => value.depth
  | .cons _ _ _ value _ _ rest => max value.depth rest.depth

end

def Tree.IsNumeral : Tree → Prop
  | .numeral _ => True
  | _ => False

theorem Blank.isSpace (w : Blank) : ∀ c ∈ w.bytes, JsonDeserializer.isSpace c := by
  intro c hc
  obtain rfl | rfl | rfl | rfl := w.spaces c hc <;> decide

/-- White space is skipped up to the first other character. -/
theorem skipSpaces_blank (w : Blank) (found : Bool) {c : UInt8}
    (hc : JsonDeserializer.isSpace c = false) (s : List UInt8) :
    skipSpaces found (w.bytes ++ c :: s) = .ok (c :: s) := by
  have hdrop : (w.bytes ++ c :: s).dropWhile JsonDeserializer.isSpace = c :: s := by
    rw [List.dropWhile_append_of_pos w.isSpace]
    simp [hc]
  rw [skipSpaces, hdrop]

/-- `decodeHex` reads a digit as its value. -/
theorem decodeHex_digit (d : HexDigit) :
    decodeHex d.byte = UInt8.ofNat d.value ∧ d.value < 16 := by
  have hall : ∀ n < 256, ∀ h, decodeHex (UInt8.ofNat n) =
      UInt8.ofNat (HexDigit.value ⟨UInt8.ofNat n, h⟩) ∧
        HexDigit.value ⟨UInt8.ofNat n, h⟩ < 16 := by
    decide +kernel
  obtain ⟨byte, hvalid⟩ := d
  have hbyte : byte = UInt8.ofNat byte.toNat := by simp
  have hn := hall byte.toNat (UInt8.toNat_lt byte)
  rw [← hbyte] at hn
  exact hn hvalid

theorem hex4_codeUnit (u : CodeUnit) :
    hex4 u.a.byte u.b.byte u.c.byte u.d.byte = .ok u.value := by
  have hle : ∀ {n : ℕ}, n < 16 → UInt8.ofNat n ≤ 15 := by decide
  have hnat : ∀ {n : ℕ}, n < 16 → (UInt8.ofNat n).toNat = n := by
    intro n hn
    rw [UInt8.toNat_ofNat']
    omega
  obtain ⟨ha, ha'⟩ := decodeHex_digit u.a
  obtain ⟨hb, hb'⟩ := decodeHex_digit u.b
  obtain ⟨hc, hc'⟩ := decodeHex_digit u.c
  obtain ⟨hd, hd'⟩ := decodeHex_digit u.d
  simp [hex4, ha, hb, hc, hd, hle ha', hle hb', hle hc', hle hd', hnat ha', hnat hb', hnat hc',
    hnat hd', CodeUnit.value]

theorem CodeUnit.value_lt (u : CodeUnit) : u.value < 0x10000 := by
  have ha := (decodeHex_digit u.a).2
  have hb := (decodeHex_digit u.b).2
  have hc := (decodeHex_digit u.c).2
  have hd := (decodeHex_digit u.d).2
  unfold CodeUnit.value
  omega

/-- `encodeCodepoint` is UTF-8. -/
theorem encodeCodepoint_eq {n : ℕ} (h : n.isValidChar) :
    encodeCodepoint n = String.utf8EncodeChar (Char.ofNat n) := by
  have hval : (Char.ofNat n).val.toNat = n := by
    rw [Char.ofNat, dif_pos h]
    exact UInt32.toNat_ofNatLT
  have hlt : n < 0x110000 := by
    unfold Nat.isValidChar at h
    omega
  unfold encodeCodepoint String.utf8EncodeChar
  simp only [hval]
  by_cases h1 : n < 0x80
  · have h1' : n ≤ 0x7f := by omega
    rw [if_pos h1, if_pos h1']
  have h1' : ¬ n ≤ 0x7f := by omega
  rw [if_neg h1, if_neg h1']
  by_cases h2 : n / 0x40 < 0x20
  · have h2' : n ≤ 0x7ff := by omega
    rw [if_pos h2, if_pos h2']
    simp only [List.cons.injEq, ← UInt8.toNat_inj, Nat.toUInt8, UInt8.toNat_ofNat', and_true]
    omega
  have h2' : ¬ n ≤ 0x7ff := by omega
  rw [if_neg h2, if_neg h2']
  by_cases h3 : n / 0x1000 < 0x10
  · have h3' : n ≤ 0xffff := by omega
    rw [if_pos h3, if_pos h3']
    simp only [List.cons.injEq, ← UInt8.toNat_inj, Nat.toUInt8, UInt8.toNat_ofNat', and_true]
    omega
  have h3' : ¬ n ≤ 0xffff := by omega
  rw [if_neg h3, if_neg h3']
  simp only [List.cons.injEq, ← UInt8.toNat_inj, Nat.toUInt8, UInt8.toNat_ofNat', and_true]
  omega

theorem letter_unescape (e : Escape) :
    unescapeChar e.letter = e.byte ∧ e.byte ≠ 0 ∧ e.letter ≠ 117 := by
  cases e <;> decide

/-- A code unit that is no surrogate. -/
theorem codepoint_unit {u : CodeUnit} (h : ¬ u.IsHigh ∧ ¬ u.IsLow) (high : ℕ) :
    appendCodeunit high u.value = (high, some u.value) ∧ u.value.isValidChar := by
  obtain ⟨hh, hl⟩ := h
  have hlt := u.value_lt
  unfold CodeUnit.IsHigh at hh
  unfold CodeUnit.IsLow at hl
  rw [appendCodeunit, if_neg hh, if_neg hl]
  refine ⟨rfl, ?_⟩
  unfold Nat.isValidChar
  omega

/-- Two surrogates, whatever has been read before. -/
theorem codepoint_surrogates {high low : CodeUnit} (hhigh : high.IsHigh) (hlow : low.IsLow)
    (before : ℕ) :
    appendCodeunit before high.value = (high.value % 0x400, none) ∧
      appendCodeunit (high.value % 0x400) low.value = (high.value % 0x400,
        some (0x10000 + (high.value - 0xD800) * 0x400 + (low.value - 0xDC00))) ∧
      (0x10000 + (high.value - 0xD800) * 0x400 + (low.value - 0xDC00)).isValidChar := by
  unfold CodeUnit.IsHigh at hhigh
  unfold CodeUnit.IsLow at hlow
  have hnot : ¬ (0xD800 ≤ low.value ∧ low.value < 0xDC00) := by omega
  refine ⟨if_pos hhigh, ?_, ?_⟩
  · rw [appendCodeunit, if_neg hnot, if_pos hlow]
    simp only [Prod.mk.injEq, Option.some.injEq, true_and]
    omega
  · unfold Nat.isValidChar
    omega

/-- One escape of a code unit. -/
theorem parseQuotedString_codeUnit (u : CodeUnit) (high : ℕ) (acc s : List UInt8) :
    parseQuotedString 34 high acc (u.text ++ s) =
      match appendCodeunit high u.value with
      | (high, none) => parseQuotedString 34 high acc s
      | (high, some cp) => parseQuotedString 34 high ((encodeCodepoint cp).reverse ++ acc) s := by
  have hu := hex4_codeUnit u
  simp only [CodeUnit.text, List.cons_append, List.nil_append]
  rw [parseQuotedString]
  simp only [hu]
  rfl

/-- A piece adds its bytes. The surrogate that is remembered may change. -/
theorem parseQuotedString_piece (p : Piece) (high : ℕ) (acc s : List UInt8) :
    ∃ high', parseQuotedString 34 high acc (p.text ++ s) =
      parseQuotedString 34 high' (p.bytes.reverse ++ acc) s := by
  cases p with
  | plain c h =>
    refine ⟨high, ?_⟩
    simp only [Piece.text, Piece.bytes, List.singleton_append, List.reverse_singleton]
    rw [parseQuotedString.eq_def]
    simp [h.1, h.2.1]
  | escape e =>
    obtain ⟨hu, hne, hletter⟩ := letter_unescape e
    refine ⟨high, ?_⟩
    simp only [Piece.text, Piece.bytes, List.cons_append, List.nil_append,
      List.reverse_singleton]
    rw [parseQuotedString.eq_def]
    simp [hu, hne, hletter]
  | codeUnit u h =>
    obtain ⟨hcp, hvalid⟩ := codepoint_unit h high
    refine ⟨high, ?_⟩
    rw [Piece.text, Piece.bytes, parseQuotedString_codeUnit, hcp, ← encodeCodepoint_eq hvalid]
  | surrogates hi lo hhigh hlow =>
    obtain ⟨hfirst, hsecond, hvalid⟩ := codepoint_surrogates hhigh hlow high
    refine ⟨hi.value % 0x400, ?_⟩
    rw [Piece.text, Piece.bytes, List.append_assoc, parseQuotedString_codeUnit, hfirst]
    dsimp only
    rw [parseQuotedString_codeUnit, hsecond, ← encodeCodepoint_eq hvalid]

theorem parseQuotedString_pieces (ps : List Piece) (high : ℕ) (acc s : List UInt8) :
    ∃ high', parseQuotedString 34 high acc (ps.flatMap Piece.text ++ s) =
      parseQuotedString 34 high' ((ps.flatMap Piece.bytes).reverse ++ acc) s := by
  induction ps generalizing high acc with
  | nil => exact ⟨high, rfl⟩
  | cons p ps ih =>
    obtain ⟨high₁, h₁⟩ := parseQuotedString_piece p high acc (ps.flatMap Piece.text ++ s)
    obtain ⟨high₂, h₂⟩ := ih high₁ (p.bytes.reverse ++ acc)
    refine ⟨high₂, ?_⟩
    rw [List.flatMap_cons, List.append_assoc, h₁, h₂, List.flatMap_cons, List.reverse_append,
      List.append_assoc]

/-- A string is read up to its closing quote. -/
theorem parseQuotedString_quoted (q : Quoted) (s : List UInt8) :
    parseQuotedString 34 0 [] (q.pieces.flatMap Piece.text ++ 34 :: s) = .ok (q.bytes, s) := by
  obtain ⟨high, h⟩ := parseQuotedString_pieces q.pieces 0 [] (34 :: s)
  have hshort : (q.pieces.flatMap Piece.bytes).reverse.length ≤ Json.maxLength := by
    rw [List.length_reverse]
    exact q.short
  rw [h, List.append_nil, parseQuotedString.eq_def]
  simp only [if_true, saveString, if_pos hshort, List.reverse_reverse, Quoted.bytes]

theorem parseKey_quoted (q : Quoted) (s : List UInt8) :
    parseKey (q.text ++ s) = .ok (q.bytes, s) := by
  have hread := parseQuotedString_quoted q s
  simp only [Quoted.text, List.cons_append, List.append_assoc, List.nil_append]
  exact hread

/-- What may follow a number. -/
def Stops (rest : List UInt8) : Prop := ∀ c s, rest = c :: s → canBeInNumber c = false

theorem stops_blank (w : Blank) {c : UInt8} (hc : canBeInNumber c = false) (s : List UInt8) :
    Stops (w.bytes ++ c :: s) := by
  intro c' s' heq
  cases hw : w.bytes with
  | nil =>
    rw [hw] at heq
    obtain ⟨rfl, -⟩ := List.cons.inj heq
    exact hc
  | cons b bs =>
    rw [hw] at heq
    obtain ⟨rfl, -⟩ := List.cons.inj heq
    obtain rfl | rfl | rfl | rfl := w.spaces b (by simp [hw]) <;> decide

/-- A numeral consists of characters of a number, and starts with one that starts no other
value. -/
theorem numeral_head (n : Numeral) : (∀ c ∈ n.text, canBeInNumber c) ∧
    ∃ c s, n.text = c :: s ∧ (Number.isDigit c ∨ c = 45) := by
  have hdigit : ∀ c, Number.isDigit c → canBeInNumber c := by
    intro c hc
    have hbetween : isBetween c 48 57 = Number.isDigit c := rfl
    simp [canBeInNumber, hbetween, hc]
  obtain ⟨c, s, hs, hc, -⟩ := n.head_digits
  unfold Numeral.text
  cases n.negative with
  | false =>
    refine ⟨fun c hc => hdigit c (List.all_eq_true.mp n.all_digits c hc), c, s, hs, .inl hc⟩
  | true =>
    refine ⟨?_, 45, n.digits, rfl, .inr rfl⟩
    simp only [if_true, List.forall_mem_cons]
    exact ⟨by decide, fun c hc => hdigit c (List.all_eq_true.mp n.all_digits c hc)⟩

/-- All of a numeral is collected, and nothing behind it. -/
theorem parseNumericValue_whole (n : Whole) {rest : List UInt8} (h : Stops rest) :
    parseNumericValue (n.text ++ rest) = .ok (.integer n.value, rest) := by
  have htake : (n.text ++ rest).takeWhile canBeInNumber = n.text := by
    rw [List.takeWhile_append_of_pos (numeral_head n.toNumeral).1]
    cases rest with
    | nil => simp
    | cons c s => simp [h c s rfl]
  unfold parseNumericValue
  simp only [htake, List.take_of_length_le n.short, n.parseNumber_text n.integral, List.drop_left]

/-- The parser of nested values that is left at a limit. -/
def nested : ℕ → Option (Parser Json)
  | 0 => .none
  | limit + 1 => some (parseVariant limit true)

/-- In front of a value white space does not matter. -/
theorem parseVariant_blank (w : Blank) (limit : ℕ) (found : Bool) {c : UInt8}
    (hc : JsonDeserializer.isSpace c = false) (s : List UInt8) :
    parseVariant limit found (w.bytes ++ c :: s) =
      parseVariantWith (nested limit) true (c :: s) := by
  have hstart : skipSpaces true (c :: s) = .ok (c :: s) := skipSpaces_blank .none true hc s
  have hunfold : parseVariant limit found (w.bytes ++ c :: s) =
      parseVariantWith (nested limit) found (w.bytes ++ c :: s) := by
    cases limit <;> rfl
  rw [hunfold, parseVariantWith, parseVariantWith, skipSpaces_blank w found hc, hstart]

/-- The characters that a numeral starts with start no other value. -/
theorem numeral_start {c : UInt8} (h : Number.isDigit c ∨ c = 45) :
    JsonDeserializer.isSpace c = false ∧ c ≠ 91 ∧ c ≠ 93 ∧ c ≠ 123 ∧ isQuote c = false ∧
      c ≠ 116 ∧ c ≠ 102 ∧ c ≠ 110 := by
  have hall : ∀ n < 256, Number.isDigit (UInt8.ofNat n) ∨ UInt8.ofNat n = 45 →
      JsonDeserializer.isSpace (UInt8.ofNat n) = false ∧ UInt8.ofNat n ≠ 91 ∧
        UInt8.ofNat n ≠ 93 ∧ UInt8.ofNat n ≠ 123 ∧ isQuote (UInt8.ofNat n) = false ∧
        UInt8.ofNat n ≠ 116 ∧ UInt8.ofNat n ≠ 102 ∧ UInt8.ofNat n ≠ 110 := by
    decide +kernel
  have hbyte : c = UInt8.ofNat c.toNat := by simp
  have hn := hall c.toNat (UInt8.toNat_lt c)
  rw [← hbyte] at hn
  exact hn h

theorem parseVariantWith_numeral (n : Whole) (value : Option (Parser Json)) {rest : List UInt8}
    (h : Stops rest) :
    parseVariantWith value true (n.text ++ rest) = .ok (.integer n.value, rest) := by
  obtain ⟨c, s, hs, hc⟩ := (numeral_head n.toNumeral).2
  obtain ⟨hspace, hbracket, -, hbrace, hquote, ht, hf, hnull⟩ := numeral_start hc
  have hstart : skipSpaces true (c :: (s ++ rest)) = .ok (c :: (s ++ rest)) :=
    skipSpaces_blank .none true hspace _
  have hparse := parseNumericValue_whole n h
  rw [hs, List.cons_append] at hparse ⊢
  rw [parseVariantWith, hstart]
  simp only [bind, Except.bind, if_neg hbracket, if_neg hbrace, hquote, Bool.false_eq_true,
    if_false, if_neg ht, if_neg hf, if_neg hnull]
  exact hparse

/-- A tree starts with no white space and no closing bracket. -/
theorem Tree.head (t : Tree) :
    ∃ c s, t.text = c :: s ∧ JsonDeserializer.isSpace c = false ∧ c ≠ 93 := by
  cases t with
  | null => exact ⟨110, _, rfl, by decide⟩
  | boolean b =>
    cases b with
    | false => exact ⟨102, _, rfl, by decide⟩
    | true => exact ⟨116, _, rfl, by decide⟩
  | numeral n =>
    obtain ⟨c, s, hs, hc⟩ := (numeral_head n.toNumeral).2
    refine ⟨c, s, hs, ?_⟩
    obtain ⟨hspace, -, hbracket, -⟩ := numeral_start hc
    exact ⟨hspace, hbracket⟩
  | string s => exact ⟨34, _, rfl, by decide⟩
  | emptyArray inner => exact ⟨91, _, rfl, by decide⟩
  | array before elements => exact ⟨91, _, rfl, by decide⟩
  | emptyObject inner => exact ⟨123, _, rfl, by decide⟩
  | object before members => exact ⟨123, _, rfl, by decide⟩

theorem Elements.head (es : Elements) :
    ∃ c s, es.text = c :: s ∧ JsonDeserializer.isSpace c = false ∧ c ≠ 93 := by
  cases es with
  | last value after =>
    obtain ⟨c, s, hs, hc⟩ := value.head
    exact ⟨c, s ++ after.bytes, by rw [Elements.text, hs, List.cons_append], hc⟩
  | cons value after before rest =>
    obtain ⟨c, s, hs, hc⟩ := value.head
    exact ⟨c, _, by rw [Elements.text, hs, List.cons_append], hc⟩

theorem Members.head (ms : Members) : ∃ s, ms.text = 34 :: s := by
  cases ms with
  | last key afterKey before value after => exact ⟨_, rfl⟩
  | cons key afterKey before value after beforeKey rest => exact ⟨_, rfl⟩

mutual

/-- A tree that is not nested too deep is read as its value, up to its last byte. -/
theorem parse_tree (t : Tree) (limit : ℕ) (h : t.depth ≤ limit) (w : Blank) (found : Bool)
    (rest : List UInt8) (hstop : t.IsNumeral → Stops rest) :
    parseVariant limit found (w.bytes ++ (t.text ++ rest)) = .ok (t.value, rest) := by
  obtain ⟨c, s, hs, hspace, -⟩ := t.head
  have hfirst : parseVariant limit found (w.bytes ++ (t.text ++ rest)) =
      parseVariantWith (nested limit) true (t.text ++ rest) := by
    rw [hs]
    exact parseVariant_blank w limit found hspace (s ++ rest)
  rw [hfirst]
  cases t with
  | null => rfl
  | boolean b =>
    cases b with
    | false => rfl
    | true => rfl
  | numeral n => exact parseVariantWith_numeral n (nested limit) (hstop trivial)
  | string q =>
    have hread := parseQuotedString_quoted q rest
    simp only [Tree.text, Quoted.text, List.cons_append, List.append_assoc, List.nil_append]
    show (parseQuotedString 34 0 [] (q.pieces.flatMap Piece.text ++ 34 :: rest) >>= _) = _
    rw [hread]
    rfl
  | emptyArray inner =>
    obtain ⟨limit, rfl⟩ := Nat.exists_eq_add_one.mpr (Nat.zero_lt_of_lt h)
    simp only [Tree.text, List.cons_append, List.append_assoc, List.nil_append]
    show parseArray (parseVariant limit true) (inner.bytes ++ 93 :: rest) = _
    rw [parseArray, skipSpaces_blank inner true (by decide)]
    rfl
  | array before elements =>
    obtain ⟨limit, rfl⟩ := Nat.exists_eq_add_one.mpr (Nat.zero_lt_of_lt h)
    obtain ⟨c, s, hes, hc, hne⟩ := elements.head
    have hdepth : elements.depth ≤ limit := Nat.le_of_succ_le_succ h
    have hfuel : elements.text.length < (elements.text ++ 93 :: rest).length + 1 := by
      rw [List.length_append]
      omega
    have hread := parse_elements elements limit hdepth _ hfuel .none [] rest
    simp only [Tree.text, List.cons_append, List.append_assoc, List.nil_append]
    show parseArray (parseVariant limit true) (before.bytes ++ (elements.text ++ 93 :: rest)) = _
    rw [hes, List.cons_append] at hread ⊢
    rw [parseArray, skipSpaces_blank before true hc]
    simp only [bind, Except.bind]
    split
    · next heq => exact absurd (List.cons.inj heq).1 hne
    · exact hread
  | emptyObject inner =>
    obtain ⟨limit, rfl⟩ := Nat.exists_eq_add_one.mpr (Nat.zero_lt_of_lt h)
    simp only [Tree.text, List.cons_append, List.append_assoc, List.nil_append]
    show parseObject (parseVariant limit true) (inner.bytes ++ 125 :: rest) = _
    rw [parseObject, skipSpaces_blank inner true (by decide)]
    rfl
  | object before members =>
    obtain ⟨limit, rfl⟩ := Nat.exists_eq_add_one.mpr (Nat.zero_lt_of_lt h)
    obtain ⟨s, hms⟩ := members.head
    have hdepth : members.depth ≤ limit := Nat.le_of_succ_le_succ h
    have hfuel : members.text.length < (members.text ++ 125 :: rest).length + 1 := by
      rw [List.length_append]
      omega
    have hread := parse_members members limit hdepth _ hfuel [] rest
    simp only [Tree.text, List.cons_append, List.append_assoc, List.nil_append]
    show parseObject (parseVariant limit true) (before.bytes ++ (members.text ++ 125 :: rest)) = _
    rw [hms, List.cons_append] at hread ⊢
    rw [parseObject, skipSpaces_blank before true (by decide)]
    exact hread

/-- The elements behind those that have been read, up to the bracket. -/
theorem parse_elements (es : Elements) (limit : ℕ) (h : es.depth ≤ limit) (fuel : ℕ)
    (hfuel : es.text.length < fuel) (w : Blank) (acc : List Json) (rest : List UInt8) :
    parseElements (parseVariant limit true) fuel acc (w.bytes ++ (es.text ++ 93 :: rest)) =
      .ok (.array (acc ++ es.values), rest) := by
  cases fuel with
  | zero => omega
  | succ fuel =>
    cases es with
    | last value after =>
      have hstop : value.IsNumeral → Stops (after.bytes ++ 93 :: rest) := fun _ =>
        stops_blank after (by decide) rest
      have hvalue := parse_tree value limit h w true (after.bytes ++ 93 :: rest) hstop
      rw [Elements.text, List.append_assoc, parseElements, hvalue]
      simp only [bind, Except.bind, skipSpaces_blank after true (c := 93) (by decide)]
      rfl
    | cons value after before others =>
      simp only [Elements.text, List.length_append, List.length_cons] at hfuel
      have hstop : value.IsNumeral →
          Stops (after.bytes ++ 44 :: (before.bytes ++ (others.text ++ 93 :: rest))) := fun _ =>
        stops_blank after (by decide) _
      have hvalue := parse_tree value limit ((le_max_left _ _).trans h) w true _ hstop
      have hothers := parse_elements others limit ((le_max_right _ _).trans h) fuel (by omega)
        before (acc ++ [value.value]) rest
      simp only [Elements.text, List.append_assoc, List.cons_append]
      rw [parseElements, hvalue]
      simp only [bind, Except.bind, skipSpaces_blank after true (c := 44) (by decide)]
      rw [hothers, Elements.values, List.append_assoc]
      rfl

/-- The members behind those that have been read, up to the brace. -/
theorem parse_members (ms : Members) (limit : ℕ) (h : ms.depth ≤ limit) (fuel : ℕ)
    (hfuel : ms.text.length < fuel) (acc : List (List UInt8 × Json)) (rest : List UInt8) :
    parseMembers (parseVariant limit true) fuel acc (ms.text ++ 125 :: rest) =
      .ok (.object (ms.addTo acc), rest) := by
  cases fuel with
  | zero => omega
  | succ fuel =>
    cases ms with
    | last key afterKey before value after =>
      have hstop : value.IsNumeral → Stops (after.bytes ++ 125 :: rest) := fun _ =>
        stops_blank after (by decide) rest
      have hvalue := parse_tree value limit h before true (after.bytes ++ 125 :: rest) hstop
      have hkey := parseKey_quoted key
        (afterKey.bytes ++ 58 :: (before.bytes ++ (value.text ++ (after.bytes ++ 125 :: rest))))
      simp only [Members.text, List.append_assoc, List.cons_append]
      rw [parseMembers, hkey]
      simp only [bind, Except.bind, skipSpaces_blank afterKey true (c := 58) (by decide), hvalue,
        skipSpaces_blank after true (c := 125) (by decide)]
      rfl
    | cons key afterKey before value after beforeKey others =>
      simp only [Members.text, List.length_append, List.length_cons] at hfuel
      have hstop : value.IsNumeral →
          Stops (after.bytes ++ 44 :: (beforeKey.bytes ++ (others.text ++ 125 :: rest))) :=
        fun _ => stops_blank after (by decide) _
      have hvalue := parse_tree value limit ((le_max_left _ _).trans h) before true _ hstop
      have hothers := parse_members others limit ((le_max_right _ _).trans h) fuel (by omega)
        (Json.setIn key.bytes value.value acc) rest
      have hkey := parseKey_quoted key
        (afterKey.bytes ++ 58 :: (before.bytes ++ (value.text ++
          (after.bytes ++ 44 :: (beforeKey.bytes ++ (others.text ++ 125 :: rest))))))
      obtain ⟨s, hs⟩ := others.head
      have hnext : skipSpaces true (beforeKey.bytes ++ (others.text ++ 125 :: rest)) =
          .ok (others.text ++ 125 :: rest) := by
        rw [hs]
        exact skipSpaces_blank beforeKey true (by decide) _
      simp only [Members.text, List.append_assoc, List.cons_append]
      rw [parseMembers, hkey]
      simp only [bind, Except.bind, skipSpaces_blank afterKey true (c := 58) (by decide), hvalue,
        skipSpaces_blank after true (c := 44) (by decide), hnext]
      exact hothers

end

theorem Blank.nul_free (w : Blank) : (0 : UInt8) ∉ w.bytes := by
  intro h
  exact absurd (w.spaces 0 h) (by decide)

theorem CodeUnit.nul_free (u : CodeUnit) : (0 : UInt8) ∉ u.text := by
  have hdigit : ∀ d : HexDigit, (0 : UInt8) ≠ d.byte := by
    rintro ⟨byte, hvalid⟩ rfl
    exact absurd hvalid (by decide)
  simp [CodeUnit.text, hdigit]

theorem Quoted.nul_free (q : Quoted) : (0 : UInt8) ∉ q.text := by
  have hpiece : ∀ p : Piece, (0 : UInt8) ∉ p.text := by
    intro p
    cases p with
    | plain c h => simpa [Piece.text] using h.2.2.symm
    | escape e => cases e <;> decide
    | codeUnit u h => exact u.nul_free
    | surrogates high low hhigh hlow => simp [Piece.text, high.nul_free, low.nul_free]
  simp [Quoted.text, hpiece]

mutual

/-- No text has a terminator inside. -/
theorem Tree.nul_free (t : Tree) : (0 : UInt8) ∉ t.text := by
  cases t with
  | null => decide
  | boolean b => cases b <;> decide
  | numeral n =>
    intro h
    exact absurd ((numeral_head n.toNumeral).1 0 h) (by decide)
  | string q => exact q.nul_free
  | emptyArray inner => simp [Tree.text, inner.nul_free]
  | array before elements => simp [Tree.text, before.nul_free, elements.nul_free]
  | emptyObject inner => simp [Tree.text, inner.nul_free]
  | object before members => simp [Tree.text, before.nul_free, members.nul_free]

theorem Elements.nul_free (es : Elements) : (0 : UInt8) ∉ es.text := by
  cases es with
  | last value after => simp [Elements.text, value.nul_free, after.nul_free]
  | cons value after before rest =>
    simp [Elements.text, value.nul_free, after.nul_free, before.nul_free, rest.nul_free]

theorem Members.nul_free (ms : Members) : (0 : UInt8) ∉ ms.text := by
  cases ms with
  | last key afterKey before value after =>
    simp [Members.text, key.nul_free, afterKey.nul_free, before.nul_free, value.nul_free,
      after.nul_free]
  | cons key afterKey before value after beforeKey rest =>
    simp [Members.text, key.nul_free, afterKey.nul_free, before.nul_free, value.nul_free,
      after.nul_free, beforeKey.nul_free, rest.nul_free]

end

/-- Only a numeral has a number for its value. -/
theorem Tree.isNumeral_of_isNumber {t : Tree} (h : t.value.isNumber) : t.IsNumeral := by
  cases t with
  | numeral n => trivial
  | _ => cases h

/-- `é`, as an escape. -/
def eAcute : Quoted where
  pieces := [.codeUnit ⟨.zero, .zero, ⟨101, by decide⟩, ⟨57, by decide⟩⟩
    ⟨by unfold CodeUnit.IsHigh; decide, by unfold CodeUnit.IsLow; decide⟩]
  short := by decide

theorem eAcute_spec : eAcute.text = ascii "\"\\u00e9\"" ∧ eAcute.bytes = [195, 169] := by
  decide

end Esp32Automation.JsonText
