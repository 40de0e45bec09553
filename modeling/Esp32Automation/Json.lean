import Esp32Automation.CString
import Mathlib.Algebra.Order.Ring.Int

/-!
# JSON documents of ArduinoJson 7

Values as `VariantData` stores them and the conversions the sketches apply to them.
`StaticJsonDocument` is a deprecated alias of the elastic `JsonDocument`, so its
capacity bounds nothing. Bounds that remain are `StringNode::maxLength`
and the 32- and 64-bit integer ranges. Heap exhaustion is not modelled.

Floating-point numbers are Lean's own `Float` and `Float32`, the IEEE 754 types that
`double` and `float` are on the target.
-/
namespace Esp32Automation

/-- `VariantData`: the integer kinds of both widths and signs are one constructor. -/
inductive Json where
  | null
  | boolean (b : Bool)
  | integer (n : ℤ)
  | float (x : Float32)
  | double (x : Float)
  | string (s : List UInt8)
  | array (elements : List Json)
  | object (members : List (List UInt8 × Json))

/-- The result of `parseNumber`. -/
inductive Number where
  | invalid
  | integer (n : ℤ)
  | float (x : Float32)
  | double (x : Float)

namespace Number

def isDigit (c : UInt8) : Bool := 48 ≤ c && c ≤ 57
def digit (c : UInt8) : ℕ := c.toNat - 48

def maxUint : ℕ := 2 ^ 64 - 1
/-- `FloatTraits<double>::mantissa_max` and `FloatTraits<float>::mantissa_max`. -/
def mantissaMax : ℕ := 2 ^ 52 - 1
def mantissaMax32 : ℕ := 2 ^ 23 - 1
def exponentMax : ℤ := 308
def exponentMax32 : ℤ := 38

/-- `exponent_t` is a 16-bit integer. -/
def wrap16 (n : ℤ) : ℤ := n.bmod (2 ^ 16)

/-- The first digit loop. It stops at the first digit that would overflow 64 bits;
when the addition overflows, the mantissa has been multiplied already. -/
def readMantissa (m : ℕ) : List UInt8 → ℕ × List UInt8
  | [] => (m, [])
  | c :: s =>
    if isDigit c then
      if maxUint / 10 < m then (m, c :: s)
      else if maxUint - digit c < m * 10 then (m * 10, c :: s)
      else readMantissa (m * 10 + digit c) s
    else (m, c :: s)

/-- Divide by ten until the mantissa fits; the fuel covers every 64-bit value. -/
def shrinkMantissa : ℕ → ℕ → ℤ → ℕ × ℤ
  | 0, m, off => (m, off)
  | fuel + 1, m, off =>
    if mantissaMax < m then shrinkMantissa fuel (m / 10) (wrap16 (off + 1)) else (m, off)

def skipDigits (off : ℤ) : List UInt8 → ℤ × List UInt8
  | [] => (off, [])
  | c :: s => if isDigit c then skipDigits (wrap16 (off + 1)) s else (off, c :: s)

/-- Digits behind the decimal point, taken while the mantissa has room. -/
def readFraction (m : ℕ) (off : ℤ) : List UInt8 → ℕ × ℤ × List UInt8
  | [] => (m, off, [])
  | c :: s =>
    if isDigit c then
      if m < mantissaMax / 10 then readFraction (m * 10 + digit c) (wrap16 (off - 1)) s
      else readFraction m off s
    else (m, off, c :: s)

/-- Exponent digits; `none` when the exponent exceeds what a double can have. -/
def readExponent (off exponent : ℤ) : List UInt8 → Option (ℤ × List UInt8)
  | [] => some (exponent, [])
  | c :: s =>
    if isDigit c then
      let exponent := exponent * 10 + digit c
      if exponentMax < exponent + off then none else readExponent off exponent s
    else some (exponent, c :: s)

def positiveBinaryPowersOfTen : List Float :=
  [0x4024000000000000, 0x4059000000000000, 0x40C3880000000000, 0x4197D78400000000,
    0x4341C37937E08000, 0x4693B8B5B5056E17, 0x4D384F03E93FF9F5, 0x5A827748F9301D32,
    0x75154FDD7F73BF3C].map Float.ofBits

def negativeBinaryPowersOfTen : List Float :=
  [0x3FB999999999999A, 0x3F847AE147AE147B, 0x3F1A36E2EB1C432D, 0x3E45798EE2308C3A,
    0x3C9CD2B297D889BC, 0x3949F623D5A8A733, 0x32A50FFD44F4A73D, 0x255BBA08CF8C979D,
    0x0AC8062864AC6F43].map Float.ofBits

def positiveBinaryPowersOfTen32 : List Float32 :=
  [0x41200000, 0x42c80000, 0x461c4000, 0x4cbebc20, 0x5a0e1bca, 0x749dc5ae].map Float32.ofBits

def negativeBinaryPowersOfTen32 : List Float32 :=
  [0x3dcccccd, 0x3c23d70a, 0x38d1b717, 0x322bcc77, 0x24e69595, 0x0a4fb11f].map Float32.ofBits

/-- The loop of `make_float`: one factor for each bit of the exponent. An exponent
beyond the table, which the source would read out of bounds for, has no factor here. -/
def applyPowers {α : Type} [Mul α] : List α → ℕ → α → α
  | [], _, m => m
  | p :: ps, e, m => applyPowers ps (e / 2) (if e % 2 = 1 then m * p else m)

def makeDouble (m : ℕ) (e : ℤ) : Float :=
  applyPowers (if 0 < e then positiveBinaryPowersOfTen else negativeBinaryPowersOfTen)
    e.natAbs (Float.ofNat m)

def makeFloat (m : ℕ) (e : ℤ) : Float32 :=
  applyPowers (if 0 < e then positiveBinaryPowersOfTen32 else negativeBinaryPowersOfTen32)
    e.natAbs (Float32.ofNat m)

/-- `make_float` and the choice of the width at the end of `parseNumber`. -/
def ofDecimal (negative : Bool) (m : ℕ) (e : ℤ) : Number :=
  if e < -exponentMax32 ∨ exponentMax32 < e ∨ mantissaMax32 < m then
    .double (if negative then -(makeDouble m e) else makeDouble m e)
  else .float (if negative then -(makeFloat m e) else makeFloat m e)

/-- A number with a fraction or an exponent, or too long for an integer. -/
def parseDecimal (negative : Bool) (m : ℕ) (s : List UInt8) : Number :=
  let (m, off) := shrinkMantissa 20 m 0
  let (off, s) := skipDigits off s
  let (m, off, s) := match s with
    | 46 :: s => readFraction m off s
    | s => (m, off, s)
  match s with
  | [] => ofDecimal negative m off
  | c :: s =>
    if c = 101 ∨ c = 69 then
      let (negativeExponent, s) := match s with
        | 45 :: s => (true, s)
        | 43 :: s => (false, s)
        | s => (false, s)
      match readExponent off 0 s with
      | none =>
        if negativeExponent then .float (if negative then -0.0 else 0.0)
        else .double (if negative then Float.ofBits 0xfff0000000000000
          else Float.ofBits 0x7ff0000000000000)
      | some (exponent, []) =>
        ofDecimal negative m ((if negativeExponent then -exponent else exponent) + off)
      | some (_, _ :: _) => .invalid
    else .invalid

/-- `parseNumber` on the bytes of a zero-terminated string. -/
def parseNumber (text : List UInt8) : Number :=
  let (negative, s) := match text with
    | 45 :: s => (true, s)
    | 43 :: s => (false, s)
    | s => (false, s)
  match s with
  | [] => .invalid
  | c :: _ =>
    if !isDigit c && c != 46 then .invalid
    else
      let (m, rest) := readMantissa 0 s
      if rest = [] ∧ negative = false then .integer m
      else if rest = [] ∧ m ≤ 2 ^ 63 then .integer (-m)
      else parseDecimal negative m rest

end Number

/-- `convertNumber<int>` of an integer kind: out of range gives zero. -/
def convertNumber (n : ℤ) : ℤ := if -2 ^ 31 ≤ n ∧ n ≤ 2 ^ 31 - 1 then n else 0

/-- `convertNumber<int>` of a double, and of a float: truncation, or zero out of range. -/
def convertDouble (x : Float) : ℤ :=
  if Float.ofInt (-2147483648) ≤ x ∧ x ≤ Float.ofInt 2147483647 then x.toInt32.toInt else 0

def convertFloat (x : Float32) : ℤ :=
  if Float32.ofInt (-2147483648) ≤ x ∧ x ≤ Float32.ofBits 0x4EFFFFFF then x.toInt32.toInt else 0

def Number.convertTo : Number → ℤ
  | .invalid => 0
  | .integer n => convertNumber n
  | .float x => convertFloat x
  | .double x => convertDouble x

namespace Json

/-- `Converter<int>::fromJson`. A string is parsed as a number. -/
def asInt : Json → ℤ
  | boolean b => if b then 1 else 0
  | integer n => convertNumber n
  | float x => convertFloat x
  | double x => convertDouble x
  | string s => (Number.parseNumber (CString.ofBytes s).bytes).convertTo
  | null | array _ | object _ => 0

/-- `Converter<const char*>::fromJson`: null unless the value is a string. -/
def asCharPtr : Json → Option CString
  | string s => some (CString.ofBytes s)
  | _ => none

def isString : Json → Bool
  | string _ => true
  | _ => false

/-- `variant.isFloat()`, true for every number kind. -/
def isNumber : Json → Bool
  | integer _ | float _ | double _ => true
  | _ => false

theorem asCharPtr_isSome (j : Json) : j.asCharPtr.isSome = j.isString := by
  cases j <;> rfl

theorem convertNumber_of_range {n : ℤ} (h : -2 ^ 31 ≤ n ∧ n ≤ 2 ^ 31 - 1) :
    convertNumber n = n := if_pos h

/-- `ObjectData::getMember`; a value that is not an object has no members. -/
def getMember (key : List UInt8) : Json → Option Json
  | object ms => (ms.find? fun m => m.1 == key).map Prod.snd
  | _ => none

/-- `doc.containsKey(key)`. -/
def containsKey (doc : Json) (key : String) : Bool := (doc.getMember (ascii key)).isSome

/-- `doc[key]` converted to `const char*`; an absent member converts to null. -/
def charPtr (doc : Json) (key : String) : Option CString :=
  (doc.getMember (ascii key)).bind asCharPtr

/-- `doc[key]` converted to `int`; an absent member converts to zero. -/
def int (doc : Json) (key : String) : ℤ := ((doc.getMember (ascii key)).map asInt).getD 0

/-- `is<const char*>()`, with the bytes. -/
def stringValue : Json → Option (List UInt8)
  | string s => some s
  | _ => none

/-- `is<int>()`, with the value: an integer kind in the range of `int`. -/
def intValue : Json → Option ℤ
  | integer n => if -2 ^ 31 ≤ n ∧ n ≤ 2 ^ 31 - 1 then some n else none
  | _ => none

/-- `doc[key] | value` for a `const char*`. -/
def orCharPtr (doc : Json) (key : String) (value : CString) : CString :=
  (doc.charPtr key).getD value

/-- `doc[key] | value` for an `int`. -/
def orInt (doc : Json) (key : String) (value : ℤ) : ℤ :=
  ((doc.getMember (ascii key)).bind intValue).getD value

theorem charPtr_eq_stringValue (doc : Json) (key : String) :
    doc.charPtr key =
      ((doc.getMember (ascii key)).bind stringValue).map CString.ofBytes := by
  rw [charPtr]
  cases doc.getMember (ascii key) with
  | none => rfl
  | some v => cases v <;> rfl

/-- Replace the value of an existing member, or append a new one. -/
def setIn (key : List UInt8) (value : Json) : List (List UInt8 × Json) → List (List UInt8 × Json)
  | [] => [(key, value)]
  | m :: ms => if m.1 = key then (key, value) :: ms else m :: setIn key value ms

/-- `doc[key] = value`. A null document becomes an object first. -/
def setMember (doc : Json) (key : String) (value : Json) : Json :=
  match doc with
  | null => object [(ascii key, value)]
  | object ms => object (setIn (ascii key) value ms)
  | other => other

/-- `StringNode::maxLength` for the two-byte string lengths of a 32-bit target. -/
def maxLength : ℕ := 65535

/-- Assigning an Arduino `String`: a string too long for a node leaves null. -/
def ofString (s : List UInt8) : Json := if s.length ≤ maxLength then string s else null

theorem find?_setIn_self (key : List UInt8) (value : Json) (ms : List (List UInt8 × Json)) :
    (setIn key value ms).find? (fun m => m.1 == key) = some (key, value) := by
  induction ms with
  | nil => simp [setIn]
  | cons m ms ih =>
    by_cases h : m.1 = key
    · simp [setIn, h]
    · simp [setIn, h, ih]

theorem find?_setIn_of_ne {key other : List UInt8} (hne : other ≠ key) (value : Json)
    (ms : List (List UInt8 × Json)) :
    (setIn key value ms).find? (fun m => m.1 == other) = ms.find? (fun m => m.1 == other) := by
  induction ms with
  | nil => simp [setIn, Ne.symm hne]
  | cons m ms ih =>
    by_cases h : m.1 = key
    · subst h; simp [setIn, Ne.symm hne]
    · simp [setIn, h, ih, List.find?_cons]

/-- Reading back the member that was set, and any other member. -/
theorem getMember_setMember (key : String) (value : Json) (ms : List (List UInt8 × Json))
    (other : List UInt8) :
    ((object ms).setMember key value).getMember other =
      if other = ascii key then some value else (object ms).getMember other := by
  split_ifs with h
  · subst h; simp [setMember, getMember, find?_setIn_self]
  · simp [setMember, getMember, find?_setIn_of_ne h]

end Json
end Esp32Automation
