import Esp32Automation.Json

/-!
# `JsonDeserializer`

The recursive-descent parser behind `deserializeJson`, with the library's default
configuration: no comments, no NaN or infinity, Unicode escapes decoded, nesting
limit ten. The input is the list of bytes in front of the first NUL, which is where
the reader's latch reports the end of the text. Nesting is bounded by structural
recursion on the limit; the element and member loops run on fuel, one more than the
bytes that are left, and `parseElements_fuel` and `parseMembers_fuel` show that more
fuel changes nothing.
-/
namespace Esp32Automation.JsonDeserializer

/-- `DeserializationError::Code` without `Ok`. -/
inductive Error where
  | emptyInput
  | incompleteInput
  | invalidInput
  | noMemory
  | tooDeep
  deriving DecidableEq, Repr

/-- A parser either fails or returns a value and the rest of the input. -/
abbrev Parser (α : Type) := List UInt8 → Except Error (α × List UInt8)

def isSpace (c : UInt8) : Bool := c = 32 || c = 9 || c = 13 || c = 10

def isBetween (c lo hi : UInt8) : Bool := lo ≤ c && c ≤ hi

def canBeInNumber (c : UInt8) : Bool :=
  isBetween c 48 57 || c = 43 || c = 45 || c = 46 || c = 101 || c = 69

def canBeInNonQuotedString (c : UInt8) : Bool :=
  isBetween c 48 57 || isBetween c 95 122 || isBetween c 65 90

def isQuote (c : UInt8) : Bool := c = 39 || c = 34

/-- `skipSpacesAndComments`; `found` is `foundSomething_`. -/
def skipSpaces (found : Bool) (s : List UInt8) : Except Error (List UInt8) :=
  match s.dropWhile isSpace with
  | [] => .error (if found then .incompleteInput else .emptyInput)
  | c :: s => .ok (c :: s)

def skipKeyword : List UInt8 → List UInt8 → Except Error (List UInt8)
  | [], s => .ok s
  | _ :: _, [] => .error .incompleteInput
  | k :: ks, c :: s => if k = c then skipKeyword ks s else .error .invalidInput

/-- `EscapeSequence::unescapeChar`; zero when the character is in no escape pair. -/
def unescapeChar (c : UInt8) : UInt8 :=
  if c = 47 ∨ c = 39 ∨ c = 34 ∨ c = 92 then c
  else if c = 98 then 8
  else if c = 102 then 12
  else if c = 110 then 10
  else if c = 114 then 13
  else if c = 116 then 9
  else 0

/-- `decodeHex`, with its eight-bit arithmetic. -/
def decodeHex (c : UInt8) : UInt8 := if c < 65 then c - 48 else (c &&& 0xDF) - 65 + 10

/-- `parseHex4` when four characters are left. -/
def hex4 (a b c d : UInt8) : Except Error ℕ :=
  let digits := [a, b, c, d].map decodeHex
  if digits.all (· ≤ 15) then .ok (digits.foldl (fun n x => n * 16 + x.toNat) 0)
  else .error .invalidInput

/-- `parseHex4` when the input ends inside the escape. -/
def hex4Short (s : List UInt8) : Error :=
  if s.all (fun c => decodeHex c ≤ 15) then .incompleteInput else .invalidInput

/-- `Utf16::Codepoint::append`: the new high surrogate, and the code point if there
is one. -/
def appendCodeunit (high unit : ℕ) : ℕ × Option ℕ :=
  if 0xD800 ≤ unit ∧ unit < 0xDC00 then (unit % 0x400, none)
  else if 0xDC00 ≤ unit ∧ unit < 0xE000 then (high, some (0x10000 + (high * 0x400 + unit % 0x400)))
  else (high, some unit)

/-- `Utf8::encodeCodepoint`. -/
def encodeCodepoint (cp : ℕ) : List UInt8 :=
  if cp < 0x80 then [cp.toUInt8]
  else
    let tail (n : ℕ) : UInt8 := (0x80 + n % 0x40).toUInt8
    if cp / 0x40 < 0x20 then [(0xC0 + cp / 0x40).toUInt8, tail cp]
    else if cp / 0x1000 < 0x10 then [(0xE0 + cp / 0x1000).toUInt8, tail (cp / 0x40), tail cp]
    else [(0xF0 + cp / 0x40000).toUInt8, tail (cp / 0x1000), tail (cp / 0x40), tail cp]

/-- A string that outgrew its node is reported when its end is reached. -/
def saveString (acc : List UInt8) (rest : List UInt8) : Except Error (List UInt8 × List UInt8) :=
  if acc.length ≤ Json.maxLength then .ok (acc.reverse, rest) else .error .noMemory

/-- `parseQuotedString` behind the opening quote; `acc` is the text in reverse. -/
def parseQuotedString (stopChar : UInt8) : ℕ → List UInt8 → Parser (List UInt8)
  | _, _, [] => .error .incompleteInput
  | high, acc, c :: s =>
    if c = stopChar then saveString acc s
    else if c = 92 then
      match s with
      | [] => .error .incompleteInput
      | e :: s =>
        if e = 117 then
          match s with
          | a :: b :: c :: d :: s =>
            match hex4 a b c d with
            | .error err => .error err
            | .ok unit =>
              match appendCodeunit high unit with
              | (high, none) => parseQuotedString stopChar high acc s
              | (high, some cp) =>
                parseQuotedString stopChar high ((encodeCodepoint cp).reverse ++ acc) s
          | short => .error (hex4Short short)
        else if unescapeChar e = 0 then .error .invalidInput
        else parseQuotedString stopChar high (unescapeChar e :: acc) s
    else parseQuotedString stopChar high (c :: acc) s

def parseNonQuotedString (s : List UInt8) : Except Error (List UInt8 × List UInt8) :=
  match s.takeWhile canBeInNonQuotedString with
  | [] => .error .invalidInput
  | key => saveString key.reverse (s.dropWhile canBeInNonQuotedString)

def parseKey : Parser (List UInt8)
  | [] => .error .invalidInput
  | c :: s => if isQuote c then parseQuotedString c 0 [] s else parseNonQuotedString (c :: s)

/-- `setFloat(double)`: a value that a `float` holds exactly is stored as one. -/
def storeDouble (x : Float) : Json :=
  if x.toFloat32.toFloat == x then .float x.toFloat32 else .double x

/-- `parseNumericValue`: at most 63 characters are collected. -/
def parseNumericValue : Parser Json := fun s =>
  let text := (s.takeWhile canBeInNumber).take 63
  let rest := s.drop text.length
  match Number.parseNumber text with
  | .invalid => .error .invalidInput
  | .integer n => .ok (.integer n, rest)
  | .float x => .ok (.float x, rest)
  | .double x => .ok (storeDouble x, rest)

/-- The element loop of `parseArray`. -/
def parseElements (value : Parser Json) : ℕ → List Json → Parser Json
  | 0, _, _ => .error .incompleteInput
  | fuel + 1, acc, s => do
    let (v, s) ← value s
    match ← skipSpaces true s with
    | 93 :: s => .ok (.array (acc ++ [v]), s)
    | 44 :: s => parseElements value fuel (acc ++ [v]) s
    | _ => .error .invalidInput

/-- The member loop of `parseObject`. A repeated key replaces the earlier value. -/
def parseMembers (value : Parser Json) :
    ℕ → List (List UInt8 × Json) → Parser Json
  | 0, _, _ => .error .incompleteInput
  | fuel + 1, ms, s => do
    let (key, s) ← parseKey s
    match ← skipSpaces true s with
    | 58 :: s => do
      let (v, s) ← value s
      match ← skipSpaces true s with
      | 125 :: s => .ok (.object (Json.setIn key v ms), s)
      | 44 :: s => do
        let s ← skipSpaces true s
        parseMembers value fuel (Json.setIn key v ms) s
      | _ => .error .invalidInput
    | _ => .error .invalidInput

/-- `parseArray` behind the opening bracket. -/
def parseArray (value : Parser Json) (s : List UInt8) : Except Error (Json × List UInt8) := do
  match ← skipSpaces true s with
  | 93 :: s => .ok (.array [], s)
  | s => parseElements value (s.length + 1) [] s

/-- `parseObject` behind the opening brace. -/
def parseObject (value : Parser Json) (s : List UInt8) : Except Error (Json × List UInt8) := do
  match ← skipSpaces true s with
  | 125 :: s => .ok (.object [], s)
  | s => parseMembers value (s.length + 1) [] s

/-- `parseVariant`; `nested` parses the values inside a collection, and is absent when
the nesting limit is reached. -/
def parseVariantWith (nested : Option (Parser Json)) (found : Bool) (s : List UInt8) :
    Except Error (Json × List UInt8) := do
  match ← skipSpaces found s with
  | [] => .error .incompleteInput
  | c :: s =>
    if c = 91 then
      match nested with
      | none => .error .tooDeep
      | some value => parseArray value s
    else if c = 123 then
      match nested with
      | none => .error .tooDeep
      | some value => parseObject value s
    else if isQuote c then do
      let (text, s) ← parseQuotedString c 0 [] s
      .ok (.string text, s)
    else if c = 116 then do
      let s ← skipKeyword (ascii "true") (c :: s)
      .ok (.boolean true, s)
    else if c = 102 then do
      let s ← skipKeyword (ascii "false") (c :: s)
      .ok (.boolean false, s)
    else if c = 110 then do
      let s ← skipKeyword (ascii "null") (c :: s)
      .ok (.null, s)
    else parseNumericValue (c :: s)

def parseVariant : ℕ → Bool → List UInt8 → Except Error (Json × List UInt8)
  | 0, found, s => parseVariantWith none found s
  | limit + 1, found, s => parseVariantWith (some (parseVariant limit true)) found s

/-- `ARDUINOJSON_DEFAULT_NESTING_LIMIT`. -/
def nestingLimit : ℕ := 10

/-- `parse`: text behind a number at the root is an error, behind any other value not. -/
def parse (s : List UInt8) : Except Error Json := do
  let (v, rest) ← parseVariant nestingLimit false s
  if v.isNumber && !rest.isEmpty then .error .invalidInput else .ok v

/-- A successful parse leaves no more input than it was given. -/
def Shrinks {α : Type} (p : Parser α) : Prop :=
  ∀ s v rest, p s = .ok (v, rest) → rest.length ≤ s.length

lemma bind_eq_ok {α β : Type} {x : Except Error α} {f : α → Except Error β} {b : β}
    (h : x >>= f = .ok b) : ∃ a, x = .ok a ∧ f a = .ok b := by
  cases x with
  | error e => cases h
  | ok a => exact ⟨a, rfl, h⟩

lemma bind_congr_ok {α β : Type} {x : Except Error α} {f g : α → Except Error β}
    (h : ∀ a, x = .ok a → f a = g a) : x >>= f = x >>= g := by
  cases x with
  | error e => rfl
  | ok a => exact h a rfl

lemma skipSpaces_length {found : Bool} {s rest : List UInt8} (h : skipSpaces found s = .ok rest) :
    rest.length ≤ s.length := by
  have hd := (List.dropWhile_sublist isSpace (l := s)).length_le
  unfold skipSpaces at h
  split at h
  · cases h
  · next heq => cases h; rwa [heq] at hd

lemma skipKeyword_length {ks s rest : List UInt8} (h : skipKeyword ks s = .ok rest) :
    rest.length ≤ s.length := by
  induction ks generalizing s with
  | nil => cases h; exact le_rfl
  | cons k ks ih =>
    cases s with
    | nil => cases h
    | cons c s =>
      simp only [skipKeyword] at h
      split_ifs at h
      exact (ih h).trans (by simp)

lemma saveString_length {acc s v rest : List UInt8} (h : saveString acc s = .ok (v, rest)) :
    rest.length ≤ s.length := by
  unfold saveString at h
  split_ifs at h
  cases h; exact le_rfl

lemma parseQuotedString_shrinks (q : UInt8) (high : ℕ) (acc : List UInt8) :
    Shrinks (parseQuotedString q high acc) := by
  intro s v rest h
  fun_induction parseQuotedString q high acc s <;>
    first
    | cases h
    | (have hl := saveString_length h; simp only [List.length_cons]; omega)
    | (next ih => have hl := ih h; simp only [List.length_cons]; omega)

lemma parseKey_shrinks : Shrinks parseKey := by
  intro s v rest h
  cases s with
  | nil => cases h
  | cons c s =>
    simp only [parseKey] at h
    split_ifs at h
    · have := parseQuotedString_shrinks c 0 [] s v rest h
      simp only [List.length_cons]; omega
    · unfold parseNonQuotedString at h
      split at h
      · cases h
      · exact (saveString_length h).trans (List.dropWhile_sublist _).length_le

lemma parseNumericValue_shrinks : Shrinks parseNumericValue := by
  intro s v rest h
  have hd : ∀ n, (s.drop n).length ≤ s.length := fun n => by simp
  unfold parseNumericValue at h
  simp only at h
  split at h <;> cases h <;> exact hd _

lemma parseElements_shrinks {value : Parser Json} (hv : Shrinks value) (fuel : ℕ)
    (acc : List Json) : Shrinks (parseElements value fuel acc) := by
  induction fuel generalizing acc with
  | zero => intro s v rest h; cases h
  | succ fuel ih =>
    intro s v rest h
    obtain ⟨⟨v₁, s₁⟩, h₁, h⟩ := bind_eq_ok h
    obtain ⟨s₂, h₂, h⟩ := bind_eq_ok h
    have hl₁ := hv _ _ _ h₁
    have hl₂ := skipSpaces_length h₂
    split at h
    · cases h
      simp only [List.length_cons] at hl₂
      omega
    · have hl := ih _ _ _ _ h
      simp only [List.length_cons] at hl₂
      omega
    · cases h

lemma parseMembers_shrinks {value : Parser Json} (hv : Shrinks value) (fuel : ℕ)
    (ms : List (List UInt8 × Json)) : Shrinks (parseMembers value fuel ms) := by
  induction fuel generalizing ms with
  | zero => intro s v rest h; cases h
  | succ fuel ih =>
    intro s v rest h
    obtain ⟨⟨key, s₁⟩, h₁, h⟩ := bind_eq_ok h
    obtain ⟨s₂, h₂, h⟩ := bind_eq_ok h
    have hl₁ := parseKey_shrinks _ _ _ h₁
    have hl₂ := skipSpaces_length h₂
    split at h
    · obtain ⟨⟨v₃, s₃⟩, h₃, h⟩ := bind_eq_ok h
      obtain ⟨s₄, h₄, h⟩ := bind_eq_ok h
      have hl₃ := hv _ _ _ h₃
      have hl₄ := skipSpaces_length h₄
      simp only [List.length_cons] at hl₂
      split at h
      · cases h
        simp only [List.length_cons] at hl₄
        omega
      · obtain ⟨s₅, h₅, h⟩ := bind_eq_ok h
        have hl₅ := skipSpaces_length h₅
        have hl := ih _ _ _ _ h
        simp only [List.length_cons] at hl₄
        omega
      · cases h
    · cases h

lemma parseVariantWith_shrinks {nested : Option (Parser Json)}
    (hn : ∀ value, nested = some value → Shrinks value) (found : Bool) :
    Shrinks (parseVariantWith nested found) := by
  intro s v rest h
  obtain ⟨s₁, h₁, h⟩ := bind_eq_ok h
  have hl₁ := skipSpaces_length h₁
  split at h
  · cases h
  · next c s =>
    have hlc : s.length < (c :: s).length := by simp
    split_ifs at h with ha ho hq ht hf hnull
    · split at h
      · cases h
      · obtain ⟨s₂, h₂, h⟩ := bind_eq_ok h
        have hl₂ := skipSpaces_length h₂
        split at h
        · cases h; simp only [List.length_cons] at hl₂; omega
        · have hl := parseElements_shrinks (hn _ rfl) _ _ _ _ _ h; omega
    · split at h
      · cases h
      · obtain ⟨s₂, h₂, h⟩ := bind_eq_ok h
        have hl₂ := skipSpaces_length h₂
        split at h
        · cases h; simp only [List.length_cons] at hl₂; omega
        · have hl := parseMembers_shrinks (hn _ rfl) _ _ _ _ _ h; omega
    · obtain ⟨⟨text, s₂⟩, h₂, h⟩ := bind_eq_ok h
      have hl := parseQuotedString_shrinks c 0 [] _ _ _ h₂
      cases h; omega
    · obtain ⟨s₂, h₂, h⟩ := bind_eq_ok h
      have hl := skipKeyword_length h₂
      cases h; omega
    · obtain ⟨s₂, h₂, h⟩ := bind_eq_ok h
      have hl := skipKeyword_length h₂
      cases h; omega
    · obtain ⟨s₂, h₂, h⟩ := bind_eq_ok h
      have hl := skipKeyword_length h₂
      cases h; omega
    · exact (parseNumericValue_shrinks _ _ _ h).trans hl₁

/-- Whatever the nesting limit, parsing a value never lengthens the input. -/
theorem parseVariant_shrinks (limit : ℕ) (found : Bool) : Shrinks (parseVariant limit found) := by
  induction limit generalizing found with
  | zero => exact parseVariantWith_shrinks (fun _ hv => by cases hv) found
  | succ limit ih =>
    refine parseVariantWith_shrinks (fun value hv => ?_) found
    obtain rfl := Option.some.inj hv
    exact ih true

/-- Two fuels that both exceed the input give the same array. -/
theorem parseElements_fuel {value : Parser Json} (hv : Shrinks value) {f₁ f₂ : ℕ}
    {acc : List Json} {s : List UInt8} (h₁ : s.length < f₁) (h₂ : s.length < f₂) :
    parseElements value f₁ acc s = parseElements value f₂ acc s := by
  induction f₁ generalizing f₂ acc s with
  | zero => omega
  | succ f₁ ih =>
    cases f₂ with
    | zero => omega
    | succ f₂ =>
      simp only [parseElements]
      refine bind_congr_ok fun r hr => bind_congr_ok fun s₂ hs₂ => ?_
      have hl₁ := hv _ _ _ hr
      have hl₂ := skipSpaces_length hs₂
      split
      · rfl
      · simp only [List.length_cons] at hl₂
        exact ih (by omega) (by omega)
      · rfl

/-- Two fuels that both exceed the input give the same object. -/
theorem parseMembers_fuel {value : Parser Json} (hv : Shrinks value) {f₁ f₂ : ℕ}
    {ms : List (List UInt8 × Json)} {s : List UInt8} (h₁ : s.length < f₁) (h₂ : s.length < f₂) :
    parseMembers value f₁ ms s = parseMembers value f₂ ms s := by
  induction f₁ generalizing f₂ ms s with
  | zero => omega
  | succ f₁ ih =>
    cases f₂ with
    | zero => omega
    | succ f₂ =>
      simp only [parseMembers]
      refine bind_congr_ok fun key hkey => bind_congr_ok fun s₂ hs₂ => ?_
      have hl₁ := parseKey_shrinks _ _ _ hkey
      have hl₂ := skipSpaces_length hs₂
      split
      · refine bind_congr_ok fun r hr => bind_congr_ok fun s₄ hs₄ => ?_
        have hl₃ := hv _ _ _ hr
        have hl₄ := skipSpaces_length hs₄
        simp only [List.length_cons] at hl₂
        split
        · rfl
        · refine bind_congr_ok fun s₅ hs₅ => ?_
          have hl₅ := skipSpaces_length hs₅
          simp only [List.length_cons] at hl₄
          exact ih (by omega) (by omega)
        · rfl
      · rfl

end JsonDeserializer

/-- `deserializeJson(doc, text)`. The end of an Arduino `String`, the terminator of a
`char` array and a NUL byte inside either all read as zero, where parsing stops. -/
def deserializeJson (text : List UInt8) : Except JsonDeserializer.Error Json :=
  JsonDeserializer.parse (CString.ofBytes text).bytes

/-- Only the bytes in front of the terminator count. -/
theorem deserializeJson_ofBytes (text : List UInt8) :
    deserializeJson (CString.ofBytes text).bytes = deserializeJson text := by
  rw [deserializeJson, CString.ofBytes_bytes, deserializeJson]

/-- The document of a text, if the text has one. -/
theorem mem_deserializeJson {text : List UInt8} {doc : Json} :
    doc ∈ (deserializeJson text).toOption ↔ deserializeJson text = .ok doc := by
  cases deserializeJson text with
  | error err => simp [Except.toOption]
  | ok jsonDoc => simp [Except.toOption]

end Esp32Automation
