import Esp32Automation.JsonText
import Esp32Automation.JsonSerializer

/-!
# Documents and their texts

What the deserializer can produce: integers of 64 bits, strings that fit a node, objects with
distinct keys, all nested no deeper than its limit. The serializer spells such a document as a
syntax tree with that value, so that a document survives being sent as text. Its text is no
beginning of another one: what is cut off at the end of a buffer is no document at all.
-/
namespace Esp32Automation
open JsonDeserializer JsonText

/-- A document of this nesting that the memory of ArduinoJson can hold. -/
inductive Json.Fits : ℕ → Json → Prop
  | null {limit : ℕ} : Fits limit .null
  | boolean {limit : ℕ} (b : Bool) : Fits limit (.boolean b)
  | integer {limit : ℕ} {n : ℤ} (h : Integral n) : Fits limit (.integer n)
  | float {limit : ℕ} (x : Float32) : Fits limit (.float x)
  | double {limit : ℕ} (x : Float) : Fits limit (.double x)
  | string {limit : ℕ} {s : List UInt8} (h : s.length ≤ maxLength) : Fits limit (.string s)
  | array {limit : ℕ} {es : List Json} (h : ∀ j ∈ es, Fits limit j) : Fits (limit + 1) (.array es)
  | object {limit : ℕ} {ms : List (List UInt8 × Json)} (distinct : (ms.map Prod.fst).Nodup)
      (keys : ∀ m ∈ ms, m.1.length ≤ maxLength) (values : ∀ m ∈ ms, Fits limit m.2) :
      Fits (limit + 1) (.object ms)

namespace JsonDeserializer

/-- All values that a parser returns. -/
def Yields {α : Type} (p : Parser α) (P : α → Prop) : Prop :=
  ∀ s v rest, p s = .ok (v, rest) → P v

theorem readMantissa_le (m : ℕ) (h : m ≤ Number.maxUint) (s : List UInt8) :
    (Number.readMantissa m s).1 ≤ Number.maxUint := by
  have hmax : Number.maxUint = 2 ^ 64 - 1 := rfl
  fun_induction Number.readMantissa m s with
  | case1 => exact h
  | case2 => exact h
  | case3 => omega
  | case4 m c s hdigit hten hdiff ih =>
    have hc : Number.digit c ≤ 255 := (Nat.sub_le _ _).trans (Nat.le_of_lt_succ c.toNat_lt)
    exact ih (by omega)
  | case5 => exact h

theorem parseNumber_integral {text : List UInt8} {n : ℤ}
    (h : Number.parseNumber text = .integer n) : Json.Integral n := by
  have hdecimal : ∀ negative m s, Number.parseDecimal negative m s ≠ .integer n := by
    intro negative m s
    unfold Number.parseDecimal Number.ofDecimal
    repeat' split
    all_goals simp_all
  have hmax : Number.maxUint = 2 ^ 64 - 1 := rfl
  unfold Number.parseNumber at h
  split at h
  next negative s hsplit =>
    cases s with
    | nil => cases h
    | cons c s =>
      have hle := readMantissa_le 0 (Nat.zero_le _) (c :: s)
      dsimp only at h
      split_ifs at h with hstart hpos hneg
      · obtain rfl := Number.integer.inj h
        constructor <;> omega
      · obtain rfl := Number.integer.inj h
        constructor <;> omega
      · exact absurd h (hdecimal _ _ _)

theorem parseNumericValue_fits (limit : ℕ) : Yields parseNumericValue (Json.Fits limit) := by
  intro s v rest h
  unfold parseNumericValue at h
  dsimp only at h
  split at h
  · cases h
  · next n hn =>
    cases h
    exact .integer (parseNumber_integral hn)
  · cases h
    exact .float _
  · next x _ =>
    cases h
    unfold storeDouble
    split_ifs
    · exact .float _
    · exact .double _

theorem saveString_fits (acc : List UInt8) :
    Yields (saveString acc) (fun text => text.length ≤ Json.maxLength) := by
  intro s v rest h
  unfold saveString at h
  split_ifs at h with hle
  cases h
  rwa [List.length_reverse]

theorem parseQuotedString_fits (q : UInt8) (high : ℕ) (acc : List UInt8) :
    Yields (parseQuotedString q high acc) (fun text => text.length ≤ Json.maxLength) := by
  intro s v rest h
  fun_induction parseQuotedString q high acc s <;>
    first
    | cases h
    | exact saveString_fits _ _ _ _ h
    | (next ih => exact ih h)

theorem parseKey_fits : Yields parseKey (fun key => key.length ≤ Json.maxLength) := by
  intro s v rest h
  cases s with
  | nil => cases h
  | cons c s =>
    simp only [parseKey] at h
    split_ifs at h
    · exact parseQuotedString_fits _ _ _ _ _ _ h
    · unfold parseNonQuotedString at h
      split at h
      · cases h
      · exact saveString_fits _ _ _ _ h

theorem parseElements_fits {limit : ℕ} {value : Parser Json}
    (hv : Yields value (Json.Fits limit)) (fuel : ℕ) (acc : List Json)
    (hacc : ∀ j ∈ acc, Json.Fits limit j) :
    Yields (parseElements value fuel acc) (Json.Fits (limit + 1)) := by
  induction fuel generalizing acc with
  | zero =>
    intro s v rest h
    cases h
  | succ fuel ih =>
    intro s v rest h
    obtain ⟨⟨v₁, s₁⟩, h₁, h⟩ := bind_eq_ok h
    obtain ⟨s₂, h₂, h⟩ := bind_eq_ok h
    have hsnoc : ∀ j ∈ acc ++ [v₁], Json.Fits limit j := by
      intro j hj
      obtain hj | hj := List.mem_append.mp hj
      · exact hacc j hj
      · obtain rfl := List.mem_singleton.mp hj
        exact hv _ _ _ h₁
    split at h
    · cases h
      exact .array hsnoc
    · exact ih _ hsnoc _ _ _ h
    · cases h

theorem map_fst_setIn (key : List UInt8) (value : Json) (ms : List (List UInt8 × Json)) :
    (Json.setIn key value ms).map Prod.fst =
      if key ∈ ms.map Prod.fst then ms.map Prod.fst else ms.map Prod.fst ++ [key] := by
  induction ms with
  | nil => rfl
  | cons m ms ih =>
    by_cases h : m.1 = key
    · simp [Json.setIn, h]
    · simp only [Json.setIn, if_neg h, List.map_cons, ih, List.mem_cons, Ne.symm h, false_or]
      split_ifs <;> rfl

theorem mem_setIn {key : List UInt8} {value : Json} {ms : List (List UInt8 × Json)}
    {m : List UInt8 × Json} (h : m ∈ Json.setIn key value ms) : m = (key, value) ∨ m ∈ ms := by
  induction ms with
  | nil => exact .inl (List.mem_singleton.mp h)
  | cons m' ms ih =>
    unfold Json.setIn at h
    split_ifs at h
    · exact (List.mem_cons.mp h).imp id (List.mem_cons_of_mem _)
    · obtain rfl | h := List.mem_cons.mp h
      · exact .inr List.mem_cons_self
      · exact (ih h).imp id (List.mem_cons_of_mem _)

/-- A member that is set keeps an object in shape. -/
theorem fits_setIn {limit : ℕ} {key : List UInt8} {value : Json}
    {ms : List (List UInt8 × Json)} (hkey : key.length ≤ Json.maxLength)
    (hvalue : Json.Fits limit value) (h : Json.Fits (limit + 1) (.object ms)) :
    Json.Fits (limit + 1) (.object (Json.setIn key value ms)) := by
  cases h with
  | object distinct keys values =>
    refine .object ?_ ?_ ?_
    · rw [map_fst_setIn]
      split_ifs with hmem
      · exact distinct
      · refine List.nodup_append.mpr ⟨distinct, List.pairwise_singleton _ _, ?_⟩
        intro a ha b hb hab
        obtain rfl := List.mem_singleton.mp hb
        exact hmem (hab ▸ ha)
    · intro m hm
      obtain rfl | hm := mem_setIn hm
      · exact hkey
      · exact keys m hm
    · intro m hm
      obtain rfl | hm := mem_setIn hm
      · exact hvalue
      · exact values m hm

theorem parseMembers_fits {limit : ℕ} {value : Parser Json}
    (hv : Yields value (Json.Fits limit)) (fuel : ℕ) (ms : List (List UInt8 × Json))
    (hms : Json.Fits (limit + 1) (.object ms)) :
    Yields (parseMembers value fuel ms) (Json.Fits (limit + 1)) := by
  induction fuel generalizing ms with
  | zero =>
    intro s v rest h
    cases h
  | succ fuel ih =>
    intro s v rest h
    obtain ⟨⟨key, s₁⟩, h₁, h⟩ := bind_eq_ok h
    obtain ⟨s₂, h₂, h⟩ := bind_eq_ok h
    have hkey := parseKey_fits _ _ _ h₁
    split at h
    · obtain ⟨⟨v₃, s₃⟩, h₃, h⟩ := bind_eq_ok h
      obtain ⟨s₄, h₄, h⟩ := bind_eq_ok h
      have hset := fits_setIn hkey (hv _ _ _ h₃) hms
      split at h
      · cases h
        exact hset
      · obtain ⟨s₅, h₅, h⟩ := bind_eq_ok h
        exact ih _ hset _ _ _ h
      · cases h
    · cases h

theorem parseVariantWith_fits {limit : ℕ} {nested : Option (Parser Json)}
    (hn : ∀ value, nested = some value → ∃ k, limit = k + 1 ∧ Yields value (Json.Fits k))
    (found : Bool) : Yields (parseVariantWith nested found) (Json.Fits limit) := by
  intro s v rest h
  obtain ⟨s₁, h₁, h⟩ := bind_eq_ok h
  split at h
  · cases h
  · split_ifs at h with ha ho hq ht hf hnull
    · split at h
      · cases h
      · obtain ⟨k, rfl, hv⟩ := hn _ rfl
        obtain ⟨s₂, h₂, h⟩ := bind_eq_ok h
        split at h
        · cases h
          exact .array (by simp)
        · exact parseElements_fits hv _ _ (by simp) _ _ _ h
    · split at h
      · cases h
      · obtain ⟨k, rfl, hv⟩ := hn _ rfl
        obtain ⟨s₂, h₂, h⟩ := bind_eq_ok h
        have hempty : Json.Fits (k + 1) (.object []) := .object (by simp) (by simp) (by simp)
        split at h
        · cases h
          exact hempty
        · exact parseMembers_fits hv _ _ hempty _ _ _ h
    · obtain ⟨⟨text, s₂⟩, h₂, h⟩ := bind_eq_ok h
      cases h
      exact .string (parseQuotedString_fits _ _ _ _ _ _ h₂)
    · obtain ⟨s₂, h₂, h⟩ := bind_eq_ok h
      cases h
      exact .boolean true
    · obtain ⟨s₂, h₂, h⟩ := bind_eq_ok h
      cases h
      exact .boolean false
    · obtain ⟨s₂, h₂, h⟩ := bind_eq_ok h
      cases h
      exact .null
    · exact parseNumericValue_fits limit _ _ _ h

theorem parseVariant_fits (limit : ℕ) (found : Bool) :
    Yields (parseVariant limit found) (Json.Fits limit) := by
  induction limit generalizing found with
  | zero => exact parseVariantWith_fits (fun _ hv => by cases hv) found
  | succ limit ih =>
    refine parseVariantWith_fits (fun value hv => ?_) found
    obtain rfl := Option.some.inj hv
    exact ⟨limit, rfl, ih true⟩

end JsonDeserializer

/-- A text is only accepted as a document that fits. -/
theorem deserializeJson_fits {text : List UInt8} {jsonDoc : Json}
    (h : deserializeJson text = .ok jsonDoc) : jsonDoc.Fits nestingLimit := by
  obtain ⟨⟨v, rest⟩, hv, h⟩ := bind_eq_ok h
  dsimp only at h
  split_ifs at h
  cases h
  exact parseVariant_fits _ _ _ _ _ hv

namespace JsonText

/-- The code unit of NUL. -/
def CodeUnit.zero : CodeUnit := ⟨.zero, .zero, .zero, .zero⟩

theorem CodeUnit.zero_unit : ¬ zero.IsHigh ∧ ¬ zero.IsLow := by
  unfold IsHigh IsLow
  decide

/-- How the serializer spells a byte of a string. -/
def Piece.ofByte (c : UInt8) : Piece :=
  if h : c = 34 then .escape .quote
  else if h' : c = 92 then .escape .backslash
  else if c = 8 then .escape .backspace
  else if c = 12 then .escape .formFeed
  else if c = 10 then .escape .newline
  else if c = 13 then .escape .carriageReturn
  else if c = 9 then .escape .tab
  else if h0 : c = 0 then .codeUnit .zero CodeUnit.zero_unit
  else .plain c ⟨h, h', h0⟩

theorem Piece.ofByte_spec (c : UInt8) :
    (ofByte c).text = JsonSerializer.writeChar c ∧ (ofByte c).bytes = [c] := by
  by_cases h : c ∈ [34, 92, 8, 12, 10, 13, 9, 0]
  · simp only [List.mem_cons, List.not_mem_nil, or_false] at h
    obtain rfl | rfl | rfl | rfl | rfl | rfl | rfl | rfl := h <;> decide
  · simp only [List.mem_cons, List.not_mem_nil, or_false, not_or] at h
    obtain ⟨h34, h92, h8, h12, h10, h13, h9, h0⟩ := h
    simp [ofByte, JsonSerializer.writeChar, JsonSerializer.escapeChar, text, bytes, h34, h92, h8,
      h12, h10, h13, h9, h0]

def Quoted.ofBytes (s : List UInt8) (h : s.length ≤ Json.maxLength) : Quoted where
  pieces := s.map Piece.ofByte
  short := by
    rw [List.flatMap_map]
    simpa [(Piece.ofByte_spec _).2] using h

theorem Quoted.ofBytes_text (s : List UInt8) (h : s.length ≤ Json.maxLength) :
    (ofBytes s h).text = JsonSerializer.writeString s := by
  simp [text, ofBytes, JsonSerializer.writeString, List.flatMap_map, (Piece.ofByte_spec _).1]

theorem Quoted.ofBytes_bytes (s : List UInt8) (h : s.length ≤ Json.maxLength) :
    (ofBytes s h).bytes = s := by
  simp [bytes, ofBytes, List.flatMap_map, (Piece.ofByte_spec _).2]

/-- The numeral that an integer is serialized as. -/
def Whole.ofInt {n : ℤ} (h : Json.Integral n) : Whole where
  toNumeral := Numeral.ofInt n
  short := (Numeral.ofInt_length h).trans (by decide)
  integral := by rwa [Numeral.ofInt_value]

/-- If the document is serialized, its text is that of a tree with this value. -/
def Spelled (limit : ℕ) (j : Json) : Prop :=
  ∀ t, JsonSerializer.visit j = some t →
    ∃ tree : Tree, tree.text = t ∧ tree.value = j ∧ tree.depth ≤ limit

theorem exists_elements {limit : ℕ} {j : Json} {js : List Json}
    (h : ∀ j' ∈ j :: js, Spelled limit j') {ts : List (List UInt8)}
    (hts : JsonSerializer.visitElements (j :: js) = some ts) :
    ts ≠ [] ∧ ∃ elements : Elements, elements.text = JsonSerializer.separate ts ∧
      elements.values = j :: js ∧ elements.depth ≤ limit := by
  induction js generalizing j ts with
  | nil =>
    rw [JsonSerializer.visitElements] at hts
    obtain ⟨t, ht, hts⟩ := Option.bind_eq_some_iff.mp hts
    obtain rfl := Option.some.inj hts
    obtain ⟨tree, htext, hvalue, hdepth⟩ := h j List.mem_cons_self t ht
    refine ⟨List.cons_ne_nil _ _, .last tree .none, ?_, ?_, hdepth⟩
    · simp [Elements.text, Blank.none, JsonSerializer.separate, htext]
    · rw [Elements.values, hvalue]
  | cons j' js ih =>
    rw [JsonSerializer.visitElements] at hts
    obtain ⟨t, ht, hts⟩ := Option.bind_eq_some_iff.mp hts
    obtain ⟨us, hus, rfl⟩ := Option.map_eq_some_iff.mp hts
    obtain ⟨tree, htext, hvalue, hdepth⟩ := h j List.mem_cons_self t ht
    obtain ⟨hne, rest, hrest, hvalues, hlimit⟩ :=
      ih (fun j'' hj'' => h j'' (List.mem_cons_of_mem _ hj'')) hus
    obtain ⟨u, us, rfl⟩ := List.exists_cons_of_ne_nil hne
    refine ⟨List.cons_ne_nil _ _, .cons tree .none .none rest, ?_, ?_, max_le hdepth hlimit⟩
    · simp [Elements.text, Blank.none, JsonSerializer.separate, htext, hrest]
    · rw [Elements.values, hvalue, hvalues]

/-- A new key is added at the end. -/
theorem setIn_of_not_mem {key : List UInt8} {ms : List (List UInt8 × Json)}
    (h : key ∉ ms.map Prod.fst) (value : Json) :
    Json.setIn key value ms = ms ++ [(key, value)] := by
  induction ms with
  | nil => rfl
  | cons m ms ih =>
    rw [List.map_cons, List.mem_cons, not_or] at h
    rw [Json.setIn, if_neg (Ne.symm h.1), ih h.2, List.cons_append]

theorem exists_members {limit : ℕ} {m : List UInt8 × Json} {ms : List (List UInt8 × Json)}
    (h : ∀ m' ∈ m :: ms, Spelled limit m'.2) (hkeys : ∀ m' ∈ m :: ms, m'.1.length ≤ Json.maxLength)
    {ts : List (List UInt8)} (hts : JsonSerializer.visitMembers (m :: ms) = some ts) :
    ts ≠ [] ∧ ∃ members : Members, members.text = JsonSerializer.separate ts ∧
      (∀ before, ((before ++ m :: ms).map Prod.fst).Nodup →
        members.addTo before = before ++ m :: ms) ∧ members.depth ≤ limit := by
  have hadd : ∀ (before after : List (List UInt8 × Json)) (m' : List UInt8 × Json),
      ((before ++ m' :: after).map Prod.fst).Nodup →
        Json.setIn m'.1 m'.2 before = before ++ [m'] := by
    intro before after m' hnodup
    apply setIn_of_not_mem
    rw [List.map_append, List.nodup_append] at hnodup
    intro hmem
    exact hnodup.2.2 _ hmem _ List.mem_cons_self rfl
  induction ms generalizing m ts with
  | nil =>
    obtain ⟨key, j⟩ := m
    rw [JsonSerializer.visitMembers] at hts
    obtain ⟨t, ht, hts⟩ := Option.bind_eq_some_iff.mp hts
    obtain rfl := Option.some.inj hts
    obtain ⟨tree, htext, hvalue, hdepth⟩ := h _ List.mem_cons_self t ht
    have hkey := hkeys _ List.mem_cons_self
    refine ⟨List.cons_ne_nil _ _, .last (.ofBytes key hkey) .none .none tree .none, ?_, ?_, hdepth⟩
    · simp [Members.text, Blank.none, JsonSerializer.separate, htext, Quoted.ofBytes_text]
    · intro before hnodup
      rw [Members.addTo, Quoted.ofBytes_bytes, hvalue]
      exact hadd before [] _ hnodup
  | cons m' ms ih =>
    obtain ⟨key, j⟩ := m
    rw [JsonSerializer.visitMembers] at hts
    obtain ⟨t, ht, hts⟩ := Option.bind_eq_some_iff.mp hts
    obtain ⟨us, hus, rfl⟩ := Option.map_eq_some_iff.mp hts
    obtain ⟨tree, htext, hvalue, hdepth⟩ := h _ List.mem_cons_self t ht
    have hkey := hkeys _ List.mem_cons_self
    obtain ⟨hne, rest, hrest, haddTo, hlimit⟩ :=
      ih (fun m'' hm'' => h m'' (List.mem_cons_of_mem _ hm''))
        (fun m'' hm'' => hkeys m'' (List.mem_cons_of_mem _ hm'')) hus
    obtain ⟨u, us, rfl⟩ := List.exists_cons_of_ne_nil hne
    refine ⟨List.cons_ne_nil _ _,
      .cons (.ofBytes key hkey) .none .none tree .none .none rest, ?_, ?_, max_le hdepth hlimit⟩
    · simp [Members.text, Blank.none, JsonSerializer.separate, htext, hrest, Quoted.ofBytes_text]
    · intro before hnodup
      rw [Members.addTo, Quoted.ofBytes_bytes, hvalue, hadd before (m' :: ms) (key, j) hnodup,
        haddTo, List.append_assoc]
      · rfl
      · rwa [List.append_assoc]

/-- Whatever fits is spelled as a tree. -/
theorem spelled_of_fits {limit : ℕ} {j : Json} (h : j.Fits limit) : Spelled limit j := by
  induction h with
  | null =>
    intro t ht
    obtain rfl := Option.some.inj ht
    exact ⟨.null, rfl, rfl, Nat.zero_le _⟩
  | boolean b =>
    intro t ht
    obtain rfl := Option.some.inj ht
    exact ⟨.boolean b, rfl, rfl, Nat.zero_le _⟩
  | integer hn =>
    intro t ht
    obtain rfl := Option.some.inj ht
    refine ⟨.numeral (.ofInt hn), Numeral.ofInt_text _, ?_, Nat.zero_le _⟩
    rw [Tree.value, Whole.ofInt, Numeral.ofInt_value]
  | float x =>
    intro t ht
    cases ht
  | double x =>
    intro t ht
    cases ht
  | string hs =>
    intro t ht
    obtain rfl := Option.some.inj ht
    refine ⟨.string (.ofBytes _ hs), Quoted.ofBytes_text _ hs, ?_, Nat.zero_le _⟩
    rw [Tree.value, Quoted.ofBytes_bytes]
  | @array limit es h ih =>
    intro t ht
    rw [JsonSerializer.visit] at ht
    obtain ⟨ts, hts, rfl⟩ := Option.map_eq_some_iff.mp ht
    cases es with
    | nil =>
      obtain rfl := Option.some.inj hts
      exact ⟨.emptyArray .none, rfl, rfl, Nat.succ_le_succ (Nat.zero_le _)⟩
    | cons j js =>
      obtain ⟨-, elements, htext, hvalues, hdepth⟩ := exists_elements ih hts
      refine ⟨.array .none elements, ?_, ?_, Nat.succ_le_succ hdepth⟩
      · simp [Tree.text, Blank.none, htext]
      · rw [Tree.value, hvalues]
  | @object limit ms distinct keys h ih =>
    intro t ht
    rw [JsonSerializer.visit] at ht
    obtain ⟨ts, hts, rfl⟩ := Option.map_eq_some_iff.mp ht
    cases ms with
    | nil =>
      obtain rfl := Option.some.inj hts
      exact ⟨.emptyObject .none, rfl, rfl, Nat.succ_le_succ (Nat.zero_le _)⟩
    | cons m ms =>
      obtain ⟨-, members, htext, haddTo, hdepth⟩ := exists_members ih keys hts
      refine ⟨.object .none members, ?_, ?_, Nat.succ_le_succ hdepth⟩
      · simp [Tree.text, Blank.none, htext]
      · rw [Tree.value, haddTo [] distinct, List.nil_append]

end JsonText

namespace JsonDeserializer

/-- The parser returns the same in front of any other text. If it has read to the end of the
text, this is so for the values of `P` only. -/
def Extends {α : Type} (p : Parser α) (P : α → Prop) : Prop :=
  ∀ s v rest more, p s = .ok (v, rest) → (rest = [] → P v) → p (s ++ more) = .ok (v, rest ++ more)

theorem skipSpaces_append {found : Bool} {s rest : List UInt8} (h : skipSpaces found s = .ok rest)
    (more : List UInt8) : rest ≠ [] ∧ skipSpaces found (s ++ more) = .ok (rest ++ more) := by
  unfold skipSpaces at h ⊢
  split at h
  · cases h
  · next c s' heq =>
    cases h
    have hdrop : (s ++ more).dropWhile isSpace = (c :: s') ++ more := by
      rw [List.dropWhile_append, heq]
      rfl
    exact ⟨List.cons_ne_nil _ _, by rw [hdrop, List.cons_append]⟩

theorem skipKeyword_append {ks s rest : List UInt8} (h : skipKeyword ks s = .ok rest)
    (more : List UInt8) : skipKeyword ks (s ++ more) = .ok (rest ++ more) := by
  induction ks generalizing s with
  | nil =>
    cases h
    rfl
  | cons k ks ih =>
    cases s with
    | nil => cases h
    | cons c s =>
      simp only [skipKeyword, List.cons_append] at h ⊢
      split_ifs at h ⊢
      exact ih h

theorem saveString_extends (acc : List UInt8) : Extends (saveString acc) fun _ => True := by
  intro s v rest more h _
  unfold saveString at h ⊢
  split_ifs at h ⊢
  cases h
  rfl

theorem parseQuotedString_extends (q : UInt8) (high : ℕ) (acc : List UInt8) :
    Extends (parseQuotedString q high acc) fun _ => True := by
  intro s v rest more h _
  fun_induction parseQuotedString q high acc s with
  | case1 => cases h
  | case2 high acc s =>
    rw [List.cons_append, parseQuotedString.eq_def]
    simpa using saveString_extends acc s v rest more h fun _ => trivial
  | case3 => cases h
  | case4 => cases h
  | case5 high acc a b c d s unit hhex high' hunit hq ih =>
    rw [← ih h]
    simp only [List.cons_append]
    rw [parseQuotedString.eq_def]
    simp [hq, hhex, hunit]
  | case6 high acc a b c d s unit hhex high' cp hunit hq ih =>
    rw [← ih h]
    simp only [List.cons_append]
    rw [parseQuotedString.eq_def]
    simp [hq, hhex, hunit]
  | case7 => cases h
  | case8 => cases h
  | case9 high acc e s hu he hq ih =>
    rw [← ih h]
    simp only [List.cons_append]
    rw [parseQuotedString.eq_def]
    simp [hq, hu, he]
  | case10 high acc c s hq hc ih =>
    rw [← ih h, List.cons_append, parseQuotedString.eq_def]
    simp [hq, hc]

/-- What stops inside a text stops there in front of any other text. -/
theorem takeWhile_append_of_stops {p : UInt8 → Bool} {s : List UInt8} (h : s.dropWhile p ≠ [])
    (more : List UInt8) : (s ++ more).takeWhile p = s.takeWhile p ∧
      (s ++ more).dropWhile p = s.dropWhile p ++ more := by
  induction s with
  | nil => exact absurd rfl h
  | cons c s ih =>
    by_cases hc : p c
    · simp only [List.dropWhile_cons, hc, if_true] at h
      obtain ⟨htake, hdrop⟩ := ih h
      simp [hc, htake, hdrop]
    · simp [hc]

theorem parseKey_extends : Extends parseKey fun _ => False := by
  intro s v rest more h hrest
  cases s with
  | nil => cases h
  | cons c s =>
    simp only [parseKey, List.cons_append] at h ⊢
    split_ifs at h ⊢ with hq
    · exact parseQuotedString_extends c 0 [] s v rest more h fun _ => trivial
    · unfold parseNonQuotedString at h
      split at h
      · cases h
      · next key hkey =>
        have hend : (c :: s).dropWhile canBeInNonQuotedString = rest := by
          unfold saveString at h
          split_ifs at h
          cases h
          rfl
        have hne : (c :: s).dropWhile canBeInNonQuotedString ≠ [] := fun h0 =>
          hrest (hend ▸ h0)
        obtain ⟨htake, hdrop⟩ := takeWhile_append_of_stops hne more
        rw [List.cons_append] at htake hdrop
        unfold parseNonQuotedString
        rw [htake, hdrop]
        split
        · next heq => exact absurd heq hkey
        · exact saveString_extends _ _ v rest more h fun _ => trivial

theorem parseNumericValue_extends : Extends parseNumericValue fun _ => False := by
  intro s v rest more h hrest
  let text := (s.takeWhile canBeInNumber).take 63
  have hlen : text.length ≤ s.length := by
    have htake := (List.takeWhile_sublist canBeInNumber (l := s)).length_le
    simp only [text, List.length_take]
    omega
  have hend : s.drop text.length = rest := by
    unfold parseNumericValue at h
    dsimp only at h
    split at h <;> cases h <;> rfl
  have htext : ((s ++ more).takeWhile canBeInNumber).take 63 = text := by
    by_cases hstop : s.dropWhile canBeInNumber = []
    · -- the characters of a number reach to the end, so 63 of them have been collected
      have hall : ∀ c ∈ s, canBeInNumber c := List.dropWhile_eq_nil_iff.mp hstop
      have hwhole : s.takeWhile canBeInNumber = s := List.takeWhile_eq_self_iff.mpr hall
      have hlong : 63 ≤ s.length := by
        by_contra hshort
        have htext : text = s := by
          simp only [text, hwhole]
          exact List.take_of_length_le (by omega)
        exact hrest (by rw [← hend, htext, List.drop_length])
      rw [List.takeWhile_append_of_pos hall, List.take_append_of_le_length hlong]
      simp only [text, hwhole]
    · rw [(takeWhile_append_of_stops hstop more).1]
  have hdrop : (s ++ more).drop text.length = s.drop text.length ++ more :=
    List.drop_append_of_le_length hlen
  unfold parseNumericValue at h ⊢
  dsimp only at h ⊢
  rw [htext, hdrop]
  cases hn : Number.parseNumber text with
  | invalid =>
    rw [hn] at h
    cases h
  | integer n =>
    rw [hn] at h
    cases h
    rfl
  | float x =>
    rw [hn] at h
    cases h
    rfl
  | double x =>
    rw [hn] at h
    cases h
    rfl

theorem bind_ok {α β : Type} {x : Except Error α} {a : α} (h : x = .ok a) (f : α → Except Error β) :
    x >>= f = f a := by
  rw [h]
  rfl

/-- In an array every value is followed by a comma or the bracket, in an object by a comma or
the brace. -/
theorem extends_followed {P : Json → Prop} {value : Parser Json} (hv : Extends value P)
    {s rest rest' : List UInt8} {v : Json} (h : value s = .ok (v, rest))
    (hnext : skipSpaces true rest = .ok rest') (more : List UInt8) :
    value (s ++ more) = .ok (v, rest ++ more) := by
  refine hv s v rest more h fun h0 => ?_
  rw [h0] at hnext
  cases hnext

theorem parseElements_extends {P : Json → Prop} {value : Parser Json} (hv : Extends value P)
    {fuel fuel' : ℕ} (hfuel : fuel ≤ fuel') {acc : List Json} {s : List UInt8} {v : Json}
    {rest : List UInt8} (h : parseElements value fuel acc s = .ok (v, rest)) (more : List UInt8) :
    parseElements value fuel' acc (s ++ more) = .ok (v, rest ++ more) := by
  induction fuel generalizing fuel' acc s with
  | zero => cases h
  | succ fuel ih =>
    obtain ⟨fuel', rfl⟩ := Nat.exists_eq_add_one.mpr (Nat.zero_lt_of_lt hfuel)
    obtain ⟨⟨v₁, s₁⟩, h₁, h⟩ := bind_eq_ok h
    obtain ⟨s₂, h₂, h⟩ := bind_eq_ok h
    have h₁' := extends_followed hv h₁ h₂ more
    have h₂' := (skipSpaces_append h₂ more).2
    rw [parseElements, bind_ok h₁']
    dsimp only
    rw [bind_ok h₂']
    split at h
    · cases h
      rfl
    · exact ih (Nat.le_of_succ_le_succ hfuel) h
    · cases h

theorem parseMembers_extends {P : Json → Prop} {value : Parser Json} (hv : Extends value P)
    {fuel fuel' : ℕ} (hfuel : fuel ≤ fuel') {ms : List (List UInt8 × Json)} {s : List UInt8}
    {v : Json} {rest : List UInt8} (h : parseMembers value fuel ms s = .ok (v, rest))
    (more : List UInt8) : parseMembers value fuel' ms (s ++ more) = .ok (v, rest ++ more) := by
  induction fuel generalizing fuel' ms s with
  | zero => cases h
  | succ fuel ih =>
    obtain ⟨fuel', rfl⟩ := Nat.exists_eq_add_one.mpr (Nat.zero_lt_of_lt hfuel)
    obtain ⟨⟨key, s₁⟩, h₁, h⟩ := bind_eq_ok h
    obtain ⟨s₂, h₂, h⟩ := bind_eq_ok h
    have h₁' : parseKey (s ++ more) = .ok (key, s₁ ++ more) := by
      refine parseKey_extends s key s₁ more h₁ fun h0 => ?_
      simp only [h0] at h₂
      cases h₂
    have h₂' := (skipSpaces_append h₂ more).2
    rw [parseMembers, bind_ok h₁']
    dsimp only
    rw [bind_ok h₂']
    split at h
    · obtain ⟨⟨v₃, s₃⟩, h₃, h⟩ := bind_eq_ok h
      obtain ⟨s₄, h₄, h⟩ := bind_eq_ok h
      have h₃' := extends_followed hv h₃ h₄ more
      have h₄' := (skipSpaces_append h₄ more).2
      simp only [List.cons_append]
      rw [bind_ok h₃']
      dsimp only
      rw [bind_ok h₄']
      split at h
      · cases h
        rfl
      · obtain ⟨s₅, h₅, h⟩ := bind_eq_ok h
        have h₅' := (skipSpaces_append h₅ more).2
        simp only [List.cons_append]
        rw [bind_ok h₅']
        exact ih (Nat.le_of_succ_le_succ hfuel) h
      · cases h
    · cases h

theorem parseArray_extends {P : Json → Prop} {value : Parser Json} (hv : Extends value P) :
    Extends (parseArray value) fun _ => True := by
  intro s v rest more h _
  obtain ⟨s₁, h₁, h⟩ := bind_eq_ok h
  obtain ⟨hne, h₁'⟩ := skipSpaces_append h₁ more
  obtain ⟨c, s₁, rfl⟩ := List.exists_cons_of_ne_nil hne
  have hfuel : (c :: s₁).length + 1 ≤ (c :: (s₁ ++ more)).length + 1 := by simp
  rw [parseArray, bind_ok h₁', List.cons_append]
  by_cases hc : c = 93
  · subst hc
    cases h
    rfl
  · split at h
    · next heq => exact absurd (List.cons.inj heq).1 hc
    · split
      · next heq => exact absurd (List.cons.inj heq).1 hc
      · exact parseElements_extends hv hfuel h more

theorem parseObject_extends {P : Json → Prop} {value : Parser Json} (hv : Extends value P) :
    Extends (parseObject value) fun _ => True := by
  intro s v rest more h _
  obtain ⟨s₁, h₁, h⟩ := bind_eq_ok h
  obtain ⟨hne, h₁'⟩ := skipSpaces_append h₁ more
  obtain ⟨c, s₁, rfl⟩ := List.exists_cons_of_ne_nil hne
  have hfuel : (c :: s₁).length + 1 ≤ (c :: (s₁ ++ more)).length + 1 := by simp
  rw [parseObject, bind_ok h₁', List.cons_append]
  by_cases hc : c = 125
  · subst hc
    cases h
    rfl
  · split at h
    · next heq => exact absurd (List.cons.inj heq).1 hc
    · split
      · next heq => exact absurd (List.cons.inj heq).1 hc
      · exact parseMembers_extends hv hfuel h more

theorem parseNumericValue_isNumber : Yields parseNumericValue fun v => v.isNumber := by
  intro s v rest h
  unfold parseNumericValue at h
  dsimp only at h
  split at h
  · cases h
  · cases h
    rfl
  · cases h
    rfl
  · cases h
    unfold storeDouble
    split_ifs <;> rfl

theorem parseVariantWith_extends {P : Json → Prop} {nested : Option (Parser Json)}
    (hn : ∀ value, nested = some value → Extends value P) (found : Bool) :
    Extends (parseVariantWith nested found) fun v => v.isNumber = false := by
  intro s v rest more h hrest
  obtain ⟨s₁, h₁, h⟩ := bind_eq_ok h
  obtain ⟨hne, h₁'⟩ := skipSpaces_append h₁ more
  obtain ⟨c, s₁, rfl⟩ := List.exists_cons_of_ne_nil hne
  rw [parseVariantWith, bind_ok h₁', List.cons_append]
  dsimp only at h ⊢
  split_ifs at h ⊢ with ha ho hq ht hf hnull
  · split at h
    · cases h
    · exact parseArray_extends (hn _ rfl) s₁ v rest more h fun _ => trivial
  · split at h
    · cases h
    · exact parseObject_extends (hn _ rfl) s₁ v rest more h fun _ => trivial
  · obtain ⟨⟨text, s₂⟩, h₂, h⟩ := bind_eq_ok h
    rw [bind_ok (parseQuotedString_extends c 0 [] s₁ text s₂ more h₂ fun _ => trivial)]
    cases h
    rfl
  · obtain ⟨s₂, h₂, h⟩ := bind_eq_ok h
    have h₂' := skipKeyword_append h₂ more
    rw [List.cons_append] at h₂'
    rw [bind_ok h₂']
    cases h
    rfl
  · obtain ⟨s₂, h₂, h⟩ := bind_eq_ok h
    have h₂' := skipKeyword_append h₂ more
    rw [List.cons_append] at h₂'
    rw [bind_ok h₂']
    cases h
    rfl
  · obtain ⟨s₂, h₂, h⟩ := bind_eq_ok h
    have h₂' := skipKeyword_append h₂ more
    rw [List.cons_append] at h₂'
    rw [bind_ok h₂']
    cases h
    rfl
  · refine parseNumericValue_extends (c :: s₁) v rest more h fun h0 => ?_
    have hnumber : v.isNumber = true := parseNumericValue_isNumber _ _ _ h
    have hnot : v.isNumber = false := hrest h0
    rw [hnot] at hnumber
    cases hnumber

/-- Whatever follows a value that is no number, or is not at the end of the text, the value is
the same. -/
theorem parseVariant_extends (limit : ℕ) (found : Bool) :
    Extends (parseVariant limit found) fun v => v.isNumber = false := by
  induction limit generalizing found with
  | zero =>
    exact parseVariantWith_extends (P := fun _ => True) (fun _ hv => by cases hv) found
  | succ limit ih =>
    refine parseVariantWith_extends (P := fun v => v.isNumber = false) (fun value hv => ?_) found
    obtain rfl := Option.some.inj hv
    exact ih true

end JsonDeserializer

/-- The text of a document that fits is parsed as the document, to its end. -/
theorem parseVariant_visit {jsonDoc : Json} (h : jsonDoc.Fits nestingLimit) {text : List UInt8}
    (htext : JsonSerializer.visit jsonDoc = some text) :
    parseVariant nestingLimit false text = .ok (jsonDoc, []) ∧ (0 : UInt8) ∉ text := by
  obtain ⟨tree, rfl, rfl, hdepth⟩ := spelled_of_fits h text htext
  have hstop : tree.IsNumeral → Stops [] := by
    intro _ c s hs
    cases hs
  have hread := parse_tree tree nestingLimit hdepth .none false [] hstop
  rw [List.append_nil] at hread
  exact ⟨hread, tree.nul_free⟩

theorem deserializeJson_visit {jsonDoc : Json} (h : jsonDoc.Fits nestingLimit)
    {text : List UInt8} (htext : JsonSerializer.visit jsonDoc = some text) :
    deserializeJson text = .ok jsonDoc := by
  obtain ⟨hread, hnul⟩ := parseVariant_visit h htext
  rw [deserializeJson, CString.ofBytes_of_nul_free hnul, parse, bind_ok hread]
  simp

/-- The text of an object begins with a brace. -/
theorem visit_object {ms : List (List UInt8 × Json)} {text : List UInt8}
    (h : JsonSerializer.visit (.object ms) = some text) : ∃ s, text = 123 :: s := by
  rw [JsonSerializer.visit] at h
  obtain ⟨ts, -, rfl⟩ := Option.map_eq_some_iff.mp h
  exact ⟨_, rfl⟩

/-- No beginning of the text of an object is a document. -/
theorem deserializeJson_cut {ms : List (List UInt8 × Json)} (h : (Json.object ms).Fits nestingLimit)
    {text : List UInt8} (htext : JsonSerializer.visit (.object ms) = some text) {size : ℕ}
    (hsize : size < text.length) (j : Json) : deserializeJson (text.take size) ≠ .ok j := by
  intro hj
  obtain ⟨hread, hnul⟩ := parseVariant_visit h htext
  obtain ⟨s, rfl⟩ := visit_object htext
  have hnul' : (0 : UInt8) ∉ (123 :: s).take size := fun h0 => hnul (List.mem_of_mem_take h0)
  rw [deserializeJson, CString.ofBytes_of_nul_free hnul'] at hj
  obtain ⟨⟨v, rest⟩, hv, -⟩ := bind_eq_ok hj
  cases size with
  | zero => cases hv
  | succ size =>
    have hshort : parseObject (parseVariant 9 true) (s.take size) = .ok (v, rest) := hv
    have hlong : parseObject (parseVariant 9 true) s = .ok (.object ms, []) := hread
    have hextended := parseObject_extends (parseVariant_extends 9 true) _ v rest (s.drop size)
      hshort fun _ => trivial
    rw [List.take_append_drop, hlong] at hextended
    have hnil := (Prod.mk.inj (Except.ok.inj hextended)).2
    have hdrop := (List.append_eq_nil_iff.mp hnil.symm).2
    rw [List.drop_eq_nil_iff] at hdrop
    rw [List.length_cons] at hsize
    omega

/-- A document that is sent through a buffer arrives as the same document if its text is not
longer than the buffer, and as no document otherwise. -/
theorem deserializeJson_serializeJson {ms : List (List UInt8 × Json)}
    (h : (Json.object ms).Fits nestingLimit) {whole : List UInt8}
    (hwhole : JsonSerializer.visit (.object ms) = some whole) {size : ℕ} {text : List UInt8}
    (htext : serializeJson (.object ms) size = some text) (j : Json) :
    deserializeJson text = .ok j ↔ whole.length ≤ size ∧ j = .object ms := by
  rw [serializeJson, hwhole, Option.map_some] at htext
  obtain rfl := Option.some.inj htext
  by_cases hsize : whole.length ≤ size
  · rw [List.take_of_length_le hsize, deserializeJson_visit h hwhole]
    simp only [Except.ok.injEq, hsize, true_and]
    exact eq_comm
  · simp only [hsize, false_and, iff_false]
    exact deserializeJson_cut h hwhole (by omega) j

/-- The relay is on. -/
def relayOn : List (List UInt8 × Json) := [(ascii "relay", .string (ascii "ON"))]

theorem relayOn_fits : (Json.object relayOn).Fits nestingLimit :=
  .object (by decide) (by decide) (List.forall_mem_singleton.mpr (.string (by decide)))

/-- Fourteen bytes, in a buffer that has room for them and in one that is a byte too small. -/
theorem deserializeJson_serializeJson_relayOn :
    deserializeJson (123 :: (ascii "\"relay\":\"ON\"" ++ [125])) = .ok (.object relayOn) ∧
      deserializeJson (123 :: ascii "\"relay\":\"ON\"") ≠ .ok (.object relayOn) := by
  have hroom : serializeJson (.object relayOn) 14 =
      some (123 :: (ascii "\"relay\":\"ON\"" ++ [125])) := rfl
  have hcut : serializeJson (.object relayOn) 13 = some (123 :: ascii "\"relay\":\"ON\"") := rfl
  have hwhole : JsonSerializer.visit (.object relayOn) =
      some (123 :: (ascii "\"relay\":\"ON\"" ++ [125])) := rfl
  constructor
  · exact (deserializeJson_serializeJson relayOn_fits hwhole hroom _).mpr ⟨by decide, rfl⟩
  · intro h
    exact absurd ((deserializeJson_serializeJson relayOn_fits hwhole hcut _).mp h).1 (by decide)

/-- What has been received can be sent on: the text of a received document stands for the same
document. -/
theorem deserializeJson_again {received : List UInt8} {jsonDoc : Json}
    (h : deserializeJson received = .ok jsonDoc) {text : List UInt8}
    (htext : JsonSerializer.visit jsonDoc = some text) : deserializeJson text = .ok jsonDoc :=
  deserializeJson_visit (deserializeJson_fits h) htext

theorem deserializeJson_again_relayOn :
    deserializeJson (123 :: (ascii "\"relay\":\"ON\"" ++ [125])) = .ok (.object relayOn) :=
  deserializeJson_again (deserializeJson_visit relayOn_fits rfl) rfl

end Esp32Automation
