import Mathlib.Tactic.Common

/-!
# Self-delimiting codes

A codec writes values into a stream and reads them from its front. Reading behind a value that
was written gives the value and leaves the rest of the stream, and nothing is read from the
beginning of a value that has not arrived in full. Codecs are put together from smaller ones:
one behind the other, a block whose length goes ahead of it, another view of the same values. A
receiver that reads a stream of values to its end has read exactly the values that have arrived.
-/

/-- A code for values of `α` in streams of `τ`. -/
structure Codec (α τ : Type*) where
  encode : α → List τ
  decode : List τ → Option (α × List τ)
  decode_append (a : α) (rest : List τ) : decode (encode a ++ rest) = some (a, rest)
  decode_incomplete (a : α) (p q : List τ) : encode a = p ++ q → q ≠ [] → decode p = none

namespace Codec
variable {α β κ τ : Type*}

theorem decode_encode (c : Codec α τ) (a : α) : c.decode (c.encode a) = some (a, []) := by
  have h := c.decode_append a []
  rwa [List.append_nil] at h

/-- One symbol. -/
def symbol : Codec τ τ where
  encode a := [a]
  decode
    | [] => none
    | a :: rest => some (a, rest)
  decode_append _ _ := rfl
  decode_incomplete a p q h hq := by
    cases p with
    | nil => rfl
    | cons b p =>
      have hnil := (List.cons.inj h).2
      exact absurd (List.append_eq_nil_iff.mp hnil.symm).2 hq

/-- One value behind the other. -/
def pair (c : Codec α τ) (d : Codec β τ) : Codec (α × β) τ where
  encode p := c.encode p.1 ++ d.encode p.2
  decode s := (c.decode s).bind fun r => (d.decode r.2).map fun t => ((r.1, t.1), t.2)
  decode_append p rest := by
    rw [List.append_assoc, c.decode_append, Option.bind_some, d.decode_append, Option.map_some]
  decode_incomplete := by
    rintro ⟨a, b⟩ p q h hq
    obtain ⟨m, hp, hb⟩ | ⟨m, ha, hm⟩ := List.append_eq_append_iff.mp h
    · -- the first value has arrived
      subst hp
      rw [c.decode_append, Option.bind_some, d.decode_incomplete b m q hb hq, Option.map_none]
    · cases m with
      | nil =>
        rw [List.append_nil] at ha
        rw [← ha, c.decode_encode, Option.bind_some, d.decode_incomplete b [] q hm.symm hq,
          Option.map_none]
      | cons t m =>
        rw [c.decode_incomplete a p (t :: m) ha (List.cons_ne_nil t m), Option.bind_none]

/-- A block of symbols; its length can be told from the value ahead of it. -/
def counted (c : Codec κ τ) (count : κ → ℕ) :
    Codec {p : κ × List τ // p.2.length = count p.1} τ where
  encode p := c.encode p.1.1 ++ p.1.2
  decode s := (c.decode s).bind fun r =>
    if h : count r.1 ≤ r.2.length then
      some (⟨(r.1, r.2.take (count r.1)), List.length_take_of_le h⟩, r.2.drop (count r.1))
    else none
  decode_append := by
    rintro ⟨⟨k, block⟩, hlen⟩ rest
    have hle : count k ≤ (block ++ rest).length := by
      rw [List.length_append, ← hlen]
      exact Nat.le_add_right _ _
    rw [List.append_assoc, c.decode_append, Option.bind_some, dif_pos hle]
    simp only [← show block.length = count k from hlen, List.take_left', List.drop_left']
  decode_incomplete := by
    rintro ⟨⟨k, block⟩, hlen⟩ p q h hq
    dsimp only at h hlen
    obtain ⟨m, hp, hblock⟩ | ⟨m, hk, hm⟩ := List.append_eq_append_iff.mp h
    · subst hp
      have hshort : ¬ count k ≤ m.length := by
        have hpos := List.length_pos_iff.mpr hq
        rw [← hlen, hblock, List.length_append]
        omega
      rw [c.decode_append, Option.bind_some, dif_neg hshort]
    · cases m with
      | nil =>
        have hshort : ¬ count k ≤ ([] : List τ).length := by
          have hpos := List.length_pos_iff.mpr hq
          rw [← hlen, ← List.nil_append block, ← hm, List.length_nil]
          omega
        rw [List.append_nil] at hk
        rw [← hk, c.decode_encode, Option.bind_some, dif_neg hshort]
      | cons t m =>
        rw [c.decode_incomplete k p (t :: m) hk (List.cons_ne_nil t m), Option.bind_none]

/-- The same code for values that can be told from those of `β`. -/
def refine (c : Codec β τ) (f : α → β) (g : β → Option α) (hg : ∀ a, g (f a) = some a) :
    Codec α τ where
  encode a := c.encode (f a)
  decode s := (c.decode s).bind fun r => (g r.1).map fun a => (a, r.2)
  decode_append a rest := by
    rw [c.decode_append, Option.bind_some, hg, Option.map_some]
  decode_incomplete a p q h hq := by
    rw [c.decode_incomplete (f a) p q h hq, Option.bind_none]

/-- The values that are read, at most `fuel`. -/
def decodeMany (c : Codec α τ) : ℕ → List τ → List α
  | 0, _ => []
  | fuel + 1, s =>
    match c.decode s with
    | none => []
    | some (a, rest) => a :: decodeMany c fuel rest

/-- All values that can be read from the front of the stream. -/
def decodeAll (c : Codec α τ) (s : List τ) : List α := c.decodeMany s.length s

variable {c : Codec α τ}

/-- A value takes at least one symbol if nothing is read from an empty stream. -/
theorem encode_ne_nil (hnil : c.decode [] = none) (a : α) : c.encode a ≠ [] := by
  intro h
  have hread := c.decode_encode a
  rw [h, hnil] at hread
  cases hread

theorem length_le_flatMap (hnil : c.decode [] = none) (as : List α) :
    as.length ≤ (as.flatMap c.encode).length := by
  induction as with
  | nil => exact Nat.le_refl 0
  | cons a as ih =>
    have hpos := List.length_pos_iff.mpr (encode_ne_nil hnil a)
    simp only [List.length_cons, List.flatMap_cons, List.length_append]
    omega

theorem decodeMany_append (as : List α) (s : List τ) (fuel : ℕ) :
    c.decodeMany (as.length + fuel) (as.flatMap c.encode ++ s) = as ++ c.decodeMany fuel s := by
  induction as with
  | nil => simp
  | cons a as ih =>
    have hfuel : (a :: as).length + fuel = as.length + fuel + 1 := by
      rw [List.length_cons]
      omega
    rw [hfuel, List.flatMap_cons, List.append_assoc, decodeMany, c.decode_append]
    simp only [ih, List.cons_append]

theorem decodeMany_flatMap (as : List α) {p : List τ} (hp : c.decode p = none) {fuel : ℕ}
    (h : as.length ≤ fuel) : c.decodeMany fuel (as.flatMap c.encode ++ p) = as := by
  obtain ⟨more, rfl⟩ := Nat.exists_eq_add_of_le h
  rw [decodeMany_append]
  cases more with
  | zero => exact List.append_nil as
  | succ more => simp [decodeMany, hp]

/-- Values are read first, whatever follows them. -/
theorem decodeAll_append (hnil : c.decode [] = none) (as : List α) (s : List τ) :
    ∃ fuel, s.length ≤ fuel ∧
      c.decodeAll (as.flatMap c.encode ++ s) = as ++ c.decodeMany fuel s := by
  have hle := length_le_flatMap hnil as
  have hlen : (as.flatMap c.encode ++ s).length =
      as.length + ((as.flatMap c.encode).length - as.length + s.length) := by
    rw [List.length_append]
    omega
  refine ⟨_, Nat.le_add_left s.length ((as.flatMap c.encode).length - as.length), ?_⟩
  rw [decodeAll, hlen, decodeMany_append]

/-- The values in front of an incomplete one are read, and no others. -/
theorem decodeAll_flatMap (hnil : c.decode [] = none) (as : List α) {p : List τ}
    (hp : c.decode p = none) : c.decodeAll (as.flatMap c.encode ++ p) = as := by
  apply decodeMany_flatMap as hp
  have hle := length_le_flatMap hnil as
  rw [List.length_append]
  omega

/-- Whatever part of a stream has arrived consists of whole values and an incomplete one. -/
theorem exists_split (hnil : c.decode [] = none) {as : List α} {s : List τ}
    (h : s <+: as.flatMap c.encode) :
    ∃ bs p, bs <+: as ∧ c.decode p = none ∧ s = bs.flatMap c.encode ++ p := by
  induction as generalizing s with
  | nil =>
    obtain rfl := List.prefix_nil.mp h
    exact ⟨[], [], List.prefix_refl _, hnil, rfl⟩
  | cons a as ih =>
    obtain ⟨q, hq⟩ := h
    rw [List.flatMap_cons] at hq
    obtain ⟨m, ha, hm⟩ | ⟨m, hs, hrest⟩ := List.append_eq_append_iff.mp hq
    · cases m with
      | nil =>
        rw [List.append_nil] at ha
        exact ⟨[a], [], ⟨as, rfl⟩, hnil, by simp [ha]⟩
      | cons t m =>
        exact ⟨[], s, List.nil_prefix,
          c.decode_incomplete a s (t :: m) ha (List.cons_ne_nil t m), rfl⟩
    · obtain ⟨bs, p, hbs, hp, rfl⟩ := ih ⟨q, hrest.symm⟩
      refine ⟨a :: bs, p, List.cons_prefix_cons.mpr ⟨rfl, hbs⟩, hp, ?_⟩
      rw [hs, List.flatMap_cons, List.append_assoc]

/-- From a part of a stream the first values are read, from the whole stream all of them. -/
theorem decodeAll_part (hnil : c.decode [] = none) {as : List α} {s : List τ}
    (h : s <+: as.flatMap c.encode) :
    c.decodeAll s <+: as ∧ (s = as.flatMap c.encode → c.decodeAll s = as) := by
  constructor
  · obtain ⟨bs, p, hbs, hp, rfl⟩ := exists_split hnil h
    rw [decodeAll_flatMap hnil bs hp]
    exact hbs
  · rintro rfl
    have hall := decodeAll_flatMap hnil as hnil
    rwa [List.append_nil] at hall

end Codec
