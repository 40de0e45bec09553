import Mathlib.Data.List.Basic
import Mathlib.Tactic.Common

/-!
# Reading lines into a buffer

A reader takes elements from a stream up to a separator, but at most as many as its buffer
holds, and leaves the rest for the next read. It stops at the first text that is accepted.
What it sees are the lines of the stream exactly when the lines it comes to leave room in
the buffer: a line that fills it leaves its separator behind, and a longer one is split.
-/
namespace LineReader
variable {α : Type*} [DecidableEq α]

/-- One read into a buffer of `n` elements: what it stores and what stays unread, or `none`
while it waits for more. -/
def readUntil (stop : α) : ℕ → List α → Option (List α × List α)
  | 0, s => some ([], s)
  | _ + 1, [] => none
  | n + 1, c :: s =>
    if c = stop then some ([], s)
    else (readUntil stop n s).map fun r => (c :: r.1, r.2)

/-- The complete lines of a stream. -/
def lines (stop : α) (s : List α) : List (List α) := (s.splitOn stop).dropLast

/-- What is behind the last separator. -/
def tail (stop : α) (s : List α) : List α := ((s.splitOn stop).getLast?).getD []

/-- A sequence up to its first accepted element. -/
def upTo {β : Type*} (accept : β → Bool) : List β → List β
  | [] => []
  | x :: xs => if accept x then [x] else x :: upTo accept xs

/-- The texts that at most `k` reads find, up to the first accepted one. What is stored
counts as a text through `view`. -/
def texts (stop : α) (n : ℕ) (view : List α → List α) (accept : List α → Bool) :
    ℕ → List α → List (List α)
  | 0, _ => []
  | k + 1, s =>
    match readUntil stop n s with
    | none => []
    | some (l, rest) =>
      if accept (view l) then [view l] else view l :: texts stop n view accept k rest

variable {stop : α}

theorem lines_cons {l : List α} (h : stop ∉ l) (rest : List α) :
    lines stop (l ++ stop :: rest) = l :: lines stop rest := by
  rw [lines, List.splitOn_append_cons_self_of_not_mem h,
    List.dropLast_cons_of_ne_nil (List.splitOn_ne_nil stop rest), lines]

theorem tail_cons {l : List α} (h : stop ∉ l) (rest : List α) :
    tail stop (l ++ stop :: rest) = tail stop rest := by
  rw [tail, List.splitOn_append_cons_self_of_not_mem h,
    List.getLast?_cons_of_ne_nil (List.splitOn_ne_nil stop rest), tail]

theorem lines_of_not_mem {s : List α} (h : stop ∉ s) : lines stop s = [] := by
  rw [lines, List.splitOn_eq_singleton h]
  rfl

theorem tail_of_not_mem {s : List α} (h : stop ∉ s) : tail stop s = s := by
  rw [tail, List.splitOn_eq_singleton h]
  rfl

/-- A stream is a tail, or a line in front of a stream. -/
theorem line_induction {motive : List α → Prop} (tail : ∀ s, stop ∉ s → motive s)
    (line : ∀ l rest, stop ∉ l → motive rest → motive (l ++ stop :: rest)) (s : List α) :
    motive s := by
  induction hn : s.length using Nat.strongRecOn generalizing s with
  | ind n ih =>
    by_cases h : stop ∈ s
    · obtain ⟨l, rest, rfl, hl⟩ := List.eq_append_cons_of_mem h
      have hlt : rest.length < n := by
        rw [← hn, List.length_append, List.length_cons]
        omega
      exact line l rest hl (ih rest.length hlt rest rfl)
    · exact tail s h

/-- A line with room to spare is read whole, and its separator with it. -/
theorem readUntil_line {n : ℕ} {l : List α} (h : stop ∉ l) (hl : l.length < n) (rest : List α) :
    readUntil stop n (l ++ stop :: rest) = some (l, rest) := by
  induction l generalizing n with
  | nil =>
    obtain ⟨m, rfl⟩ : ∃ m, n = m + 1 := ⟨n - 1, by simp at hl; omega⟩
    simp [readUntil]
  | cons c l ih =>
    obtain ⟨m, rfl⟩ : ∃ m, n = m + 1 := ⟨n - 1, by simp at hl; omega⟩
    rw [List.mem_cons, not_or] at h
    rw [List.length_cons] at hl
    rw [List.cons_append, readUntil, if_neg (Ne.symm h.1), ih h.2 (by omega)]
    rfl

/-- Elements that fill the buffer are read without what follows them. -/
theorem readUntil_full {l : List α} (h : stop ∉ l) (rest : List α) :
    readUntil stop l.length (l ++ rest) = some (l, rest) := by
  induction l with
  | nil => rfl
  | cons c l ih =>
    rw [List.mem_cons, not_or] at h
    rw [List.length_cons, List.cons_append, readUntil, if_neg (Ne.symm h.1), ih h.2]
    rfl

/-- A longer piece is split. -/
theorem readUntil_split {n : ℕ} {l : List α} (h : stop ∉ l) (hl : n ≤ l.length)
    (rest : List α) : readUntil stop n (l ++ rest) = some (l.take n, l.drop n ++ rest) := by
  have htake : stop ∉ l.take n := fun hm => h (List.mem_of_mem_take hm)
  have hfull := readUntil_full htake (l.drop n ++ rest)
  rw [List.length_take, Nat.min_eq_left hl, ← List.append_assoc, List.take_append_drop] at hfull
  exact hfull

/-- A tail with room to spare is waited for. -/
theorem readUntil_wait {n : ℕ} {s : List α} (h : stop ∉ s) (hs : s.length < n) :
    readUntil stop n s = none := by
  induction s generalizing n with
  | nil =>
    obtain ⟨m, rfl⟩ : ∃ m, n = m + 1 := ⟨n - 1, by simp at hs; omega⟩
    rfl
  | cons c s ih =>
    obtain ⟨m, rfl⟩ : ∃ m, n = m + 1 := ⟨n - 1, by simp at hs; omega⟩
    rw [List.mem_cons, not_or] at h
    rw [List.length_cons] at hs
    rw [readUntil, if_neg (Ne.symm h.1), ih h.2 (by omega)]
    rfl

section Texts
variable {n : ℕ} {view : List α → List α} {accept : List α → Bool}

theorem texts_some {s l rest : List α} (h : readUntil stop n s = some (l, rest)) (k : ℕ) :
    texts stop n view accept (k + 1) s =
      if accept (view l) then [view l] else view l :: texts stop n view accept k rest := by
  rw [texts, h]

theorem texts_none {s : List α} (h : readUntil stop n s = none) (k : ℕ) :
    texts stop n view accept k s = [] := by
  cases k with
  | zero => rfl
  | succ k => rw [texts, h]

/-- The first text, for comparison with the first line. -/
theorem texts_one {s l rest : List α} (h : readUntil stop n s = some (l, rest)) :
    texts stop n view accept 1 s = [view l] := by
  rw [texts_some h]
  split_ifs <;> rfl

omit [DecidableEq α] in
theorem take_one_upTo (accept : List α → Bool) (l : List α) (ls : List (List α)) :
    (upTo accept (l :: ls)).take 1 = [l] := by
  rw [upTo]
  split_ifs <;> rfl

omit [DecidableEq α] in
theorem mem_of_mem_upTo {l : List α} {ls : List (List α)} (h : l ∈ upTo accept ls) : l ∈ ls := by
  induction ls with
  | nil => exact h
  | cons x xs ih =>
    rw [upTo] at h
    split_ifs at h
    · rw [List.mem_singleton] at h
      simp [h]
    · rcases List.mem_cons.mp h with rfl | hrest
      · simp
      · exact List.mem_cons_of_mem x (ih hrest)

/-- The texts are the lines up to the first accepted one. -/
def ReadsLines (stop : α) (n : ℕ) (view : List α → List α) (accept : List α → Bool)
    (s : List α) : Prop :=
  ∀ k, texts stop n view accept k s = (upTo accept (lines stop s)).take k

/-- Every line up to the first accepted one is a text as it stands. It leaves room in the
buffer, or it is the accepted one and fills the buffer; and if there is no accepted one, the
tail leaves room. -/
structure Fits (stop : α) (n : ℕ) (view : List α → List α) (accept : List α → Bool)
    (s : List α) : Prop where
  view_eq : ∀ l ∈ upTo accept (lines stop s), view l = l
  length_le : ∀ l ∈ upTo accept (lines stop s), l.length < n ∨ l.length = n ∧ accept l
  tail_lt : (∀ l ∈ lines stop s, accept l = false) → (tail stop s).length < n

theorem fits_tail {s : List α} (h : stop ∉ s) : Fits stop n view accept s ↔ s.length < n := by
  constructor
  · intro hf
    have hlt := hf.tail_lt (by simp [lines_of_not_mem h])
    rwa [tail_of_not_mem h] at hlt
  · intro hlt
    refine ⟨?_, ?_, fun _ => by rwa [tail_of_not_mem h]⟩
    · simp [lines_of_not_mem h, upTo]
    · simp [lines_of_not_mem h, upTo]

theorem fits_accepted {l : List α} (hl : stop ∉ l) (ha : accept l) (rest : List α) :
    Fits stop n view accept (l ++ stop :: rest) ↔ view l = l ∧ l.length ≤ n := by
  have hupTo : upTo accept (lines stop (l ++ stop :: rest)) = [l] := by
    rw [lines_cons hl, upTo, if_pos ha]
  constructor
  · rintro ⟨hv, hlen, -⟩
    rw [hupTo, List.forall_mem_singleton] at hv hlen
    exact ⟨hv, by omega⟩
  · rintro ⟨hv, hn⟩
    refine ⟨?_, ?_, fun hnone => ?_⟩
    · rwa [hupTo, List.forall_mem_singleton]
    · rw [hupTo, List.forall_mem_singleton]
      exact (Nat.lt_or_eq_of_le hn).imp_right fun heq => ⟨heq, ha⟩
    · rw [hnone l (by simp [lines_cons hl])] at ha
      cases ha

theorem fits_rejected {l : List α} (hl : stop ∉ l) (ha : accept l = false) (rest : List α) :
    Fits stop n view accept (l ++ stop :: rest) ↔
      (view l = l ∧ l.length < n) ∧ Fits stop n view accept rest := by
  have hupTo : upTo accept (lines stop (l ++ stop :: rest)) =
      l :: upTo accept (lines stop rest) := by
    rw [lines_cons hl, upTo, if_neg (by simp [ha])]
  have htail := tail_cons hl rest
  have hlines := lines_cons hl rest
  constructor
  · rintro ⟨hv, hlen, ht⟩
    rw [hupTo, List.forall_mem_cons] at hv hlen
    rw [hlines, htail, List.forall_mem_cons] at ht
    have hlt : l.length < n := by simpa [ha] using hlen.1
    exact ⟨⟨hv.1, hlt⟩, hv.2, hlen.2, fun hnone => ht ⟨ha, hnone⟩⟩
  · rintro ⟨⟨hv, hlt⟩, hv', hlen', ht'⟩
    refine ⟨?_, ?_, ?_⟩
    · rw [hupTo, List.forall_mem_cons]
      exact ⟨hv, hv'⟩
    · rw [hupTo, List.forall_mem_cons]
      exact ⟨.inl hlt, hlen'⟩
    · rw [hlines, htail, List.forall_mem_cons]
      exact fun hnone => ht' hnone.2

theorem readsLines_tail {s : List α} (h : stop ∉ s) :
    ReadsLines stop n view accept s ↔ s.length < n := by
  unfold ReadsLines
  rw [lines_of_not_mem h]
  constructor
  · intro hr
    by_contra hlong
    have hread := readUntil_split h (Nat.not_lt.mp hlong) []
    rw [List.append_nil] at hread
    have hone := hr 1
    rw [texts_one hread] at hone
    exact absurd hone (by simp [upTo])
  · intro hs k
    rw [texts_none (readUntil_wait h hs)]
    simp [upTo]

/-- A line that has been accepted ends the stream. -/
theorem readsLines_accepted {l : List α} (hl : stop ∉ l) (hv : view l = l) (hn : l.length ≤ n)
    (ha : accept l) (rest : List α) : ReadsLines stop n view accept (l ++ stop :: rest) := by
  have hread : ∃ rest', readUntil stop n (l ++ stop :: rest) = some (l, rest') := by
    rcases Nat.lt_or_eq_of_le hn with hlt | rfl
    · exact ⟨rest, readUntil_line hl hlt rest⟩
    · exact ⟨stop :: rest, readUntil_full hl (stop :: rest)⟩
  obtain ⟨rest', hread⟩ := hread
  intro k
  rw [lines_cons hl, upTo, if_pos ha]
  cases k with
  | zero => rfl
  | succ k =>
    rw [texts_some hread, hv, if_pos ha, List.take_succ_cons, List.take_nil]

/-- A rejected line with room to spare is the first text, and the rest follows. -/
theorem readsLines_rejected {l : List α} (hl : stop ∉ l) (hv : view l = l) (hn : l.length < n)
    (ha : accept l = false) (rest : List α) :
    ReadsLines stop n view accept (l ++ stop :: rest) ↔ ReadsLines stop n view accept rest := by
  have htexts : ∀ k, texts stop n view accept (k + 1) (l ++ stop :: rest) =
      l :: texts stop n view accept k rest := by
    intro k
    rw [texts_some (readUntil_line hl hn rest), hv, if_neg (by simp [ha])]
  have hlines : upTo accept (lines stop (l ++ stop :: rest)) =
      l :: upTo accept (lines stop rest) := by
    rw [lines_cons hl, upTo, if_neg (by simp [ha])]
  constructor
  · intro hr k
    have hk := hr (k + 1)
    rw [htexts, hlines, List.take_succ_cons] at hk
    exact (List.cons.inj hk).2
  · intro hr k
    cases k with
    | zero => rfl
    | succ k => rw [htexts, hlines, List.take_succ_cons, hr k]

variable (hview : ∀ l, (view l).length ≤ l.length) (hempty : accept [] = false) (hpos : 0 < n)
include hview hempty hpos

/-- A separator that is left behind reads as an empty text, which the lines do not have: an
empty text in its place would have to come from a separator again, and the stream ends. -/
theorem not_readsLines_behind (rest : List α) :
    ¬ ∀ k, texts stop n view accept k (stop :: rest) = (upTo accept (lines stop rest)).take k := by
  have hv : view [] = [] := List.eq_nil_of_length_eq_zero (Nat.le_zero.mp (hview []))
  have hread : ∀ rest : List α, readUntil stop n (stop :: rest) = some ([], rest) := fun rest =>
    readUntil_line (List.not_mem_nil) hpos rest
  have htexts : ∀ (rest : List α) k, texts stop n view accept (k + 1) (stop :: rest) =
      [] :: texts stop n view accept k rest := by
    intro rest k
    rw [texts_some (hread rest), hv, if_neg (by simp [hempty])]
  induction rest using line_induction with
  | tail s hs =>
    intro hr
    have hone := hr 1
    rw [htexts, lines_of_not_mem hs] at hone
    exact absurd hone (by simp [upTo])
  | line l rest hl ih =>
    intro hr
    have hone := hr 1
    rw [texts_one (hread _), lines_cons hl, take_one_upTo, hv] at hone
    obtain rfl : [] = l := (List.cons.inj hone).1
    refine ih fun k => ?_
    have hk := hr (k + 1)
    rw [htexts, lines_cons hl, upTo, if_neg (by simp [hempty]), List.take_succ_cons] at hk
    exact (List.cons.inj hk).2

/-- A first line that is read as such leaves room, or fills the buffer and is accepted. -/
theorem ReadsLines.head {l rest : List α} (hl : stop ∉ l)
    (hr : ReadsLines stop n view accept (l ++ stop :: rest)) :
    view l = l ∧ (l.length < n ∨ l.length = n ∧ accept l) := by
  have hone := hr 1
  rw [lines_cons hl, take_one_upTo] at hone
  by_cases hlt : l.length < n
  · rw [texts_one (readUntil_line hl hlt rest)] at hone
    exact ⟨(List.cons.inj hone).1, .inl hlt⟩
  · have hsplit := readUntil_split hl (Nat.not_lt.mp hlt) (stop :: rest)
    rw [texts_one hsplit] at hone
    have hcut : view (l.take n) = l := (List.cons.inj hone).1
    have hlen := hview (l.take n)
    rw [hcut, List.length_take] at hlen
    have hn : l.length = n := by omega
    have htake : l.take n = l := List.take_of_length_le (Nat.le_of_eq hn)
    rw [htake] at hcut hsplit
    have hdrop : l.drop n = [] := List.drop_eq_nil_of_le (Nat.le_of_eq hn)
    rw [hdrop, List.nil_append] at hsplit
    refine ⟨hcut, .inr ⟨hn, ?_⟩⟩
    by_contra ha
    have hbehind : ∀ k, texts stop n view accept k (stop :: rest) =
        (upTo accept (lines stop rest)).take k := by
      intro k
      have hk := hr (k + 1)
      rw [texts_some hsplit, hcut, if_neg ha, lines_cons hl, upTo, if_neg ha,
        List.take_succ_cons] at hk
      exact (List.cons.inj hk).2
    exact not_readsLines_behind hview hempty hpos rest hbehind

/-- The reader sees the lines of a stream, up to the first accepted one, exactly when they
fit. -/
theorem readsLines_iff (s : List α) :
    ReadsLines stop n view accept s ↔ Fits stop n view accept s := by
  induction s using line_induction with
  | tail s hs => rw [readsLines_tail hs, fits_tail hs]
  | line l rest hl ih =>
    cases ha : accept l with
    | true =>
      rw [fits_accepted hl ha]
      constructor
      · intro hr
        obtain ⟨hv, hlen⟩ := hr.head hview hempty hpos hl
        exact ⟨hv, by omega⟩
      · rintro ⟨hv, hn⟩
        exact readsLines_accepted hl hv hn ha rest
    | false =>
      rw [fits_rejected hl ha, ← ih]
      constructor
      · intro hr
        obtain ⟨hv, hlen⟩ := hr.head hview hempty hpos hl
        have hlt : l.length < n := by simpa [ha] using hlen
        exact ⟨⟨hv, hlt⟩, (readsLines_rejected hl hv hlt ha rest).mp hr⟩
      · rintro ⟨⟨hv, hlt⟩, hr⟩
        exact (readsLines_rejected hl hv hlt ha rest).mpr hr

end Texts

end LineReader
