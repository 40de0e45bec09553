import Mathlib.Data.List.TakeWhile
import Mathlib.Tactic.Common

/-!
# C strings and fixed-size character arrays

A `CString` is what a `const char *` denotes to code that reads it: the bytes in
front of the terminator. A `CharArray` is the memory of a `char` array. `strncpy`
is the bounded copy of the C library, byte for byte, including its zero padding.
A `TerminatedArray` is an array that can be read safely. A `Buffer` is an array whose
contents are a string followed by zeros only; copying at most `n - 1` bytes into one
keeps that form, because the last byte is never written.
-/
namespace Esp32Automation

/-- The bytes of a zero-terminated string, terminator excluded. -/
structure CString where
  bytes : List UInt8
  nul_free : (0 : UInt8) ∉ bytes
  deriving DecidableEq

/-- The bytes of an ASCII literal. -/
def ascii (s : String) : List UInt8 := s.toList.map Char.toUInt8

namespace CString

@[ext] theorem ext {s t : CString} (h : s.bytes = t.bytes) : s = t := by
  cases s; cases t; simp_all

def length (s : CString) : ℕ := s.bytes.length

lemma nul_not_mem_takeWhile (b : List UInt8) : (0 : UInt8) ∉ b.takeWhile (· ≠ 0) := by
  intro h
  simpa using List.mem_takeWhile_imp h

/-- What a pointer to these bytes reads: everything in front of the first zero. -/
def ofBytes (b : List UInt8) : CString := ⟨b.takeWhile (· ≠ 0), nul_not_mem_takeWhile b⟩

/-- A string literal of the source. -/
def lit (s : String) : CString := ofBytes (ascii s)

def take (n : ℕ) (s : CString) : CString :=
  ⟨s.bytes.take n, fun h => s.nul_free (List.mem_of_mem_take h)⟩

@[simp] theorem ofBytes_bytes (s : CString) : ofBytes s.bytes = s := by
  ext1
  refine List.takeWhile_eq_self_iff.mpr fun x hx => ?_
  have hne : x ≠ 0 := fun h => s.nul_free (h ▸ hx)
  simpa using hne

/-- Behind the first terminator nothing is read. -/
theorem ofBytes_append_zero_cons (b t : List UInt8) : ofBytes (b ++ 0 :: t) = ofBytes b := by
  ext1
  simp only [ofBytes, List.takeWhile_append]
  split_ifs with h
  · simpa using (List.takeWhile_prefix _).eq_of_length h |>.symm
  · rfl

theorem ofBytes_append_zero (s : CString) (t : List UInt8) :
    ofBytes (s.bytes ++ 0 :: t) = s := by
  rw [ofBytes_append_zero_cons, ofBytes_bytes]

@[simp] theorem ofBytes_append_nul (b : List UInt8) : ofBytes (b ++ [0]) = ofBytes b :=
  ofBytes_append_zero_cons b []

theorem ofBytes_of_nul_free {b : List UInt8} (h : (0 : UInt8) ∉ b) : ofBytes b = ⟨b, h⟩ :=
  ofBytes_bytes ⟨b, h⟩

/-- Padding with zeros does not change what is read. -/
@[simp] theorem ofBytes_append_replicate (s : CString) (k : ℕ) :
    ofBytes (s.bytes ++ List.replicate k 0) = s := by
  cases k with
  | zero => simp
  | succ k => rw [List.replicate_succ, ofBytes_append_zero]

@[simp] theorem length_take (n : ℕ) (s : CString) : (s.take n).length = min n s.length := by
  simp [take, length]

@[simp] theorem take_take (n : ℕ) (s : CString) : (s.take n).take n = s.take n := by
  ext1; simp [take, List.take_take]

theorem take_of_length_le {n : ℕ} {s : CString} (h : s.length ≤ n) : s.take n = s := by
  ext1; exact List.take_of_length_le h

/-- Cutting off after `n` bytes loses nothing exactly when the string fits. -/
theorem take_eq_self_iff {n : ℕ} {s : CString} : s.take n = s ↔ s.length ≤ n := by
  refine ⟨fun h => ?_, take_of_length_le⟩
  have hl := congrArg length h
  rw [length_take] at hl
  omega

end CString

/-- The memory of a `char` array of `n` bytes. -/
structure CharArray (n : ℕ) where
  bytes : List UInt8
  length_eq : bytes.length = n
  deriving DecidableEq

namespace CharArray
variable {n : ℕ}

@[ext] theorem ext {a b : CharArray n} (h : a.bytes = b.bytes) : a = b := by
  cases a; cases b; simp_all

/-- A static array without initializer. -/
def zero (n : ℕ) : CharArray n := ⟨List.replicate n 0, List.length_replicate⟩

/-- The array read as a C string. Meaningful when a terminator lies inside. -/
def cstr (a : CharArray n) : CString := CString.ofBytes a.bytes

/-- `strncpy(a, src, k)`: exactly `k` bytes are written, the source up to its
terminator and zeros after it; no terminator is written when the source is longer. -/
def strncpy (a : CharArray n) (src : CString) (k : ℕ) (hk : k ≤ n) : CharArray n where
  bytes := (src.bytes ++ List.replicate k 0).take k ++ a.bytes.drop k
  length_eq := by
    have h := a.length_eq
    simp only [List.length_append, List.length_take, List.length_replicate, List.length_drop]
    omega

/-- A copy of the full length is the source, cut off or padded with zeros. -/
theorem strncpy_full_bytes (a : CharArray n) (src : CString) :
    (a.strncpy src n le_rfl).bytes =
      (src.take n).bytes ++ List.replicate (n - src.length) 0 := by
  simp only [strncpy, CString.take, CString.length]
  rw [List.drop_of_length_le (Nat.le_of_eq a.length_eq), List.append_nil, List.take_append,
    List.take_replicate, Nat.min_eq_left (Nat.sub_le _ _)]

/-- Read as a string, it is what fits. -/
@[simp] theorem strncpy_full_cstr (a : CharArray n) (src : CString) :
    (a.strncpy src n le_rfl).cstr = src.take n := by
  rw [cstr, strncpy_full_bytes, CString.ofBytes_append_replicate]

/-- `a[i] = c`. -/
def write (a : CharArray n) (i : ℕ) (c : UInt8) : CharArray n :=
  ⟨a.bytes.set i c, by rw [List.length_set, a.length_eq]⟩

/-- Copying a string to the front of the array, terminator included. -/
def store (a : CharArray n) (s : CString) (h : s.length < n) : CharArray n where
  bytes := s.bytes ++ 0 :: a.bytes.drop (s.length + 1)
  length_eq := by
    have ha := a.length_eq
    simp only [List.length_append, List.length_cons, List.length_drop, CString.length] at h ⊢
    omega

@[simp] theorem store_cstr (a : CharArray n) (s : CString) (h : s.length < n) :
    (a.store s h).cstr = s := CString.ofBytes_append_zero s _

/-- There is a terminator inside, so a reader stays in the array. -/
def Terminated (a : CharArray n) : Prop := (0 : UInt8) ∈ a.bytes

instance (a : CharArray n) : Decidable a.Terminated :=
  inferInstanceAs (Decidable ((0 : UInt8) ∈ a.bytes))

theorem store_terminated (a : CharArray n) (s : CString) (h : s.length < n) :
    (a.store s h).Terminated := by
  simp [Terminated, store]

/-- A copy of the full length has a terminator exactly when the source leaves room for it. -/
theorem strncpy_full_terminated_iff (a : CharArray n) (src : CString) :
    (a.strncpy src n le_rfl).Terminated ↔ src.length < n := by
  have hnul : (0 : UInt8) ∉ (src.take n).bytes := (src.take n).nul_free
  rw [Terminated, strncpy_full_bytes, List.mem_append, List.mem_replicate]
  constructor
  · rintro (hm | ⟨hpos, -⟩)
    · exact absurd hm hnul
    · omega
  · intro h
    exact .inr ⟨by omega, rfl⟩

/-- The string in front of the terminator is shorter than the array. -/
theorem Terminated.cstr_length_lt {a : CharArray n} (h : a.Terminated) : a.cstr.length < n := by
  have hsplit : a.bytes.takeWhile (· ≠ 0) ++ a.bytes.dropWhile (· ≠ 0) = a.bytes :=
    List.takeWhile_append_dropWhile
  have hrest : (0 : UInt8) ∈ a.bytes.dropWhile (· ≠ 0) := by
    have hmem : (0 : UInt8) ∈ a.bytes.takeWhile (· ≠ 0) ++ a.bytes.dropWhile (· ≠ 0) := by
      rw [hsplit]
      exact h
    exact (List.mem_append.mp hmem).resolve_left (CString.nul_not_mem_takeWhile _)
  have hpos := List.length_pos_of_mem hrest
  have hlen := congrArg List.length hsplit
  rw [List.length_append, a.length_eq] at hlen
  simp only [cstr, CString.length, CString.ofBytes]
  omega

/-- Whatever memory follows the array, a reader that starts in it does not get there. -/
theorem Terminated.ofBytes_append {a : CharArray n} (h : a.Terminated) (rest : List UInt8) :
    CString.ofBytes (a.bytes ++ rest) = a.cstr := by
  ext1
  have hlt := h.cstr_length_lt
  simp only [cstr, CString.length, CString.ofBytes] at hlt ⊢
  rw [List.takeWhile_append, if_neg]
  rw [a.length_eq]
  omega

end CharArray

/-- A character array with a terminator inside. -/
structure TerminatedArray (n : ℕ) extends CharArray n where
  terminated : toCharArray.Terminated

namespace TerminatedArray
variable {n : ℕ}

def cstr (a : TerminatedArray n) : CString := a.toCharArray.cstr

theorem cstr_length_lt (a : TerminatedArray n) : a.cstr.length < n := a.terminated.cstr_length_lt

/-- `char a[n] = "..."`. -/
def ofCString (s : CString) (h : s.length < n) : TerminatedArray n :=
  ⟨(CharArray.zero n).store s h, CharArray.store_terminated _ s h⟩

@[simp] theorem ofCString_cstr (s : CString) (h : s.length < n) : (ofCString s h).cstr = s :=
  CharArray.store_cstr _ s h

end TerminatedArray

/-- A character array that holds a string and nothing but zeros behind it. -/
structure Buffer (n : ℕ) extends CharArray n where
  padded : bytes = (CString.ofBytes bytes).bytes ++
    List.replicate (n - (CString.ofBytes bytes).length) 0
  short : (CString.ofBytes bytes).length < n

namespace Buffer
variable {n : ℕ}

/-- The string in the buffer. -/
def cstr (b : Buffer n) : CString := b.toCharArray.cstr

theorem cstr_length_lt (b : Buffer n) : b.cstr.length < n := b.short

theorem bytes_eq (b : Buffer n) :
    b.bytes = b.cstr.bytes ++ List.replicate (n - b.cstr.length) 0 := b.padded

/-- The terminator follows the string. -/
theorem nul_at (b : Buffer n) : b.bytes[b.cstr.length]? = some 0 := by
  have hlt := b.cstr_length_lt
  rw [b.bytes_eq, CString.length, List.getElem?_append_right le_rfl, List.getElem?_replicate]
  simp only [CString.length] at hlt
  rw [if_pos (by omega)]

/-- A buffer is determined by its string. -/
theorem ext_cstr {a b : Buffer n} (h : a.cstr = b.cstr) : a = b := by
  have hb : a.toCharArray = b.toCharArray := by
    ext1
    rw [a.bytes_eq, b.bytes_eq, h]
  cases a; cases b; simp_all

instance : DecidableEq (Buffer n) := fun a b =>
  decidable_of_iff (a.cstr = b.cstr) ⟨ext_cstr, fun h => h ▸ rfl⟩

/-- The buffer holding a given string. -/
def ofCString (s : CString) (h : s.length < n) : Buffer n where
  bytes := s.bytes ++ List.replicate (n - s.length) 0
  length_eq := by simp only [List.length_append, List.length_replicate, CString.length] at *; omega
  padded := by rw [CString.ofBytes_append_replicate]
  short := by rw [CString.ofBytes_append_replicate]; exact h

@[simp] theorem ofCString_cstr (s : CString) (h : s.length < n) : (ofCString s h).cstr = s :=
  CString.ofBytes_append_replicate s _

/-- `buf[0] == '\0'`. -/
def isEmpty (b : Buffer n) : Bool := b.bytes.head? = some 0

theorem isEmpty_iff (b : Buffer n) : b.isEmpty ↔ b.cstr.length = 0 := by
  have hs := b.cstr_length_lt
  have hn := b.cstr.nul_free
  simp only [isEmpty, b.bytes_eq, decide_eq_true_eq]
  simp only [CString.length] at hs ⊢
  cases h : b.cstr.bytes with
  | nil =>
    rw [h] at hs
    obtain ⟨m, rfl⟩ : ∃ m, n = m + 1 := ⟨n - 1, by simp at hs; omega⟩
    simp [List.replicate_succ]
  | cons c cs =>
    have hc : c ≠ 0 := fun hc => hn (by simp [h, hc])
    simp [hc]

/-- The last byte of a buffer is its guard. -/
lemma drop_last (b : Buffer n) : b.bytes.drop (n - 1) = [0] := by
  have hs := b.cstr_length_lt
  rw [b.bytes_eq, List.drop_append, List.drop_replicate]
  simp only [CString.length] at hs ⊢
  have hn : n - b.cstr.bytes.length - (n - 1 - b.cstr.bytes.length) = 1 := by omega
  rw [hn, List.drop_of_length_le (by omega)]
  rfl

/-- `strncpy(buf, src, sizeof(buf) - 1)` leaves the string cut to what fits,
followed by zeros up to and including the byte that was not written. -/
lemma strncpy_bytes (b : Buffer n) (src : CString) :
    (b.toCharArray.strncpy src (n - 1) (Nat.sub_le n 1)).bytes =
      (src.take (n - 1)).bytes ++ List.replicate (n - (src.take (n - 1)).length) 0 := by
  have hs := b.cstr_length_lt
  simp only [CharArray.strncpy, drop_last, CString.length_take]
  rw [List.take_append, List.take_replicate, List.append_assoc, ← List.replicate_succ']
  simp only [CString.take, CString.length] at hs ⊢
  congr 2
  omega

/-- `strncpy(buf, src, sizeof(buf) - 1)`, which never touches the guard byte. -/
def strncpy (b : Buffer n) (src : CString) : Buffer n where
  toCharArray := b.toCharArray.strncpy src (n - 1) (Nat.sub_le n 1)
  padded := by rw [strncpy_bytes, CString.ofBytes_append_replicate]
  short := by
    have hs := b.cstr_length_lt
    rw [strncpy_bytes, CString.ofBytes_append_replicate, CString.length_take]
    omega

/-- The bounded copy keeps a prefix of the source and nothing of the old contents. -/
@[simp] theorem strncpy_cstr (b : Buffer n) (src : CString) :
    (b.strncpy src).cstr = src.take (n - 1) := by
  simp only [cstr, CharArray.cstr, strncpy, strncpy_bytes, CString.ofBytes_append_replicate]

/-- `buf[sizeof(buf) - 1] = '\0'`: the guard byte is zero already. -/
theorem write_guard (b : Buffer n) : b.toCharArray.write (n - 1) 0 = b.toCharArray := by
  ext1
  have hs := b.cstr_length_lt
  have hl := b.length_eq
  have hd := b.drop_last
  refine List.ext_getElem (by simp [CharArray.write]) fun i h₁ h₂ => ?_
  simp only [CharArray.write, List.getElem_set]
  split_ifs with hi
  · subst hi
    rw [List.drop_eq_getElem_cons h₂] at hd
    exact (List.cons.inj hd).1.symm
  · rfl

/-- `buf[sizeof(buf) - 1] = '\0'`. -/
def terminate (b : Buffer n) : Buffer n where
  toCharArray := b.toCharArray.write (n - 1) 0
  padded := by rw [write_guard]; exact b.padded
  short := by rw [write_guard]; exact b.short

@[simp] theorem terminate_eq (b : Buffer n) : b.terminate = b := by
  apply ext_cstr
  simp only [cstr, terminate, write_guard]

end Buffer

end Esp32Automation
