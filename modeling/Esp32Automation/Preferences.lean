import Esp32Automation.CString
import Esp32Automation.Overlay
import Mathlib.Logic.Function.Basic

/-!
# The `Preferences` object

`Preferences` is the key-value store of the ESP32 Arduino core. It is not part of
the repository, so it is an interface here: an object `P` with the operations the
sketches call and the documented behaviour of each as a law. An object is observed
through the handle it holds and the flash contents behind it. The Boolean in front of
a write says whether the flash takes that write. `FlashObject` is a reference object
that satisfies every law; it makes the models below executable.
-/
namespace Esp32Automation

/-- One namespace of the flash: its string entries and its integer entries. -/
structure Namespace where
  str : String → Option CString
  int : String → Option ℤ

namespace Namespace

def empty : Namespace := ⟨fun _ => none, fun _ => none⟩

def setStr (key : String) (value : CString) (ns : Namespace) : Namespace :=
  { ns with str := Function.update ns.str key (some value) }

def setInt (key : String) (value : ℤ) (ns : Namespace) : Namespace :=
  { ns with int := Function.update ns.int key (some value) }

end Namespace

/-- Flash contents: the namespaces that exist. -/
abbrev Nvs := String → Option Namespace

namespace Nvs

/-- Opening for writing creates a missing namespace. -/
def ensure (name : String) (f : Nvs) : Nvs :=
  Function.update f name (some ((f name).getD Namespace.empty))

def modify (name : String) (g : Namespace → Namespace) (f : Nvs) : Nvs :=
  Function.update f name ((f name).map g)

@[simp] theorem ensure_self (name : String) (f : Nvs) :
    f.ensure name name = some ((f name).getD Namespace.empty) := by simp [ensure]

@[simp] theorem modify_self (name : String) (g : Namespace → Namespace) (f : Nvs) :
    f.modify name g name = (f name).map g := by simp [modify]

theorem modify_of_ne {name other : String} (h : other ≠ name) (g : Namespace → Namespace)
    (f : Nvs) : f.modify name g other = f other := by simp [modify, h]

theorem modify_id (name : String) (f : Nvs) : f.modify name id = f := by
  simp [modify]

theorem modify_eq_self {name : String} {g : Namespace → Namespace} {f : Nvs} {ns : Namespace}
    (h : f name = some ns) (hg : g ns = ns) : f.modify name g = f := by
  rw [modify, h, Option.map_some, hg, ← h, Function.update_eq_self]

/-- Two rewrites of one namespace are one. -/
theorem modify_modify (name : String) (g₁ g₂ : Namespace → Namespace) (f : Nvs) :
    (f.modify name g₁).modify name g₂ = f.modify name (g₂ ∘ g₁) := by
  simp [modify, Function.comp_def]

theorem ensure_of_isSome {name : String} {f : Nvs} (h : (f name).isSome) :
    f.ensure name = f := by
  obtain ⟨ns, hns⟩ := Option.isSome_iff_exists.mp h
  rw [ensure, hns, Option.getD_some, ← hns, Function.update_eq_self]

end Nvs

/-- An open handle: the namespace it was opened on and the mode. -/
structure Handle where
  name : String
  readOnly : Bool
  deriving DecidableEq

/-- The operations of a `Preferences` object and what is assumed of them. -/
class Preferences (P : Type) where
  /-- The object after power-up, before any `begin`. -/
  powerUp : Nvs → P
  handle : P → Option Handle
  nvs : P → Nvs
  begin_ : String → Bool → P → Bool × P
  end_ : P → P
  clear : Bool → P → Bool × P
  putString : Bool → String → Option CString → P → ℕ × P
  putInt : Bool → String → ℤ → P → ℕ × P
  getString : String → CString → P → CString
  getInt : String → ℤ → P → ℤ
  handle_powerUp (f : Nvs) : handle (powerUp f) = none
  nvs_powerUp (f : Nvs) : nvs (powerUp f) = f
  /-- `begin` on a started object returns false and changes nothing. -/
  begin_started {p : P} (name : String) (ro : Bool) (h : (handle p).isSome) :
    begin_ name ro p = (false, p)
  begin_write {p : P} (name : String) (h : handle p = none) :
    (begin_ name false p).1 = true ∧ handle (begin_ name false p).2 = some ⟨name, false⟩ ∧
      nvs (begin_ name false p).2 = (nvs p).ensure name
  begin_read {p : P} (name : String) (h : handle p = none) (hn : (nvs p name).isSome) :
    (begin_ name true p).1 = true ∧ handle (begin_ name true p).2 = some ⟨name, true⟩ ∧
      nvs (begin_ name true p).2 = nvs p
  /-- A read-only `begin` fails on a namespace that does not exist. -/
  begin_missing {p : P} (name : String) (h : handle p = none) (hn : nvs p name = none) :
    begin_ name true p = (false, p)
  handle_end (p : P) : handle (end_ p) = none
  nvs_end (p : P) : nvs (end_ p) = nvs p
  /-- Nothing is written through a closed or read-only handle. -/
  clear_refused {p : P} (ok : Bool) (h : ∀ name, handle p ≠ some ⟨name, false⟩) :
    clear ok p = (false, p)
  putString_refused {p : P} (ok : Bool) (key : String) (v : Option CString)
    (h : ∀ name, handle p ≠ some ⟨name, false⟩) : putString ok key v p = (0, p)
  putInt_refused {p : P} (ok : Bool) (key : String) (v : ℤ)
    (h : ∀ name, handle p ≠ some ⟨name, false⟩) : putInt ok key v p = (0, p)
  putString_null (ok : Bool) (key : String) (p : P) : putString ok key none p = (0, p)
  clear_failed (p : P) : clear false p = (false, p)
  putString_failed (key : String) (v : Option CString) (p : P) : putString false key v p = (0, p)
  putInt_failed (key : String) (v : ℤ) (p : P) : putInt false key v p = (0, p)
  clear_ok {p : P} {name : String} (h : handle p = some ⟨name, false⟩) :
    (clear true p).1 = true ∧ handle (clear true p).2 = handle p ∧
      nvs (clear true p).2 = (nvs p).modify name (fun _ => Namespace.empty)
  putString_ok {p : P} {name : String} (key : String) (v : CString)
    (h : handle p = some ⟨name, false⟩) :
    (putString true key (some v) p).1 = v.length ∧
      handle (putString true key (some v) p).2 = handle p ∧
      nvs (putString true key (some v) p).2 = (nvs p).modify name (Namespace.setStr key v)
  putInt_ok {p : P} {name : String} (key : String) (v : ℤ)
    (h : handle p = some ⟨name, false⟩) :
    (putInt true key v p).1 = 4 ∧ handle (putInt true key v p).2 = handle p ∧
      nvs (putInt true key v p).2 = (nvs p).modify name (Namespace.setInt key v)
  /-- Reads through a closed handle return the default. -/
  getString_closed {p : P} (key : String) (d : CString) (h : handle p = none) :
    getString key d p = d
  getInt_closed {p : P} (key : String) (d : ℤ) (h : handle p = none) : getInt key d p = d
  getString_open {p : P} {hd : Handle} {ns : Namespace} (key : String) (d : CString)
    (h : handle p = some hd) (hn : nvs p hd.name = some ns) :
    getString key d p = (ns.str key).getD d
  getInt_open {p : P} {hd : Handle} {ns : Namespace} (key : String) (d : ℤ)
    (h : handle p = some hd) (hn : nvs p hd.name = some ns) :
    getInt key d p = (ns.int key).getD d
  /-- A namespace stays in place while it is open. -/
  open_exists {p : P} {hd : Handle} (h : handle p = some hd) : (nvs p hd.name).isSome

namespace Preferences
variable {P : Type} [Preferences P]

attribute [simp] handle_powerUp nvs_powerUp handle_end nvs_end putString_null putString_failed
  putInt_failed clear_failed

/-- The namespace that reads go to. -/
def contents (p : P) : Option Namespace := (handle p).bind fun hd => nvs p hd.name

theorem getString_eq (key : String) (d : CString) (p : P) :
    getString key d p = (((contents p).bind fun ns => ns.str key)).getD d := by
  cases h : handle p with
  | none => simp [contents, h, getString_closed key d h]
  | some hd =>
    obtain ⟨ns, hns⟩ := Option.isSome_iff_exists.mp (open_exists h)
    simp [contents, h, hns, getString_open key d h hns]

theorem getInt_eq (key : String) (d : ℤ) (p : P) :
    getInt key d p = (((contents p).bind fun ns => ns.int key)).getD d := by
  cases h : handle p with
  | none => simp [contents, h, getInt_closed key d h]
  | some hd =>
    obtain ⟨ns, hns⟩ := Option.isSome_iff_exists.mp (open_exists h)
    simp [contents, h, hns, getInt_open key d h hns]

/-- Opening for reading changes no contents. -/
theorem nvs_begin_read (name : String) (p : P) : nvs (begin_ name true p).2 = nvs p := by
  cases h : handle p with
  | some hd => rw [begin_started name true (by simp [h])]
  | none =>
    cases hn : nvs p name with
    | some ns => exact (begin_read name h (by simp [hn])).2.2
    | none => rw [begin_missing name h hn]

/-- On a started object the namespace that is open stays the one that is read. -/
theorem contents_begin_read_started {p : P} (name : String) (h : (handle p).isSome) :
    contents (begin_ name true p).2 = contents p := by
  rw [begin_started name true h]

/-- On a closed object it is the namespace asked for, if it exists. -/
theorem contents_begin_read_closed {p : P} (name : String) (h : handle p = none) :
    contents (begin_ name true p).2 = nvs p name := by
  cases hn : nvs p name with
  | some ns =>
    obtain ⟨-, hh, hnvs⟩ := begin_read name h (by simp [hn])
    simp [contents, hh, hnvs, hn]
  | none =>
    rw [begin_missing name h hn]
    simp [contents, h]

/-- The handle of `p` is open for writing on the given namespace, whose entries are `ns`. -/
structure Writable (p : P) (name : String) (ns : Namespace) : Prop where
  handle_eq : handle p = some ⟨name, false⟩
  nvs_eq : nvs p name = some ns

theorem Writable.contents_eq {p : P} {name : String} {ns : Namespace} (h : Writable p name ns) :
    contents p = some ns := by simp [contents, h.handle_eq, h.nvs_eq]

/-- After power-up, opening for writing gives the namespace as the flash holds it. -/
theorem begin_powerUp (name : String) (f : Nvs) :
    Writable (begin_ name false (powerUp f : P)).2 name ((f name).getD Namespace.empty) := by
  obtain ⟨_, hh, hn⟩ := begin_write name (handle_powerUp (P := P) f)
  exact ⟨hh, by simp [hn]⟩

end Preferences

/-- The overload of `getString` that fills an array with `maxLen = sizeof(array)`: all of
the stored string with its terminator, or nothing. -/
class ArrayPreferences (P : Type) extends Preferences P where
  getStringInto : ∀ {n : ℕ}, String → CharArray n → P → ℕ × CharArray n
  getStringInto_missing {n : ℕ} {p : P} (key : String) (a : CharArray n)
    (h : ((Preferences.contents p).bind fun ns => ns.str key) = none) :
    getStringInto key a p = (0, a)
  getStringInto_long {n : ℕ} {p : P} {v : CString} (key : String) (a : CharArray n)
    (h : ((Preferences.contents p).bind fun ns => ns.str key) = some v) (hv : n ≤ v.length) :
    getStringInto key a p = (0, a)
  getStringInto_fits {n : ℕ} {p : P} {v : CString} (key : String) (a : CharArray n)
    (h : ((Preferences.contents p).bind fun ns => ns.str key) = some v) (hv : v.length < n) :
    getStringInto key a p = (v.length + 1, a.store v hv)

namespace ArrayPreferences
variable {P : Type} [ArrayPreferences P]

/-- The array is left alone or overwritten from its beginning. -/
theorem getStringInto_cases {n : ℕ} (key : String) (a : CharArray n) (p : P) :
    (getStringInto key a p).2 = a ∨
      ∃ v : CString, ∃ h : v.length < n, (getStringInto key a p).2 = a.store v h := by
  cases hv : (Preferences.contents p).bind fun ns => ns.str key with
  | none => exact .inl (by rw [getStringInto_missing key a hv])
  | some v =>
    by_cases h : v.length < n
    · exact .inr ⟨v, h, by rw [getStringInto_fits key a hv h]⟩
    · exact .inl (by rw [getStringInto_long key a hv (Nat.not_lt.mp h)])

/-- So a string in it stays one. -/
theorem getStringInto_terminated {n : ℕ} (key : String) (a : TerminatedArray n) (p : P) :
    (getStringInto key a.toCharArray p).2.Terminated := by
  obtain h | ⟨v, hv, h⟩ := getStringInto_cases key a.toCharArray p
  · rw [h]
    exact a.terminated
  · rw [h]
    exact CharArray.store_terminated _ v hv

/-- Load a string into an array that holds one. -/
def load {n : ℕ} (key : String) (a : TerminatedArray n) (p : P) : TerminatedArray n :=
  ⟨(getStringInto key a.toCharArray p).2, getStringInto_terminated key a p⟩

/-- The stored string, if there is one and it fits, and the old one otherwise. -/
theorem load_cstr {n : ℕ} (key : String) (a : TerminatedArray n) (p : P) :
    (load key a p).cstr =
      (((Preferences.contents p).bind fun ns => ns.str key).filter (·.length < n)).getD a.cstr := by
  unfold load TerminatedArray.cstr
  cases hv : (Preferences.contents p).bind fun ns => ns.str key with
  | none => simp [getStringInto_missing key a.toCharArray hv]
  | some v =>
    by_cases h : v.length < n
    · rw [Option.filter_some_pos (by simpa using h)]
      simp [getStringInto_fits key a.toCharArray hv h]
    · rw [Option.filter_some_neg (by simpa using h)]
      simp [getStringInto_long key a.toCharArray hv (Nat.not_lt.mp h)]

end ArrayPreferences

/-- One `put` call: the key, and the value it is given. -/
inductive Write where
  | str (key : String) (value : Option CString)
  | int (key : String) (value : ℤ)

namespace Write
open Preferences
variable {P : Type} [Preferences P]

/-- Run one `put` call; `ok` says whether the flash takes the write. -/
def exec (ok : Bool) : Write → P → P
  | str key value, p => (putString ok key value p).2
  | int key value, p => (putInt ok key value p).2

/-- The entry a `put` call leaves behind. -/
def apply : Write → Namespace → Namespace
  | str key (some value), ns => ns.setStr key value
  | str _ none, ns => ns
  | int key value, ns => ns.setInt key value

@[simp] theorem apply_str_str (key : String) (value : Option CString) (ns : Namespace)
    (key' : String) : ((Write.str key value).apply ns).str key' =
      if key' = key then value.or (ns.str key') else ns.str key' := by
  cases value with
  | none => simp [apply]
  | some s =>
    by_cases h : key' = key
    · simp [apply, Namespace.setStr, h]
    · simp [apply, Namespace.setStr, h]

@[simp] theorem apply_int_str (key : String) (value : ℤ) (ns : Namespace) :
    ((Write.int key value).apply ns).str = ns.str := rfl

@[simp] theorem apply_str_int (key : String) (value : Option CString) (ns : Namespace) :
    ((Write.str key value).apply ns).int = ns.int := by
  cases value <;> rfl

@[simp] theorem apply_int_int (key : String) (value : ℤ) (ns : Namespace) (key' : String) :
    ((Write.int key value).apply ns).int key' = if key' = key then some value else ns.int key' := by
  by_cases h : key' = key
  · simp [apply, Namespace.setInt, h]
  · simp [apply, Namespace.setInt, h]

theorem exec_failed (w : Write) (p : P) : w.exec false p = p := by
  cases w <;> simp [exec]

theorem exec_refused (ok : Bool) (w : Write) {p : P}
    (h : ∀ name, handle p ≠ some ⟨name, false⟩) : w.exec ok p = p := by
  cases w with
  | str key value => simp [exec, putString_refused ok key value h]
  | int key value => simp [exec, putInt_refused ok key value h]

/-- A write through an open handle commits its own key and touches nothing else. -/
theorem exec_ok (w : Write) {p : P} {name : String} (h : handle p = some ⟨name, false⟩) :
    handle (w.exec true p) = handle p ∧ nvs (w.exec true p) = (nvs p).modify name w.apply := by
  cases w with
  | str key value =>
    cases value with
    | none =>
      have hid : (nvs p).modify name (apply (.str key none)) = nvs p := Nvs.modify_id name _
      simp [exec, hid]
    | some v => exact (putString_ok key v h).2
  | int key v => exact (putInt_ok key v h).2

/-- The same, for a write that the flash may or may not take. -/
theorem exec_writable (ok : Bool) (w : Write) {p : P} {name : String} {ns : Namespace}
    (h : Writable p name ns) :
    Writable (w.exec ok p) name (if ok then w.apply ns else ns) := by
  cases ok with
  | false => simpa [exec_failed] using h
  | true =>
    obtain ⟨hh, hn⟩ := exec_ok w h.handle_eq
    exact ⟨hh.trans h.handle_eq, by simp [hn, h.nvs_eq]⟩

/-- Run `put` calls in order, every one of them taken by the flash. -/
def execAll (ws : List Write) (p : P) : P := ws.foldl (fun p w => w.exec true p) p

/-- The entries a sequence of `put` calls leaves behind. -/
def applyAll (ws : List Write) (ns : Namespace) : Namespace :=
  ws.foldl (fun ns w => w.apply ns) ns

/-- Writing is overlaying, for the strings and for the integers. -/
theorem applyAll_eq_overlay (ws : List Write) : ∃ u v, ∀ ns : Namespace,
    applyAll ws ns = ⟨Overlay.overlay u ns.str, Overlay.overlay v ns.int⟩ := by
  induction ws with
  | nil => exact ⟨fun _ => none, fun _ => none, fun ns => rfl⟩
  | cons w ws ih =>
    obtain ⟨u, v, h⟩ := ih
    have hone : ∃ u' v', ∀ ns : Namespace,
        w.apply ns = ⟨Overlay.overlay u' ns.str, Overlay.overlay v' ns.int⟩ := by
      cases w with
      | str key value =>
        cases value with
        | none => exact ⟨fun _ => none, fun _ => none, fun ns => rfl⟩
        | some s =>
          refine ⟨fun k => if k = key then some (some s) else none, fun _ => none, fun ns => ?_⟩
          simp only [apply, Namespace.setStr, Overlay.overlay_none, Namespace.mk.injEq, and_true]
          funext k
          by_cases hk : k = key <;> simp [Overlay.overlay, hk]
      | int key n =>
        refine ⟨fun _ => none, fun k => if k = key then some (some n) else none, fun ns => ?_⟩
        simp only [apply, Namespace.setInt, Overlay.overlay_none, Namespace.mk.injEq, true_and]
        funext k
        by_cases hk : k = key <;> simp [Overlay.overlay, hk]
    obtain ⟨u', v', h'⟩ := hone
    refine ⟨fun k => (u k).or (u' k), fun k => (v k).or (v' k), fun ns => ?_⟩
    rw [show applyAll (w :: ws) ns = applyAll ws (w.apply ns) from rfl, h, h',
      Overlay.overlay_overlay, Overlay.overlay_overlay]

/-- Writing the same entries again changes nothing. -/
theorem applyAll_applyAll (ws : List Write) (ns : Namespace) :
    applyAll ws (applyAll ws ns) = applyAll ws ns := by
  obtain ⟨u, v, h⟩ := applyAll_eq_overlay ws
  simp only [h, Overlay.overlay_overlay_self]

theorem execAll_refused (ws : List Write) {p : P}
    (h : ∀ name, handle p ≠ some ⟨name, false⟩) : execAll ws p = p := by
  induction ws with
  | nil => rfl
  | cons w ws ih => simpa [execAll, exec_refused true w h] using ih

theorem execAll_writable (ws : List Write) {p : P} {name : String} {ns : Namespace}
    (h : Writable p name ns) : Writable (execAll ws p) name (applyAll ws ns) := by
  induction ws generalizing p ns with
  | nil => exact h
  | cons w ws ih => exact ih (by simpa using exec_writable true w h)

/-- Writing through one namespace leaves the others alone. -/
theorem execAll_nvs (ws : List Write) {p : P} {name : String}
    (h : handle p = some ⟨name, false⟩) :
    nvs (execAll ws p) = (nvs p).modify name (applyAll ws) := by
  induction ws generalizing p with
  | nil => exact (Nvs.modify_id name _).symm
  | cons w ws ih =>
    obtain ⟨hh, hn⟩ := exec_ok w h
    have hrec := ih (p := w.exec true p) (hh.trans h)
    rw [hn, Nvs.modify_modify] at hrec
    exact hrec

end Write

/-- A `Preferences` object in memory: its handle and the flash behind it. -/
structure FlashObject where
  handle : Option Handle
  nvs : Nvs
  open_exists : ∀ hd, handle = some hd → (nvs hd.name).isSome

namespace FlashObject

def opens (name : String) (ro : Bool) (f : Nvs) (h : (f name).isSome) : FlashObject :=
  ⟨some ⟨name, ro⟩, f, fun _ he => by obtain rfl := Option.some.inj he; exact h⟩

def begin_ (name : String) (ro : Bool) (p : FlashObject) : Bool × FlashObject :=
  if p.handle.isSome then (false, p)
  else if ro then
    if h : (p.nvs name).isSome then (true, opens name true p.nvs h) else (false, p)
  else (true, opens name false (p.nvs.ensure name) (by simp))

/-- Run `g` on the namespace that is open for writing, if there is one. -/
def commit (ok : Bool) (g : Namespace → Namespace) (p : FlashObject) : Bool × FlashObject :=
  match p.handle with
  | some ⟨name, false⟩ =>
    if ok then
      (true, ⟨p.handle, p.nvs.modify name g, fun hd he => by
        have hs := p.open_exists hd he
        by_cases hx : hd.name = name
        · subst hx; simpa using hs
        · rwa [Nvs.modify_of_ne hx]⟩)
    else (false, p)
  | _ => (false, p)

lemma commit_refused {ok : Bool} {g : Namespace → Namespace} {p : FlashObject}
    (h : ∀ name, p.handle ≠ some ⟨name, false⟩) : p.commit ok g = (false, p) := by
  unfold commit
  split
  · next name hh => exact absurd hh (h name)
  · rfl

lemma commit_failed (g : Namespace → Namespace) (p : FlashObject) :
    p.commit false g = (false, p) := by
  unfold commit; split <;> rfl

lemma commit_ok {g : Namespace → Namespace} {p : FlashObject} {name : String}
    (h : p.handle = some ⟨name, false⟩) :
    (p.commit true g).1 = true ∧ (p.commit true g).2.handle = p.handle ∧
      (p.commit true g).2.nvs = p.nvs.modify name g := by
  unfold commit
  split
  · next n hh =>
    obtain rfl : n = name := by simpa [hh] using h
    simp [hh]
  · next hne => exact absurd h (hne name)

def putString (ok : Bool) (key : String) (v : Option CString) (p : FlashObject) :
    ℕ × FlashObject :=
  match v with
  | none => (0, p)
  | some s =>
    let r := p.commit ok (Namespace.setStr key s)
    (if r.1 then s.length else 0, r.2)

def putInt (ok : Bool) (key : String) (v : ℤ) (p : FlashObject) : ℕ × FlashObject :=
  let r := p.commit ok (Namespace.setInt key v)
  (if r.1 then 4 else 0, r.2)

def contents (p : FlashObject) : Option Namespace := p.handle.bind fun hd => p.nvs hd.name

instance : Preferences FlashObject where
  powerUp f := ⟨none, f, nofun⟩
  handle := handle
  nvs := nvs
  begin_ := begin_
  end_ p := ⟨none, p.nvs, nofun⟩
  clear ok := commit ok fun _ => Namespace.empty
  putString := putString
  putInt := putInt
  getString key d p := (p.contents.bind fun ns => ns.str key).getD d
  getInt key d p := (p.contents.bind fun ns => ns.int key).getD d
  handle_powerUp _ := rfl
  nvs_powerUp _ := rfl
  begin_started _ _ h := by simp [begin_, h]
  begin_write _ h := by simp [begin_, h, opens]
  begin_read _ h hn := by simp [begin_, h, hn, opens]
  begin_missing _ h hn := by simp [begin_, h, hn]
  handle_end _ := rfl
  nvs_end _ := rfl
  clear_refused _ h := commit_refused h
  putString_refused _ _ v h := by cases v <;> simp [putString, commit_refused h]
  putInt_refused _ _ _ h := by simp [putInt, commit_refused h]
  putString_null _ _ _ := rfl
  clear_failed := commit_failed _
  putString_failed _ v _ := by cases v <;> simp [putString, commit_failed]
  putInt_failed _ _ _ := by simp [putInt, commit_failed]
  clear_ok h := commit_ok h
  putString_ok key v h := by
    obtain ⟨h₁, h₂⟩ := commit_ok (g := Namespace.setStr key v) h
    exact ⟨by simp [putString, h₁], h₂⟩
  putInt_ok key v h := by
    obtain ⟨h₁, h₂⟩ := commit_ok (g := Namespace.setInt key v) h
    exact ⟨by simp [putInt, h₁], h₂⟩
  getString_closed _ _ h := by simp [contents, h]
  getInt_closed _ _ h := by simp [contents, h]
  getString_open _ _ h hn := by simp [contents, h, hn]
  getInt_open _ _ h hn := by simp [contents, h, hn]
  open_exists h := open_exists _ _ h

def getStringInto {n : ℕ} (key : String) (a : CharArray n) (p : FlashObject) : ℕ × CharArray n :=
  match (Preferences.contents p).bind fun ns => ns.str key with
  | none => (0, a)
  | some v => if h : v.length < n then (v.length + 1, a.store v h) else (0, a)

instance : ArrayPreferences FlashObject where
  getStringInto := getStringInto
  getStringInto_missing key a h := by simp [getStringInto, h]
  getStringInto_long key a h hv := by simp [getStringInto, h, Nat.not_lt.mpr hv]
  getStringInto_fits key a h hv := by simp [getStringInto, h, hv]

end FlashObject

end Esp32Automation
