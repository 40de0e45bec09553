import Esp32Automation.RemoteConfig

/-!
# The arrays of mqtt_remote_on_off_with_config

`loadConfig` fills each array with a copy of its full length, and `saveConfig` stores
strings of any length. An array is safe to read exactly when the stored value leaves room
for a terminator, so the arrays stay safe exactly as long as documents bring short strings.
-/
namespace Esp32Automation.RemoteConfig
open Preferences Run

variable {P : Type} [Preferences P]

/-- The namespace that `loadConfig` reads. -/
def Device.savedNamespace (d : Device P) : Namespace :=
  (nvs d.preferences "config").getD Namespace.empty

/-- The value that `getString` returns for a key: the entry or the default. -/
def stored (ns : Namespace) (f : Field) : CString := (ns.str (key f)).getD (defaults (.text f))

/-- Each array can be read as a string that begins the stored value, whatever is behind it
in memory. -/
structure Safe (d : Device P) : Prop where
  terminated : ∀ f, (d.globals.text f).Terminated
  reads : ∀ f (behind : List UInt8),
    CString.ofBytes ((d.globals.text f).bytes ++ behind) = (d.globals.text f).cstr
  begins : ∀ f, (d.globals.text f).cstr.bytes <+: (stored d.savedNamespace f).bytes

/-- Every stored value leaves room for a terminator in its array. -/
def Room (ns : Namespace) : Prop := ∀ f, (stored ns f).length < size f

/-- So does every string that a document brings for one of the five keys. -/
def Event.Brief (k : Sketch) (e : Event) : Prop :=
  ∀ doc ∈ e.document k, ∀ f, ∀ v ∈ doc.charPtr (key f), v.length < size f

/-- Between two events, safety is a matter of the stored values. -/
theorem safe_iff {d : Device P} (h : Synced d) : Safe d ↔ Room d.savedNamespace := by
  have harray : ∀ f, (d.globals.text f).Terminated ↔
      (stored d.savedNamespace f).length < size f := by
    intro f
    rw [h.globals_eq]
    exact CharArray.strncpy_full_terminated_iff _ _
  constructor
  · exact fun hsafe f => (harray f).mp (hsafe.terminated f)
  · intro hroom
    have hterm : ∀ f, (d.globals.text f).Terminated := fun f => (harray f).mpr (hroom f)
    refine ⟨hterm, fun f => (hterm f).ofBytes_append, fun f => ?_⟩
    have hcstr : (d.globals.text f).cstr = (stored d.savedNamespace f).take (size f) := by
      rw [h.globals_eq]
      exact loaded_config d.savedNamespace f
    rw [hcstr]
    exact List.take_prefix _ _

/-- Only documents reach the flash. -/
theorem step_quiet_nvs {k : Sketch} {e : Event} (hd : e.document k = none) (d : Device P) :
    nvs (step k d e).preferences = nvs d.preferences := by
  obtain ⟨level, hl⟩ := react_quiet hd d
  unfold step settle
  split_ifs
  · rw [hl]
  · rw [boot_nvs, hl]

/-- A document replaces the values it names. -/
theorem stored_step {k : Sketch} {d : Device P} (h : Synced d) {e : Event} {doc : Json}
    (hd : doc ∈ e.document k) (f : Field) :
    stored (step k d e).savedNamespace f =
      (doc.charPtr (key f)).getD (stored d.savedNamespace f) := by
  have hns : (step k d e).savedNamespace = Write.applyAll (writes doc) d.savedNamespace := by
    rw [Device.savedNamespace, step_eq_boot hd, boot_nvs, saveConfig_nvs h.closed, Option.getD_some]
    rfl
  rw [hns, stored, applyAll_str]
  cases doc.charPtr (key f) with
  | none => rfl
  | some v => rfl

/-- Where there is room before, there is room after an event that brings short strings, and
after no other. -/
theorem room_step_iff {k : Sketch} {d : Device P} (h : Synced d) (hr : Room d.savedNamespace)
    (e : Event) : Room (step k d e).savedNamespace ↔ e.Brief k := by
  cases hd : e.document k with
  | none =>
    have hsame : (step k d e).savedNamespace = d.savedNamespace := by
      rw [Device.savedNamespace, step_quiet_nvs hd]
      rfl
    rw [hsame]
    simp [hr, Event.Brief, hd]
  | some doc =>
    have hstored := stored_step h (Option.mem_def.mpr hd)
    simp only [Room, Event.Brief, hd, hstored, Option.mem_def, Option.some.injEq, forall_eq']
    refine forall_congr' fun f => ?_
    cases doc.charPtr (key f) with
    | none => simpa using hr f
    | some v => simp

/-- In every run of either sketch, every array is safe to read in every state exactly when
the flash leaves room at first and every document brings short strings. -/
theorem always_safe_iff (k : Sketch) (f : Nvs) (es : List Event) :
    Always (step k) Safe (boot f : Device P) es ↔
      Room ((f "config").getD Namespace.empty) ∧ ∀ e ∈ es, e.Brief k := by
  have hboot := boot_synced (P := P) f
  have hflash : (boot f : Device P).savedNamespace = (f "config").getD Namespace.empty := by
    rw [Device.savedNamespace, boot_nvs]
  rw [always_iff, safe_iff hboot, hflash]
  refine and_congr_right fun hroom => ?_
  have hstep : ∀ (d : Device P) e, Synced d ∧ Room d.savedNamespace → e.Brief k →
      Synced (step k d e) ∧ Room (step k d e).savedNamespace := by
    rintro d e ⟨hs, hr⟩ hb
    exact ⟨step_synced k d e hs, (room_step_iff hs hr e).mpr hb⟩
  refine along_iff_forall_mem hstep ?_ ⟨hboot, by rwa [hflash]⟩ es
  rintro d e ⟨hs, hr⟩
  rw [safe_iff (step_synced k d e hs), room_step_iff hs hr]

/-- An SSID of 32 bytes, the longest there is, over MQTT. -/
def longestSsid : Event := .mqtt (.lit "esp32/config")
  (ascii "\x7b\"ssid\":\"0123456789abcdef0123456789abcdef\",\"mqtt_port\":1883\x7d")

/-- It fills the array to the last byte. -/
theorem longestSsid_unterminated :
    ¬ ∀ (k : Sketch) (es : List Event),
      Always (step k) Safe (boot (fun _ => none) : Device FlashObject) es := by
  intro h
  have hsafe := h .withConfig [longestSsid] [longestSsid] [] rfl
  exact absurd (hsafe.terminated .ssid) (by decide +kernel)

end Esp32Automation.RemoteConfig
