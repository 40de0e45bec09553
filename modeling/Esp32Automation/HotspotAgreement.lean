import Esp32Automation.ApWifiRuns
import Esp32Automation.Hotspot
import Esp32Automation.WifiServerRuns

/-!
# The two web sketches on esp32/config

esp32_hotspot_mqtt_remote_on_off and ap_wifi_plus_mqtt_connection_after_config have other
defaults, and only the second one writes a terminator when it loads. Both keep a
configuration of the same form under the same keys. Where every key is present, the
defaults play no part, and the two boards run in lockstep.
-/
namespace Esp32Automation.Hotspot
open Preferences Run
open WifiServer (Complete complete_applyAll)

variable {P : Type} [Preferences P]

/-- A message on `esp32/config`. -/
def Event.configMessage (m : List UInt8) : Event := .mqtt (.lit "esp32/config") m

/-- Where every key is present, no default is loaded. -/
theorem effective_complete {ns : Namespace} (h : Complete ns) (c c' : Config) :
    effective c ns = effective c' ns := by
  funext s
  cases s with
  | text f =>
    obtain ⟨v, hv⟩ := Option.isSome_iff_exists.mp (h.str f)
    simp [effective, hv]
  | mqttPort =>
    obtain ⟨n, hn⟩ := Option.isSome_iff_exists.mp h.int
    simp [effective, hn]

/-- Both boards run on the same complete namespace, and the rest of the flash is the same
too. -/
structure Agree (d : ApWifi.Device P) (d' : Device P) : Prop where
  nvs_eq : nvs d.preferences = nvs d'.preferences
  synced : ∃ ns, ApWifi.Synced d ns ∧ Synced d' ns ∧ Complete ns

/-- They hold the same configuration, byte for byte. -/
theorem Agree.globals_eq {d : ApWifi.Device P} {d' : Device P} (h : Agree d d') :
    d.globals = d'.globals := by
  obtain ⟨ns, hs, hs', hc⟩ := h.synced
  apply Globals.ext_config
  rw [hs.config_eq, hs'.config_eq]
  exact effective_complete hc _ _

theorem boot_agree {f : Nvs} {ns : Namespace} (hf : f "config" = some ns) (hc : Complete ns) :
    Agree (ApWifi.boot f : ApWifi.Device P) (boot f : Device P) := by
  have hs := ApWifi.boot_synced (P := P) f
  have hs' := boot_synced (P := P) f
  rw [hf, Option.getD_some] at hs hs'
  exact ⟨by rw [ApWifi.nvs_boot, nvs_boot], ns, hs, hs', hc⟩

/-- Both boards start again on the same flash. -/
theorem settle_agree {r : Reaction (ApWifi.Device P)} {r' : Reaction (Device P)} {ns : Namespace}
    (hx : r.exit ≠ .returned) (hx' : r'.exit ≠ .returned)
    (hn : nvs r.device.preferences = nvs r'.device.preferences)
    (hns : nvs r.device.preferences "config" = some ns) (hc : Complete ns) :
    Agree (ApWifi.settle r) (settle r') := by
  rw [ApWifi.settle, if_neg hx, settle, if_neg hx', ← hn]
  exact boot_agree hns hc

/-- A message is rejected by both, or is fatal to both, or leaves the same settings in the
flash of both. -/
theorem step_agree {d : ApWifi.Device P} {d' : Device P} (h : Agree d d') (m : List UInt8) :
    Agree (ApWifi.step d (.configMessage m)) (step d' (.configMessage m)) := by
  cases hp : deserializeJson m with
  | error err =>
    have hidle : ApWifi.step d (.configMessage m) = d := by
      simp [ApWifi.step, ApWifi.react, ApWifi.Event.configMessage, ApWifi.mqttCallback, hp,
        ApWifi.settle, Reaction.idle]
    have hidle' : step d' (.configMessage m) = d' := by
      simp [step, react, Event.configMessage, mqttCallback, hp, settle, Reaction.idle]
    rw [hidle, hidle']
    exact h
  | ok doc =>
    obtain ⟨ns, hs, hs', hc⟩ := h.synced
    have hr : ApWifi.react (.configMessage m) d = ApWifi.updateAndRestart doc none d := by
      simp [ApWifi.react, ApWifi.Event.configMessage, ApWifi.mqttCallback, hp]
    have hr' : react (.configMessage m) d' = updateAndRestart doc d' := by
      have hne : CString.lit "esp32/config" ≠ .lit "esp32/command" := by decide
      simp [react, Event.configMessage, mqttCallback, hp, hne]
    rw [ApWifi.step, step, hr, hr', ApWifi.updateAndRestart, updateAndRestart,
      ApWifi.handleConfigurationUpdate, handleConfigurationUpdate, ApWifi.copyDocument_eq,
      copyDocument_eq, ← h.globals_eq]
    cases d.globals.copySettings doc Setting.all with
    | none =>
      exact settle_agree (by simp) (by simp) h.nvs_eq hs.writable.nvs_eq hc
    | some g =>
      have hw := Write.execAll_writable g.saveConfiguration hs.writable
      refine settle_agree (by simp) (by simp) ?_ hw.nvs_eq (complete_applyAll g ns)
      show nvs (Write.execAll g.saveConfiguration d.preferences) =
        nvs (Write.execAll g.saveConfiguration d'.preferences)
      rw [Write.execAll_nvs _ hs.writable.handle_eq, Write.execAll_nvs _ hs'.writable.handle_eq,
        h.nvs_eq]

theorem run_agree {d : ApWifi.Device P} {d' : Device P} (h : Agree d d')
    (ms : List (List UInt8)) :
    Agree (run ApWifi.step d (ms.map .configMessage)) (run step d' (ms.map .configMessage)) := by
  have hstep : ∀ (d : ApWifi.Device P) (d' : Device P) (m : List UInt8), Agree d d' → True →
      Agree (ApWifi.step d (.configMessage m)) (step d' (.configMessage m)) :=
    fun _ _ m hag _ => step_agree hag m
  rw [run_map ApWifi.step]
  exact run_simulation hstep h (along_true _ ms)

/-- Every buffer has a terminator at index 31 or before. -/
def NulTerminated (g : Globals) : Prop := ∀ f, ∃ i ≤ 31, (g.text f).bytes[i]? = some 0

/-- No copy of 31 bytes takes it away, see `Buffer.strncpy`. -/
theorem nulTerminated (g : Globals) : NulTerminated g := by
  intro f
  have hlt := (g.text f).cstr_length_lt
  exact ⟨_, by omega, (g.text f).nul_at⟩

/-- From a flash with all six keys, and over any messages on esp32/config, both sketches
end with the same flash and the same configuration in terminated buffers. -/
theorem run_agrees (f : Nvs) (ns : Namespace) (hf : f "config" = some ns) (hc : Complete ns)
    (ms : List (List UInt8)) :
    let d := run ApWifi.step (ApWifi.boot f : ApWifi.Device P) (ms.map .configMessage)
    let d' := run step (boot f : Device P) (ms.map .configMessage)
    nvs d.preferences = nvs d'.preferences ∧ d.globals.config = d'.globals.config ∧
      NulTerminated d.globals ∧ NulTerminated d'.globals := by
  have h := run_agree (boot_agree (P := P) hf hc) ms
  exact ⟨h.nvs_eq, by rw [h.globals_eq], nulTerminated _, nulTerminated _⟩

/-- A namespace with an SSID of 40 bytes, as another program may have stored it. -/
def longSsid : Namespace :=
  WifiServer.savedDefaults.setStr "ssid" (.lit "0123456789012345678901234567890123456789")

theorem complete_longSsid : Complete longSsid where
  str f := by cases f <;> decide +kernel
  int := by decide +kernel

theorem run_agrees_longSsid :
    let f : Nvs := fun name => if name = "config" then some longSsid else none
    let ms := [ascii "\x7b\"mqtt_port\":8883\x7d", ascii "no JSON"]
    let d := run ApWifi.step (ApWifi.boot f : ApWifi.Device FlashObject) (ms.map .configMessage)
    let d' := run step (boot f : Device FlashObject) (ms.map .configMessage)
    nvs d.preferences = nvs d'.preferences ∧ d.globals.config = d'.globals.config ∧
      NulTerminated d.globals ∧ NulTerminated d'.globals :=
  run_agrees _ longSsid rfl complete_longSsid _

end Esp32Automation.Hotspot
