import Esp32Automation.ApWifi
import Esp32Automation.ConfigFromBlth
import Esp32Automation.Hotspot

/-!
# A stored configuration under another program

The configurable sketches keep their settings in the same flash namespace, each under its
own keys. When a board is flashed with another sketch, the settings that both keep under one
key come through, and the others are what the new sketch finds under keys of its own.
-/
namespace Esp32Automation.Reflashing
open Overlay Preferences

/-- The programs: mqtt_remote_on_off_with_config, remote_on_off_with_config_from_blth,
ap_wifi_plus_mqtt_connection_after_config and esp32_hotspot_mqtt_remote_on_off. -/
inductive Firmware where
  | withConfig
  | configFromBlth
  | apWifi
  | hotspot
  deriving DecidableEq

namespace Firmware

/-- The keys of the string settings. -/
def key : Firmware → Field → String
  | withConfig | configFromBlth => RemoteConfig.key
  | apWifi | hotspot => Field.key

/-- What the program makes of the entries of `config`. -/
def load : Firmware → Namespace → Config
  | withConfig, ns => (RemoteConfig.loaded ns).config
  | configFromBlth, ns => ConfigFromBlth.loaded RemoteConfig.defaults ns
  | apWifi, ns => effective ApWifi.defaults ns
  | hotspot, ns => effective Hotspot.defaults ns

/-- The values that are built in. -/
def defaults : Firmware → Config
  | withConfig | configFromBlth => RemoteConfig.defaults
  | apWifi => ApWifi.defaults
  | hotspot => Hotspot.defaults

/-- Every one of them fits, so they are what a program makes of an empty namespace. -/
theorem load_empty (b : Firmware) : b.load Namespace.empty = b.defaults := by
  cases b with
  | withConfig =>
    funext s
    cases s with
    | text f =>
      have hfit : (RemoteConfig.defaults (.text f)).length ≤ RemoteConfig.size f := by
        cases f <;> decide
      rw [load, RemoteConfig.loaded_config]
      exact CString.take_of_length_le hfit
    | mqttPort => rfl
  | configFromBlth =>
    funext s
    cases s <;> rfl
  | apWifi => exact ApWifi.effective_empty
  | hotspot => exact Hotspot.effective_empty

/-- The two programs keep the setting under the same key. -/
def Shares (a b : Firmware) : Setting → Prop
  | .text f => a.key f = b.key f
  | .mqttPort => True

instance (a b : Firmware) : DecidablePred (a.Shares b)
  | .text f => inferInstanceAs (Decidable (a.key f = b.key f))
  | .mqttPort => inferInstanceAs (Decidable True)

/-- A key of one program is the key of the same setting in the other, or of none. -/
theorem key_eq_or_fresh (a b : Firmware) (f : Field) :
    a.key f = b.key f ∨ ∀ f', b.key f ≠ a.key f' := by
  cases a <;> cases b <;> cases f <;> decide

/-- The MQTT login is kept under other keys. -/
theorem apWifi_key_ne : apWifi.key ≠ withConfig.key := fun h =>
  absurd (congrFun h .mqttUsername) (by decide)

/-- A string that is stored and has at most 31 bytes is loaded as it is. -/
theorem load_text {b : Firmware} {f : Field} {ns : Namespace} {v : CString}
    (h : ns.str (b.key f) = some v) (hv : v.length ≤ 31) : b.load ns (.text f) = v := by
  cases b with
  | withConfig =>
    have hsize : 31 < RemoteConfig.size f := by cases f <;> decide
    have hkey : ns.str (RemoteConfig.key f) = some v := h
    rw [load, RemoteConfig.loaded_config, hkey, Option.getD_some]
    exact CString.take_of_length_le (by omega)
  | configFromBlth =>
    have hsize : 31 < RemoteConfig.size f := by cases f <;> decide
    have hkey : ns.str (RemoteConfig.key f) = some v := h
    rw [load, ConfigFromBlth.loaded, hkey, Option.filter_some_pos (by simp; omega)]
    rfl
  | apWifi | hotspot =>
    have hkey : ns.str f.key = some v := h
    rw [load, effective, hkey]
    exact CString.take_of_length_le hv

/-- A setting is loaded from its own entry. -/
theorem load_text_congr {b : Firmware} {f : Field} {ns ns' : Namespace}
    (h : ns.str (b.key f) = ns'.str (b.key f)) :
    b.load ns (.text f) = b.load ns' (.text f) := by
  cases b with
  | withConfig =>
    have hkey : ns.str (RemoteConfig.key f) = ns'.str (RemoteConfig.key f) := h
    rw [load, load, RemoteConfig.loaded_config, RemoteConfig.loaded_config, hkey]
  | configFromBlth =>
    have hkey : ns.str (RemoteConfig.key f) = ns'.str (RemoteConfig.key f) := h
    rw [load, load, ConfigFromBlth.loaded, ConfigFromBlth.loaded, hkey]
  | apWifi | hotspot =>
    have hkey : ns.str f.key = ns'.str f.key := h
    rw [load, load, effective, effective, hkey]

theorem load_mqttPort {b : Firmware} {ns : Namespace} {n : ℤ} (h : ns.int "mqtt_port" = some n) :
    b.load ns .mqttPort = n := by
  cases b with
  | withConfig => simp [load, RemoteConfig.Globals.config, RemoteConfig.loaded, h]
  | configFromBlth => simp [load, ConfigFromBlth.loaded, h]
  | apWifi | hotspot => simp [load, effective, h]

end Firmware

section Boot
variable (P : Type) [ArrayPreferences P]

/-- The configuration in RAM after power-up with the given flash contents. -/
def loads : Firmware → Nvs → Config
  | .withConfig, f => (RemoteConfig.boot f : RemoteConfig.Device P).globals.config
  | .configFromBlth, f => (ConfigFromBlth.boot f : ConfigFromBlth.Device P).globals.config
  | .apWifi, f => (ApWifi.boot f : ApWifi.Device P).globals.config
  | .hotspot, f => (Hotspot.boot f : Hotspot.Device P).globals.config

theorem loads_eq (b : Firmware) (f : Nvs) :
    loads P b f = b.load ((f "config").getD Namespace.empty) := by
  cases b with
  | withConfig =>
    have hs := (RemoteConfig.boot_synced (P := P) f).globals_eq
    rw [RemoteConfig.boot_nvs] at hs
    rw [loads, hs]
    rfl
  | configFromBlth =>
    have hs := (ConfigFromBlth.boot_synced (P := P) f).config_eq
    rw [ConfigFromBlth.boot_nvs] at hs
    exact hs
  | apWifi => exact (ApWifi.boot_synced (P := P) f).config_eq
  | hotspot => exact (Hotspot.boot_synced (P := P) f).config_eq

/-- On blank flash a program runs on its built-in values. -/
theorem loads_blank (b : Firmware) : loads P b (fun _ => none) = b.defaults := by
  rw [loads_eq]
  exact b.load_empty

end Boot

/-- The document holds a string for every string setting, and a port. -/
structure Carries (jsonDoc : Json) (c : Config) : Prop where
  text : ∀ f, jsonDoc.charPtr (RemoteConfig.key f) = some (c (.text f))
  port : jsonDoc.containsKey "mqtt_port" ∧ jsonDoc.int "mqtt_port" = c .mqttPort

/-- What `saveConfig` of remote_on_off_with_config_from_blth saves of a document and of the
configuration in RAM. -/
def savedBlth (jsonDoc : Json) (g : ConfigFromBlth.Globals) : Config
  | .text f => jsonDoc.orCharPtr (RemoteConfig.key f) (g.text f).cstr
  | .mqttPort => jsonDoc.orInt "mqtt_port" g.mqttPort

/-- `Saves P a f c f'`: the program `a` saves the complete configuration `c`, and the flash
contents turn from `f` to `f'`. The web sketches save through the handle that `setup`
opened. -/
inductive Saves (P : Type) [ArrayPreferences P] : Firmware → Nvs → Config → Nvs → Prop
  | withConfig (p : P) (jsonDoc : Json) (c : Config) (hp : handle p = none)
    (hc : Carries jsonDoc c) :
    Saves P .withConfig (nvs p) c (nvs (RemoteConfig.saveConfig jsonDoc p))
  | configFromBlth (p : P) (jsonDoc : Json) (g : ConfigFromBlth.Globals) (hp : handle p = none) :
    Saves P .configFromBlth (nvs p) (savedBlth jsonDoc g)
      (nvs (ConfigFromBlth.saveConfig jsonDoc g p))
  | apWifi (p : P) (g : Globals) (hp : handle p = some ⟨"config", false⟩) :
    Saves P .apWifi (nvs p) g.config (nvs (Write.execAll g.saveConfiguration p))
  | hotspot (p : P) (g : Globals) (hp : handle p = some ⟨"config", false⟩) :
    Saves P .hotspot (nvs p) g.config (nvs (Write.execAll g.saveConfiguration p))

/-- The entries after a complete save: the saved values under the program's own keys, and
what was there under all others. -/
structure Holds (a : Firmware) (ns : Namespace) (c : Config) (ns' : Namespace) : Prop where
  own : ∀ f, ns'.str (a.key f) = some (c (.text f))
  other : ∀ k, (∀ f, k ≠ a.key f) → ns'.str k = ns.str k
  port : ns'.int "mqtt_port" = some (c .mqttPort)

theorem holds_withConfig {jsonDoc : Json} {c : Config} (hc : Carries jsonDoc c) (ns : Namespace) :
    Holds .withConfig ns c (Write.applyAll (RemoteConfig.writes jsonDoc) ns) where
  own f := by
    have hstr := RemoteConfig.applyAll_str jsonDoc ns f
    rw [hc.text f] at hstr
    exact hstr
  other k hk := by
    simp only [Field.forall_iff, Firmware.key, RemoteConfig.key] at hk
    simp [RemoteConfig.writes, Write.applyAll, hk]
  port := by rw [RemoteConfig.applyAll_int, hc.port.2]

theorem holds_configFromBlth (jsonDoc : Json) (g : ConfigFromBlth.Globals) (ns : Namespace) :
    Holds .configFromBlth ns (savedBlth jsonDoc g)
      (Write.applyAll (ConfigFromBlth.writes jsonDoc g) ns) where
  own f := ConfigFromBlth.applyAll_str jsonDoc g ns f
  other k hk := by
    simp only [Field.forall_iff, Firmware.key, RemoteConfig.key] at hk
    simp [ConfigFromBlth.writes, Write.applyAll, hk]
  port := ConfigFromBlth.applyAll_int jsonDoc g ns

theorem holds_web {a : Firmware} (ha : a.key = Field.key) (g : Globals) (ns : Namespace) :
    Holds a ns g.config (Write.applyAll g.saveConfiguration ns) where
  own f := by
    rw [ha]
    exact g.saved_str ns f
  other k hk := by
    rw [ha] at hk
    simp only [Field.forall_iff, Field.key] at hk
    simp [Globals.saveConfiguration, Setting.all, Globals.write, Write.applyAll, Field.key, hk]
  port := g.saved_int ns

/-- Every complete save is of this kind. -/
theorem Saves.holds {P : Type} [ArrayPreferences P] {a : Firmware} {f f' : Nvs} {c : Config}
    (h : Saves P a f c f') : ∃ ns', f' "config" = some ns' ∧
      Holds a ((f "config").getD Namespace.empty) c ns' := by
  have hweb : ∀ (p : P) (g : Globals), handle p = some ⟨"config", false⟩ →
      nvs (Write.execAll g.saveConfiguration p) "config" =
        some (Write.applyAll g.saveConfiguration ((nvs p "config").getD Namespace.empty)) := by
    intro p g hp
    obtain ⟨ns, hns⟩ := Option.isSome_iff_exists.mp (open_exists hp)
    have hns' : nvs p "config" = some ns := hns
    rw [Write.execAll_nvs _ hp, Nvs.modify_self, hns', Option.map_some, Option.getD_some]
  cases h with
  | withConfig p jsonDoc c hp hc =>
    exact ⟨_, RemoteConfig.saveConfig_nvs hp jsonDoc, holds_withConfig hc _⟩
  | configFromBlth p jsonDoc g hp =>
    exact ⟨_, ConfigFromBlth.saveConfig_nvs hp jsonDoc g, holds_configFromBlth jsonDoc g _⟩
  | apWifi p g hp => exact ⟨_, hweb p g hp, holds_web rfl g _⟩
  | hotspot p g hp => exact ⟨_, hweb p g hp, holds_web rfl g _⟩

/-- No string of the configuration has more than 31 bytes. -/
def Short (c : Config) : Prop := ∀ f : Field, (c (.text f)).length ≤ 31

instance (c : Config) : Decidable (Short c) :=
  inferInstanceAs (Decidable (∀ f : Field, (c (.text f)).length ≤ 31))

/-- What a program loads of a configuration that another has saved: the saved values of the
settings that both keep under one key, and what it would have loaded before for the rest. -/
theorem load_holds {a b : Firmware} {ns ns' : Namespace} {c : Config} (h : Holds a ns c ns')
    (hs : Short c) : b.load ns' = mix (a.Shares b) (b.load ns) c := by
  funext s
  cases s with
  | text f =>
    by_cases hk : a.key f = b.key f
    · have hshares : a.Shares b (.text f) := hk
      have hown : ns'.str (b.key f) = some (c (.text f)) := hk ▸ h.own f
      rw [Firmware.load_text hown (hs f), mix, if_pos hshares]
    · have hshares : ¬ a.Shares b (.text f) := hk
      have hfresh := (a.key_eq_or_fresh b f).resolve_left hk
      rw [Firmware.load_text_congr (h.other _ hfresh), mix, if_neg hshares]
  | mqttPort =>
    have hshares : a.Shares b .mqttPort := trivial
    rw [Firmware.load_mqttPort h.port, mix, if_pos hshares]

/-- SSID, password, broker and port. -/
def Common (s : Setting) : Prop := s ≠ .text .mqttUsername ∧ s ≠ .text .mqttPassword

instance : DecidablePred Common := fun s =>
  inferInstanceAs (Decidable (s ≠ .text .mqttUsername ∧ s ≠ .text .mqttPassword))

/-- A web sketch and one of the others share everything but the MQTT login. -/
theorem shares_iff_common {a b : Firmware} (h : a.key ≠ b.key) (s : Setting) :
    a.Shares b s ↔ Common s := by
  cases s with
  | text f => cases a <;> cases b <;> first | exact absurd rfl h | (cases f <;> decide)
  | mqttPort => exact ⟨fun _ => by decide, fun _ => trivial⟩

/-- When a configuration of strings of at most 31 bytes has been saved completely by a program
with other keys, SSID, password, broker and port are loaded as they were saved, and MQTT
user and password are loaded as if nothing had been saved. -/
theorem loads_saved {P : Type} [ArrayPreferences P] {a b : Firmware} {f f' : Nvs} {c : Config}
    (h : Saves P a f c f') (hs : Short c) (hab : a.key ≠ b.key) :
    loads P b f' = mix Common (loads P b f) c := by
  obtain ⟨ns', hns', hholds⟩ := h.holds
  rw [loads_eq, loads_eq, hns', Option.getD_some, load_holds hholds hs]
  exact mix_congr (shares_iff_common hab)

/-- A configuration that ap_wifi_plus_mqtt_connection_after_config has in RAM. -/
def aliceGlobals : Globals where
  text
    | .mqttUsername => .ofCString (.lit "alice") (by decide)
    | _ => emptyText
  mqttPort := 1883

theorem aliceGlobals_short : Short aliceGlobals.config := fun f =>
  Nat.le_of_lt_succ (aliceGlobals.text f).cstr_length_lt

theorem loads_saved_alice :
    let p : FlashObject := (begin_ "config" false (powerUp fun _ => none)).2
    loads FlashObject .withConfig (nvs (Write.execAll aliceGlobals.saveConfiguration p)) =
      mix Common (loads FlashObject .withConfig (nvs p)) aliceGlobals.config := by
  intro p
  exact loads_saved (.apWifi p aliceGlobals rfl) aliceGlobals_short Firmware.apWifi_key_ne

/-- Under another program the MQTT user is the default again. -/
theorem login_lost :
    ¬ ∀ (a b : Firmware) (f f' : Nvs) (c : Config), Saves FlashObject a f c f' → Short c →
      a.key ≠ b.key → loads FlashObject b f' = c := by
  intro h
  have hloads := h .apWifi .withConfig _ _ _
    (.apWifi (begin_ "config" false (powerUp fun _ => none)).2 aliceGlobals rfl)
    aliceGlobals_short Firmware.apWifi_key_ne
  exact absurd (congrFun hloads (.text .mqttUsername)) (by decide +kernel)

end Esp32Automation.Reflashing
