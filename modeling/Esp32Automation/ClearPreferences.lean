import Esp32Automation.ApWifiRuns
import Esp32Automation.Reflashing

/-!
# clear_preference_and_wifi_credentials

The utility empties the namespaces of the settings and of four devices, and then saves its
own defaults, which are empty strings and a port. It calls the save a success when the byte
counts of its six writes do not add up to zero. Its `loadConfiguration` is never called and not
modelled, and neither is the blinking in `loop()`.
-/
namespace Esp32Automation.ClearPreferences
open Overlay Preferences Reflashing Run

variable {P : Type} [ArrayPreferences P]

/-- `DEFAULT_SSID` to `DEFAULT_MQTT_PORT`. -/
def defaults : Config
  | .text _ => .lit ""
  | .mqttPort => 1883

/-- The global variables before `setup`. -/
def initial : Globals := ⟨fun _ => emptyText, 1883⟩

/-- `MAX_DEVICES`. -/
def maxDevices : ℕ := 4

/-- A session that clears one namespace. -/
def clearNamespace (name : String) (p : P) : P := end_ (clear true (begin_ name false p).2).2

/-- `clearAllDevicesState`. -/
def clearAllDevicesState (p : P) : P :=
  (List.range maxDevices).foldl
    (fun p deviceIndex => clearNamespace ("dev_" ++ toString deviceIndex) p) p

/-- The copies in `setup`. -/
def resetGlobals (g : Globals) : Globals :=
  let g := g.strncpy .ssid (defaults (.text .ssid))
  let g := g.strncpy .password (defaults (.text .password))
  let g := g.strncpy .mqttServer (defaults (.text .mqttServer))
  let g := g.strncpy .mqttUsername (defaults (.text .mqttUsername))
  let g := g.strncpy .mqttPassword (defaults (.text .mqttPassword))
  { g with mqttPort := defaults .mqttPort }

/-- `setup`. -/
def setup (p : P) : P :=
  let p := clearNamespace "config" p
  let p := clearAllDevicesState p
  let p := (begin_ "config" false p).2
  let g := resetGlobals initial
  end_ (Write.execAll g.saveConfiguration p)

theorem resetGlobals_config (g : Globals) : (resetGlobals g).config = defaults := by
  funext s
  cases s with
  | text f => cases f <;> simp [resetGlobals, Globals.config, defaults, CString.take] <;> rfl
  | mqttPort => rfl

/-- The session leaves an empty namespace, and the others alone. -/
theorem clearNamespace_nvs {p : P} (h : handle p = none) (name : String) :
    nvs (clearNamespace name p) = Function.update (nvs p) name (some Namespace.empty) := by
  obtain ⟨-, hh, hn⟩ := begin_write name h
  obtain ⟨-, -, hc⟩ := clear_ok hh
  rw [clearNamespace, nvs_end, hc, hn]
  simp [Nvs.modify, Nvs.ensure]

theorem clearNamespace_handle (name : String) (p : P) : handle (clearNamespace name p) = none :=
  handle_end _

theorem config_ne_device (deviceIndex : ℕ) : "config" ≠ "dev_" ++ toString deviceIndex := by
  intro h
  have hchars := congrArg String.toList h
  rw [String.toList_append] at hchars
  have hhead : 'c' = 'd' := (List.cons.inj hchars).1
  exact absurd hhead (by decide)

/-- Clearing the devices is clearing namespaces other than `config`. -/
theorem clearAllDevicesState_spec {p : P} (h : handle p = none) :
    handle (clearAllDevicesState p) = none ∧
      nvs (clearAllDevicesState p) "config" = nvs p "config" := by
  unfold clearAllDevicesState
  induction List.range maxDevices generalizing p with
  | nil => exact ⟨h, rfl⟩
  | cons deviceIndex rest ih =>
    obtain ⟨hh, hn⟩ := ih (clearNamespace_handle ("dev_" ++ toString deviceIndex) p)
    rw [clearNamespace_nvs h, Function.update_of_ne (config_ne_device deviceIndex)] at hn
    exact ⟨hh, hn⟩

/-- What the utility leaves in `config`, whatever was there before. -/
theorem setup_nvs (f : Nvs) : nvs (setup (powerUp f : P)) "config" =
    some (Write.applyAll (resetGlobals initial).saveConfiguration Namespace.empty) := by
  have hclosed := clearNamespace_handle "config" (powerUp f : P)
  have hcleared : nvs (clearNamespace "config" (powerUp f : P)) "config" =
      some Namespace.empty := by
    rw [clearNamespace_nvs (handle_powerUp f), Function.update_self]
  obtain ⟨hh, hn⟩ := clearAllDevicesState_spec hclosed
  rw [hcleared] at hn
  obtain ⟨-, hopen, hens⟩ := begin_write "config" hh
  rw [setup, nvs_end, Write.execAll_nvs _ hopen, Nvs.modify_self, hens, Nvs.ensure_self, hn]
  rfl

/-- After the utility every sketch loads the utility's defaults for the settings that it keeps
under the utility's keys, and its own for the rest. -/
theorem setup_loads (b : Firmware) (f : Nvs) :
    loads P b (nvs (setup (powerUp f : P))) =
      mix (Firmware.apWifi.Shares b) (loads P b fun _ => none) defaults := by
  have hsaved := holds_web (a := .apWifi) rfl (resetGlobals initial) Namespace.empty
  rw [resetGlobals_config] at hsaved
  have hshort : Short defaults := by decide
  rw [loads_eq, loads_eq, setup_nvs, Option.getD_some, load_holds hsaved hshort]
  rfl

/-- The web sketches keep every setting under the utility's keys, and
mqtt_remote_on_off_with_config all but the MQTT login. -/
theorem mix_shares_web {b : Firmware} (hb : b.key = Field.key) (old new : Config) :
    mix (Firmware.apWifi.Shares b) old new = new := by
  refine mix_eq_new_iff.mpr fun s _ => ?_
  cases s with
  | text f => exact congrFun hb.symm f
  | mqttPort => trivial

theorem reset_apWifi (f : Nvs) (es : List ApWifi.Event) :
    (ApWifi.step (run ApWifi.step (ApWifi.boot f : ApWifi.Device P) es)
      (.resetPin true)).globals.config = ApWifi.defaults := by
  obtain ⟨ns, hs⟩ := ApWifi.run_synced (P := P) f es
  rw [(ApWifi.step_reset hs).config_eq, ApWifi.effective_empty]

theorem reset_hotspot (f : Nvs) (es : List Hotspot.Event) :
    (Hotspot.step (run Hotspot.step (Hotspot.boot f : Hotspot.Device P) es)
      (.resetPin true)).globals.config = Hotspot.defaults := by
  obtain ⟨ns, hs⟩ := Hotspot.run_synced (P := P) f es
  rw [(Hotspot.step_reset hs).config_eq, Hotspot.effective_empty]

/-- Whatever the flash held: after the utility the web sketches load its defaults, and
mqtt_remote_on_off_with_config its defaults for everything but the MQTT login, for which it
has its own. On blank flash every sketch loads its own, and so do the web sketches after a
reset in any run. -/
theorem utility_loads (f : Nvs) :
    loads P .apWifi (nvs (setup (powerUp f : P))) = defaults ∧
      loads P .hotspot (nvs (setup (powerUp f : P))) = defaults ∧
      loads P .withConfig (nvs (setup (powerUp f : P))) =
        mix Common RemoteConfig.defaults defaults ∧
      (∀ b : Firmware, loads P b (fun _ => none) = b.defaults) ∧
      (∀ es, (ApWifi.step (run ApWifi.step (ApWifi.boot f : ApWifi.Device P) es)
        (.resetPin true)).globals.config = loads P .apWifi fun _ => none) ∧
      ∀ es, (Hotspot.step (run Hotspot.step (Hotspot.boot f : Hotspot.Device P) es)
        (.resetPin true)).globals.config = loads P .hotspot fun _ => none := by
  refine ⟨?_, ?_, ?_, loads_blank P, fun es => ?_, fun es => ?_⟩
  · rw [setup_loads, mix_shares_web rfl]
  · rw [setup_loads, mix_shares_web rfl]
  · rw [setup_loads, mix_congr (shares_iff_common Firmware.apWifi_key_ne), loads_blank]
    rfl
  · rw [reset_apWifi, loads_blank]
    rfl
  · rw [reset_hotspot, loads_blank]
    rfl

/-- The broker that a sketch has built in is gone after the utility. -/
theorem utility_not_blank :
    ¬ ∀ (f : Nvs), ∀ b ∈ [Firmware.apWifi, .hotspot, .withConfig],
      loads FlashObject b (nvs (setup (powerUp f : FlashObject))) =
        loads FlashObject b fun _ => none := by
  intro h
  have hserver := congrFun (h (fun _ => none) .apWifi (by simp)) (.text .mqttServer)
  rw [setup_loads, mix_shares_web rfl, loads_blank] at hserver
  exact absurd hserver (by decide)

/-- `written += preferences.put…(key, value)` for one setting, on the sum and the object; `ok`
says whether the flash takes the write. -/
def addPut (ok : Setting → Bool) (g : Globals) (r : ℕ × P) : Setting → ℕ × P
  | .text f =>
    let put := putString (ok (.text f)) f.key (some (g.text f).cstr) r.2
    (r.1 + put.1, put.2)
  | .mqttPort =>
    let put := putInt (ok .mqttPort) "mqtt_port" g.mqttPort r.2
    (r.1 + put.1, put.2)

/-- `saveConfiguration`: the sum `written` and the object it leaves. -/
def saveConfiguration (ok : Setting → Bool) (g : Globals) (p : P) : ℕ × P :=
  let written := (0, p)
  let written := addPut ok g written (.text .ssid)
  let written := addPut ok g written (.text .password)
  let written := addPut ok g written (.text .mqttServer)
  let written := addPut ok g written (.text .mqttUsername)
  let written := addPut ok g written (.text .mqttPassword)
  addPut ok g written .mqttPort

/-- What it prints. -/
def report (written : ℕ) : String :=
  if 0 < written then "Configuration saved successfully." else "Failed to save configuration."

/-- The write of a setting goes through. -/
def Succeeds (ok : Setting → Bool) (p : P) (s : Setting) : Prop :=
  ok s ∧ ∃ name, handle p = some ⟨name, false⟩

/-- What a write that goes through returns. -/
def putSize (g : Globals) : Setting → ℕ
  | .text f => (g.text f).cstr.length
  | .mqttPort => 4

/-- If every write is taken, this is the save that `setup` makes. -/
theorem saveConfiguration_snd (g : Globals) (p : P) :
    (saveConfiguration (fun _ => true) g p).2 = Write.execAll g.saveConfiguration p := rfl

theorem addPut_open {r : ℕ × P} {name : String} (h : handle r.2 = some ⟨name, false⟩)
    (ok : Setting → Bool) (g : Globals) (s : Setting) :
    (addPut ok g r s).1 = r.1 + (if ok s then putSize g s else 0) ∧
      handle (addPut ok g r s).2 = some ⟨name, false⟩ := by
  cases hok : ok s with
  | false => cases s <;> simp [addPut, hok, h]
  | true =>
    cases s with
    | text f =>
      obtain ⟨hn, hh, -⟩ := putString_ok f.key (g.text f).cstr h
      simp [addPut, hok, hn, hh, h, putSize]
    | mqttPort =>
      obtain ⟨hn, hh, -⟩ := putInt_ok "mqtt_port" g.mqttPort h
      simp [addPut, hok, hn, hh, h, putSize]

theorem addPut_refused {r : ℕ × P} (h : ∀ name, handle r.2 ≠ some ⟨name, false⟩)
    (ok : Setting → Bool) (g : Globals) (s : Setting) : addPut ok g r s = r := by
  cases s with
  | text f => simp [addPut, putString_refused (ok (.text f)) f.key _ h]
  | mqttPort => simp [addPut, putInt_refused (ok .mqttPort) "mqtt_port" _ h]

/-- The sum grows exactly when some write goes through that counts bytes. -/
theorem foldl_addPut_pos_iff (ok : Setting → Bool) (g : Globals) (ss : List Setting) (r : ℕ × P) :
    0 < (ss.foldl (addPut ok g) r).1 ↔
      0 < r.1 ∨ ∃ s ∈ ss, Succeeds ok r.2 s ∧ 0 < putSize g s := by
  by_cases ho : ∃ name, handle r.2 = some ⟨name, false⟩
  · obtain ⟨name, hname⟩ := ho
    induction ss generalizing r with
    | nil => simp
    | cons s ss ih =>
      obtain ⟨hsum, hopen⟩ := addPut_open hname ok g s
      have hpos : 0 < (addPut ok g r s).1 ↔ 0 < r.1 ∨ ok s ∧ 0 < putSize g s := by
        rw [hsum]
        cases ok s with
        | false => simp
        | true =>
          simp only [if_true, true_and]
          omega
      rw [List.foldl_cons, ih _ hopen, hpos]
      simp [Succeeds, hname, hopen, or_assoc]
  · have hsame : ss.foldl (addPut ok g) r = r := by
      have hnot : ∀ name, handle r.2 ≠ some ⟨name, false⟩ := not_exists.mp ho
      induction ss with
      | nil => rfl
      | cons s ss ih => rw [List.foldl_cons, addPut_refused hnot, ih]
    rw [hsame]
    simp [Succeeds, ho]

theorem report_eq_iff (ok : Setting → Bool) (g : Globals) (p : P) :
    report (saveConfiguration ok g p).1 = "Configuration saved successfully." ↔
      ∃ s, Succeeds ok p s ∧ 0 < putSize g s := by
  have hreport : ∀ written, report written = "Configuration saved successfully." ↔
      0 < written := by
    intro written
    unfold report
    split_ifs with h
    · simp [h]
    · simp only [h, iff_false]
      decide
  have hfold : saveConfiguration ok g p = Setting.all.foldl (addPut ok g) (0, p) := rfl
  rw [hreport, hfold, foldl_addPut_pos_iff]
  simp [Setting.mem_all]

/-- For any contents of the settings, any port and any pattern of failures: the utility reports
success exactly when all six writes succeed, if and only if they do, or else the port is not
written and no string is that has a byte in it. -/
theorem report_iff_all_written (ok : Setting → Bool) (g : Globals) (p : P) :
    (report (saveConfiguration ok g p).1 = "Configuration saved successfully." ↔
        ∀ s, Succeeds ok p s) ↔
      (∀ s, Succeeds ok p s) ∨ ¬ Succeeds ok p .mqttPort ∧
        ∀ f, Succeeds ok p (.text f) → (g.text f).isEmpty := by
  have hport : 0 < putSize g .mqttPort := Nat.succ_pos 3
  rw [report_eq_iff]
  by_cases hall : ∀ s, Succeeds ok p s
  · exact ⟨fun _ => .inl hall, fun _ => ⟨fun _ => hall, fun _ => ⟨.mqttPort, hall _, hport⟩⟩⟩
  · simp only [hall, iff_false, false_or, not_exists, not_and, Nat.not_lt, Nat.le_zero]
    constructor
    · intro hnone
      refine ⟨fun hp => ?_, fun f hf => (Buffer.isEmpty_iff _).mpr (hnone _ hf)⟩
      have hzero := hnone _ hp
      omega
    · rintro ⟨hp, hempty⟩ s hs
      cases s with
      | text f => exact (Buffer.isEmpty_iff _).mp (hempty f hs)
      | mqttPort => exact absurd hs hp

/-- The handle of the save in `setup`, on blank flash. -/
def openBlank : FlashObject := (begin_ "config" false (powerUp fun _ => none)).2

/-- With the utility's own defaults the port alone makes a success of five failures. -/
theorem port_reports_success :
    ¬ ∀ (ok : Setting → Bool) (g : Globals) (p : FlashObject),
      (report (saveConfiguration ok g p).1 = "Configuration saved successfully." ↔
        ∀ s, Succeeds ok p s) := by
  intro h
  have hreport : report (saveConfiguration (fun s => s = .mqttPort) (resetGlobals initial)
      openBlank).1 = "Configuration saved successfully." := by decide +kernel
  have hall := (h _ _ _).mp hreport (.text .ssid)
  exact absurd hall.1 (by decide)

end Esp32Automation.ClearPreferences
