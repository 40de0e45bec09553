import Esp32Automation.JsonDeserializer
import Esp32Automation.Run
import Esp32Automation.WebConfig

/-!
# mqtt_remote_on_off_with_config and its Bluetooth variant

Two sketches with the same `loadConfig`, `saveConfig` and `mqttCallback`; the second
takes configuration documents over Bluetooth as well. They keep their own lengths and keys,
fill whole arrays with `strncpy`, and save what a document says straight into flash. A
string the document does not name converts to null and is not written; a port it does not
name converts to zero, which is.
-/
namespace Esp32Automation.RemoteConfig
open Preferences Run

variable {P : Type} [Preferences P]

/-- The two programs. -/
inductive Sketch where
  | withConfig
  | withConfigFromBlthOrMqtt
  deriving DecidableEq

/-- `sizeof` of the global arrays. -/
def size : Field → ℕ
  | .password => 64
  | _ => 32

/-- The keys in flash and in documents. -/
def key : Field → String
  | .ssid => "ssid"
  | .password => "password"
  | .mqttServer => "mqtt_server"
  | .mqttUsername => "mqtt_user"
  | .mqttPassword => "mqtt_pass"

/-- The default arguments of `loadConfig`. -/
def defaults : Config
  | .text .ssid => .lit "Providence"
  | .text .password => .lit "Provider123"
  | .text .mqttServer => .lit "192.168.0.148"
  | .text .mqttUsername => .lit "testuser"
  | .text .mqttPassword => .lit "password"
  | .mqttPort => 1883

/-- The memory of a setting. -/
abbrev Mem : Setting → Type
  | .text f => CharArray (size f)
  | .mqttPort => ℤ

/-- The global variables, byte for byte. -/
structure Globals where
  text : ∀ f : Field, CharArray (size f)
  mqttPort : ℤ

def Globals.value (g : Globals) : ∀ s : Setting, Mem s
  | .text f => g.text f
  | .mqttPort => g.mqttPort

/-- The arrays read as C strings. Meaningful where each has a terminator. -/
def Globals.config (g : Globals) : Config
  | .text f => (g.text f).cstr
  | .mqttPort => g.mqttPort

/-- The global variables before `setup`. -/
def initial : Globals := ⟨fun f => .zero (size f), 0⟩

/-- `strncpy(f, preferences.getString(key, default).c_str(), sizeof(f))`. -/
def loadText (p : P) (f : Field) (g : Globals) : Globals :=
  let a := (g.text f).strncpy (getString (key f) (defaults (.text f)) p) (size f) le_rfl
  { g with text := Function.update g.text f a }

/-- `loadConfig`. -/
def loadConfig (p : P) (g : Globals) : Globals × P :=
  let p := (begin_ "config" true p).2
  let g := loadText p .ssid g
  let g := loadText p .password g
  let g := loadText p .mqttServer g
  let g := loadText p .mqttUsername g
  let g := loadText p .mqttPassword g
  let g := { g with mqttPort := getInt "mqtt_port" (defaults .mqttPort) p }
  (g, end_ p)

/-- The `put` calls of `saveConfig` with the values the callers extract from a document. -/
def writes (jsonDoc : Json) : List Write :=
  [.str "ssid" (jsonDoc.charPtr "ssid"), .str "password" (jsonDoc.charPtr "password"),
    .str "mqtt_server" (jsonDoc.charPtr "mqtt_server"),
    .str "mqtt_user" (jsonDoc.charPtr "mqtt_user"), .str "mqtt_pass" (jsonDoc.charPtr "mqtt_pass"),
    .int "mqtt_port" (jsonDoc.int "mqtt_port")]

/-- `saveConfig`. -/
def saveConfig (jsonDoc : Json) (p : P) : P :=
  end_ (Write.execAll (writes jsonDoc) (begin_ "config" false p).2)

structure Device (P : Type) where
  preferences : P
  globals : Globals
  /-- The level of `PIN32`. -/
  pin32 : Bool
  /-- The arrays passed to `WiFi.begin`. -/
  wifiBegin : CharArray (size .ssid) × CharArray (size .password)
  /-- The port in `client`. The server name there points to the global array. -/
  clientPort : ℕ

/-- `setup`, once Wi-Fi is connected. -/
def setup (p : P) : Device P :=
  let r := loadConfig p initial
  { preferences := r.2
    globals := r.1
    pin32 := false
    wifiBegin := (r.1.text .ssid, r.1.text .password)
    clientPort := toPort r.1.mqttPort }

/-- Power-up with the given flash contents. -/
def boot (f : Nvs) : Device P := setup (powerUp f)

/-- The configuration branch of `mqttCallback` and of `handleBluetoothConfig`. -/
def saveAndRestart (jsonDoc : Json) (d : Device P) : Reaction (Device P) :=
  ⟨{ d with preferences := saveConfig jsonDoc d.preferences }, .restarted, none, []⟩

/-- The action branch of `mqttCallback`. -/
def handleAction (jsonDoc : Json) (d : Device P) : Reaction (Device P) :=
  match jsonDoc.charPtr "action" with
  | some action =>
    if action = .lit "ON" then
      ⟨{ d with pin32 := true }, .returned, none,
        [⟨"esp32/status", createSuccessResponse .null "ON" "GPIO 32 set to HIGH"⟩]⟩
    else if action = .lit "OFF" then
      ⟨{ d with pin32 := false }, .returned, none,
        [⟨"esp32/status", createSuccessResponse .null "OFF" "GPIO 32 set to LOW"⟩]⟩
    else ⟨d, .returned, none,
      [⟨"esp32/status", createErrorResponse .null "Invalid action received"⟩]⟩
  | none => ⟨d, .returned, none,
      [⟨"esp32/status", createErrorResponse .null "Missing 'action' field in JSON"⟩]⟩

/-- `mqttCallback`. The action branch answers on every topic but the configuration's. -/
def mqttCallback (topic : CString) (payload : List UInt8) (d : Device P) : Reaction (Device P) :=
  match deserializeJson payload with
  | .error _ => .idle d
  | .ok jsonDoc =>
    if topic = .lit "esp32/config" then saveAndRestart jsonDoc d else handleAction jsonDoc d

/-- `handleBluetoothConfig` on a command that has been read. -/
def handleBluetoothConfig (command : List UInt8) (d : Device P) : Reaction (Device P) :=
  match deserializeJson command with
  | .error _ => .idle d
  | .ok jsonDoc => saveAndRestart jsonDoc d

inductive Event where
  | mqtt (topic : CString) (payload : List UInt8)
  | bluetooth (command : List UInt8)
  | powerCycle

/-- What the program does on an event. The first sketch has no Bluetooth. -/
def react (k : Sketch) : Event → Device P → Reaction (Device P)
  | .mqtt topic payload, d => mqttCallback topic payload d
  | .bluetooth command, d =>
    if k = .withConfigFromBlthOrMqtt then handleBluetoothConfig command d else .idle d
  | .powerCycle, d => ⟨d, .poweredOff, none, []⟩

/-- The program continues, or the board boots with what is in flash. -/
def settle (r : Reaction (Device P)) : Device P :=
  if r.exit = .returned then r.device else boot (nvs r.device.preferences)

/-- One event, up to the next. -/
def step (k : Sketch) (d : Device P) (e : Event) : Device P := settle (react k e d)

/-- The configuration document that an event brings. -/
def Event.document (k : Sketch) : Event → Option Json
  | .mqtt topic payload =>
    if topic = .lit "esp32/config" then (deserializeJson payload).toOption else none
  | .bluetooth command =>
    if k = .withConfigFromBlthOrMqtt then (deserializeJson command).toOption else none
  | .powerCycle => none

/-- What `loadConfig` makes of a namespace. -/
def loaded (ns : Namespace) : Globals where
  text f := (CharArray.zero (size f)).strncpy ((ns.str (key f)).getD (defaults (.text f)))
    (size f) le_rfl
  mqttPort := (ns.int "mqtt_port").getD (defaults .mqttPort)

/-- A copy of the full length leaves nothing of the old contents. -/
theorem strncpy_full {n : ℕ} (a b : CharArray n) (src : CString) :
    a.strncpy src n le_rfl = b.strncpy src n le_rfl := by
  ext1
  rw [CharArray.strncpy_full_bytes, CharArray.strncpy_full_bytes]

/-- Read as strings, the arrays hold what fits of the stored values. -/
theorem loaded_config (ns : Namespace) (f : Field) :
    (loaded ns).config (.text f) =
      ((ns.str (key f)).getD (defaults (.text f))).take (size f) :=
  CharArray.strncpy_full_cstr _ _

theorem loadConfig_eq {p : P} (h : handle p = none) (g : Globals) :
    (loadConfig p g).1 = loaded ((nvs p "config").getD Namespace.empty) := by
  have hcont := contents_begin_read_closed "config" h
  have hstr : ∀ f : Field, getString (key f) (defaults (.text f)) (begin_ "config" true p).2 =
      (((nvs p "config").getD Namespace.empty).str (key f)).getD (defaults (.text f)) := by
    intro f
    rw [getString_eq, hcont]
    cases nvs p "config" <;> rfl
  have hint : getInt "mqtt_port" (defaults .mqttPort) (begin_ "config" true p).2 =
      (((nvs p "config").getD Namespace.empty).int "mqtt_port").getD (defaults .mqttPort) := by
    rw [getInt_eq, hcont]
    cases nvs p "config" <;> rfl
  have htext : (loadConfig p g).1.text =
      (loaded ((nvs p "config").getD Namespace.empty)).text := by
    funext f
    cases f <;> simp [loadConfig, loadText, loaded, hstr] <;> exact strncpy_full _ _ _
  have hport : (loadConfig p g).1.mqttPort =
      (loaded ((nvs p "config").getD Namespace.empty)).mqttPort := hint
  exact congrArg₂ Globals.mk htext hport

/-- `saveConfig` writes into `config` what the document says. -/
theorem saveConfig_nvs {p : P} (h : handle p = none) (jsonDoc : Json) :
    nvs (saveConfig jsonDoc p) "config" =
      some (Write.applyAll (writes jsonDoc) ((nvs p "config").getD Namespace.empty)) := by
  obtain ⟨-, hh, hn⟩ := begin_write "config" h
  have hw : Writable (begin_ "config" false p).2 "config"
      ((nvs p "config").getD Namespace.empty) := ⟨hh, by simp [hn]⟩
  rw [saveConfig, nvs_end]
  exact (Write.execAll_writable (writes jsonDoc) hw).nvs_eq

/-- A string that the document does not hold keeps its entry. -/
theorem applyAll_str (jsonDoc : Json) (ns : Namespace) (f : Field) :
    (Write.applyAll (writes jsonDoc) ns).str (key f) =
      (jsonDoc.charPtr (key f)).or (ns.str (key f)) := by
  cases f <;> simp [writes, Write.applyAll, key]

/-- The port is written in any case. -/
theorem applyAll_int (jsonDoc : Json) (ns : Namespace) :
    (Write.applyAll (writes jsonDoc) ns).int "mqtt_port" = some (jsonDoc.int "mqtt_port") := by
  simp [writes, Write.applyAll]

/-- Between two events the handle is closed, and the globals are what loading the flash
gives. -/
structure Synced (d : Device P) : Prop where
  closed : handle d.preferences = none
  globals_eq : d.globals = loaded ((nvs d.preferences "config").getD Namespace.empty)

theorem boot_nvs (f : Nvs) : nvs (boot f : Device P).preferences = f := by
  simp [boot, setup, loadConfig, nvs_begin_read]

theorem boot_synced (f : Nvs) : Synced (boot f : Device P) where
  closed := handle_end _
  globals_eq := by
    rw [boot_nvs]
    have hl := loadConfig_eq (handle_powerUp (P := P) f) initial
    rwa [nvs_powerUp] at hl

/-- A configuration document is saved, and the board restarts. -/
theorem react_document {k : Sketch} {e : Event} {doc : Json} (h : doc ∈ e.document k)
    (d : Device P) : react k e d = saveAndRestart doc d := by
  cases e with
  | mqtt topic payload =>
    simp only [Event.document] at h
    split_ifs at h with ht
    · have hp := mem_deserializeJson.mp h
      simp only [react, mqttCallback, hp, if_pos ht]
    · cases h
  | bluetooth command =>
    simp only [Event.document] at h
    split_ifs at h with hk
    · have hp := mem_deserializeJson.mp h
      simp only [react, if_pos hk, handleBluetoothConfig, hp]
    · cases h
  | powerCycle => cases h

/-- Every other event changes at most the pin. -/
theorem react_quiet {k : Sketch} {e : Event} (h : e.document k = none) (d : Device P) :
    ∃ level, (react k e d).device = { d with pin32 := level } := by
  cases e with
  | mqtt topic payload =>
    cases hp : deserializeJson payload with
    | error err => exact ⟨d.pin32, by simp [react, mqttCallback, hp, Reaction.idle]⟩
    | ok jsonDoc =>
      have ht : topic ≠ .lit "esp32/config" := by
        rintro rfl
        simp [Event.document, hp, Except.toOption] at h
      simp only [react, mqttCallback, hp, if_neg ht, handleAction]
      split
      · split_ifs
        · exact ⟨true, rfl⟩
        · exact ⟨false, rfl⟩
        · exact ⟨d.pin32, rfl⟩
      · exact ⟨d.pin32, rfl⟩
  | bluetooth command =>
    by_cases hk : k = .withConfigFromBlthOrMqtt
    · cases hp : deserializeJson command with
      | error err => exact ⟨d.pin32, by simp [react, hk, handleBluetoothConfig, hp, Reaction.idle]⟩
      | ok jsonDoc => simp [Event.document, hk, hp, Except.toOption] at h
    · exact ⟨d.pin32, by simp [react, hk, Reaction.idle]⟩
  | powerCycle => exact ⟨d.pin32, rfl⟩

theorem step_synced (k : Sketch) (d : Device P) (e : Event) (h : Synced d) :
    Synced (step k d e) := by
  unfold step settle
  by_cases hx : (react k e d).exit = .returned
  · rw [if_pos hx]
    cases hd : e.document k with
    | some doc => simp [react_document hd, saveAndRestart] at hx
    | none =>
      obtain ⟨level, hl⟩ := react_quiet hd d
      rw [hl]
      exact ⟨h.closed, h.globals_eq⟩
  · rw [if_neg hx]
    exact boot_synced _

/-- A document is saved, and then the board boots. -/
theorem step_eq_boot {k : Sketch} {e : Event} {doc : Json} (hd : doc ∈ e.document k)
    (d : Device P) : step k d e = boot (nvs (saveConfig doc d.preferences)) := by
  simp [step, react_document hd, saveAndRestart, settle]

/-- After a document the board runs on what `saveConfig` made of the flash. -/
theorem step_document {k : Sketch} {d : Device P} (h : Synced d) {e : Event} {doc : Json}
    (hd : doc ∈ e.document k) : (step k d e).globals =
      loaded (Write.applyAll (writes doc) ((nvs d.preferences "config").getD Namespace.empty)) := by
  rw [step_eq_boot hd, (boot_synced _).globals_eq, boot_nvs, saveConfig_nvs h.closed,
    Option.getD_some]

/-- The document has a member for the setting. -/
def Names (doc : Json) : Setting → Prop
  | .text f => doc.containsKey (key f)
  | .mqttPort => doc.containsKey "mqtt_port"

/-- Every setting that the document does not name has the value it had. -/
def Keeps (doc : Json) (before after : Globals) : Prop :=
  ∀ s, ¬ Names doc s → after.value s = before.value s

/-- A string that is not named is not written. -/
theorem loaded_text {doc : Json} {f : Field} (h : ¬ Names doc (.text f)) (ns : Namespace) :
    (loaded (Write.applyAll (writes doc) ns)).text f = (loaded ns).text f := by
  have hnone : doc.charPtr (key f) = none := by
    unfold Names Json.containsKey at h
    simp only [Option.not_isSome_iff_eq_none] at h
    simp [Json.charPtr, h]
  simp only [loaded, applyAll_str, hnone, Option.none_or]

/-- A port that is not named becomes zero. -/
theorem loaded_mqttPort {doc : Json} (h : ¬ Names doc .mqttPort) (ns : Namespace) :
    (loaded (Write.applyAll (writes doc) ns)).mqttPort = 0 := by
  unfold Names Json.containsKey at h
  simp only [Option.not_isSome_iff_eq_none] at h
  simp [loaded, applyAll_int, Json.int, h]

theorem keeps_iff (doc : Json) (ns : Namespace) :
    Keeps doc (loaded ns) (loaded (Write.applyAll (writes doc) ns)) ↔
      Names doc .mqttPort ∨ (loaded ns).mqttPort = 0 := by
  constructor
  · intro h
    by_cases hp : Names doc .mqttPort
    · exact .inl hp
    · have hport : (loaded (Write.applyAll (writes doc) ns)).mqttPort = (loaded ns).mqttPort :=
        h .mqttPort hp
      rw [loaded_mqttPort hp] at hport
      exact .inr hport.symm
  · intro h s hs
    cases s with
    | text f => exact loaded_text hs ns
    | mqttPort =>
      have hzero := h.resolve_left hs
      show (loaded (Write.applyAll (writes doc) ns)).mqttPort = (loaded ns).mqttPort
      rw [loaded_mqttPort hs, hzero]

/-- In every run of either sketch, a configuration document keeps every setting it does
not name exactly when it names the port or the port was zero before. -/
theorem run_keeps_iff (k : Sketch) (f : Nvs) (es : List Event) (e : Event) (doc : Json)
    (h : doc ∈ e.document k) :
    Keeps doc (run (step k) (boot f : Device P) es).globals
        (run (step k) (boot f : Device P) (es ++ [e])).globals ↔
      Names doc .mqttPort ∨ (run (step k) (boot f : Device P) es).globals.mqttPort = 0 := by
  have hs : Synced (run (step k) (boot f : Device P) es) :=
    run_preserves (step_synced k) (boot_synced f) es
  rw [run_append, run_cons, run_nil, step_document hs h, hs.globals_eq]
  exact keeps_iff doc _

/-- A new SSID over MQTT. -/
def newSsid : Event := .mqtt (.lit "esp32/config") (ascii "\x7b\"ssid\":\"home\"\x7d")

/-- The document it brings. -/
def newSsidDocument : Json := (newSsid.document .withConfig).getD .null

theorem newSsidDocument_mem : newSsidDocument ∈ newSsid.document .withConfig := by
  have hsome : (newSsid.document .withConfig).isSome := by decide +kernel
  obtain ⟨doc, hdoc⟩ := Option.isSome_iff_exists.mp hsome
  simp [newSsidDocument, hdoc]

/-- When the port is zero already, the document keeps what it does not name. -/
theorem run_keeps_newSsid_again :
    Keeps newSsidDocument
      (run (step .withConfig) (boot fun _ => none : Device FlashObject) [newSsid]).globals
      (run (step .withConfig) (boot fun _ => none : Device FlashObject)
        ([newSsid] ++ [newSsid])).globals :=
  (run_keeps_iff .withConfig (fun _ => none) [newSsid] newSsid newSsidDocument
    newSsidDocument_mem).mpr (.inr (by decide +kernel))

/-- On a fresh board a new SSID sets the port to zero as well. -/
theorem port_reset_by_newSsid :
    ¬ ∀ (k : Sketch) (f : Nvs) (es : List Event) (e : Event), ∀ doc ∈ e.document k,
      Keeps doc (run (step k) (boot f : Device FlashObject) es).globals
        (run (step k) (boot f : Device FlashObject) (es ++ [e])).globals := by
  intro h
  have hkeeps := h .withConfig (fun _ => none) [] newSsid newSsidDocument newSsidDocument_mem
  have hnot : ¬ newSsidDocument.containsKey "mqtt_port" := by decide +kernel
  have hport : (run (step .withConfig) (boot fun _ => none : Device FlashObject)
      ([] ++ [newSsid])).globals.mqttPort =
      (run (step .withConfig) (boot fun _ => none : Device FlashObject) []).globals.mqttPort :=
    hkeeps .mqttPort hnot
  exact absurd hport (by decide +kernel)

end Esp32Automation.RemoteConfig
