import Esp32Automation.JsonDeserializer
import Esp32Automation.Run
import Esp32Automation.WebConfig

/-!
# esp32_wifi_server_with_mqtt_remote_on_off

The sketch that shares one `Preferences` object between the configuration it keeps open
and two functions that open, read and close it on their own. `mqttCallback` prints its
message and does nothing else. A call of `reconnectMQTT` is one that ends with a
connection; it is made at the head of `loop()` when Wi-Fi is connected and the broker is
not.
-/
namespace Esp32Automation.WifiServer
open Overlay Preferences Run

variable {P : Type} [Preferences P]

/-- `DEFAULT_SSID` to `DEFAULT_MQTT_PORT`. -/
def defaults : Config
  | .text .ssid => .lit ""
  | .text .password => .lit ""
  | .text .mqttServer => .lit "192.168.0.148"
  | .text .mqttUsername => .lit "testuser"
  | .text .mqttPassword => .lit "password"
  | .mqttPort => 1883

/-- The global variables before `setup`. -/
def initial : Globals := ⟨fun _ => emptyText, 1883⟩

structure Device (P : Type) where
  preferences : P
  globals : Globals
  /-- The arguments of `WiFi.begin`; `none` when the access point was opened instead. -/
  wifiBegin : Option (CString × CString)
  /-- `WiFi.status() == WL_CONNECTED`. -/
  wifiConnected : Bool
  /-- `mqttClient.connected()`. -/
  mqttConnected : Bool

/-- `loadConfiguration`. -/
def loadConfiguration (p : P) (g : Globals) : Globals :=
  let g := g.loadText p defaults .ssid
  let g := g.loadText p defaults .password
  let g := g.loadText p defaults .mqttServer
  let g := g.loadText p defaults .mqttUsername
  let g := g.loadText p defaults .mqttPassword
  g.loadPort p defaults

/-- `setup`. -/
def setup (p : P) : Device P :=
  let p := (begin_ "config" false p).2
  let g := loadConfiguration p initial
  { preferences := p
    globals := g
    wifiBegin := g.wifiArguments
    wifiConnected := false
    mqttConnected := false }

/-- Power-up with the given flash contents. -/
def boot (f : Nvs) : Device P := setup (powerUp f)

/-- `reconnectMQTT`: the call of `mqttClient.connect` it makes, and the object it leaves. -/
def reconnectMQTT (p : P) : ConnectCall × P :=
  let p := (begin_ "mqtt" true p).2
  let server := getString "mqtt_server" (.lit "") p
  let username := getString "mqtt_username" (.lit "") p
  let password := getString "mqtt_password" (.lit "") p
  let port := getInt "mqtt_port" 1883 p
  (⟨server, toPort port, username, password⟩, end_ p)

/-- The copies of `handleConfigurationUpdate`. -/
def copyDocument (doc : Json) (g : Globals) : Option Globals := do
  let g ← if doc.containsKey "ssid" && doc.containsKey "password" then do
      let g ← (doc.charPtr "ssid").map fun src => g.strncpy .ssid src
      (doc.charPtr "password").map fun src => g.strncpy .password src
    else some g
  let g ← g.copyMember doc .mqttServer
  let g := g.copyPort doc
  let g ← g.copyMember doc .mqttUsername
  g.copyMember doc .mqttPassword

/-- `handleConfigurationUpdate`; `none` when it copies from a null pointer. -/
def handleConfigurationUpdate (doc : Json) (d : Device P) : Option (Device P) :=
  (copyDocument doc d.globals).map fun g =>
    { d with
      globals := g
      preferences := Write.execAll g.saveConfiguration d.preferences }

/-- The update, the reply and the restart that end an accepted request. -/
def updateAndRestart (doc : Json) (d : Device P) : Reaction (Device P) :=
  match handleConfigurationUpdate doc d with
  | none => ⟨d, .crashed, none, []⟩
  | some d' => ⟨d', .restarted, some .updated, []⟩

/-- `GET /`. -/
def getRoot (d : Device P) : Reaction (Device P) :=
  .replying d ⟨200, createSuccessResponse .null "running" "ESP32 Web Server is running."⟩

/-- `POST /config_with_payload`. -/
def postConfigWithPayload (args : Args) (d : Device P) : Reaction (Device P) :=
  if args.hasArg "plain" then
    match deserializeJson (args.arg "plain") with
    | .error _ => .replying d ⟨400, createErrorResponse .null "Invalid JSON"⟩
    | .ok jsonDoc => updateAndRestart jsonDoc d
  else .replying d ⟨400, createErrorResponse .null "No data received"⟩

/-- `GET /config`. -/
def getConfig (args : Args) (d : Device P) : Reaction (Device P) :=
  if requiredFields.all args.hasArg then updateAndRestart (configDocument args) d
  else .replying d ⟨400, createErrorResponse .null "Configuration is missing some fields."⟩

/-- The body of both replies with the current configuration. -/
def configurationResponse (ssid password server : CString) (port : ℤ) (username : CString) : Json :=
  let responseJson := Json.null
  let responseJson := responseJson.setMember "ssid" (.ofString ssid.bytes)
  let responseJson := responseJson.setMember "password" (.ofString password.bytes)
  let responseJson := responseJson.setMember "mqtt_server" (.ofString server.bytes)
  let responseJson := responseJson.setMember "mqtt_port" (.integer port)
  responseJson.setMember "mqtt_username" (.ofString username.bytes)

/-- `GET /current_config_former`. -/
def getCurrentConfigFormer (d : Device P) : Reaction (Device P) :=
  let g := d.globals
  .replying d ⟨200, configurationResponse (g.text .ssid).cstr (g.text .password).cstr
    (g.text .mqttServer).cstr g.mqttPort (g.text .mqttUsername).cstr⟩

/-- `GET /current_config`. -/
def getCurrentConfig (d : Device P) : Reaction (Device P) :=
  let p := (begin_ "config" true d.preferences).2
  let ssid := getString "ssid" (.lit "default_ssid") p
  let password := getString "password" (.lit "default_password") p
  let server := getString "mqtt_server" (.lit "default_server") p
  let port := getInt "mqtt_port" 1883 p
  let username := getString "mqtt_username" (.lit "default_user") p
  .replying { d with preferences := end_ p }
    ⟨200, configurationResponse ssid password server port username⟩

/-- `handleReset`; `low` is the reading of `RESET_PIN`. -/
def handleReset (low : Bool) (d : Device P) : Reaction (Device P) :=
  if low then
    let p := (clear true d.preferences).2
    let g := d.globals.strncpy .ssid (defaults (.text .ssid))
    let g := g.strncpy .password (defaults (.text .password))
    let g := g.strncpy .mqttServer (defaults (.text .mqttServer))
    let g := g.strncpy .mqttUsername (defaults (.text .mqttUsername))
    let g := g.strncpy .mqttPassword (defaults (.text .mqttPassword))
    let g := { g with mqttPort := defaults .mqttPort }
    ⟨{ d with globals := g, preferences := Write.execAll g.saveConfiguration p },
      .restarted, none, []⟩
  else .idle d

/-- At the head of `loop()`: is `reconnectMQTT` called? -/
def Device.Reconnects (d : Device P) : Prop := d.wifiConnected ∧ ¬ d.mqttConnected

instance (d : Device P) : Decidable d.Reconnects :=
  inferInstanceAs (Decidable (d.wifiConnected ∧ ¬ d.mqttConnected))

inductive Event where
  | getRoot
  | getConfig (args : Args)
  | postConfigWithPayload (args : Args)
  | getCurrentConfig
  | getCurrentConfigFormer
  | wifiStatus (connected : Bool)
  | mqttLost
  | mqttMessage (topic : CString) (payload : List UInt8)
  | loopHead
  | resetPin (low : Bool)
  | powerCycle

/-- What the program does on an event. -/
def react : Event → Device P → Reaction (Device P)
  | .getRoot, d => getRoot d
  | .getConfig args, d => getConfig args d
  | .postConfigWithPayload args, d => postConfigWithPayload args d
  | .getCurrentConfig, d => getCurrentConfig d
  | .getCurrentConfigFormer, d => getCurrentConfigFormer d
  | .wifiStatus connected, d => .idle { d with wifiConnected := connected }
  | .mqttLost, d => .idle { d with mqttConnected := false }
  | .mqttMessage _ _, d => .idle d
  | .loopHead, d =>
    if d.Reconnects then
      .idle { d with preferences := (reconnectMQTT d.preferences).2, mqttConnected := true }
    else .idle d
  | .resetPin low, d => handleReset low d
  | .powerCycle, d => ⟨d, .poweredOff, none, []⟩

/-- The program continues, or the board boots with what is in flash. -/
def settle (r : Reaction (Device P)) : Device P :=
  if r.exit = .returned then r.device else boot (nvs r.device.preferences)

/-- One event, up to the next. -/
def step (d : Device P) (e : Event) : Device P := settle (react e d)

/-- The document of an accepted request. -/
def Event.document : Event → Option Json
  | .getConfig args =>
    if requiredFields.all args.hasArg then some (configDocument args) else none
  | .postConfigWithPayload args =>
    if args.hasArg "plain" then (deserializeJson (args.arg "plain")).toOption else none
  | _ => none

/-- The settings `handleConfigurationUpdate` looks at: SSID and passphrase only
together. -/
def copied (doc : Json) : List Setting :=
  (if doc.containsKey "ssid" && doc.containsKey "password" then
    [.text .ssid, .text .password] else []) ++
    [.text .mqttServer, .mqttPort, .text .mqttUsername, .text .mqttPassword]

/-- What a document says about each setting that is looked at. -/
def updatePaired (doc : Json) : ∀ s : Setting, Option s.Val := fun s =>
  if s ∈ copied doc then update doc s else none

theorem copyDocument_eq (doc : Json) (g : Globals) :
    copyDocument doc g = g.copySettings doc (copied doc) := by
  by_cases h : doc.containsKey "ssid" && doc.containsKey "password"
  · have hboth := h
    simp only [Bool.and_eq_true] at hboth
    have hssid : g.copyMember doc .ssid = (doc.charPtr "ssid").map fun src => g.strncpy .ssid src :=
      if_pos hboth.1
    have hpass : ∀ g : Globals, g.copyMember doc .password =
        (doc.charPtr "password").map fun src => g.strncpy .password src :=
      fun g => if_pos hboth.2
    simp only [copyDocument, copied, if_pos h, ← hssid, ← hpass]
    simp [Globals.copySettings, Globals.copySetting]
  · simp only [copyDocument, copied, if_neg h]
    simp [Globals.copySettings, Globals.copySetting]

/-- The handler finds a source for every copy exactly when the settings it looks at hold
strings. -/
theorem handleConfigurationUpdate_isSome (doc : Json) (d : Device P) :
    (handleConfigurationUpdate doc d).isSome ↔ ∀ s ∈ copied doc, HoldsString doc s := by
  rw [handleConfigurationUpdate, Option.isSome_map, copyDocument_eq]
  exact Globals.copySettings_isSome doc (copied doc) d.globals

theorem copyDocument_config {doc : Json} {g g' : Globals} (h : copyDocument doc g = some g') :
    g'.config = overlay (updatePaired doc) g.config := by
  rw [copyDocument_eq] at h
  rw [Globals.copySettings_config h, mix_overlay]
  rfl

theorem loadConfiguration_config {p : P} {ns : Namespace} (h : Writable p "config" ns)
    (g : Globals) : (loadConfiguration p g).config = effective defaults ns :=
  Globals.config_load h.contents_eq defaults g

/-- Every default fits its buffer. -/
theorem effective_empty : effective defaults Namespace.empty = defaults :=
  effective_empty_eq (by decide)

/-- The handle as `setup` leaves it. -/
def IsOpen (p : P) : Prop := handle p = some ⟨"config", false⟩

/-- Between two events the configuration in RAM is the one in flash, and the handle is as
`setup` left it or closed. -/
structure Synced (d : Device P) (ns : Namespace) : Prop where
  nvs_eq : nvs d.preferences "config" = some ns
  config_eq : d.globals.config = effective defaults ns
  handle_cases : IsOpen d.preferences ∨ handle d.preferences = none

theorem boot_writable (f : Nvs) :
    Writable (boot f : Device P).preferences "config" ((f "config").getD Namespace.empty) :=
  begin_powerUp "config" f

theorem boot_synced (f : Nvs) :
    Synced (boot f : Device P) ((f "config").getD Namespace.empty) := by
  have hw := boot_writable (P := P) f
  exact ⟨hw.nvs_eq, loadConfiguration_config hw initial, .inl hw.handle_eq⟩

end Esp32Automation.WifiServer
