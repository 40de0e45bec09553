import Esp32Automation.JsonDeserializer
import Esp32Automation.Run
import Esp32Automation.WebConfig

/-!
# ap_wifi_plus_mqtt_connection_after_config

The sketch between two power cycles: `setup`, the HTTP routes, `mqttCallback` and
`handleReset`, over any `Preferences` object. A step is one event of `loop()` together
with the boot that follows when the event ends the program. What is printed on the
serial port is left out, and so is the list of missing field names, which is only
printed.
-/
namespace Esp32Automation.ApWifi
open Overlay Preferences Run

variable {P : Type} [Preferences P]

/-- `DEFAULT_SSID` to `DEFAULT_MQTT_PORT`. -/
def defaults : Config
  | .text .ssid => .lit ""
  | .text .password => .lit ""
  | .text .mqttServer => .lit "192.168.0.148"
  | .text .mqttUsername => .lit "testuser"
  | .text .mqttPassword => .lit "password"
  | .mqttPort => 1883

/-- The global variables before `setup`. -/
def initial : Globals := ⟨fun _ => emptyText, 1883⟩

structure Device (P : Type) where
  preferences : P
  globals : Globals
  /-- The level of `OUTPUT_PIN`. -/
  outputPin : Bool
  /-- The arguments of `WiFi.begin`; `none` when the access point was opened instead. -/
  wifiBegin : Option (CString × CString)
  /-- The port in `mqttClient`. The server name there points to the global buffer. -/
  clientPort : ℕ

/-- `loadConfiguration`. -/
def loadConfiguration (p : P) (g : Globals) : Globals :=
  let g := (g.loadText p defaults .ssid).terminate .ssid
  let g := (g.loadText p defaults .password).terminate .password
  let g := (g.loadText p defaults .mqttServer).terminate .mqttServer
  let g := (g.loadText p defaults .mqttUsername).terminate .mqttUsername
  let g := (g.loadText p defaults .mqttPassword).terminate .mqttPassword
  g.loadPort p defaults

/-- `setup`. -/
def setup (p : P) : Device P :=
  let p := (begin_ "config" false p).2
  let g := loadConfiguration p initial
  { preferences := p
    globals := g
    outputPin := false
    wifiBegin := g.wifiArguments
    clientPort := toPort g.mqttPort }

/-- Power-up with the given flash contents. -/
def boot (f : Nvs) : Device P := setup (powerUp f)

/-- The call of `mqttClient.connect` in `reconnectMQTT`. -/
def reconnectMQTT (d : Device P) : ConnectCall where
  server := (d.globals.text .mqttServer).cstr
  port := d.clientPort
  username := (d.globals.text .mqttUsername).cstr
  password := (d.globals.text .mqttPassword).cstr

/-- The copies of `handleConfigurationUpdate`. -/
def copyDocument (doc : Json) (g : Globals) : Option Globals := do
  let g ← g.copyMember doc .ssid
  let g ← g.copyMember doc .password
  let g ← g.copyMember doc .mqttServer
  let g ← g.copyMember doc .mqttUsername
  let g ← g.copyMember doc .mqttPassword
  return g.copyPort doc

/-- `handleConfigurationUpdate`; `none` when it copies from a null pointer. -/
def handleConfigurationUpdate (doc : Json) (d : Device P) : Option (Device P) :=
  (copyDocument doc d.globals).map fun g =>
    { d with
      globals := g
      preferences := Write.execAll g.saveConfiguration d.preferences
      clientPort := toPort g.mqttPort }

/-- The update, the reply and the restart that end an accepted request. Nothing has been
saved yet when a copy crashes. -/
def updateAndRestart (doc : Json) (reply : Option HttpReply) (d : Device P) :
    Reaction (Device P) :=
  match handleConfigurationUpdate doc d with
  | none => ⟨d, .crashed, none, []⟩
  | some d' => ⟨d', .restarted, reply, []⟩

/-- `GET /`. -/
def getRoot (d : Device P) : Reaction (Device P) :=
  .replying d ⟨200, createSuccessResponse .null "running" "ESP32 Web Server is running."⟩

/-- `GET /config`. -/
def getConfig (args : Args) (d : Device P) : Reaction (Device P) :=
  if requiredFields.all args.hasArg then
    updateAndRestart (configDocument args) (some .updated) d
  else .replying d ⟨400, createErrorResponse .null "Configuration is missing some fields."⟩

/-- `POST /update_config`. -/
def postUpdateConfig (args : Args) (d : Device P) : Reaction (Device P) :=
  if args.hasArg "plain" then
    match deserializeJson (args.arg "plain") with
    | .error _ => .replying d ⟨400, createErrorResponse .null "Invalid JSON"⟩
    | .ok jsonDoc => updateAndRestart jsonDoc (some .updated) d
  else .replying d ⟨400, createErrorResponse .null "No data received"⟩

/-- The `esp32/command` branch of `mqttCallback`. -/
def handleCommand (jsonDoc : Json) (d : Device P) : Reaction (Device P) :=
  match jsonDoc.charPtr "action" with
  | some action =>
    if action = .lit "ON" then
      ⟨{ d with outputPin := true }, .returned, none,
        [⟨"esp32/status", createSuccessResponse .null "ON" "GPIO set to HIGH"⟩]⟩
    else if action = .lit "OFF" then
      ⟨{ d with outputPin := false }, .returned, none,
        [⟨"esp32/status", createSuccessResponse .null "OFF" "GPIO set to LOW"⟩]⟩
    else ⟨d, .returned, none,
      [⟨"esp32/status", createErrorResponse .null "Invalid action received"⟩]⟩
  | none => ⟨d, .returned, none,
      [⟨"esp32/status", createErrorResponse .null "Missing 'action' field in JSON"⟩]⟩

/-- `mqttCallback`. -/
def mqttCallback (topic : CString) (payload : List UInt8) (d : Device P) : Reaction (Device P) :=
  match deserializeJson payload with
  | .error _ => .idle d
  | .ok jsonDoc =>
    if topic = .lit "esp32/config" then updateAndRestart jsonDoc none d
    else if topic = .lit "esp32/command" then handleCommand jsonDoc d
    else .idle d

/-- `handleReset`; `low` is the reading of `RESET_PIN`. -/
def handleReset (low : Bool) (d : Device P) : Reaction (Device P) :=
  if low then ⟨{ d with preferences := (clear true d.preferences).2 }, .restarted, none, []⟩
  else .idle d

inductive Event where
  | getRoot
  | getConfig (args : Args)
  | postUpdateConfig (args : Args)
  | mqtt (topic : CString) (payload : List UInt8)
  | resetPin (low : Bool)
  | powerCycle

/-- What the program does on an event. -/
def react : Event → Device P → Reaction (Device P)
  | .getRoot, d => getRoot d
  | .getConfig args, d => getConfig args d
  | .postUpdateConfig args, d => postUpdateConfig args d
  | .mqtt topic payload, d => mqttCallback topic payload d
  | .resetPin low, d => handleReset low d
  | .powerCycle, d => ⟨d, .poweredOff, none, []⟩

/-- The program continues, or the board boots with what is in flash. -/
def settle (r : Reaction (Device P)) : Device P :=
  if r.exit = .returned then r.device else boot (nvs r.device.preferences)

/-- One event, up to the head of the next `loop()`. -/
def step (d : Device P) (e : Event) : Device P := settle (react e d)

theorem loadConfiguration_config {p : P} {ns : Namespace} (h : Writable p "config" ns)
    (g : Globals) : (loadConfiguration p g).config = effective defaults ns := by
  simp only [loadConfiguration, Globals.terminate_eq]
  exact Globals.config_load h.contents_eq defaults g

/-- The configuration in RAM is the one in flash and the one in use, and the handle is
open for writing. -/
structure Synced (d : Device P) (ns : Namespace) : Prop where
  writable : Writable d.preferences "config" ns
  config_eq : d.globals.config = effective defaults ns
  wifi_eq : d.wifiBegin = d.globals.wifiArguments
  port_eq : d.clientPort = toPort d.globals.mqttPort

theorem boot_synced (f : Nvs) :
    Synced (boot f : Device P) ((f "config").getD Namespace.empty) := by
  have hw := begin_powerUp (P := P) "config" f
  exact ⟨hw, loadConfiguration_config hw initial, rfl, rfl⟩

/-- Every default fits its buffer. -/
theorem effective_empty : effective defaults Namespace.empty = defaults :=
  effective_empty_eq (by decide)

end Esp32Automation.ApWifi
