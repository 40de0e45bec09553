import Esp32Automation.JsonDeserializer
import Esp32Automation.Run
import Esp32Automation.WebConfig

/-!
# esp32_hotspot_mqtt_remote_on_off

The sketch that runs the access point and the station side by side: it joins the
configured network whatever the settings are, and its web server takes commands, while
the configuration arrives over MQTT only. The two older programs at the head of the file
are commented out and not modelled.
-/
namespace Esp32Automation.Hotspot
open Preferences Run

variable {P : Type} [Preferences P]

/-- `DEFAULT_SSID` to `DEFAULT_MQTT_PORT`. -/
def defaults : Config
  | .text .ssid => .lit "ESP32-Access-Point"
  | .text .password => .lit "123456789"
  | .text .mqttServer => .lit "192.168.0.148"
  | .text .mqttUsername => .lit "testuser"
  | .text .mqttPassword => .lit "password"
  | .mqttPort => 1883

/-- The global variables before `setup`. -/
def initial : Globals where
  text
    | .ssid => .ofCString (.lit "Providence") (by decide)
    | .password => .ofCString (.lit "Provider123") (by decide)
    | _ => emptyText
  mqttPort := 0

structure Device (P : Type) where
  preferences : P
  globals : Globals
  /-- The level of `PIN32`. -/
  pin32 : Bool
  /-- The arguments of `WiFi.begin`. -/
  wifiBegin : CString × CString
  /-- The port in `mqttClient`. The server name there points to the global buffer. -/
  clientPort : ℕ

/-- `loadConfiguration`. -/
def loadConfiguration (p : P) (g : Globals) : Globals :=
  let g := g.loadText p defaults .ssid
  let g := g.loadText p defaults .password
  let g := g.loadText p defaults .mqttServer
  let g := g.loadText p defaults .mqttUsername
  let g := g.loadText p defaults .mqttPassword
  g.loadPort p defaults

/-- `setup`, with `setupWiFiDualMode` and `setupMQTT`. -/
def setup (p : P) : Device P :=
  let p := (begin_ "config" false p).2
  let g := loadConfiguration p initial
  { preferences := p
    globals := g
    pin32 := false
    wifiBegin := ((g.text .ssid).cstr, (g.text .password).cstr)
    clientPort := toPort g.mqttPort }

/-- Power-up with the given flash contents. -/
def boot (f : Nvs) : Device P := setup (powerUp f)

/-- The call of `mqttClient.connect` in `reconnectMQTT`. -/
def reconnectMQTT (d : Device P) : ConnectCall where
  server := (d.globals.text .mqttServer).cstr
  port := d.clientPort
  username := (d.globals.text .mqttUsername).cstr
  password := (d.globals.text .mqttPassword).cstr

/-- The copies of `handleConfigurationUpdate`. -/
def copyDocument (doc : Json) (g : Globals) : Option Globals := do
  let g ← g.copyMember doc .ssid
  let g ← g.copyMember doc .password
  let g ← g.copyMember doc .mqttServer
  let g ← g.copyMember doc .mqttUsername
  let g ← g.copyMember doc .mqttPassword
  return g.copyPort doc

/-- `handleConfigurationUpdate` up to the restart; `none` when it copies from a null
pointer. -/
def handleConfigurationUpdate (doc : Json) (d : Device P) : Option (Device P) :=
  (copyDocument doc d.globals).map fun g =>
    { d with globals := g, preferences := Write.execAll g.saveConfiguration d.preferences }

/-- The update and the restart that ends it. -/
def updateAndRestart (doc : Json) (d : Device P) : Reaction (Device P) :=
  match handleConfigurationUpdate doc d with
  | none => ⟨d, .crashed, none, []⟩
  | some d' => ⟨d', .restarted, none, []⟩

/-- `handleActionCommand`: the device it leaves and the document it publishes on
`esp32/status`. -/
def handleActionCommand (action : Option CString) (d : Device P) : Device P × Json :=
  match action with
  | none => (d, createErrorResponse .null "Missing 'action' field")
  | some action =>
    if action = .lit "ON" then
      ({ d with pin32 := true }, createSuccessResponse .null "ON" "GPIO 32 set to HIGH")
    else if action = .lit "OFF" then
      ({ d with pin32 := false }, createSuccessResponse .null "OFF" "GPIO 32 set to LOW")
    else (d, createErrorResponse .null "Invalid action received")

/-- The command of a document, with the reply of the caller. -/
def commandReaction (jsonDoc : Json) (reply : Option HttpReply) (d : Device P) :
    Reaction (Device P) :=
  let r := handleActionCommand (jsonDoc.charPtr "action") d
  ⟨r.1, .returned, reply, [⟨"esp32/status", r.2⟩]⟩

/-- `mqttCallback`. -/
def mqttCallback (topic : CString) (payload : List UInt8) (d : Device P) : Reaction (Device P) :=
  match deserializeJson payload with
  | .error _ => .idle d
  | .ok jsonDoc =>
    if topic = .lit "esp32/command" then commandReaction jsonDoc none d
    else if topic = .lit "esp32/config" then updateAndRestart jsonDoc d
    else .idle d

/-- The route `/`. -/
def getRoot (d : Device P) : Reaction (Device P) :=
  .replying d ⟨200, .text "ESP32 is running."⟩

/-- `POST /action`. A request without a body is parsed as the empty text. -/
def postAction (args : Args) (d : Device P) : Reaction (Device P) :=
  match deserializeJson (args.arg "plain") with
  | .error _ => .replying d ⟨400, Json.object [(ascii "status", .lit "error")]⟩
  | .ok jsonDoc =>
    commandReaction jsonDoc (some ⟨200, Json.object [(ascii "status", .lit "success")]⟩) d

/-- `handleReset`; `low` is the reading of `PIN23`. -/
def handleReset (low : Bool) (d : Device P) : Reaction (Device P) :=
  if low then ⟨{ d with preferences := (clear true d.preferences).2 }, .restarted, none, []⟩
  else .idle d

inductive Event where
  | getRoot
  | postAction (args : Args)
  | mqtt (topic : CString) (payload : List UInt8)
  | resetPin (low : Bool)
  | powerCycle

/-- What the program does on an event. -/
def react : Event → Device P → Reaction (Device P)
  | .getRoot, d => getRoot d
  | .postAction args, d => postAction args d
  | .mqtt topic payload, d => mqttCallback topic payload d
  | .resetPin low, d => handleReset low d
  | .powerCycle, d => ⟨d, .poweredOff, none, []⟩

/-- The program continues, or the board boots with what is in flash. -/
def settle (r : Reaction (Device P)) : Device P :=
  if r.exit = .returned then r.device else boot (nvs r.device.preferences)

/-- One event, up to the head of the next `loop()`. -/
def step (d : Device P) (e : Event) : Device P := settle (react e d)

/-- The order of the copies is the order in which the settings are saved. -/
theorem copyDocument_eq (doc : Json) (g : Globals) :
    copyDocument doc g = g.copySettings doc Setting.all := rfl

/-- The handler finds a source for every copy exactly when the document is well typed. -/
theorem handleConfigurationUpdate_isSome (doc : Json) (d : Device P) :
    (handleConfigurationUpdate doc d).isSome ↔ ∀ s ∈ Setting.all, HoldsString doc s := by
  rw [handleConfigurationUpdate, Option.isSome_map, copyDocument_eq]
  exact Globals.copySettings_isSome doc Setting.all d.globals

theorem loadConfiguration_config {p : P} {ns : Namespace} (h : Writable p "config" ns)
    (g : Globals) : (loadConfiguration p g).config = effective defaults ns :=
  Globals.config_load h.contents_eq defaults g

/-- The configuration in RAM is the one in flash and the one in use, and the handle is
open for writing. -/
structure Synced (d : Device P) (ns : Namespace) : Prop where
  writable : Writable d.preferences "config" ns
  config_eq : d.globals.config = effective defaults ns
  wifi_eq : d.wifiBegin = ((d.globals.text .ssid).cstr, (d.globals.text .password).cstr)
  port_eq : d.clientPort = toPort d.globals.mqttPort

theorem boot_synced (f : Nvs) :
    Synced (boot f : Device P) ((f "config").getD Namespace.empty) := by
  have hw := begin_powerUp (P := P) "config" f
  exact ⟨hw, loadConfiguration_config hw initial, rfl, rfl⟩

/-- Flash contents after a boot: the namespace exists from then on. -/
theorem nvs_boot (f : Nvs) : nvs (boot f : Device P).preferences = f.ensure "config" :=
  (begin_write "config" (handle_powerUp f)).2.2.trans (by rw [nvs_powerUp])

/-- Every default fits its buffer. -/
theorem effective_empty : effective defaults Namespace.empty = defaults :=
  effective_empty_eq (by decide)

/-- The program goes on with the same settings and handle, or the board boots with what
is in flash. -/
theorem settle_cases {d : Device P} {ns : Namespace} (h : Synced d ns) {r : Reaction (Device P)}
    (hp : r.exit = .returned → r.device.preferences = d.preferences ∧
      r.device.globals = d.globals ∧ r.device.wifiBegin = d.wifiBegin ∧
      r.device.clientPort = d.clientPort) {ns' : Namespace}
    (hn : nvs r.device.preferences "config" = some ns') :
    Synced (settle r) ns' := by
  by_cases hx : r.exit = .returned
  · obtain ⟨hpref, hglob, hwifi, hport⟩ := hp hx
    have hns : ns = ns' := by
      rw [hpref, h.writable.nvs_eq] at hn
      exact Option.some.inj hn
    subst hns
    rw [settle, if_pos hx]
    exact ⟨hpref ▸ h.writable, by rw [hglob, h.config_eq], by rw [hwifi, hglob, h.wifi_eq],
      by rw [hport, hglob, h.port_eq]⟩
  · have hb := boot_synced (P := P) (nvs r.device.preferences)
    rw [hn, Option.getD_some] at hb
    rwa [settle, if_neg hx]

/-- The reset pin empties the namespace. -/
theorem step_reset {d : Device P} {ns : Namespace} (h : Synced d ns) :
    Synced (step d (.resetPin true)) Namespace.empty := by
  obtain ⟨-, -, hn⟩ := clear_ok h.writable.handle_eq
  have hcleared : nvs (react (.resetPin true) d).device.preferences "config" =
      some Namespace.empty := by
    simp [react, handleReset, hn, h.writable.nvs_eq]
  exact settle_cases h (by simp [react, handleReset]) hcleared

omit [Preferences P] in
/-- A command changes the pin and nothing else. -/
theorem handleActionCommand_frame (action : Option CString) (d : Device P) :
    ∃ level, (handleActionCommand action d).1 = { d with pin32 := level } := by
  cases action with
  | none => exact ⟨d.pin32, rfl⟩
  | some action =>
    simp only [handleActionCommand]
    split_ifs
    · exact ⟨true, rfl⟩
    · exact ⟨false, rfl⟩
    · exact ⟨d.pin32, rfl⟩

/-- An event changes at most the pin, or it is the reset, or it brings a configuration. -/
theorem react_cases (e : Event) (d : Device P) :
    (∃ level, (react e d).device = { d with pin32 := level }) ∨ e = .resetPin true ∨
      ∃ doc, react e d = updateAndRestart doc d := by
  cases e with
  | getRoot => exact .inl ⟨d.pin32, rfl⟩
  | powerCycle => exact .inl ⟨d.pin32, rfl⟩
  | postAction args =>
    left
    simp only [react, postAction]
    cases deserializeJson (args.arg "plain") with
    | error err => exact ⟨d.pin32, rfl⟩
    | ok jsonDoc => exact handleActionCommand_frame _ d
  | mqtt topic payload =>
    simp only [react, mqttCallback]
    cases deserializeJson payload with
    | error err => exact .inl ⟨d.pin32, rfl⟩
    | ok jsonDoc =>
      dsimp only
      split_ifs
      · exact .inl (handleActionCommand_frame _ d)
      · exact .inr (.inr ⟨jsonDoc, rfl⟩)
      · exact .inl ⟨d.pin32, rfl⟩
  | resetPin low =>
    cases low with
    | false => exact .inl ⟨d.pin32, rfl⟩
    | true => exact .inr (.inl rfl)

/-- An update restarts the board on what it leaves in flash, be it the old settings. -/
theorem updateAndRestart_synced {d : Device P} {ns : Namespace} (h : Synced d ns) (doc : Json) :
    ∃ ns', Synced (settle (updateAndRestart doc d)) ns' := by
  unfold updateAndRestart
  cases hu : handleConfigurationUpdate doc d with
  | none => exact ⟨ns, settle_cases h (by simp) h.writable.nvs_eq⟩
  | some d' =>
    obtain ⟨g, -, rfl⟩ := Option.map_eq_some_iff.mp hu
    have hw := Write.execAll_writable g.saveConfiguration h.writable
    exact ⟨_, settle_cases h (by simp) hw.nvs_eq⟩

/-- In every reachable state the configuration in RAM is the one in flash. -/
theorem step_synced (d : Device P) (e : Event) (h : ∃ ns, Synced d ns) :
    ∃ ns, Synced (step d e) ns := by
  obtain ⟨ns, hs⟩ := h
  obtain ⟨level, hl⟩ | rfl | ⟨doc, hr⟩ := react_cases e d
  · exact ⟨ns, settle_cases hs (fun _ => by simp [hl]) (by simpa [hl] using hs.writable.nvs_eq)⟩
  · exact ⟨Namespace.empty, step_reset hs⟩
  · rw [step, hr]
    exact updateAndRestart_synced hs doc

theorem run_synced (f : Nvs) (es : List Event) :
    ∃ ns, Synced (run step (boot f : Device P) es) ns :=
  run_preserves step_synced ⟨_, boot_synced f⟩ es

end Esp32Automation.Hotspot
