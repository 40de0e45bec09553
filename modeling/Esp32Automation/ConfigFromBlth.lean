import Esp32Automation.LineReader
import Esp32Automation.RemoteConfig

/-!
# remote_on_off_with_config_from_blth

This sketch loads with the `getString` that fills an array, over the values compiled into
the program, and saves a complete configuration: what the document says, and what is in
RAM for the rest. Keys, array lengths and compiled-in values are those of the sketches in
`RemoteConfig`. The older program at the head of the file is commented out and not
modelled, and neither is what is printed on the serial port.
-/
namespace Esp32Automation.ConfigFromBlth
open Preferences ArrayPreferences RemoteConfig Run

/-- The global variables `ssid` to `mqtt_port`. Every array holds a string. -/
structure Globals where
  text : ∀ f : Field, TerminatedArray (size f)
  mqttPort : ℤ

/-- The configuration in RAM. -/
def Globals.config (g : Globals) : Config
  | .text f => (g.text f).cstr
  | .mqttPort => g.mqttPort

theorem defaults_fit (f : Field) : (defaults (.text f)).length < size f := by
  cases f <;> decide

/-- The global variables before `setup`. -/
def initial : Globals :=
  ⟨fun f => .ofCString (defaults (.text f)) (defaults_fit f), defaults .mqttPort⟩

/-- The `put` calls of `saveConfig`. -/
def writes (jsonDoc : Json) (g : Globals) : List Write :=
  [.str "ssid" (jsonDoc.orCharPtr "ssid" (g.text .ssid).cstr),
    .str "password" (jsonDoc.orCharPtr "password" (g.text .password).cstr),
    .str "mqtt_server" (jsonDoc.orCharPtr "mqtt_server" (g.text .mqttServer).cstr),
    .str "mqtt_user" (jsonDoc.orCharPtr "mqtt_user" (g.text .mqttUsername).cstr),
    .str "mqtt_pass" (jsonDoc.orCharPtr "mqtt_pass" (g.text .mqttPassword).cstr),
    .int "mqtt_port" (jsonDoc.orInt "mqtt_port" g.mqttPort)]

structure Device (P : Type) where
  preferences : P
  globals : Globals
  /-- The level of `OUTPUT_PIN`. -/
  outputPin : Bool
  /-- The arguments of `WiFi.begin`. -/
  wifiBegin : CString × CString
  /-- The port in `client`. The server name there points to the global array. -/
  clientPort : ℕ

variable {P : Type} [ArrayPreferences P]

/-- `preferences.getString(key, f, sizeof(f))`. -/
def loadText (p : P) (f : Field) (g : Globals) : Globals :=
  { g with text := Function.update g.text f (load (key f) (g.text f) p) }

/-- `loadConfig`. -/
def loadConfig (p : P) (g : Globals) : Globals × P :=
  let p := (begin_ "config" true p).2
  let g := loadText p .ssid g
  let g := loadText p .password g
  let g := loadText p .mqttServer g
  let g := loadText p .mqttUsername g
  let g := loadText p .mqttPassword g
  let g := { g with mqttPort := getInt "mqtt_port" g.mqttPort p }
  (g, end_ p)

/-- `saveConfig`. -/
def saveConfig (jsonDoc : Json) (g : Globals) (p : P) : P :=
  end_ (Write.execAll (writes jsonDoc g) (begin_ "config" false p).2)

/-- `setup`, once Wi-Fi is connected. -/
def setup (p : P) : Device P :=
  let r := loadConfig p initial
  { preferences := r.2
    globals := r.1
    outputPin := false
    wifiBegin := ((r.1.text .ssid).cstr, (r.1.text .password).cstr)
    clientPort := toPort r.1.mqttPort }

/-- Power-up with the given flash contents. -/
def boot (f : Nvs) : Device P := setup (powerUp f)

/-- The call of `client.connect` in `reconnectMQTT`. -/
def reconnectMQTT (d : Device P) : ConnectCall where
  server := (d.globals.text .mqttServer).cstr
  port := d.clientPort
  username := (d.globals.text .mqttUsername).cstr
  password := (d.globals.text .mqttPassword).cstr

/-- The end of both configuration handlers. -/
def saveAndRestart (jsonDoc : Json) (d : Device P) : Reaction (Device P) :=
  ⟨{ d with preferences := saveConfig jsonDoc d.globals d.preferences }, .restarted, none, []⟩

/-- `Stream::readBytesUntil(stop, buffer, n)` on the bytes that have arrived: what it
stores and what stays unread, or `none` while it waits for more. -/
def readBytesUntil (stop : UInt8) (n : ℕ) (received : List UInt8) :
    Option (List UInt8 × List UInt8) := LineReader.readUntil stop n received

/-- The first lines of `handleBluetoothConfig`: the text that is parsed and what stays
unread. The array `command` has 256 bytes. -/
def readCommand (received : List UInt8) : Option (CString × List UInt8) :=
  (readBytesUntil 10 255 received).map fun r => (.ofBytes (r.1 ++ [0]), r.2)

/-- `handleBluetoothConfig` on a command that has been read. -/
def handleCommandText (command : CString) (d : Device P) : Reaction (Device P) :=
  match deserializeJson command.bytes with
  | .error _ => .idle d
  | .ok jsonDoc => saveAndRestart jsonDoc d

/-- `handleBluetoothConfig`, with the bytes it leaves unread. -/
def handleBluetoothConfig (received : List UInt8) (d : Device P) :
    Reaction (Device P) × List UInt8 :=
  match readCommand received with
  | none => (.idle d, received)
  | some (command, rest) => (handleCommandText command d, rest)

/-- `publishStatus`: what it publishes at a level of the pin. -/
def publishStatus (outputPin : Bool) : Publication :=
  ⟨"esp32/status",
    if outputPin then createSuccessResponse .null "ON" "GPIO 32 set to HIGH"
    else createSuccessResponse .null "OFF" "GPIO 32 set to LOW"⟩

/-- The `esp32/command` branch of `mqttCallback`. -/
def handleCommand (jsonDoc : Json) (d : Device P) : Reaction (Device P) :=
  match jsonDoc.charPtr "action" with
  | some action =>
    let level : Bool := action = .lit "ON"
    ⟨{ d with outputPin := level }, .returned, none, [publishStatus level]⟩
  | none => .idle d

/-- `mqttCallback`. -/
def mqttCallback (topic : CString) (payload : List UInt8) (d : Device P) : Reaction (Device P) :=
  match deserializeJson payload with
  | .error _ => .idle d
  | .ok jsonDoc =>
    if topic = .lit "esp32/config" then saveAndRestart jsonDoc d
    else if topic = .lit "esp32/command" then handleCommand jsonDoc d
    else .idle d

/-- What happens to the board. A reconnection and the bytes that wait for
`handleBluetoothConfig` are events too. -/
inductive Event where
  | mqtt (topic : CString) (payload : List UInt8)
  | bluetooth (received : List UInt8)
  | reconnect
  | powerCycle

/-- What the program does on an event. -/
def react : Event → Device P → Reaction (Device P)
  | .mqtt topic payload, d => mqttCallback topic payload d
  | .bluetooth received, d => (handleBluetoothConfig received d).1
  | .reconnect, d => .idle d
  | .powerCycle, d => ⟨d, .poweredOff, none, []⟩

/-- The program continues, or the board boots with what is in flash. -/
def settle (r : Reaction (Device P)) : Device P :=
  if r.exit = .returned then r.device else boot (nvs r.device.preferences)

/-- One event, up to the next. -/
def step (d : Device P) (e : Event) : Device P := settle (react e d)

/-- The configuration document that an event brings. -/
def Event.document : Event → Option Json
  | .mqtt topic payload =>
    if topic = .lit "esp32/config" then (deserializeJson payload).toOption else none
  | .bluetooth received =>
    (readCommand received).bind fun r => (deserializeJson r.1.bytes).toOption
  | .reconnect | .powerCycle => none

/-- What `loadConfig` makes of a namespace over the values it finds in RAM: a stored
string that does not fit its array counts as missing. -/
def loaded (ram : Config) (ns : Namespace) : Config
  | .text f => ((ns.str (key f)).filter (·.length < size f)).getD (ram (.text f))
  | .mqttPort => (ns.int "mqtt_port").getD (ram .mqttPort)

theorem initial_config : initial.config = defaults := by
  funext s
  cases s with
  | text f => exact TerminatedArray.ofCString_cstr _ (defaults_fit f)
  | mqttPort => rfl

theorem loadConfig_config {p : P} (h : handle p = none) (g : Globals) :
    (loadConfig p g).1.config = loaded g.config ((nvs p "config").getD Namespace.empty) := by
  have hcont := contents_begin_read_closed "config" h
  have hstr : ∀ f : Field, (load (key f) (g.text f) (begin_ "config" true p).2).cstr =
      loaded g.config ((nvs p "config").getD Namespace.empty) (.text f) := by
    intro f
    rw [load_cstr, hcont]
    cases nvs p "config" <;> rfl
  have hint : getInt "mqtt_port" g.mqttPort (begin_ "config" true p).2 =
      loaded g.config ((nvs p "config").getD Namespace.empty) .mqttPort := by
    rw [getInt_eq, hcont]
    cases nvs p "config" <;> rfl
  funext s
  cases s with
  | text f => cases f <;> simp [loadConfig, loadText, Globals.config, ← hstr]
  | mqttPort => exact hint

/-- `saveConfig` writes a complete configuration into `config`. -/
theorem saveConfig_nvs {p : P} (h : handle p = none) (jsonDoc : Json) (g : Globals) :
    nvs (saveConfig jsonDoc g p) "config" =
      some (Write.applyAll (writes jsonDoc g) ((nvs p "config").getD Namespace.empty)) := by
  obtain ⟨-, hh, hn⟩ := begin_write "config" h
  have hw : Writable (begin_ "config" false p).2 "config"
      ((nvs p "config").getD Namespace.empty) := ⟨hh, by simp [hn]⟩
  rw [saveConfig, nvs_end]
  exact (Write.execAll_writable (writes jsonDoc g) hw).nvs_eq

theorem applyAll_str (jsonDoc : Json) (g : Globals) (ns : Namespace) (f : Field) :
    (Write.applyAll (writes jsonDoc g) ns).str (key f) =
      some (jsonDoc.orCharPtr (key f) (g.text f).cstr) := by
  cases f <;> simp [writes, Write.applyAll, key]

theorem applyAll_int (jsonDoc : Json) (g : Globals) (ns : Namespace) :
    (Write.applyAll (writes jsonDoc g) ns).int "mqtt_port" =
      some (jsonDoc.orInt "mqtt_port" g.mqttPort) := by
  simp [writes, Write.applyAll]

/-- Between two events the handle is closed, and the settings in RAM and in use are what
the flash gives over the compiled-in values. -/
structure Synced (d : Device P) : Prop where
  closed : handle d.preferences = none
  config_eq : d.globals.config =
    loaded defaults ((nvs d.preferences "config").getD Namespace.empty)
  wifi_eq : d.wifiBegin = ((d.globals.text .ssid).cstr, (d.globals.text .password).cstr)
  port_eq : d.clientPort = toPort d.globals.mqttPort

theorem boot_nvs (f : Nvs) : nvs (boot f : Device P).preferences = f := by
  simp [boot, setup, loadConfig, nvs_begin_read]

theorem boot_synced (f : Nvs) : Synced (boot f : Device P) where
  closed := handle_end _
  config_eq := by
    have hl := loadConfig_config (handle_powerUp (P := P) f) initial
    rw [nvs_powerUp, initial_config] at hl
    rw [boot_nvs]
    exact hl
  wifi_eq := rfl
  port_eq := rfl

/-- A configuration document is saved, and the board restarts. -/
theorem react_document {e : Event} {doc : Json} (h : doc ∈ e.document) (d : Device P) :
    react e d = saveAndRestart doc d := by
  cases e with
  | mqtt topic payload =>
    simp only [Event.document] at h
    split_ifs at h with ht
    · have hp := mem_deserializeJson.mp h
      simp only [react, mqttCallback, hp, if_pos ht]
    · cases h
  | bluetooth received =>
    obtain ⟨r, hr, hdoc⟩ := Option.bind_eq_some_iff.mp h
    have hp := mem_deserializeJson.mp hdoc
    simp only [react, handleBluetoothConfig, hr, handleCommandText, hp]
  | reconnect => cases h
  | powerCycle => cases h

/-- Every other event is ignored, or sets the pin and publishes its level, or is the loss of
power. -/
theorem react_cases {e : Event} (h : e.document = none) (d : Device P) :
    react e d = .idle d ∨
      (∃ level, react e d =
        ⟨{ d with outputPin := level }, .returned, none, [publishStatus level]⟩) ∨
      e = .powerCycle := by
  cases e with
  | mqtt topic payload =>
    cases hp : deserializeJson payload with
    | error err => exact .inl (by simp only [react, mqttCallback, hp])
    | ok jsonDoc =>
      have ht : topic ≠ .lit "esp32/config" := by
        rintro rfl
        simp [Event.document, hp, Except.toOption] at h
      simp only [react, mqttCallback, hp, if_neg ht]
      split_ifs
      · simp only [handleCommand]
        cases jsonDoc.charPtr "action" with
        | none => exact .inl rfl
        | some action => exact .inr (.inl ⟨_, rfl⟩)
      · exact .inl rfl
  | bluetooth received =>
    refine .inl ?_
    cases hr : readCommand received with
    | none => simp only [react, handleBluetoothConfig, hr]
    | some r =>
      have hnone : (deserializeJson r.1.bytes).toOption = none := by
        simpa [Event.document, hr] using h
      cases hp : deserializeJson r.1.bytes with
      | error err => simp only [react, handleBluetoothConfig, hr, handleCommandText, hp]
      | ok jsonDoc => simp [hp, Except.toOption] at hnone
  | reconnect => exact .inl rfl
  | powerCycle => exact .inr (.inr rfl)

/-- So it changes at most the pin. -/
theorem react_quiet {e : Event} (h : e.document = none) (d : Device P) :
    ∃ level, (react e d).device = { d with outputPin := level } := by
  rcases react_cases h d with hr | ⟨level, hr⟩ | rfl
  · exact ⟨d.outputPin, by rw [hr]; rfl⟩
  · exact ⟨level, by rw [hr]⟩
  · exact ⟨d.outputPin, rfl⟩

theorem step_synced (d : Device P) (e : Event) (h : Synced d) : Synced (step d e) := by
  unfold step settle
  by_cases hx : (react e d).exit = .returned
  · rw [if_pos hx]
    cases hd : e.document with
    | some doc => simp [react_document hd, saveAndRestart] at hx
    | none =>
      obtain ⟨level, hl⟩ := react_quiet hd d
      rw [hl]
      exact ⟨h.closed, h.config_eq, h.wifi_eq, h.port_eq⟩
  · rw [if_neg hx]
    exact boot_synced _

theorem run_synced (f : Nvs) (es : List Event) : Synced (run step (boot f : Device P) es) :=
  run_preserves step_synced (boot_synced f) es

/-- After a document the board runs on what `saveConfig` made of the flash. -/
theorem step_document {d : Device P} (h : Synced d) {e : Event} {doc : Json}
    (hd : doc ∈ e.document) : (step d e).globals.config =
      loaded defaults (Write.applyAll (writes doc d.globals)
        ((nvs d.preferences "config").getD Namespace.empty)) := by
  have hboot : step d e = boot (nvs (saveConfig doc d.globals d.preferences)) := by
    simp [step, react_document hd, saveAndRestart, settle]
  rw [hboot, (boot_synced _).config_eq, boot_nvs, saveConfig_nvs h.closed, Option.getD_some]

/-- The string that a document names for a setting, all of its bytes. -/
def namedText (doc : Json) (f : Field) : Option (List UInt8) :=
  (doc.getMember (ascii (key f))).bind Json.stringValue

/-- The port that a document names, if it is an integer of type `int`. -/
def namedPort (doc : Json) : Option ℤ := (doc.getMember (ascii "mqtt_port")).bind Json.intValue

/-- Every setting has the value that the document names, and its old value when the document
names none. -/
structure Updated (doc : Json) (before after : Config) : Prop where
  text : ∀ f, (after (.text f)).bytes = (namedText doc f).getD (before (.text f)).bytes
  port : after .mqttPort = (namedPort doc).getD (before .mqttPort)

/-- Every string that the document names has no NUL and leaves room for a terminator in the
array it is loaded into. -/
def FitsArrays (doc : Json) : Prop :=
  ∀ f, ∀ s ∈ namedText doc f, (0 : UInt8) ∉ s ∧ s.length < size f

instance (doc : Json) : Decidable (FitsArrays doc) :=
  inferInstanceAs (Decidable (∀ f, ∀ s ∈ namedText doc f, (0 : UInt8) ∉ s ∧ s.length < size f))

theorem orCharPtr_key (doc : Json) (f : Field) (v : CString) :
    doc.orCharPtr (key f) v = ((namedText doc f).map CString.ofBytes).getD v := by
  rw [Json.orCharPtr, Json.charPtr_eq_stringValue, namedText]

/-- A string that was saved is loaded if it fits, and replaced by the compiled-in one if it
does not. -/
theorem loaded_text (doc : Json) (g : Globals) (ns : Namespace) (f : Field) :
    loaded defaults (Write.applyAll (writes doc g) ns) (.text f) =
      if (doc.orCharPtr (key f) (g.text f).cstr).length < size f
      then doc.orCharPtr (key f) (g.text f).cstr else defaults (.text f) := by
  simp only [loaded, applyAll_str, Option.filter_some, decide_eq_true_eq]
  split_ifs <;> rfl

theorem loaded_mqttPort (doc : Json) (g : Globals) (ns : Namespace) :
    loaded defaults (Write.applyAll (writes doc g) ns) .mqttPort =
      (namedPort doc).getD g.mqttPort := by
  simp [loaded, applyAll_int, Json.orInt, namedPort]

/-- One string comes back as the document has it exactly when it fits. -/
theorem loaded_text_iff {doc : Json} {f : Field} {s : List UInt8} (h : namedText doc f = some s)
    (g : Globals) (ns : Namespace) :
    (loaded defaults (Write.applyAll (writes doc g) ns) (.text f)).bytes = s ↔
      (0 : UInt8) ∉ s ∧ s.length < size f := by
  have hv : doc.orCharPtr (key f) (g.text f).cstr = .ofBytes s := by
    rw [orCharPtr_key, h]
    rfl
  have hlen : ∀ hnul : (0 : UInt8) ∉ s, (CString.mk s hnul).length = s.length := fun _ => rfl
  rw [loaded_text, hv]
  constructor
  · intro heq
    have hnul : (0 : UInt8) ∉ s := heq ▸ CString.nul_free _
    refine ⟨hnul, ?_⟩
    by_contra hlong
    rw [CString.ofBytes_of_nul_free hnul, hlen, if_neg hlong] at heq
    have hfit := defaults_fit f
    simp only [CString.length, heq] at hfit
    exact hlong hfit
  · rintro ⟨hnul, hshort⟩
    rw [CString.ofBytes_of_nul_free hnul, hlen, if_pos hshort]

/-- What is in RAM fits and comes back. -/
theorem loaded_text_unnamed {doc : Json} {f : Field} (h : namedText doc f = none) (g : Globals)
    (ns : Namespace) :
    loaded defaults (Write.applyAll (writes doc g) ns) (.text f) = (g.text f).cstr := by
  have hv : doc.orCharPtr (key f) (g.text f).cstr = (g.text f).cstr := by
    rw [orCharPtr_key, h]
    rfl
  rw [loaded_text, hv, if_pos (g.text f).cstr_length_lt]

theorem updated_iff (doc : Json) (g : Globals) (ns : Namespace) :
    Updated doc g.config (loaded defaults (Write.applyAll (writes doc g) ns)) ↔
      FitsArrays doc := by
  constructor
  · intro h f s hs
    have htext := h.text f
    rw [Option.mem_def.mp hs, Option.getD_some] at htext
    exact (loaded_text_iff hs g ns).mp htext
  · intro h
    refine ⟨fun f => ?_, loaded_mqttPort doc g ns⟩
    cases hs : namedText doc f with
    | none => exact congrArg CString.bytes (loaded_text_unnamed hs g ns)
    | some s => exact (loaded_text_iff hs g ns).mpr (h f s hs)

/-- In every run, a configuration document has its effect across the restart exactly when
its strings fit the arrays they are loaded into. -/
theorem run_updated_iff (f : Nvs) (es : List Event) (e : Event) (doc : Json)
    (h : doc ∈ e.document) :
    Updated doc (run step (boot f : Device P) es).globals.config
        (run step (boot f : Device P) (es ++ [e])).globals.config ↔ FitsArrays doc := by
  have hs := run_synced (P := P) f es
  rw [run_append, run_cons, run_nil, step_document hs h]
  exact updated_iff doc _ _

/-- A new password over Bluetooth. -/
def newPassword : Event := .bluetooth (ascii "\x7b\"password\":\"correct horse\"\x7d\n")

/-- An SSID of 32 characters over MQTT. -/
def longSsid : Event :=
  .mqtt (.lit "esp32/config") (ascii "\x7b\"ssid\":\"0123456789abcdef0123456789abcdef\"\x7d")

/-- The document that an event brings. -/
def Event.jsonDoc (e : Event) : Json := e.document.getD .null

theorem Event.jsonDoc_mem {e : Event} (h : e.document.isSome) : e.jsonDoc ∈ e.document := by
  obtain ⟨doc, hdoc⟩ := Option.isSome_iff_exists.mp h
  simp [jsonDoc, hdoc]

theorem run_updated_iff_newPassword :
    Updated newPassword.jsonDoc
        (run step (boot fun _ => none : Device FlashObject) []).globals.config
        (run step (boot fun _ => none : Device FlashObject) ([] ++ [newPassword])).globals.config ↔
      FitsArrays newPassword.jsonDoc :=
  run_updated_iff (fun _ => none) [] newPassword _ (Event.jsonDoc_mem (by decide +kernel))

/-- The long SSID is stored, and the next boot falls back to the compiled-in one. -/
theorem long_ssid_replaced :
    ¬ ∀ (f : Nvs) (es : List Event) (e : Event), ∀ doc ∈ e.document,
      Updated doc (run step (boot f : Device FlashObject) es).globals.config
        (run step (boot f : Device FlashObject) (es ++ [e])).globals.config := by
  intro h
  have hup := h (fun _ => none) [] longSsid _ (Event.jsonDoc_mem (by decide +kernel))
  have htext := hup.text .ssid
  exact absurd htext (by decide +kernel)

end Esp32Automation.ConfigFromBlth
