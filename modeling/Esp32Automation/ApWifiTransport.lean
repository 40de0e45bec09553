import Esp32Automation.ApWifiRuns
import Esp32Automation.PubSubClient

/-!
# The two remote update paths of ap_wifi_plus_mqtt_connection_after_config

A configuration arrives as the body of `POST /update_config` or as a message on
`esp32/config`. Both end in the same handler, but the message has to pass the receive
buffer of PubSubClient first.
-/
namespace Esp32Automation.ApWifi
open Overlay Preferences Run

variable {P : Type} [Preferences P]

/-- `mqttClient.loop()` when these bytes have arrived. -/
def receive (buffer : CharArray PubSubClient.bufferSize) (input : List UInt8) (d : Device P) :
    Reaction (Device P) :=
  match PubSubClient.loop buffer input with
  | .callback topic payload => mqttCallback topic payload d
  | .nothing | .disconnected => .idle d

/-- A message published on a topic and passed on by the broker. -/
def deliver (buffer : CharArray PubSubClient.bufferSize) (retain : Bool) (topic : CString)
    (payload : List UInt8) (d : Device P) : Reaction (Device P) :=
  match PubSubClient.publishPacket retain topic payload with
  | some packet => receive buffer packet d
  | none => .idle d

/-- A message on `esp32/config` reaches the callback exactly when it has at most 239
bytes. -/
theorem deliver_config (buffer : CharArray PubSubClient.bufferSize) (retain : Bool)
    (payload : List UInt8) (d : Device P) :
    deliver buffer retain (.lit "esp32/config") payload d =
      if payload.length ≤ 239 then mqttCallback (.lit "esp32/config") payload d else .idle d := by
  have htopic : (CString.lit "esp32/config").length = 12 := by decide
  cases hp : PubSubClient.publishPacket retain (.lit "esp32/config") payload with
  | none =>
    have hlong : ¬ payload.length ≤ 239 := by
      intro hle
      simp only [PubSubClient.publishPacket, htopic] at hp
      split_ifs at hp with hlen
      omega
    simp only [deliver, hp, if_neg hlong]
  | some packet =>
    have hfits := PubSubClient.publishPacket_fits_iff hp
    have hloop := PubSubClient.loop_publishPacket hp (by omega) buffer []
    rw [List.append_nil] at hloop
    simp only [deliver, hp, receive, hloop]
    by_cases hle : payload.length ≤ 239
    · rw [if_pos (hfits.mpr (by omega)), if_pos hle]
    · rw [if_neg (fun hf => hle (by have hsum := hfits.mp hf; omega)), if_neg hle]

/-- A string of at most 31 bytes without NUL. -/
def fitsField : Json → Bool
  | .string s => s.length ≤ 31 && !s.contains 0
  | _ => false

/-- The strings of the configuration fit their fields and the port is one of TCP. -/
def FitsConfiguration (doc : Json) : Prop :=
  (∀ f : Field, ∀ v ∈ doc.getMember (ascii f.key), fitsField v) ∧
    (doc.containsKey "mqtt_port" → 1 ≤ doc.int "mqtt_port" ∧ doc.int "mqtt_port" ≤ 65535)

instance (doc : Json) : Decidable (FitsConfiguration doc) :=
  inferInstanceAs (Decidable ((∀ f : Field, ∀ v ∈ doc.getMember (ascii f.key), fitsField v) ∧
    (doc.containsKey "mqtt_port" → 1 ≤ doc.int "mqtt_port" ∧ doc.int "mqtt_port" ≤ 65535)))

/-- The text is a JSON text of such a configuration. -/
def DescribesConfiguration (text : List UInt8) : Prop :=
  ∃ doc ∈ (deserializeJson text).toOption, FitsConfiguration doc

instance (text : List UInt8) : Decidable (DescribesConfiguration text) :=
  inferInstanceAs (Decidable (∃ doc ∈ (deserializeJson text).toOption, FitsConfiguration doc))

/-- What fits can be copied. -/
theorem FitsConfiguration.holdsString {doc : Json} (h : FitsConfiguration doc) (s : Setting) :
    HoldsString doc s := by
  cases s with
  | text f =>
    intro v hv
    have hf := h.1 f v hv
    cases v <;> simp_all [fitsField, Json.isString]
  | mqttPort => trivial

/-- Both reactions leave the same configuration in RAM and the same flash contents, and
restart the board. -/
structure SameEffect (r r' : Reaction (Device P)) : Prop where
  ram : r.device.globals.config = r'.device.globals.config
  flash : nvs r.device.preferences = nvs r'.device.preferences
  restarted : r.exit = .restarted
  restarted' : r'.exit = .restarted

/-- Publishing the text of a configuration has the same effect as posting it exactly when
the text has at most 239 bytes. -/
theorem deliver_sameEffect_iff (f₀ : Nvs) (es : List Event) (retain : Bool)
    (buffer : CharArray PubSubClient.bufferSize) (text : List UInt8) (args : Args)
    (hargs : args "plain" = some text) (h : DescribesConfiguration text) :
    SameEffect (deliver buffer retain (.lit "esp32/config") text (run step (boot f₀ : Device P) es))
      (react (.postUpdateConfig args) (run step (boot f₀ : Device P) es)) ↔ text.length ≤ 239 := by
  generalize run step (boot f₀ : Device P) es = d
  obtain ⟨doc, hdoc, hfits⟩ := h
  have hpost : doc ∈ (Event.postUpdateConfig args).document := by
    simpa [Event.document, Args.hasArg, Args.arg, hargs] using hdoc
  have hmqtt : doc ∈ (Event.configMessage text).document := by
    simpa [Event.document, Event.configMessage] using hdoc
  have hsome := (handleConfigurationUpdate_isSome doc d).mpr fun s _ => hfits.holdsString s
  obtain ⟨d', hu⟩ := Option.isSome_iff_exists.mp hsome
  have hreact : ∀ reply, updateAndRestart doc reply d = ⟨d', .restarted, reply, []⟩ := by
    intro reply
    rw [updateAndRestart, hu]
  have hcallback : mqttCallback (.lit "esp32/config") text d = ⟨d', .restarted, none, []⟩ := by
    have hm := react_document hmqtt d
    rw [hreact] at hm
    exact hm
  rw [deliver_config, react_document hpost, hreact]
  by_cases hle : text.length ≤ 239
  · rw [if_pos hle, hcallback]
    exact ⟨fun _ => hle, fun _ => ⟨rfl, rfl, rfl, rfl⟩⟩
  · rw [if_neg hle]
    constructor
    · intro hsame
      exact absurd hsame.restarted (by simp [Reaction.idle])
    · intro hle'
      exact absurd hle' hle

/-- A POST with this body. -/
def bodyArgs (text : List UInt8) : Args := fun name => if name = "plain" then some text else none

theorem deliver_sameEffect_iff_short :
    let text := ascii "\x7b\"ssid\":\"home\",\"password\":\"12345678\",\"mqtt_port\":1883\x7d"
    SameEffect (deliver (.zero _) false (.lit "esp32/config") text
        (run step (boot fun _ => none : Device FlashObject) []))
      (react (.postUpdateConfig (bodyArgs text))
        (run step (boot fun _ => none : Device FlashObject) [])) ↔ text.length ≤ 239 :=
  deliver_sameEffect_iff _ _ _ _ _ _ rfl (by decide +kernel)

/-- Six fields of 31 bytes, five digits of port and no white space: 253 bytes. -/
def fullText : List UInt8 :=
  ascii "\x7b\"ssid\":\"0123456789012345678901234567890\"," ++
  ascii "\"password\":\"0123456789012345678901234567890\"," ++
  ascii "\"mqtt_server\":\"0123456789012345678901234567890\"," ++
  ascii "\"mqtt_username\":\"0123456789012345678901234567890\"," ++
  ascii "\"mqtt_password\":\"0123456789012345678901234567890\"," ++
  ascii "\"mqtt_port\":65535\x7d"

/-- A configuration that fills its fields is accepted by the POST and lost on MQTT. -/
theorem full_text_lost :
    ¬ ∀ (f₀ : Nvs) (es : List Event) (retain : Bool) (buffer : CharArray PubSubClient.bufferSize)
      (text : List UInt8) (args : Args), args "plain" = some text → DescribesConfiguration text →
      SameEffect (deliver buffer retain (.lit "esp32/config") text
          (run step (boot f₀ : Device FlashObject) es))
        (react (.postUpdateConfig args) (run step (boot f₀ : Device FlashObject) es)) := by
  intro h
  have hsame := h (fun _ => none) [] false (.zero _) fullText (bodyArgs fullText) rfl
    (by decide +kernel)
  have hlong : ¬ fullText.length ≤ 239 := by decide +kernel
  have hexit := hsame.restarted
  rw [deliver_config, if_neg hlong] at hexit
  exact absurd hexit (by simp [Reaction.idle])

end Esp32Automation.ApWifi
