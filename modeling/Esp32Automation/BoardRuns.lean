import Esp32Automation.ApWifiRuns
import Esp32Automation.Board
import Esp32Automation.CommandVariants

/-!
# Boards with the web-server sketches

What a run of the whole board means for two of the sketches: every run of it is a run of the
sketch, the login that the broker reads is the one in flash, and the status documents that it
reads are those of the commands that have been obeyed. A message that arrives while nothing waits
takes effect with the next `loop()`.
-/
namespace Esp32Automation
open Overlay PubSubClient Mqtt MqttClient Preferences Run

namespace ApWifi
variable {P : Type} [Preferences P]

def Event.message : Event → Option (CString × List UInt8)
  | .mqtt topic payload => some (topic, payload)
  | _ => none

/-- A handler that returns has not touched the configuration. -/
theorem react_returned {e : Event} {d : Device P} (h : (react e d).exit = .returned) :
    (react e d).device.globals = d.globals := by
  obtain ⟨hc, -⟩ | ⟨rfl, -⟩ | ⟨doc, hd, -⟩ := change_cases e
  · obtain ⟨level, hl⟩ := react_rejected hc d
    rw [hl]
  · simp [react, handleReset] at h
  · rw [react_document hd, updateAndRestart] at h
    cases hu : handleConfigurationUpdate doc d with
    | none => simp [hu] at h
    | some d' => simp [hu] at h

/-- The sketch, whose client ID is fixed. -/
def sketch : Sketch (Device P) Event where
  react e d := (react e d).effect
  mqtt := .mqtt
  message := Event.message
  reboot d := boot (nvs d.preferences)
  login _ d := .ofLogin (.lit "ESP32_Client") (reconnectMQTT d).username (reconnectMQTT d).password
  topics := [.lit "esp32/command", .lit "esp32/config"]
  message_mqtt _ _ := rfl
  login_steady _ e d h := by
    have hsame : (react e d).effect.device.globals = d.globals := react_returned h
    rw [reconnectMQTT, reconnectMQTT, hsame]
  topics_short := by decide

/-- RAM and flash agree on a board. -/
theorem board_synced {f : Nvs} {buffer : Memory} {es : List (sketch (P := P)).Event}
    {b : Board (Device P)} {s : Session} (h : sketch.Holds (.start (boot f) buffer) es b s) :
    ∃ ns, Synced b.device ns := by
  obtain ⟨ns, hsynced⟩ := run_synced (P := P) f (sketch.handled (some (.start (boot f) buffer)) es)
  have hdevice : b.device = run step (boot f) _ := h.device_eq
  exact ⟨ns, hdevice ▸ hsynced⟩

/-- Every connection that is open has begun with the user name and the password that are in flash,
or the defaults for what is not, and with both subscriptions. -/
theorem run_login (f : Nvs) (buffer : Memory) (es : List (sketch (P := P)).Event) :
    ∃ b, run sketch.step (some (.start (boot f) buffer)) es = some b ∧
      let c := effective defaults ((nvs b.device.preferences "config").getD Namespace.empty)
      (b.link.isOpen → ∃ rest, packet.decodeAll b.link.sent =
        .connect ((ConnectArgs.ofLogin (.lit "ESP32_Client") (c (.text .mqttUsername))
          (c (.text .mqttPassword))).toConnect 15) ::
        .subscribe 2 (.cut (.lit "esp32/command")) 0 ::
        .subscribe 3 (.cut (.lit "esp32/config")) 0 :: rest ∧
        (∀ p ∈ rest, IsClient p) ∧ rest.filterMap requestId = []) := by
  obtain ⟨b, s, h⟩ := sketch.run_holds (boot f : Device P) buffer es
  refine ⟨b, h.run_eq, fun hopen => ?_⟩
  obtain ⟨ns, hsynced⟩ := board_synced h
  obtain ⟨fs, e, gs, b₁, id, rest, -, -, -, hspoken, hread⟩ := h.read hopen
  have hlogin : sketch.login id b.device = ConnectArgs.ofLogin (.lit "ESP32_Client")
      (effective defaults ns (.text .mqttUsername))
      (effective defaults ns (.text .mqttPassword)) := by
    rw [← hsynced.config_eq]
    rfl
  rw [hsynced.writable.nvs_eq, Option.getD_some, hread, hlogin]
  exact ⟨rest, rfl, hspoken.isClient, hspoken.requests_eq⟩

/-- A login with short strings fits the buffer. -/
theorem login_short {id : CString} (hid : id.length ≤ 171) (user pass : Buffer 32)
    (keepAlive : UInt16) :
    ((ConnectArgs.ofLogin id user.cstr pass.cstr).toConnect keepAlive).body.length ≤ 251 := by
  have huser := user.cstr_length_lt
  have hpass := pass.cstr_length_lt
  have hword : (word.encode keepAlive).length = 2 := rfl
  simp only [ConnectArgs.toConnect_body, ConnectArgs.ofLogin, Option.elim_some, Option.elim_none,
    List.length_append, List.length_cons, List.length_nil, text_length, hword]
  rw [Text.cut_eq (s := id) (by omega), Text.cut_eq (s := user.cstr) (by omega),
    Text.cut_eq (s := pass.cstr) (by omega)]
  dsimp only
  omega

/-- A well-typed document on `esp32/config` is in use after the restart. -/
theorem step_configured {d : Device P} {ns : Namespace} (h : Synced d ns) {topic : CString}
    {payload : List UInt8} (htopic : topic = .lit "esp32/config") {doc : Json}
    (hdoc : deserializeJson payload = .ok doc) (htyped : ∀ s ∈ Setting.all, HoldsString doc s) :
    (react (.mqtt topic payload) d).exit ≠ .returned ∧
      (step d (.mqtt topic payload)).globals.config = overlay (update doc) d.globals.config := by
  have hmember : (Event.mqtt topic payload).document = some doc := by
    rw [Event.document, if_pos htopic, hdoc]
    rfl
  have hwell : (Event.mqtt topic payload).WellTyped := by
    intro doc' hdoc'
    obtain rfl := Option.some.inj (hmember.symm.trans hdoc')
    exact htyped
  have hchange : (Event.mqtt topic payload).change = some (.replace (update doc)) := by
    show (Event.mqtt topic payload).document.map _ = _
    rw [hmember]
    rfl
  constructor
  · obtain ⟨d', hd'⟩ := Option.isSome_iff_exists.mp
      ((handleConfigurationUpdate_isSome doc d).mpr htyped)
    rw [react_document hmember, updateAndRestart, hd']
    simp
  · rw [step_config h hwell, hchange]
    rfl

/-- A handler that does not return leaves a board that has booted. -/
theorem settle_eq_start {e : Event} {d : Device P} (h : (react e d).exit ≠ .returned) (l : Link) :
    sketch.settle (sketch.react e d) l = .start (step d e) l.client.buffer := by
  have hstep : step d e = boot (nvs (react e d).device.preferences) := if_neg h
  rw [hstep]
  exact if_neg h

/-- Events that ask for no change leave the configuration. -/
theorem run_unchanged {d : Device P} {ns : Namespace} (h : Synced d ns) {es : List Event}
    (hes : ∀ e ∈ es, e.change = none) : Synced (run step d es) ns := by
  have hstep : ∀ (d : Device P) e, Synced d ns → e.change = none → Synced (step d e) ns :=
    fun d e hd hc => step_rejected hd hc
  exact run_invariant hstep h ((along_event_iff d es).mpr hes)

/-- A message that names one setting. -/
def newUser : Publish :=
  ⟨false, false, none, .lit "esp32/config", ascii "\x7b\"mqtt_username\":\"bob\"\x7d", by decide,
    by decide⟩

/-- A new board has connected, and nothing is due. -/
def Ready (b : Board (Device FlashObject)) : Prop :=
  b.link.isOpen ∧ b.link.input = [] ∧
    ¬ (Link.Client.isDue b.link.client 2 ∧ b.link.client.pingOutstanding) ∧
    b.device.globals.config (.text .mqttPassword) = .lit "password"

instance : DecidablePred Ready := fun _ => inferInstanceAs (Decidable (_ ∧ _ ∧ ¬ (_ ∧ _) ∧ _))

/-- The broker refuses once, and the power fails. -/
def refusals : List (sketch (P := FlashObject)).Event :=
  [.reconnectMQTT (.lit "") true [.connack false 3] 3 4, .own .powerCycle rfl 5]

end ApWifi

namespace Hotspot
variable {P : Type} [Preferences P]

def Event.message : Event → Option (CString × List UInt8)
  | .mqtt topic payload => some (topic, payload)
  | _ => none

/-- A handler that returns has changed the pin at most. -/
theorem react_returned {e : Event} {d : Device P} (h : (react e d).exit = .returned) :
    ∃ level, (react e d).device = { d with pin32 := level } := by
  obtain hl | rfl | ⟨doc, hr⟩ := react_cases e d
  · exact hl
  · simp [react, handleReset] at h
  · rw [hr, updateAndRestart] at h
    cases hu : handleConfigurationUpdate doc d with
    | none => simp [hu] at h
    | some d' => simp [hu] at h

/-- The sketch, with a client ID of its own for every attempt. -/
def sketch : Sketch (Device P) Event where
  react e d := (react e d).effect
  mqtt := .mqtt
  message := Event.message
  reboot d := boot (nvs d.preferences)
  login id d := .ofLogin id (reconnectMQTT d).username (reconnectMQTT d).password
  topics := [.lit "esp32/command", .lit "esp32/config"]
  message_mqtt _ _ := rfl
  login_steady _ e d h := by
    obtain ⟨level, hl⟩ := react_returned h
    have hsame : (react e d).effect.device = { d with pin32 := level } := hl
    rw [reconnectMQTT, reconnectMQTT, hsame]
  topics_short := by decide

/-- The command that an event brings, over HTTP or over MQTT. -/
def Event.command : Event → Option Command
  | .postAction args => Command.ofPayload (args.arg "plain")
  | .mqtt topic payload =>
    if topic = .lit "esp32/command" then Command.ofPayload payload else none
  | _ => none

/-- What a reader of `esp32/status` makes of messages. -/
def readStatuses (ms : List (CString × List UInt8)) : List (CString × Option Status) :=
  ms.map fun m => (m.1, Status.ofText m.2)

/-- The status documents that a switch answers a command with. -/
def statusesOf (c : Option Command) : List (CString × Option Status) :=
  (Command.switch false c).2.map fun s => (.lit "esp32/status", some s)

/-- What it makes of one document. -/
def readDocument (doc : Json) : List (CString × Option Status) :=
  readStatuses
    (([⟨"esp32/status", doc⟩] : List Publication).filterMap publishCall |>.filterMap short)

omit [Preferences P] in
/-- Whoever calls it, a command moves the pin and publishes as the switch does. -/
theorem commandReaction_answers (doc : Json) (reply : Option HttpReply) (d : Device P) :
    readStatuses ((commandReaction doc reply d).effect.calls.filterMap short) =
        statusesOf (some (.ofDocument doc)) ∧
      (commandReaction doc reply d).device.pin32 =
        ((Command.ofDocument doc).level).getD d.pin32 := by
  have hread : readStatuses ((commandReaction doc reply d).effect.calls.filterMap short) =
      readDocument (handleActionCommand (doc.charPtr "action") d).2 := rfl
  have hpin : (commandReaction doc reply d).device.pin32 =
      (handleActionCommand (doc.charPtr "action") d).1.pin32 := rfl
  rw [hread, hpin, Command.ofDocument]
  cases doc.charPtr "action" with
  | none =>
    simp only [handleActionCommand, Command.ofAction]
    exact ⟨by decide +kernel, rfl⟩
  | some action =>
    simp only [handleActionCommand, Command.ofAction]
    split_ifs
    all_goals
      dsimp only
      exact ⟨by decide +kernel, rfl⟩

/-- An event publishes what the switch answers its command with, and if it returns it has moved
the pin as its command says. -/
theorem react_answers (e : Event) (d : Device P) :
    readStatuses ((react e d).effect.calls.filterMap short) = statusesOf e.command ∧
      ((react e d).exit = .returned →
        (react e d).device.pin32 = (e.command.bind Command.level).getD d.pin32) := by
  cases e with
  | getRoot => exact ⟨rfl, fun _ => rfl⟩
  | powerCycle => exact ⟨rfl, fun _ => rfl⟩
  | resetPin low => cases low <;> exact ⟨rfl, fun _ => rfl⟩
  | postAction args =>
    simp only [react, postAction, Event.command]
    cases hp : deserializeJson (args.arg "plain") with
    | error err =>
      rw [CommandVariants.ofPayload_error hp]
      exact ⟨rfl, fun _ => rfl⟩
    | ok doc =>
      rw [CommandVariants.ofPayload_ok hp]
      exact (commandReaction_answers doc _ d).imp_right fun hpin _ => hpin
  | mqtt topic payload =>
    simp only [react, mqttCallback, Event.command]
    cases hp : deserializeJson payload with
    | error err =>
      rw [CommandVariants.ofPayload_error hp, ite_self]
      exact ⟨rfl, fun _ => rfl⟩
    | ok doc =>
      dsimp only
      split_ifs with hcommand hconfig
      · rw [CommandVariants.ofPayload_ok hp]
        exact (commandReaction_answers doc _ d).imp_right fun hpin _ => hpin
      · rw [updateAndRestart]
        cases handleConfigurationUpdate doc d with
        | none => exact ⟨rfl, fun hexit => by cases hexit⟩
        | some d' => exact ⟨rfl, fun hexit => by cases hexit⟩
      · exact ⟨rfl, fun _ => rfl⟩

/-- As long as the board does not boot. -/
theorem said_eq {d : Device P} {es : List Event}
    (h : Along step (fun d e => (react e d).exit = .returned) d es) :
    readStatuses (sketch.said d es) = es.flatMap (fun e => statusesOf e.command) ∧
      (run step d es).pin32 =
        ((es.filterMap fun e => e.command.bind Command.level).getLast?).getD d.pin32 := by
  rw [← run_latch]
  induction es generalizing d with
  | nil => exact ⟨rfl, rfl⟩
  | cons e es ih =>
    obtain ⟨hsaid, hpin⟩ := react_answers e d
    obtain ⟨hrest, hlast⟩ := ih h.2
    have hstep : step d e = (react e d).device := if_pos h.1
    constructor
    · rw [List.flatMap_cons, ← hsaid, ← hrest]
      exact List.map_append
    · rw [run_cons, run_cons, hlast, hstep, hpin h.1]

/-- On every open connection the broker reads, behind the two subscriptions, one status document
for each command that the sketch has obeyed since it was opened, over HTTP as over MQTT, in their
order and as the switch answers it, and no other message. The pin is at the level of the last of
these commands that sets one. -/
theorem run_statuses (f : Nvs) (buffer : Memory) (es : List (sketch (P := P)).Event) :
    let b₀ := some (.start (boot f) buffer)
    ∃ b, run sketch.step b₀ es = some b ∧
      b.device = run step (boot f) (sketch.handled b₀ es) ∧
      (sketch.handled b₀ es).filter (fun e => e.message.isNone) =
        es.filterMap Sketch.Event.own? ∧
      ((sketch.handled b₀ es).filterMap Event.message).Sublist
        ((es.flatMap Sketch.Event.arrived).filterMap content) ∧
      (b.link.isOpen → ∃ fs e gs b₁ id rest, es = fs ++ e :: gs ∧
        sketch.OpenSince b₀ fs e gs b₁ ∧ e.clientId? = some id ∧
        packet.decodeAll b.link.sent = .connect ((sketch.login id b.device).toConnect 15) ::
          .subscribe 2 (.cut (.lit "esp32/command")) 0 ::
          .subscribe 3 (.cut (.lit "esp32/config")) 0 :: rest ∧
        readStatuses (rest.filterMap content) =
          (sketch.handled (some b₁) gs).flatMap (fun e => statusesOf e.command) ∧
        b.device.pin32 = (((sketch.handled (some b₁) gs).filterMap
          fun e => e.command.bind Command.level).getLast?).getD b₁.device.pin32) := by
  obtain ⟨b, s, h⟩ := sketch.run_holds (boot f : Device P) buffer es
  refine ⟨b, h.run_eq, h.device_eq, h.own_eq, (List.sublist_append_left _ _).trans h.messages,
    fun hopen => ?_⟩
  obtain ⟨fs, e, gs, b₁, id, rest, hsplit, hsince, hid, hspoken, hread⟩ := h.read hopen
  obtain ⟨hsaid, hpin⟩ := said_eq hspoken.steady
  refine ⟨fs, e, gs, b₁, id, rest, hsplit, hsince, hid, hread, ?_, ?_⟩
  · rw [hspoken.said_eq]
    exact hsaid
  · rw [hspoken.device_eq]
    exact hpin

/-- A message on `esp32/command` never restarts the board. -/
theorem react_command_exit {topic : CString} (h : topic = .lit "esp32/command")
    (payload : List UInt8) (d : Device P) : (react (.mqtt topic payload) d).exit = .returned := by
  rw [react, mqttCallback]
  cases deserializeJson payload with
  | error err => rfl
  | ok doc =>
    dsimp only
    rw [if_pos h]
    rfl

/-- A command that arrives on an open connection with nothing waiting is obeyed in the next
`loop()`, which sends what the switch answers it with and the acknowledgment that it asks for. -/
theorem run_obeyed {f : Nvs} {buffer : Memory} {es : List (sketch (P := P)).Event}
    {b : Board (Device P)} (hrun : run sketch.step (some (.start (boot f) buffer)) es = some b)
    (hopen : b.link.isOpen) (hidle : b.link.input = []) {m : Publish} (hfits : Fits (.publish m))
    (htopic : m.topic = .lit "esp32/command") {now : UInt32}
    (hdue : ¬ (Link.Client.isDue b.link.client now ∧ b.link.client.pingOutstanding)) :
    let c := Command.ofPayload m.payload
    ∃ b' new, run sketch.step (some b) [.arrive (.publish m), .loop now] = some b' ∧
      b'.link.isOpen ∧ b'.device.pin32 = (c.bind Command.level).getD b.device.pin32 ∧
      packet.decodeAll b'.link.sent = packet.decodeAll b.link.sent ++ new ∧
      readStatuses (new.filterMap content) = statusesOf c ∧
      new.filterMap acknowledgedId = m.id.toList ∧ new.filterMap requestId = [] := by
  intro c
  obtain ⟨b₀, s, h⟩ := sketch.run_holds (boot f : Device P) buffer es
  obtain rfl := Option.some.inj (hrun.symm.trans h.run_eq)
  obtain ⟨l, new, hcalled, hopen', hsent, hnew⟩ :=
    sketch.run_called h.follows hopen hidle hfits hdue
  have hcommand : (Event.mqtt m.topic m.payload).command = c := if_pos htopic
  have hexit := react_command_exit htopic m.payload b.device
  obtain ⟨hsaid, hpin⟩ := react_answers (.mqtt m.topic m.payload) b.device
  rw [hcommand] at hsaid hpin
  refine ⟨⟨_, l⟩, new, hcalled.trans (congrArg some (if_pos hexit)), hopen', hpin hexit, hsent, ?_,
    hnew.acks_eq, hnew.requests_eq⟩
  rw [hnew.said_eq]
  exact hsaid

/-- `ON`, to be acknowledged. -/
def switchOn : Publish :=
  ⟨false, false, some 7, .lit "esp32/command", ascii "\x7b\"action\":\"ON\"\x7d", by decide,
    by decide⟩

theorem run_obeyed_switchOn : ∃ (b b' : Board (Device FlashObject)) (new : List ControlPacket),
    run sketch.step (some (.start (boot fun _ => none) (.zero bufferSize)))
        [.reconnectMQTT (.lit "ESP32Client-1") true [.connack false 0] 0 1] = some b ∧
      run sketch.step (some b) [.arrive (.publish switchOn), .loop 2] = some b' ∧
      b'.device.pin32 = true ∧
      packet.decodeAll b'.link.sent = packet.decodeAll b.link.sent ++ new ∧
      readStatuses (new.filterMap content) = [(.lit "esp32/status", some (.success true))] ∧
      new.filterMap acknowledgedId = [7] := by
  have hready : ∃ b ∈ run (sketch (P := FlashObject)).step
      (some (.start (boot fun _ => none) (.zero bufferSize)))
        [.reconnectMQTT (.lit "ESP32Client-1") true [.connack false 0] 0 1],
      b.link.isOpen ∧ b.link.input = [] ∧
        ¬ (Link.Client.isDue b.link.client 2 ∧ b.link.client.pingOutstanding) := by
    decide +kernel
  obtain ⟨b, hrun, hopen, hidle, hdue⟩ := hready
  have hcommand : Command.ofPayload switchOn.payload = some .on := by decide +kernel
  obtain ⟨b', new, hrun', -, hpin, hsent, hsaid, hack, -⟩ :=
    run_obeyed hrun hopen hidle (m := switchOn) (by decide) rfl hdue
  rw [hcommand] at hpin hsaid
  exact ⟨b, b', new, hrun, hrun', hpin, hsent, hsaid, hack⟩

end Hotspot
end Esp32Automation
