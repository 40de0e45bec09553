import Esp32Automation.Board
import Esp32Automation.CommandVariants

/-!
# mqtt_remote_on_off over MQTT

The sketch on top of its client: the callback is called from `loop()`, and what it publishes goes
through the client as JSON text. A controller is another client, which publishes on
`esp32/command`. Between the two is a broker, which passes messages on in their order.
-/
namespace Esp32Automation.RemoteOnOff
open PubSubClient Mqtt MqttClient CommandVariants Run

/-- The calls of `client.publish` in `mqttCallback`. The pin does not matter for them. -/
def replies (topic : CString) (payload : List UInt8) : List MqttClient.Message :=
  (mqttCallback topic payload boot).published.filterMap publishCall

theorem replies_eq (topic : CString) (payload : List UInt8) (d : Device) :
    (mqttCallback topic payload d).published.filterMap publishCall = replies topic payload := by
  rw [replies, mqttCallback, mqttCallback]
  cases deserializeJson (payload ++ [0]) with
  | error err => rfl
  | ok doc =>
    dsimp only
    cases doc.charPtr "action" with
    | none => rfl
    | some action =>
      dsimp only
      split_ifs <;> rfl

/-- The board behind these calls of its callback. -/
def called (d : Device) (delivered : List (CString × List UInt8)) : Device :=
  run (fun d m => (mqttCallback m.1 m.2 d).device) d delivered

/-- What a controller reads for a command. -/
theorem answers_replies (topic : CString) (payload : List UInt8) :
    (answers replies (topic, payload)).map (fun m => (m.1, Status.ofText m.2)) =
      (Command.switch false (Command.ofPayload payload)).2.map
        fun s => (CString.lit "esp32/status", some s) := by
  have hcopy : deserializeJson (payload ++ [0]) = deserializeJson payload := by
    rw [deserializeJson, deserializeJson, CString.ofBytes_append_nul]
  simp only [answers, replies, mqttCallback, hcopy]
  cases hp : deserializeJson payload with
  | error err => rw [ofPayload_error hp]; rfl
  | ok doc =>
    rw [ofPayload_ok hp]
    dsimp only
    cases doc.charPtr "action" with
    | none => decide +kernel
    | some action =>
      simp only [Command.ofAction]
      split_ifs <;> decide +kernel

/-- The level that a command sets. -/
def levelOf (m : CString × List UInt8) : Option Bool :=
  (Command.ofPayload m.2).bind Command.level

theorem pin32_called (d : Device) (delivered : List (CString × List UInt8)) :
    (called d delivered).pin32 = ((delivered.filterMap levelOf).getLast?).getD d.pin32 := by
  have hpin : (called d delivered).pin32 =
      run (fun pin m => (levelOf m).getD pin) d.pin32 delivered := by
    rw [called]
    induction delivered generalizing d with
    | nil => rfl
    | cons m ms ih =>
      rw [run_cons, run_cons, ih]
      have hone := congrArg Prod.fst (remoteOnOff_switch m.2 d)
      rw [Command.switch_level] at hone
      exact congrArg (run _ · ms) hone
  rw [hpin]
  exact run_latch levelOf d.pin32 delivered

/-- A board on `esp32/command`. -/
def wanted (m : CString × List UInt8) : Bool := m.1 = .lit "esp32/command"

/-- The whole way of a command: a controller publishes any messages, the broker passes those on
`esp32/command` on in its order, and the board has read what has arrived. Then the pin is at the
level of the last command that sets one, and what the board has published reads as one status for
each command, in their order. -/
theorem run_remoteControl {controls : CString → List UInt8 → List MqttClient.Message}
    {buffer buffer' : Memory} {fs fs' es : List Event} {l₀ l₁ l l' : Link}
    {ms : List (MqttClient.Message × UInt32)} (d : Device)
    (hreach₀ : run (Link.step controls) (some (.initial buffer)) fs = some l₀)
    (hopen₀ : l₀.isOpen)
    (hpublish : run (Link.step controls) (some l₀) (publishing ms) = some l₁)
    (hreach : run (Link.step replies) (some (.initial buffer')) fs' = some l)
    (hrun : run (Link.step replies) (some l) es = some l')
    (hopen : Always (Link.step replies) (fun l => l.any Link.isOpen) (some l) es)
    (hsketch : ∀ e ∈ es, ∀ m now, e ≠ .publish m now)
    (hbroker : (es.flatMap Event.arrived).filterMap content =
      ((packet.decodeAll (l₁.sent.drop l₀.sent.length)).filterMap content).filter wanted)
    (hbefore : l.input = []) (hafter : l'.input = []) :
    let commands := (ms.filterMap fun m => short m.1).filter wanted
    (called d (l'.delivered.drop l.delivered.length)).pin32 =
        ((commands.filterMap levelOf).getLast?).getD d.pin32 ∧
      ((packet.decodeAll (l'.sent.drop l.sent.length)).filterMap content).map
          (fun m => (m.1, Status.ofText m.2)) =
        commands.flatMap fun m => (Command.switch false (Command.ofPayload m.2)).2.map
          fun s => (CString.lit "esp32/status", some s) := by
  have h₀ := follows_of_run controls (initial_follows buffer) hreach₀
  have h₁ := follows_of_run controls h₀ hpublish
  have hl := follows_of_run replies (initial_follows buffer') hreach
  have hl' := follows_of_run replies hl hrun
  have hc := always_connected replies hl hopen
  obtain ⟨new, hhandles, -, -⟩ := Session.run_handles replies hc
  have hread := run_passed h₀ hopen₀ h₁ hl hl' hc hbroker hbefore hafter
  intro commands
  constructor
  · rw [hl'.delivered_eq, hhandles.delivered_eq, ← hl.delivered_eq, List.drop_left, hread,
      pin32_called]
  · have hsent : packet.decodeAll (l'.sent.drop l.sent.length) = new := by
      rw [hl'.sent_eq, hhandles.sent_eq, List.flatMap_append, ← hl.sent_eq, List.drop_left]
      exact (packet.decodeAll_part packet_nil List.prefix_rfl).2 rfl
    rw [hsent, hhandles.said_eq, Session.saidIn_eq replies hsketch, hread, List.map_flatMap]
    exact List.flatMap_congr fun m _ => answers_replies m.1 m.2

/-- A controller says this. -/
def switchOn : MqttClient.Message :=
  ⟨.lit "esp32/command", ascii "\x7b\"action\":\"ON\"\x7d", false⟩

/-- And the broker passes it on. -/
def passed : Publish := switchOn.toPublish (by decide)

theorem passed_quiet : Along (Session.step replies) (fun s e => ¬ s.Overruns e)
    (run (Session.step replies) .initial greeting) [.arrive (.publish passed), .loop 2] :=
  quiet_along (by simp)

theorem passed_connected : Always (Session.step replies) (fun s => s.connected)
    (run (Session.step replies) .initial greeting) [.arrive (.publish passed), .loop 2] :=
  always_iff.mpr ⟨by decide, by decide, by decide +kernel, trivial⟩

theorem run_remoteControl_switchOn : ∃ l₀ l₁ l l',
    run (Link.step noReplies) (some (.initial (.zero bufferSize))) greeting = some l₀ ∧
    run (Link.step noReplies) (some l₀) (publishing [(switchOn, 2)]) = some l₁ ∧
    run (Link.step replies) (some (.initial (.zero bufferSize))) greeting = some l ∧
    run (Link.step replies) (some l) [.arrive (.publish passed), .loop 2] = some l' ∧
    (called boot (l'.delivered.drop l.delivered.length)).pin32 = true := by
  obtain ⟨l₀, hreach₀, h₀⟩ := run_greeting
  have hquiet : Along (Session.step noReplies) (fun s e => ¬ s.Overruns e)
      (run (Session.step noReplies) .initial greeting) (publishing [(switchOn, 2)]) :=
    quiet_along (by simp [publishing])
  obtain ⟨l₁, hpublish, h₁⟩ := run_follows noReplies h₀ hquiet
  obtain ⟨l, hreach, hl⟩ : ∃ l,
      run (Link.step replies) (some (.initial (.zero bufferSize))) greeting = some l ∧
        Follows l (run (Session.step replies) .initial greeting) :=
    run_follows replies (initial_follows _) (quiet_along (by simp [greeting]))
  obtain ⟨l', hrun, hl'⟩ := run_follows replies hl passed_quiet
  have hopen₀ : l₀.isOpen := h₀.isOpen_eq.trans (by decide)
  refine ⟨l₀, l₁, l, l', hreach₀, hpublish, hreach, hrun, ?_⟩
  have hend := run_remoteControl boot hreach₀ hopen₀ hpublish hreach hrun
    (always_open replies hl passed_quiet passed_connected) (by simp)
    (by rw [decode_publishing h₀ h₁ hopen₀]; decide +kernel) hl.input_eq
    (hl'.input_eq.trans (by decide +kernel))
  exact hend.1.trans (by decide +kernel)

end Esp32Automation.RemoteOnOff
