import Esp32Automation.Board
import Esp32Automation.Ticks

/-!
# mqtt_connection_with_username_and_password

A login that is fixed, no subscription, and one message more than every ten seconds. The sketch
keeps the time of its last message in 32 bits, and it notes that time whether or not the message
could be sent.
-/
namespace Esp32Automation.Publisher
open PubSubClient Mqtt MqttClient Run Ticks

/-- What `loop()` keeps. -/
structure Device where
  lastMsg : UInt32

def boot : Device := ⟨0⟩

/-- `mqtt.connect("ESP32Client", MQTT_USERNAME, MQTT_PASSWORD)`. -/
def login : ConnectArgs :=
  .ofLogin (.lit "ESP32Client") (.lit "homeautomation") (.lit "Homeautomation1")

inductive Event where
  /-- The end of `loop()`, with its readings of `millis()`. -/
  | tick (r : ℕ × ℕ)
  | mqtt (topic : CString) (payload : List UInt8)

/-- `mqtt.publish(MQTT_TOPIC, msg.c_str())`. -/
def msg : MqttClient.Message :=
  ⟨.lit "test/topic", (CString.lit "Hello from ESP32!").bytes, false⟩

def react (e : Event) (d : Device) : Effect Device :=
  match e with
  | .tick r =>
    if 10000 < stamp r.1 - d.lastMsg then ⟨⟨stamp r.2⟩, .returned, [msg]⟩ else ⟨d, .returned, []⟩
  -- `mqttCallback` only prints.
  | .mqtt _ _ => ⟨d, .returned, []⟩

def Event.message : Event → Option (CString × List UInt8)
  | .mqtt topic payload => some (topic, payload)
  | .tick _ => none

/-- The sketch, whose `reconnectMQTT` is `connectMQTT`. -/
def sketch : Sketch Device Event where
  react := react
  mqtt := .mqtt
  message := Event.message
  reboot _ := boot
  login _ _ := login
  topics := []
  message_mqtt _ _ := rfl
  login_steady _ _ _ _ := rfl
  topics_short := nofun

def Event.round : Event → Option (ℕ × ℕ)
  | .tick r => some r
  | .mqtt _ _ => none

/-- The readings of `millis()` in a run of the board. -/
def rounds (es : List sketch.Event) : List (ℕ × ℕ) :=
  (es.filterMap Sketch.Event.own?).filterMap Event.round

/-- It never restarts. -/
theorem follow_eq (d : Device) (e : Event) : sketch.follow d e = (react e d).device := by
  refine if_pos ?_
  cases e with
  | mqtt topic payload => rfl
  | tick r =>
    show (react (.tick r) d).exit = .returned
    rw [react]
    split_ifs <;> rfl

/-- The device publishes in the rounds of a throttled loop. -/
theorem said_eq (d : Device) (es : List Event) :
    sketch.said d es =
      (throttle 10000 d.lastMsg (es.filterMap Event.round)).map
        fun _ => (msg.topic, msg.payload) := by
  induction es generalizing d with
  | nil => rfl
  | cons e es ih =>
    rw [Sketch.said, follow_eq]
    cases e with
    | mqtt topic payload => exact ih d
    | tick r =>
      have hround : (Event.tick r :: es).filterMap Event.round =
          r :: es.filterMap Event.round := rfl
      show (react (.tick r) d).calls.filterMap short ++ _ = _
      rw [hround, throttle, react]
      split_ifs
      · exact congrArg (_ :: ·) (ih ⟨stamp r.2⟩)
      · exact ih d

/-- Its rounds are those of the board. -/
theorem rounds_handled {es : List sketch.Event} {handled : List Event}
    (h : handled.filter (fun e => e.message.isNone) = es.filterMap Sketch.Event.own?) :
    handled.filterMap Event.round = rounds es := by
  rw [rounds, ← h, List.filterMap_filter]
  refine List.filterMap_congr fun e _ => ?_
  cases e <;> rfl

theorem rounds_append (es fs : List sketch.Event) : rounds (es ++ fs) = rounds es ++ rounds fs := by
  rw [rounds, rounds, rounds, List.filterMap_append, List.filterMap_append]

/-- On every open connection the broker reads the login and then one text, again and again: one in
each of the rounds since the connection was opened in which the throttle acts. These are noted and
begun more than ten seconds apart, and from ten seconds behind the first round on the last one is
never longer ago in any round, however often `millis()` wraps around. -/
theorem run_publisher (buffer : Memory) (es : List sketch.Event) (h : Rounds 10000 (rounds es)) :
    ∃ b, run sketch.step (some (.start boot buffer)) es = some b ∧
      (b.link.isOpen → ∃ fs e gs b₁ id rest, es = fs ++ e :: gs ∧
        sketch.OpenSince (some (.start boot buffer)) fs e gs b₁ ∧ e.clientId? = some id ∧
        packet.decodeAll b.link.sent = .connect (login.toConnect 15) :: rest ∧
        (∀ p ∈ rest, IsClient p) ∧ rest.filterMap requestId = [] ∧
        let fired := throttle 10000 b₁.device.lastMsg (rounds gs)
        fired.Sublist (rounds gs) ∧
        rest.filterMap content = fired.map (fun _ => (msg.topic, msg.payload)) ∧
        (fired.IsChain fun r r' => r.2 + 10000 < r'.1) ∧
        ∀ r₀ ∈ (rounds gs).head?, ∀ r ∈ rounds gs, r₀.1 + 10000 < r.1 →
          ∃ f ∈ fired, f.1 ≤ r.1 ∧ r.1 ≤ f.2 + 10000) := by
  obtain ⟨b, s, hholds⟩ := sketch.run_holds boot buffer es
  refine ⟨b, hholds.run_eq, fun hopen => ?_⟩
  obtain ⟨fs, e, gs, b₁, id, rest, rfl, hsince, hid, hspoken, hread⟩ := hholds.read hopen
  have hcurrent : Rounds 10000 (rounds gs) := by
    rw [rounds_append, ← List.singleton_append, rounds_append] at h
    exact h.right.right
  refine ⟨fs, e, gs, b₁, id, rest, rfl, hsince, hid, hread, hspoken.isClient,
    hspoken.requests_eq, throttle_sublist _ _, ?_, throttle_apart hcurrent _, ?_⟩
  · rw [hspoken.said_eq, said_eq, rounds_handled hspoken.own_eq]
  · intro r₀ hr₀ r hr hlate
    generalize rounds gs = current at hcurrent hr₀ hr ⊢
    cases current with
    | nil => cases hr
    | cons r₁ current =>
      obtain rfl := Option.some.inj hr₀
      exact throttle_recent hcurrent _ hr hlate

/-- It logs in and publishes, and publishes again when the counter has wrapped around. -/
def overnight : List sketch.Event :=
  [.reconnectMQTT (.lit "ESP32Client") true [.connack false 0] 4294950000 4294950001,
    .own (.tick (4294960000, 4294960001)) rfl 4294960001,
    .own (.tick (4294965000, 4294965000)) rfl 4294965000,
    .own (.tick (4294970002, 4294970002)) rfl 2706]

/-- Of three rounds the first and the last publish. -/
theorem run_publisher_overnight : ∃ b rest,
    run sketch.step (some (.start boot (.zero bufferSize))) overnight = some b ∧
      packet.decodeAll b.link.sent = .connect (login.toConnect 15) :: rest ∧
      rest.filterMap content = [(msg.topic, msg.payload), (msg.topic, msg.payload)] ∧
      throttle 10000 boot.lastMsg (rounds overnight) =
        [(4294960000, 4294960001), (4294970002, 4294970002)] := by
  have hrounds : Rounds 10000 (rounds overnight) := ⟨by decide +kernel, by decide +kernel⟩
  have hopen : (run sketch.step (some (.start boot (.zero bufferSize))) overnight).any
      (fun b => b.link.isOpen) = true := by decide +kernel
  obtain ⟨b, hrun, h⟩ := run_publisher (.zero bufferSize) overnight hrounds
  rw [hrun] at hopen
  obtain ⟨fs, e, gs, b₁, id, rest, hsplit, hsince, hid, hread, -, -, -, hcontent, -⟩ := h hopen
  have hfired : throttle 10000 boot.lastMsg (rounds overnight) =
      [(4294960000, 4294960001), (4294970002, 4294970002)] := by decide +kernel
  refine ⟨b, rest, hrun, hread, ?_, hfired⟩
  -- only the first event is an attempt to connect
  obtain rfl : fs = [] := by
    cases fs with
    | nil => rfl
    | cons f fs =>
      have hmem : e ∈ overnight.tail := by
        rw [hsplit]
        simp
      simp only [overnight, List.tail_cons, List.mem_cons, List.not_mem_nil, or_false] at hmem
      rcases hmem with rfl | rfl | rfl <;> cases hid
  obtain ⟨rfl, rfl⟩ := List.cons.inj hsplit
  have hdevice : ∀ b₁ ∈ sketch.step (some (.start boot (.zero bufferSize)))
      (.reconnectMQTT (.lit "ESP32Client") true [.connack false 0] 4294950000 4294950001),
      b₁.device.lastMsg = boot.lastMsg := by decide +kernel
  rw [hcontent, hdevice b₁ hsince.step_eq]
  exact (congrArg (List.map _) hfired).trans rfl

end Esp32Automation.Publisher
