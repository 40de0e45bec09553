import Esp32Automation.ApWifi
import Esp32Automation.PubSubClient

/-!
# The subscriptions of ap_wifi_plus_mqtt_connection_after_config

`reconnectMQTT` connects, sends two SUBSCRIBE requests and looks at neither result. Here the
network client under PubSubClient is what it answers to each call, in any order of failures:
a connection can be lost between any two calls, and a write can be short on a connection that
stays. PubSubClient keeps a state of its own, in which a lost connection stays lost until the
next handshake. A session that has lost a request and not its connection is deaf.
-/
namespace Esp32Automation.Subscriptions
open PubSubClient Preferences Run

def mqttConnectionTimeout : ℤ := -4
def mqttConnectionLost : ℤ := -3
def mqttConnectFailed : ℤ := -2
def mqttDisconnected : ℤ := -1
def mqttConnected : ℤ := 0

theorem connectionTimeout_ne : mqttConnectionTimeout ≠ mqttConnected := by decide
theorem connectionLost_ne : mqttConnectionLost ≠ mqttConnected := by decide
theorem connectFailed_ne : mqttConnectFailed ≠ mqttConnected := by decide
theorem disconnected_ne : mqttDisconnected ≠ mqttConnected := by decide

/-- A `PubSubClient`, and the SUBSCRIBE requests of its session that were written in full. -/
structure Client where
  state : ℤ
  nextMsgId : UInt16
  subscribed : List CString

/-- After its constructor. -/
def Client.initial : Client := ⟨mqttDisconnected, 0, []⟩

/-- What the network client answers in one round of the loop in `reconnectMQTT`. -/
structure Attempt where
  /-- `_client->connected()` in `connect`, twice. -/
  aliveBefore : Bool
  linked : Bool
  /-- `_client->connect(domain, port)`. -/
  opened : ℤ
  /-- The receive buffer, and what arrives in it within the socket timeout. -/
  buffer : CharArray bufferSize
  input : List UInt8
  /-- `_client->connected()` and `_client->write(..)` in each `subscribe`. -/
  aliveCommand : Bool
  writtenCommand : ℕ
  aliveConfig : Bool
  writtenConfig : ℕ
  /-- `_client->connected()` at the head of the loop, behind this round. -/
  aliveAfter : Bool

namespace Client

/-- `connected()`; `alive` is the answer of the network client. -/
def connected (alive : Bool) (c : Client) : Bool × Client :=
  if alive then (c.state = mqttConnected, c)
  else (false, if c.state = mqttConnected then { c with state := mqttConnectionLost } else c)

/-- `connect(id, user, pass)`. User and password are short enough for the buffer, and whether
the CONNECT packet was written in full is not looked at. -/
def connect (a : Attempt) (c : Client) : Bool × Client :=
  let test := c.connected a.aliveBefore
  if test.1 then (true, test.2)
  else
    let c := test.2
    if a.linked ∨ a.opened = 1 then
      let c := { c with nextMsgId := 1 }
      if a.input = [] then (false, { c with state := mqttConnectionTimeout })
      else match readPacket a.buffer a.input with
        | .error .timeout => (false, c)
        | .error .badLength => (false, { c with state := mqttDisconnected })
        | .ok p =>
          if p.len = 4 then
            if byteAt p.buffer 3 = 0 then
              (true, { c with state := mqttConnected, subscribed := [] })
            else (false, { c with state := byteAt p.buffer 3 })
          else (false, c)
    else (false, { c with state := mqttConnectFailed })

end Client

/-- The SUBSCRIBE request for a topic at QoS 0. -/
def subscribePacket (id : UInt16) (topic : CString) : List UInt8 :=
  0x82 :: (encodeLength 4 (5 + topic.length) ++
    (idBytes (some id) ++ UInt8.ofNat (topic.length / 256) :: UInt8.ofNat (topic.length % 256) ::
      (topic.bytes ++ [0])))

/-- `subscribe(topic)`; `written` is the number of bytes that the network client takes. -/
def Client.subscribe (topic : CString) (alive : Bool) (written : ℕ) (c : Client) : Bool × Client :=
  if bufferSize < 9 + topic.length then (false, c)
  else
    let test := c.connected alive
    let c := test.2
    if test.1 then
      let id := if c.nextMsgId + 1 = 0 then 1 else c.nextMsgId + 1
      if written = (subscribePacket id topic).length then
        (true, { c with nextMsgId := id, subscribed := c.subscribed ++ [topic] })
      else (false, { c with nextMsgId := id })
    else (false, c)

def commandTopic : CString := .lit "esp32/command"
def configTopic : CString := .lit "esp32/config"

/-- The body of the loop in `reconnectMQTT`. -/
def attempt (a : Attempt) (c : Client) : Client :=
  let r := c.connect a
  if r.1 then
    let c := (r.2.subscribe commandTopic a.aliveCommand a.writtenCommand).2
    (c.subscribe configTopic a.aliveConfig a.writtenConfig).2
  else r.2

/-- `reconnectMQTT`, whose first test of the connection is answered with `alive`; `none` when
it is still trying behind all of these attempts. -/
def reconnectMQTT : List Attempt → Bool → Client → Option Client
  | attempts, alive, c =>
    let test := c.connected alive
    if test.1 then some test.2
    else match attempts with
      | [] => none
      | a :: attempts => reconnectMQTT attempts a.aliveAfter (attempt a test.2)

/-- What `mqttClient.loop()` meets. -/
structure Serving where
  /-- `_client->connected()` at its head. -/
  alive : Bool
  /-- The keep-alive time has passed and the last PINGREQ is not answered. -/
  pingLost : Bool
  /-- The receive buffer, and what arrives in it. -/
  buffer : CharArray bufferSize
  input : List UInt8
  /-- `_client->connected()` in `publish`, or behind `readPacket`. -/
  aliveAfter : Bool

/-- What the MQTT part of one `loop()` meets. -/
structure Service where
  /-- `WiFi.status() == WL_CONNECTED`. -/
  wifiConnected : Bool
  /-- `_client->connected()` in `if (!mqttClient.connected())`. -/
  alive : Bool
  /-- The same at the first test of `reconnectMQTT`. -/
  aliveAtHead : Bool
  attempts : List Attempt
  serving : Serving

/-- `if (!mqttClient.connected()) reconnectMQTT();` -/
def connectFirst (s : Service) (c : Client) : Option Client :=
  let test := c.connected s.alive
  if test.1 then some test.2 else reconnectMQTT s.attempts s.aliveAtHead test.2

variable {P : Type} [Preferences P]

structure Board (P : Type) where
  device : ApWifi.Device P
  client : Client

/-- After the handler the board goes on with its client, or boots with a new one. -/
def Board.settle (r : Reaction (ApWifi.Device P)) (c : Client) : Board P :=
  ⟨ApWifi.settle r, if r.exit = .returned then c else .initial⟩

/-- The callback, with the test that each `publish` in it makes. -/
def deliver (topic : CString) (payload : List UInt8) (alive : Bool) (b : Board P) : Board P :=
  let r := ApWifi.mqttCallback topic payload b.device
  .settle r (r.published.foldl (fun c _ => (c.connected alive).2) b.client)

/-- `mqttClient.loop()`. -/
def mqttLoop (s : Serving) (b : Board P) : Board P :=
  let test := b.client.connected s.alive
  let c := test.2
  if !test.1 then { b with client := c }
  else if s.pingLost then { b with client := { c with state := mqttConnectionTimeout } }
  else if s.input = [] then { b with client := c }
  else match readPacket s.buffer s.input with
    | .error .timeout => { b with client := (c.connected s.aliveAfter).2 }
    | .error .badLength =>
      { b with client := (Client.connected s.aliveAfter { c with state := mqttDisconnected }).2 }
    | .ok p =>
      if p.len = 0 then { b with client := (c.connected s.aliveAfter).2 }
      else if isPublish (p.buffer.bytes.head?.getD 0) then
        match dispatch p with
        | .callback topic payload => deliver topic payload s.aliveAfter { b with client := c }
        | _ => { b with client := c }
      else { b with client := c }

/-- The MQTT part of `loop()`; the rest of it and the power are the other events. -/
inductive Event where
  | serve (s : Service)
  | other (e : ApWifi.Event) (h : ∀ topic payload, e ≠ .mqtt topic payload)

/-- One event; `none` is a board that has not come back from `reconnectMQTT`. The power cycle
that ends this begins another run. -/
def step (b : Option (Board P)) : Event → Option (Board P)
  | .serve s => b.bind fun b =>
    if s.wifiConnected then
      (connectFirst s b.client).map fun c => mqttLoop s.serving { b with client := c }
    else some b
  | .other e _ => b.map fun b => .settle (ApWifi.react e b.device) b.client

def boot (f : Nvs) : Option (Board P) := some ⟨ApWifi.boot f, .initial⟩

/-- Both requests of the session have been written in full. -/
def Client.Subscribed (c : Client) : Prop :=
  commandTopic ∈ c.subscribed ∧ configTopic ∈ c.subscribed

/-- Whenever `reconnectMQTT` returns, and whenever `mqttClient.loop()` is called on a connected
client, the session has had both requests. -/
structure Hears (s : Service) (c : Client) : Prop where
  returned : (c.connected s.alive).1 = false →
    ∀ c' ∈ reconnectMQTT s.attempts s.aliveAtHead (c.connected s.alive).2, c'.Subscribed
  serving : ∀ c' ∈ connectFirst s c, c'.state = mqttConnected → c'.Subscribed

/-- The broker accepts: what arrives is a packet of four bytes whose last is zero. -/
def Attempt.accepted (a : Attempt) : Bool :=
  (a.linked || a.opened = 1) &&
    match readPacket a.buffer a.input with
    | .ok p => p.len = 4 && byteAt p.buffer 3 = 0
    | .error _ => false

/-- The broker accepts, and the connection is found alive up to the next test of the loop. -/
def Attempt.joins (a : Attempt) : Bool :=
  a.accepted && a.aliveCommand && a.aliveConfig && a.aliveAfter

/-- Both requests are written in full: seven bytes and the topic. -/
def Attempt.Complete (a : Attempt) : Prop :=
  a.writtenCommand = 7 + commandTopic.length ∧ a.writtenConfig = 7 + configTopic.length

/-- If the client is not connected, the first attempt that joins is complete. -/
def Sound (s : Service) (c : Client) : Prop :=
  ¬ (s.alive ∧ c.state = mqttConnected) → ∀ a ∈ s.attempts.find? Attempt.joins, a.Complete

/-- The two conditions on the MQTT part of `loop()`, which needs Wi-Fi. -/
def HearsAt (b : Option (Board P)) : Event → Prop
  | .serve s => ∀ board ∈ b, s.wifiConnected → Hears s board.client
  | .other _ _ => True

def SoundAt (b : Option (Board P)) : Event → Prop
  | .serve s => ∀ board ∈ b, s.wifiConnected → Sound s board.client
  | .other _ _ => True

namespace Client

theorem connected_fst (alive : Bool) (c : Client) :
    (c.connected alive).1 = true ↔ alive ∧ c.state = mqttConnected := by
  unfold connected
  cases alive <;> simp

/-- A test that succeeds changes nothing. -/
theorem connected_true {alive : Bool} {c : Client} (h : (c.connected alive).1 = true) :
    (c.connected alive).2 = c := by
  obtain ⟨ha, -⟩ := (connected_fst alive c).mp h
  simp [connected, ha]

/-- A test that fails leaves the client disconnected. -/
theorem connected_false {alive : Bool} {c : Client} (h : (c.connected alive).1 = false) :
    (c.connected alive).2.state ≠ mqttConnected := by
  unfold connected at h ⊢
  cases alive with
  | true => simpa using h
  | false =>
    simp only [Bool.false_eq_true, if_false]
    split_ifs with hc
    · exact connectionLost_ne
    · exact hc

/-- A disconnected client stays as it is, whatever the network client says. -/
theorem connected_of_ne {c : Client} (h : c.state ≠ mqttConnected) (alive : Bool) :
    c.connected alive = (false, c) := by
  unfold connected
  cases alive <;> simp [h]

/-- The session goes on or is over; it gets no other requests. -/
structure Keeps (c c' : Client) : Prop where
  subscribed_eq : c'.subscribed = c.subscribed
  state : c'.state = mqttConnected → c.state = mqttConnected

theorem Keeps.refl (c : Client) : Keeps c c := ⟨rfl, id⟩

theorem Keeps.trans {c c' c'' : Client} (h : Keeps c c') (h' : Keeps c' c'') : Keeps c c'' :=
  ⟨h'.subscribed_eq.trans h.subscribed_eq, fun hs => h.state (h'.state hs)⟩

theorem connected_keeps (alive : Bool) (c : Client) : Keeps c (c.connected alive).2 := by
  cases h : (c.connected alive).1 with
  | true =>
    rw [connected_true h]
    exact Keeps.refl c
  | false =>
    refine ⟨?_, fun hs => absurd hs (connected_false h)⟩
    unfold connected
    split_ifs <;> rfl

/-- A session that is ended from outside. -/
theorem keeps_state {n : ℤ} (hn : n ≠ mqttConnected) (c : Client) : Keeps c { c with state := n } :=
  ⟨rfl, fun hs => absurd hs hn⟩

/-- `connect` on a disconnected client opens a session if the broker accepts. -/
theorem connect_accepted {a : Attempt} {c : Client} (hc : c.state ≠ mqttConnected)
    (h : a.accepted) : c.connect a = (true, ⟨mqttConnected, 1, []⟩) := by
  simp only [Attempt.accepted, Bool.and_eq_true, Bool.or_eq_true, decide_eq_true_eq] at h
  obtain ⟨hopen, hanswer⟩ := h
  cases hp : readPacket a.buffer a.input with
  | error stop => simp [hp] at hanswer
  | ok p =>
    have hinput : a.input ≠ [] := by
      intro hnil
      rw [hnil] at hp
      cases hp
    simp only [hp, Bool.and_eq_true, decide_eq_true_eq] at hanswer
    simp [connect, connected_of_ne hc, hopen, hinput, hp, hanswer.1, hanswer.2]

/-- Otherwise it fails and leaves the client disconnected. -/
theorem connect_refused {a : Attempt} {c : Client} (hc : c.state ≠ mqttConnected)
    (h : a.accepted = false) :
    (c.connect a).1 = false ∧ (c.connect a).2.state ≠ mqttConnected := by
  simp only [connect, connected_of_ne hc, Bool.false_eq_true, if_false]
  by_cases hopen : a.linked ∨ a.opened = 1
  · have hnot : (a.linked || decide (a.opened = 1)) = true := by simpa using hopen
    rw [if_pos hopen]
    by_cases hinput : a.input = []
    · rw [if_pos hinput]
      exact ⟨rfl, connectionTimeout_ne⟩
    · rw [if_neg hinput]
      cases hp : readPacket a.buffer a.input with
      | error stop =>
        cases stop with
        | timeout => exact ⟨rfl, hc⟩
        | badLength => exact ⟨rfl, disconnected_ne⟩
      | ok p =>
        simp only [Attempt.accepted, hnot, hp, Bool.true_and, Bool.and_eq_false_iff,
          decide_eq_false_iff_not] at h
        dsimp only
        split_ifs with hlen hzero
        · exact absurd hzero (h.resolve_left (not_not_intro hlen))
        · refine ⟨rfl, ?_⟩
          have hne : ((byteAt p.buffer 3 : ℕ) : ℤ) ≠ 0 := by omega
          exact hne
        · exact ⟨rfl, hc⟩
  · rw [if_neg hopen]
    exact ⟨rfl, connectFailed_ne⟩

end Client

theorem subscribePacket_length {topic : CString} (h : topic.length < 123) (id : UInt16) :
    (subscribePacket id topic).length = 7 + topic.length := by
  have hone : (encodeLength 4 (5 + topic.length)).length = 1 :=
    encodeLength_length_small (by omega)
  have htopic : topic.bytes.length = topic.length := rfl
  simp only [subscribePacket, idBytes, List.length_cons, List.length_append, List.length_nil, hone,
    htopic]
  omega

namespace Client

/-- A disconnected client sends no request. -/
theorem subscribe_of_ne {c : Client} (h : c.state ≠ mqttConnected) (topic : CString) (alive : Bool)
    (written : ℕ) : (c.subscribe topic alive written).2 = c := by
  simp [subscribe, connected_of_ne h]

/-- Neither does one whose connection is found lost. -/
theorem subscribe_lost {topic : CString} (ht : topic.length < 123) (written : ℕ) (c : Client) :
    (c.subscribe topic false written).2.state ≠ mqttConnected := by
  have hfits : ¬ bufferSize < 9 + topic.length := by
    rw [bufferSize]
    omega
  have hfalse : (c.connected false).1 = false := rfl
  simp only [subscribe, if_neg hfits, hfalse]
  exact connected_false hfalse

/-- On a connected client the request is in the session if it was written in full, and the
client is connected either way. -/
theorem subscribe_alive {topic : CString} (ht : topic.length < 123) (written : ℕ) {c : Client}
    (hc : c.state = mqttConnected) :
    (c.subscribe topic true written).2.state = mqttConnected ∧
      (c.subscribe topic true written).2.subscribed =
        c.subscribed ++ if written = 7 + topic.length then [topic] else [] := by
  have hfits : ¬ bufferSize < 9 + topic.length := by
    rw [bufferSize]
    omega
  have htest : c.connected true = (true, c) := by simp [connected, hc]
  simp only [subscribe, if_neg hfits, htest, subscribePacket_length ht, if_true]
  by_cases hw : written = 7 + topic.length
  · simp [hw, hc]
  · simp [hw, hc]

end Client

theorem commandTopic_short : commandTopic.length < 123 := by decide
theorem configTopic_short : configTopic.length < 123 := by decide

/-- An attempt that the broker does not accept leaves the client disconnected. -/
theorem attempt_refused {a : Attempt} {c : Client} (hc : c.state ≠ mqttConnected)
    (h : a.accepted = false) : (attempt a c).state ≠ mqttConnected := by
  obtain ⟨hfail, hne⟩ := Client.connect_refused hc h
  simp only [attempt, hfail]
  exact hne

/-- Behind an accepted one it is connected exactly when the connection was there for both
requests, and then the session has had what was written in full. -/
theorem attempt_accepted {a : Attempt} {c : Client} (hc : c.state ≠ mqttConnected)
    (h : a.accepted) :
    ((attempt a c).state = mqttConnected ↔ a.aliveCommand ∧ a.aliveConfig) ∧
      (a.aliveCommand → a.aliveConfig → ((attempt a c).Subscribed ↔ a.Complete)) := by
  simp only [attempt, Client.connect_accepted hc h, if_true]
  cases hcommand : a.aliveCommand with
  | false =>
    have hlost := Client.subscribe_lost commandTopic_short a.writtenCommand ⟨mqttConnected, 1, []⟩
    rw [Client.subscribe_of_ne hlost]
    simp [hlost]
  | true =>
    obtain ⟨hstate, hsub⟩ := Client.subscribe_alive commandTopic_short a.writtenCommand
      (c := ⟨mqttConnected, 1, []⟩) rfl
    cases hconfig : a.aliveConfig with
    | false =>
      have hlost := Client.subscribe_lost configTopic_short a.writtenConfig
        ((⟨mqttConnected, 1, []⟩ : Client).subscribe commandTopic true a.writtenCommand).2
      simp [hlost]
    | true =>
      obtain ⟨hstate', hsub'⟩ := Client.subscribe_alive configTopic_short a.writtenConfig hstate
      have hne : commandTopic ≠ configTopic := by decide
      refine ⟨by simp [hstate'], fun _ _ => ?_⟩
      simp only [Client.Subscribed, hsub', hsub, Attempt.Complete, List.nil_append,
        List.mem_append]
      split_ifs with hfirst hsecond hsecond
      · simp [hfirst, hsecond]
      · simp [hsecond, hne.symm]
      · simp [hfirst, hne]
      · simp [hfirst]

/-- Behind a test that fails the loop goes on from the client that the test leaves. -/
theorem reconnectMQTT_tested {alive : Bool} {c : Client} (h : (c.connected alive).1 = false)
    (attempts : List Attempt) (alive' : Bool) :
    reconnectMQTT attempts alive c = reconnectMQTT attempts alive' (c.connected alive).2 := by
  have hagain := Client.connected_of_ne (Client.connected_false h) alive'
  unfold reconnectMQTT
  simp only [h, hagain]

theorem reconnectMQTT_cons {c : Client} (hc : c.state ≠ mqttConnected) (a : Attempt)
    (attempts : List Attempt) (alive : Bool) :
    reconnectMQTT (a :: attempts) alive c =
      reconnectMQTT attempts a.aliveAfter (attempt a c) := by
  rw [reconnectMQTT]
  simp only [Client.connected_of_ne hc]
  rfl

/-- An attempt that joins ends the loop, any other one does not. -/
theorem attempt_tested {c : Client} (hc : c.state ≠ mqttConnected) (a : Attempt) :
    ((attempt a c).connected a.aliveAfter).1 = a.joins := by
  rw [Bool.eq_iff_iff, Client.connected_fst]
  cases h : a.accepted with
  | false =>
    have hne := attempt_refused hc h
    simp [Attempt.joins, h, hne]
  | true =>
    rw [(attempt_accepted hc h).1]
    simp only [Attempt.joins, h, Bool.true_and, Bool.and_eq_true]
    exact and_comm

/-- What `reconnectMQTT` returns, if it does, is the client behind the first attempt that
joins. The induction is on the attempts; a client that an attempt leaves connected and the next
test finds lost goes on like any other. -/
theorem reconnectMQTT_spec {c : Client} (hc : c.state ≠ mqttConnected) (attempts : List Attempt)
    (alive : Bool) :
    (∀ c' ∈ reconnectMQTT attempts alive c, c'.state = mqttConnected) ∧
      ((∀ c' ∈ reconnectMQTT attempts alive c, c'.Subscribed) ↔
        ∀ a ∈ attempts.find? Attempt.joins, a.Complete) := by
  induction attempts generalizing c alive with
  | nil =>
    rw [reconnectMQTT]
    simp [Client.connected_of_ne hc]
  | cons a attempts ih =>
    have htest := attempt_tested hc a
    rw [reconnectMQTT_cons hc]
    cases hj : a.joins with
    | true =>
      rw [hj] at htest
      have hreturn : reconnectMQTT attempts a.aliveAfter (attempt a c) = some (attempt a c) := by
        unfold reconnectMQTT
        simp [htest, Client.connected_true htest]
      have hstate := ((Client.connected_fst _ _).mp htest).2
      simp only [Attempt.joins, Bool.and_eq_true] at hj
      obtain ⟨⟨⟨haccept, hcommand⟩, hconfig⟩, hafter⟩ := hj
      have hsub := (attempt_accepted hc haccept).2 hcommand hconfig
      rw [hreturn]
      simp [hstate, hsub, Attempt.joins, haccept, hcommand, hconfig, hafter]
    | false =>
      rw [hj] at htest
      rw [reconnectMQTT_tested htest attempts true, List.find?_cons_of_neg (by simp [hj])]
      exact ih (Client.connected_false htest) true

/-- At the head of `loop()` everything depends on the attempts, if there are any. -/
theorem hears_iff {c : Client} (h : c.state = mqttConnected → c.Subscribed) (s : Service) :
    Hears s c ↔ Sound s c := by
  cases htest : (c.connected s.alive).1 with
  | true =>
    have hboth := (Client.connected_fst _ _).mp htest
    have hfirst : connectFirst s c = some c := by
      simp [connectFirst, htest, Client.connected_true htest]
    have hsound : Sound s c := fun hnot => absurd hboth hnot
    refine ⟨fun _ => hsound, fun _ => ⟨?_, ?_⟩⟩
    · intro hfalse
      rw [htest] at hfalse
      cases hfalse
    · rw [hfirst]
      intro c' hc'
      obtain rfl := Option.some.inj hc'
      exact h
  | false =>
    obtain ⟨hstate, hiff⟩ := reconnectMQTT_spec (Client.connected_false htest) s.attempts
      s.aliveAtHead
    have hfirst : connectFirst s c =
        reconnectMQTT s.attempts s.aliveAtHead (c.connected s.alive).2 := by
      simp [connectFirst, htest]
    have hnot : ¬ (s.alive ∧ c.state = mqttConnected) := by
      rw [← Client.connected_fst, htest]
      simp
    have hsound : Sound s c ↔ ∀ a ∈ s.attempts.find? Attempt.joins, a.Complete :=
      ⟨fun hs => hs hnot, fun ha _ => ha⟩
    rw [hsound, ← hiff]
    constructor
    · intro hh
      exact hh.returned htest
    · intro hsub
      refine ⟨fun _ => hsub, ?_⟩
      rw [hfirst]
      exact fun c' hc' _ => hsub c' hc'

/-- The sessions that a step may leave: the old one, or none on a board that starts again. -/
def Remains (c c' : Client) : Prop := c' = .initial ∨ c.Keeps c'

theorem remains_settle {c c' : Client} (h : c.Keeps c') (r : Reaction (ApWifi.Device P)) :
    Remains c (Board.settle r c').client := by
  unfold Board.settle Remains
  dsimp only
  split_ifs
  · exact .inr h
  · exact .inl rfl

/-- The tests of several calls of `publish`. -/
theorem foldl_connected_keeps (published : List Publication) (alive : Bool) (c : Client) :
    c.Keeps (published.foldl (fun c _ => (c.connected alive).2) c) := by
  induction published generalizing c with
  | nil => exact Client.Keeps.refl c
  | cons p published ih => exact (c.connected_keeps alive).trans (ih _)

/-- Nothing that `mqttClient.loop()` does opens a session or forgets a request. -/
theorem mqttLoop_remains (s : Serving) (b : Board P) :
    Remains b.client (mqttLoop s b).client := by
  have htest := b.client.connected_keeps s.alive
  have hagain := htest.trans (Client.connected_keeps s.aliveAfter _)
  have hlost := htest.trans (Client.keeps_state disconnected_ne _)
  unfold mqttLoop
  dsimp only
  split_ifs
  · exact .inr htest
  · exact .inr (htest.trans (Client.keeps_state connectionTimeout_ne _))
  · exact .inr htest
  · cases readPacket s.buffer s.input with
    | error stop =>
      cases stop with
      | timeout => exact .inr hagain
      | badLength => exact .inr (hlost.trans (Client.connected_keeps s.aliveAfter _))
    | ok p =>
      dsimp only
      split_ifs
      · exact .inr hagain
      · cases dispatch p with
        | callback topic payload =>
          exact remains_settle (htest.trans (foldl_connected_keeps _ s.aliveAfter _)) _
        | nothing => exact .inr htest
        | disconnected => exact .inr htest
      · exact .inr htest

/-- A connected client has had both requests. -/
def Client.Hearing (c : Client) : Prop := c.state = mqttConnected → c.Subscribed

theorem Remains.hearing {c c' : Client} (h : Remains c c') (hc : c.Hearing) : c'.Hearing := by
  obtain rfl | hkeeps := h
  · intro hs
    exact absurd hs disconnected_ne
  · intro hs
    unfold Client.Subscribed
    rw [hkeeps.subscribed_eq]
    exact hc (hkeeps.state hs)

/-- A sound step keeps every connected client hearing. -/
theorem step_hearing (b : Option (Board P)) (e : Event) (h : ∀ board ∈ b, board.client.Hearing)
    (hs : SoundAt b e) : ∀ board ∈ step b e, board.client.Hearing := by
  cases b with
  | none => cases e <;> simp [step]
  | some b =>
    have hb : b.client.Hearing := h b rfl
    cases e with
    | other e hquiet =>
      intro board hboard
      obtain rfl := Option.some.inj hboard
      exact (remains_settle (Client.Keeps.refl b.client) _).hearing hb
    | serve s =>
      intro board hboard
      simp only [step, Option.bind_some] at hboard
      split_ifs at hboard with hwifi
      · obtain ⟨c, hc, rfl⟩ := Option.map_eq_some_iff.mp hboard
        have hhears := (hears_iff hb s).mpr (hs b rfl hwifi)
        have hc' : c.Hearing := hhears.serving c hc
        exact (mqttLoop_remains s.serving _).hearing hc'
      · obtain rfl := Option.some.inj hboard
        exact hb

omit [Preferences P] in
theorem soundAt_iff (b : Option (Board P)) (e : Event) (h : ∀ board ∈ b, board.client.Hearing) :
    HearsAt b e ↔ SoundAt b e := by
  cases e with
  | other e hquiet => exact Iff.rfl
  | serve s =>
    constructor
    · intro hh board hboard hwifi
      exact (hears_iff (h board hboard) s).mp (hh board hboard hwifi)
    · intro hs board hboard hwifi
      exact (hears_iff (h board hboard) s).mpr (hs board hboard hwifi)

/-- In every run from boot, whatever the network client answers: whenever `reconnectMQTT` returns
and whenever `mqttClient.loop()` is called on a connected client the session has had both
requests in full, if and only if in every call of `reconnectMQTT` the first attempt that the
broker accepts and whose connection is found alive up to the next test of the loop has written
both. -/
theorem run_hears_iff (f : Nvs) (es : List Event) :
    Along step HearsAt (boot f : Option (Board P)) es ↔
      Along step SoundAt (boot f : Option (Board P)) es := by
  have hboot : ∀ board ∈ (boot f : Option (Board P)), board.client.Hearing := by
    intro board hboard
    obtain rfl := Option.some.inj hboard
    exact fun hs => absurd hs disconnected_ne
  exact along_iff_along step_hearing soundAt_iff hboot es

/-- The broker accepts, and of the first request the network client takes nothing. -/
def deafAttempt : Attempt where
  aliveBefore := false
  linked := false
  opened := 1
  buffer := .zero bufferSize
  input := [0x20, 2, 0, 0]
  aliveCommand := true
  writtenCommand := 0
  aliveConfig := true
  writtenConfig := 19
  aliveAfter := true

def deafService : Service where
  wifiConnected := true
  alive := false
  aliveAtHead := false
  attempts := [deafAttempt]
  serving := ⟨true, false, .zero bufferSize, [], true⟩

/-- One short write on a connection that stays makes a session that hears no command. -/
theorem deaf_session :
    ¬ ∀ (f : Nvs) (es : List Event),
      Along step HearsAt (boot f : Option (Board FlashObject)) es := by
  intro h
  have hhears := (h (fun _ => none) [.serve deafService]).1 _ rfl rfl
  have hdeaf : ∀ c ∈ connectFirst deafService Client.initial,
      c.state = mqttConnected ∧ commandTopic ∉ c.subscribed := by
    decide +kernel
  have hreturns : (connectFirst deafService Client.initial).isSome := by decide +kernel
  obtain ⟨c, hc⟩ := Option.isSome_iff_exists.mp hreturns
  obtain ⟨hstate, hnot⟩ := hdeaf c hc
  exact hnot (hhears.serving c hc hstate).1

end Esp32Automation.Subscriptions
