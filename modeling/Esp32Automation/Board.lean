import Esp32Automation.Arduino
import Esp32Automation.JsonSerializer
import Esp32Automation.MqttRuns

/-!
# A board: a sketch with its client

A sketch is its handlers, with what they publish and what they log in and subscribe with. On a
board they share one processor with PubSubClient: `reconnectMQTT` dials, `loop()` calls
`mqttCallback` in the middle of its work, and a handler that restarts the board takes the
connection with it. Whatever the order of all this and whatever the network does, the device goes
through its own events and a subsequence of the messages that have arrived.
-/
namespace Esp32Automation
open PubSubClient Mqtt MqttClient Run

namespace MqttClient

/-- One attempt of `reconnectMQTT`, which ends with the subscriptions. -/
def Link.reconnectMQTT (a : ConnectArgs) (topics : List CString) (opens : Bool)
    (reply : List ControlPacket) (now later : UInt32) (l : Link) : Except Fault Link :=
  let (alive, l) := l.connected
  if alive then .ok l
  else do
    let (ok, l) ← l.connect a opens (reply.flatMap packet.encode) now later
    if ok then topics.foldlM (fun l t => (l.subscribe t 0 later).map Prod.snd) l else return l

def Session.reconnectMQTT (a : ConnectArgs) (topics : List CString) (opens : Bool)
    (reply : List ControlPacket) (now later : UInt32) (s : Session) : Session :=
  if s.connected then s
  else
    let s := s.connect a opens reply now later
    if s.connected then topics.foldl (fun s t => s.subscribe t 0 later) s else s

/-- Requests for these topics, with the ids behind this one. -/
def subscriptions : UInt16 → List CString → List ControlPacket
  | _, [] => []
  | id, t :: ts => .subscribe (Link.nextId id) (.cut t) 0 :: subscriptions (Link.nextId id) ts

namespace Link
variable {l l' : Link}

theorem connected_isOpen (h : l.connected.1 = true) : l.connected.2.isOpen = true := by
  unfold connected at h ⊢
  by_cases hopen : l.isOpen
  · simp only [if_pos hopen]
    exact hopen
  · rw [if_neg hopen] at h
    split_ifs at h

theorem send_isOpen (bytes : List UInt8) (l : Link) : (send bytes l).isOpen = l.isOpen := by
  rw [send]
  split_ifs <;> rfl

theorem write_isOpen {header : UInt8} {buf : Memory} {length : ℕ} {now : UInt32} {b : Bool}
    (h : l.write header buf length now = .ok (b, l')) : l'.isOpen = l.isOpen := by
  rw [write] at h
  cases hw : writePacket header buf length with
  | error fault =>
    rw [hw] at h
    cases h
  | ok r =>
    rw [hw] at h
    obtain ⟨-, rfl⟩ := Prod.mk.inj (Except.ok.inj h)
    exact send_isOpen _ _

theorem awaitConnack_isOpen (hopen : l.isOpen = true) (later : UInt32) :
    (l.awaitConnack later).2.isOpen = (l.awaitConnack later).1 := by
  rw [awaitConnack]
  split_ifs
  · rfl
  · cases readPacket l.client.buffer l.input with
    | error err => cases err <;> rfl
    | ok p =>
      dsimp only
      split_ifs
      · exact hopen
      · rfl
      · rfl

theorem greet_isOpen (hopen : l.isOpen = true) {buf : Memory} {length : ℕ} {b : Bool}
    {reply : List UInt8} {now later : UInt32}
    (h : (do
      let (_, l) ← l.write 0x10 buf length now
      return awaitConnack later { l with
        input := l.input ++ reply
        client := { l.client with lastInActivity := now, lastOutActivity := now } }) =
          Except.ok (b, l')) : l'.isOpen = b := by
  cases hw : l.write 0x10 buf length now with
  | error fault =>
    rw [hw] at h
    cases h
  | ok r =>
    rw [hw] at h
    have hawait := awaitConnack_isOpen (l := { r.2 with
      input := r.2.input ++ reply
      client := { r.2.client with lastInActivity := now, lastOutActivity := now } })
      ((write_isOpen hw).trans hopen) later
    obtain ⟨rfl, rfl⟩ := Prod.mk.inj (Except.ok.inj h)
    exact hawait

/-- `connect` returns whether the connection is open. -/
theorem connect_isOpen {a : ConnectArgs} {opens b : Bool} {reply : List UInt8}
    {now later : UInt32} (h : l.connect a opens reply now later = .ok (b, l')) : l'.isOpen = b := by
  rw [connect] at h
  have hconn : l.connected.1 = true → l.connected.2.isOpen = true := connected_isOpen
  generalize l.connected = r at h hconn
  obtain ⟨alive, l₀⟩ := r
  dsimp only at h hconn
  split_ifs at h with halive hdial hopen
  · obtain ⟨rfl, rfl⟩ := Prod.mk.inj (Except.ok.inj h)
    exact hconn halive
  · split at h
    · obtain ⟨rfl, rfl⟩ := Prod.mk.inj (Except.ok.inj h)
      rfl
    · cases h
    · exact greet_isOpen (l := { l₀ with client := { l₀.client with nextMsgId := 1 } }) hopen h
  · split at h
    · obtain ⟨rfl, rfl⟩ := Prod.mk.inj (Except.ok.inj h)
      rfl
    · cases h
    · exact greet_isOpen (l := l₀.opened) rfl h
  · obtain ⟨rfl, rfl⟩ := Prod.mk.inj (Except.ok.inj h)
    have hneither := Bool.or_eq_false_iff.mp (Bool.not_eq_true _ ▸ hdial)
    exact hneither.1

end Link

namespace Follows
variable {l : Link} {s : Session}

theorem subscribeAll (h : Follows l s) {topics : List CString} (ht : ∀ t ∈ topics, t.length ≤ 246)
    (now : UInt32) :
    ∃ l', topics.foldlM (fun l t => (l.subscribe t 0 now).map Prod.snd) l = .ok l' ∧
      Follows l' (topics.foldl (fun s t => s.subscribe t 0 now) s) := by
  induction topics generalizing l s with
  | nil => exact ⟨l, rfl, h⟩
  | cons t ts ih =>
    have hlen := ht t List.mem_cons_self
    have hroom : ¬ ((0 : UInt8) ≤ 1 ∧ t.length = 247 ∧ s.connected) := by
      rintro ⟨-, heq, -⟩
      omega
    obtain ⟨b, l₁, hsub, h₁⟩ := h.subscribe hroom now
    obtain ⟨l₂, hall, h₂⟩ := ih h₁ fun t' ht' => ht t' (List.mem_cons_of_mem t ht')
    refine ⟨l₂, ?_, h₂⟩
    rw [List.foldlM_cons, hsub]
    exact hall

theorem reconnectMQTT (h : Follows l s) (a : ConnectArgs) {topics : List CString}
    (ht : ∀ t ∈ topics, t.length ≤ 246) (opens : Bool) (reply : List ControlPacket)
    (now later : UInt32) : ∃ l', l.reconnectMQTT a topics opens reply now later = .ok l' ∧
      Follows l' (s.reconnectMQTT a topics opens reply now later) := by
  obtain ⟨halive, hfollows, hconn⟩ := h.connected
  rw [Link.reconnectMQTT, Session.reconnectMQTT]
  rcases Bool.eq_false_or_eq_true s.connected with hc | hc
  · rw [hconn hc, if_pos hc]
    exact ⟨l, rfl, h⟩
  · rw [hc] at halive
    rw [if_neg (by simp [hc])]
    simp only [halive, Bool.false_eq_true, if_false]
    obtain ⟨b, l', hcall, h'⟩ := hfollows.connect a opens reply now later
    have hb : (s.connect a opens reply now later).connected = b :=
      h'.isOpen_eq.symm.trans (Link.connect_isOpen hcall)
    simp only [hcall, hb, bind, Except.bind, pure, Except.pure]
    cases b with
    | false => exact ⟨l', rfl, h'⟩
    | true => exact h'.subscribeAll ht later

end Follows

namespace Session
variable {s : Session}

/-- A connection begins with CONNECT. What has come behind the answer waits. -/
theorem connect_eq {a : ConnectArgs} {opens : Bool} {reply : List ControlPacket}
    {now later : UInt32} (hc : s.connected = false)
    (h : (s.connect a opens reply now later).connected) :
    ∃ p queue, reply = p :: queue ∧ s.connect a opens reply now later =
      { s with
        connected := true, lastId := 1, lastOut := now, lastIn := later, pingOutstanding := false
        queue, sent := [.connect (a.toConnect s.keepAlive)] } := by
  rw [connect] at h ⊢
  by_cases hno : s.connected ∨ ¬ opens
  · rw [if_pos hno, hc] at h
    cases h
  rw [if_neg hno] at h ⊢
  dsimp only at h ⊢
  split_ifs at h ⊢ with hbody
  · unfold answered at h ⊢
    cases reply with
    | nil =>
      rw [hc] at h
      cases h
    | cons p queue =>
      dsimp only at h ⊢
      split_ifs at h ⊢
      · exact ⟨p, queue, rfl, rfl⟩
      · rw [hc] at h
        cases h
  · rw [hc] at h
    cases h

theorem connect_keepAlive (a : ConnectArgs) (opens : Bool) (reply : List ControlPacket)
    (now later : UInt32) : (s.connect a opens reply now later).keepAlive = s.keepAlive := by
  rw [connect]
  by_cases hno : s.connected ∨ ¬ opens
  · rw [if_pos hno]
  rw [if_neg hno]
  dsimp only
  split_ifs
  · unfold answered
    cases reply with
    | nil => rfl
    | cons p queue =>
      dsimp only
      split_ifs <;> rfl
  · rfl

theorem subscribeAll_eq (hc : s.connected) {topics : List CString}
    (ht : ∀ t ∈ topics, t.length ≤ 246) (now : UInt32) :
    ∃ lastId lastOut, topics.foldl (fun s t => s.subscribe t 0 now) s =
      { s with lastId, lastOut, sent := s.sent ++ subscriptions s.lastId topics } := by
  induction topics generalizing s with
  | nil => exact ⟨s.lastId, s.lastOut, by simp [subscriptions]⟩
  | cons t ts ih =>
    have hlen := ht t List.mem_cons_self
    have hone : s.subscribe t 0 now = { s with
        lastId := Link.nextId s.lastId
        sent := s.sent ++ [.subscribe (Link.nextId s.lastId) (.cut t) 0]
        lastOut := now } := if_pos ⟨by decide, by omega, hc⟩
    obtain ⟨lastId, lastOut, hall⟩ := ih (s := s.subscribe t 0 now) (by rw [hone]; exact hc)
      fun t' ht' => ht t' (List.mem_cons_of_mem t ht')
    refine ⟨lastId, lastOut, ?_⟩
    rw [List.foldl_cons, hall, hone]
    simp [subscriptions]

theorem publishAll_closed (hc : s.connected = false) (ms : List MqttClient.Message)
    (now : UInt32) : s.publishAll ms now = s := by
  induction ms with
  | nil => rfl
  | cons m ms ih =>
    have hone : s.publish m now = s := if_neg (by simp [hc])
    rw [publishAll, List.foldl_cons, hone]
    exact ih

end Session
end MqttClient

/-- `char responseBuffer[256]; serializeJson(responseJson, responseBuffer);` and the call of
`publish`. The payload ends at the terminator. -/
def publishCall (p : Publication) : Option MqttClient.Message :=
  (serializeJson p.payload 256).map fun text =>
    ⟨.lit p.topic, (CString.ofBytes text).bytes, false⟩

/-- What a handler has done: the device it leaves, how it ends and its calls of `publish`. -/
structure Effect (D : Type) where
  device : D
  exit : Exit
  calls : List MqttClient.Message

/-- What it has published are documents. -/
def Reaction.effect {D : Type} (r : Reaction D) : Effect D :=
  ⟨r.device, r.exit, r.published.filterMap publishCall⟩

/-- A sketch without its client. -/
structure Sketch (D E : Type) where
  /-- What the handlers do, `mqttCallback` among them. -/
  react : E → D → Effect D
  /-- The event that a message is for `mqttCallback`. -/
  mqtt : CString → List UInt8 → E
  message : E → Option (CString × List UInt8)
  /-- The board boots with what is in flash. -/
  reboot : D → D
  /-- What `reconnectMQTT` calls `connect` with, for a client ID. -/
  login : CString → D → ConnectArgs
  /-- What it subscribes to, in this order. -/
  topics : List CString
  message_mqtt : ∀ topic payload, message (mqtt topic payload) = some (topic, payload)
  login_steady : ∀ id e d, (react e d).exit = .returned → login id (react e d).device = login id d
  topics_short : ∀ t ∈ topics, t.length ≤ 246

/-- A device with the client in its RAM. -/
structure Board (D : Type) where
  device : D
  link : Link

/-- A board that has booted. -/
def Board.start {D : Type} (d : D) (buffer : Memory) : Board D := ⟨d, .initial buffer⟩

namespace Sketch
variable {D E : Type} (S : Sketch D E)

/-- What happens to a board: its own events, attempts to connect, calls of `loop()`, packets of the
broker that arrive, and the end of the connection. -/
inductive Event where
  | own (e : E) (h : S.message e = none) (now : UInt32)
  | reconnectMQTT (id : CString) (opens : Bool) (reply : List ControlPacket) (now later : UInt32)
  | loop (now : UInt32)
  | arrive (p : ControlPacket)
  | lose

/-- What `mqttCallback` publishes for a message. -/
def replies (d : D) (topic : CString) (payload : List UInt8) : List MqttClient.Message :=
  (S.react (S.mqtt topic payload) d).calls

/-- The device goes on, or boots. -/
def follow (d : D) (e : E) : D :=
  if (S.react e d).exit = .returned then (S.react e d).device else S.reboot (S.react e d).device

/-- The program goes on with its client, or the board boots and the client begins anew. -/
def settle (r : Effect D) (l : Link) : Board D :=
  if r.exit = .returned then ⟨r.device, l⟩ else ⟨S.reboot r.device, .initial l.client.buffer⟩

/-- One event. In a `loop()` the callback is called at most once. -/
def act (b : Board D) : S.Event → Except Fault (Board D)
  | .own e _ now => do
    let l ← b.link.publishAll (S.react e b.device).calls now
    return S.settle (S.react e b.device) l
  | .reconnectMQTT id opens reply now later => do
    let l ← b.link.reconnectMQTT (S.login id b.device) S.topics opens reply now later
    return { b with link := l }
  | .loop now => do
    let (_, l) ← b.link.loop (S.replies b.device) now
    match l.delivered.drop b.link.delivered.length with
    | [] => return { b with link := l }
    | m :: _ => return S.settle (S.react (S.mqtt m.1 m.2) b.device) l
  | .arrive p => do
    let l ← b.link.react (S.replies b.device) (.arrive p)
    return { b with link := l }
  | .lose => return { b with link := b.link.stop }

def step (b : Option (Board D)) (e : S.Event) : Option (Board D) :=
  b.bind fun b => (S.act b e).toOption

/-- What an event hands to the device: itself, or the message that `loop()` has taken. -/
def handles (b : Board D) : S.Event → List E
  | .own e _ _ => [e]
  | .loop now =>
    match b.link.loop (S.replies b.device) now with
    | .ok (_, l) => (l.delivered.drop b.link.delivered.length).map fun m => S.mqtt m.1 m.2
    | .error _ => []
  | _ => []

/-- What the device handles in a run of its board. -/
def handled : Option (Board D) → List S.Event → List E
  | _, [] => []
  | b, e :: es => b.elim [] (fun b => S.handles b e) ++ handled (S.step b e) es

theorem handled_append (b : Option (Board D)) (es fs : List S.Event) :
    S.handled b (es ++ fs) = S.handled b es ++ S.handled (run S.step b es) fs := by
  induction es generalizing b with
  | nil => rfl
  | cons e es ih => rw [List.cons_append, handled, handled, ih, List.append_assoc, run_cons]

namespace Event
variable {S}

def own? : S.Event → Option E
  | .own e _ _ => some e
  | _ => none

/-- The packets that arrive. -/
def arrived : S.Event → List ControlPacket
  | .reconnectMQTT _ _ reply _ _ => reply
  | .arrive p => [p]
  | _ => []

/-- The client ID of an attempt to connect. -/
def clientId? : S.Event → Option CString
  | .reconnectMQTT id _ _ _ _ => some id
  | _ => none

end Event

/-- The messages that the device publishes on its events. -/
def said : D → List E → List (CString × List UInt8)
  | _, [] => []
  | d, e :: es => (S.react e d).calls.filterMap short ++ said (S.follow d e) es

theorem said_append (d : D) (es fs : List E) :
    S.said d (es ++ fs) = S.said d es ++ S.said (run S.follow d es) fs := by
  induction es generalizing d with
  | nil => rfl
  | cons e es ih => rw [List.cons_append, said, said, ih, List.append_assoc, run_cons]

/-- The device handles these events without booting. -/
def Steady (d : D) (es : List E) : Prop :=
  Along S.follow (fun d e => (S.react e d).exit = .returned) d es

/-- As long as it does not boot it logs in alike. -/
theorem login_run {d : D} {es : List E} (h : S.Steady d es) (id : CString) :
    S.login id (run S.follow d es) = S.login id d := by
  induction es generalizing d with
  | nil => rfl
  | cons e es ih =>
    have hfollow : S.follow d e = (S.react e d).device := if_pos h.1
    rw [run_cons, ih h.2, hfollow, S.login_steady id e d h.1]

/-- The board `b₁` behind the event `e` has a connection, which was not there before and is still
there behind `gs`. -/
structure OpenSince (b₀ : Option (Board D)) (fs : List S.Event) (e : S.Event)
    (gs : List S.Event) (b₁ : Board D) : Prop where
  closed : ¬ (run S.step b₀ fs).any (fun b => b.link.isOpen)
  step_eq : S.step (run S.step b₀ fs) e = some b₁
  stays : Always S.step (fun b => b.any (fun b => b.link.isOpen)) (some b₁) gs

/-- What is sent between two states of one connection: what the handlers publish, between
acknowledgments and pings. -/
structure Speaks (b : Board D) (s : Session) (e : S.Event) (s' : Session) : Prop where
  steady : S.Steady b.device (S.handles b e)
  sent_eq : ∃ new acks, s'.sent = s.sent ++ new ∧ Output new acks (S.said b.device (S.handles b e))

/-- A connection begins with CONNECT, with the login in use, and the subscriptions. -/
structure Opens (b : Board D) (e : S.Event) (s' : Session) : Prop where
  handles_eq : S.handles b e = []
  sent_eq : ∃ id, e.clientId? = some id ∧
    s'.sent = .connect ((S.login id b.device).toConnect 15) :: subscriptions 1 S.topics

/-- What one event does to a board. The device goes through what it is handed, which is its own
event or a message that has waited. -/
structure Goes (b : Board D) (s : Session) (e : S.Event) (b' : Board D) (s' : Session) : Prop where
  act_eq : S.act b e = .ok b'
  follows : Follows b'.link s'
  device_eq : b'.device = run S.follow b.device (S.handles b e)
  own_eq : (S.handles b e).filter (fun e => (S.message e).isNone) = e.own?.toList
  messages : ((S.handles b e).filterMap S.message ++ s'.queue.filterMap content).Sublist
    (s.queue.filterMap content ++ e.arrived.filterMap content)
  keepAlive_eq : s'.keepAlive = 15
  speaks : s.connected → s'.connected → S.Speaks b s e s'
  opens : s.connected = false → s'.connected → S.Opens b e s'

variable {S} {b b' : Board D} {s s' : Session} {l' : Link} {e : S.Event}

theorem step_act (h : S.act b e = .ok b') : S.step (some b) e = some b' := by
  rw [step, Option.bind_some, h]
  rfl

/-- The calls of the callback in between. -/
theorem drop_delivered {l : Link} {got : List (CString × List UInt8)} (h : Follows l s)
    (h' : Follows l' s') (heq : s'.delivered = s.delivered ++ got) :
    l'.delivered.drop l.delivered.length = got := by
  rw [h'.delivered_eq, h.delivered_eq, heq]
  exact List.drop_left

/-- What the callback is called with and what still waits has waited in this order. -/
theorem taken_sublist (queue : List ControlPacket) :
    ((fitting (queue.take 1)).filterMap content ++ (queue.drop 1).filterMap content).Sublist
      (queue.filterMap content) := by
  have hfitting : (fitting (queue.take 1)).Sublist (queue.take 1) := List.filter_sublist
  have hall := (hfitting.append (List.Sublist.refl (queue.drop 1))).filterMap content
  rwa [List.filterMap_append, List.take_append_drop] at hall

theorem taken_length_le (queue : List ControlPacket) :
    ((fitting (queue.take 1)).filterMap content).length ≤ 1 := by
  have hfilter : (fitting (queue.take 1)).length ≤ (queue.take 1).length :=
    List.length_filter_le _ _
  have hmap := List.length_filterMap_le content (fitting (queue.take 1))
  have htake := List.length_take_le 1 queue
  omega

theorem handles_loop {now : UInt32} {ok : Bool}
    (hloop : b.link.loop (S.replies b.device) now = .ok (ok, l')) :
    S.handles b (.loop now) =
      (l'.delivered.drop b.link.delivered.length).map fun m => S.mqtt m.1 m.2 := by
  rw [handles, hloop]

/-- Without a connection nothing but its own event. -/
theorem handles_closed (h : Follows b.link s) (hc : s.connected = false) (e : S.Event) :
    S.handles b e = e.own?.toList := by
  cases e with
  | loop now =>
    obtain ⟨ok, l', hloop, hl⟩ := h.loop (S.replies b.device) now
    have hsame : s.loop (S.replies b.device) now = s := s.loop_closed _ (by simp [hc]) now
    rw [hsame] at hl
    rw [handles_loop hloop, drop_delivered h hl (List.append_nil _).symm]
    rfl
  | _ => rfl

theorem act_loop_quiet {now : UInt32} {ok : Bool}
    (hloop : b.link.loop (S.replies b.device) now = .ok (ok, l'))
    (hnone : l'.delivered.drop b.link.delivered.length = []) :
    S.act b (.loop now) = .ok { b with link := l' } := by
  rw [act, hloop]
  simp only [bind, Except.bind, hnone]
  rfl

theorem act_loop_called {now : UInt32} {ok : Bool} {m : CString × List UInt8}
    (hloop : b.link.loop (S.replies b.device) now = .ok (ok, l'))
    (hone : l'.delivered.drop b.link.delivered.length = [m]) :
    S.act b (.loop now) = .ok (S.settle (S.react (S.mqtt m.1 m.2) b.device) l') := by
  rw [act, hloop]
  simp only [bind, Except.bind, hone]
  rfl

/-- A handler has run; it may have restarted the board. -/
theorem goes_settle {x : E} {new : List ControlPacket} {acks : List UInt16}
    (hact : S.act b e = .ok (S.settle (S.react x b.device) l')) (hhandles : S.handles b e = [x])
    (hl : Follows l' s') (hkeep : s'.keepAlive = 15)
    (hown : [x].filter (fun e => (S.message e).isNone) = e.own?.toList)
    (hmessages : ([x].filterMap S.message ++ s'.queue.filterMap content).Sublist
      (s.queue.filterMap content ++ e.arrived.filterMap content))
    (hsaid : s'.connected → s.connected ∧ s'.sent = s.sent ++ new ∧
      Output new acks ((S.react x b.device).calls.filterMap short)) :
    ∃ s'', S.Goes b s e (S.settle (S.react x b.device) l') s'' := by
  have hrun : run S.follow b.device (S.handles b e) = S.follow b.device x := by
    rw [hhandles]
    rfl
  have hnone : s.connected = false → s'.connected → S.Opens b e s' := fun hc hc' =>
    absurd (hsaid hc').1 (by simp [hc])
  by_cases hx : (S.react x b.device).exit = .returned
  · have hsettle : S.settle (S.react x b.device) l' = ⟨(S.react x b.device).device, l'⟩ := if_pos hx
    have hdevice : S.follow b.device x = (S.react x b.device).device := if_pos hx
    rw [hsettle] at hact ⊢
    refine ⟨s', hact, hl, hdevice.symm.trans hrun.symm, hhandles ▸ hown, hhandles ▸ hmessages,
      hkeep, fun _ hc' => ?_, hnone⟩
    obtain ⟨-, hsent, hnew⟩ := hsaid hc'
    refine ⟨?_, new, acks, hsent, ?_⟩
    · rw [hhandles]
      exact ⟨hx, trivial⟩
    · rwa [hhandles, said, said, List.append_nil]
  · have hsettle : S.settle (S.react x b.device) l' =
        ⟨S.reboot (S.react x b.device).device, .initial l'.client.buffer⟩ := if_neg hx
    have hdevice : S.follow b.device x = S.reboot (S.react x b.device).device := if_neg hx
    rw [hsettle] at hact ⊢
    refine ⟨.initial, hact, initial_follows _, hdevice.symm.trans hrun.symm, hhandles ▸ hown, ?_,
      rfl, nofun, nofun⟩
    rw [hhandles]
    show ([x].filterMap S.message ++ []).Sublist _
    rw [List.append_nil]
    exact (List.sublist_append_left _ _).trans hmessages

/-- The client has worked without calling the sketch. -/
theorem goes_keep {new : List ControlPacket} {acks : List UInt16}
    (hact : S.act b e = .ok { b with link := l' }) (hhandles : S.handles b e = [])
    (hl : Follows l' s') (hkeep : s'.keepAlive = 15) (hown : e.own? = none)
    (hmessages : (s'.queue.filterMap content).Sublist
      (s.queue.filterMap content ++ e.arrived.filterMap content))
    (hsaid : s.connected → s'.connected → s'.sent = s.sent ++ new ∧ Output new acks [])
    (hopens : s.connected = false → s'.connected → S.Opens b e s') :
    S.Goes b s e { b with link := l' } s' where
  act_eq := hact
  follows := hl
  device_eq := by rw [hhandles, run_nil]
  own_eq := by rw [hhandles, hown]; rfl
  messages := by rwa [hhandles]
  keepAlive_eq := hkeep
  speaks hc hc' := by
    obtain ⟨hsent, hnew⟩ := hsaid hc hc'
    refine ⟨?_, new, acks, hsent, ?_⟩
    · rw [hhandles]
      exact trivial
    · rwa [hhandles]
  opens := hopens

/-- It has written nothing. -/
theorem goes_rest (hact : S.act b e = .ok { b with link := l' }) (hhandles : S.handles b e = [])
    (hl : Follows l' s') (hkeep : s'.keepAlive = 15) (hown : e.own? = none)
    (hmessages : (s'.queue.filterMap content).Sublist
      (s.queue.filterMap content ++ e.arrived.filterMap content))
    (hsent : s.connected → s'.connected → s'.sent = s.sent)
    (hopens : s.connected = false → s'.connected → S.Opens b e s') :
    S.Goes b s e { b with link := l' } s' :=
  goes_keep hact hhandles hl hkeep hown hmessages
    (fun hc hc' => ⟨(hsent hc hc').trans (List.append_nil _).symm, .nil⟩) hopens

/-- An event of the device itself. -/
theorem own_goes (h : Follows b.link s) (hkeep : s.keepAlive = 15) (x : E)
    (hx : S.message x = none) (now : UInt32) : ∃ b' s', S.Goes b s (.own x hx now) b' s' := by
  obtain ⟨l', hall, hl, -⟩ := h.publishAll (S.react x b.device).calls now
  have hact : S.act b (.own x hx now) = .ok (S.settle (S.react x b.device) l') := by
    rw [act, hall]
    rfl
  have hown : [x].filter (fun e => (S.message e).isNone) =
      (Event.own x hx now : S.Event).own?.toList := by
    simp [hx, Event.own?]
  have hmessages : ([x].filterMap S.message ++ s.queue.filterMap content).Sublist
      (s.queue.filterMap content ++ (Event.own x hx now : S.Event).arrived.filterMap content) := by
    rw [List.filterMap_cons_none hx]
    exact List.sublist_append_left _ _
  by_cases hc : s.connected
  · obtain ⟨new, lastOut, hpub, hnew, -⟩ := s.publishAll_eq hc (S.react x b.device).calls now
    rw [hpub] at hl
    obtain ⟨s', hgoes⟩ := goes_settle hact rfl hl hkeep hown hmessages fun _ => ⟨hc, rfl, hnew⟩
    exact ⟨_, s', hgoes⟩
  · rw [Session.publishAll_closed (by simpa using hc)] at hl
    have hsaid : s.connected → s.connected ∧ s.sent = s.sent ++ [] ∧
        Output [] [] ((S.react x b.device).calls.filterMap short) := fun hc' => absurd hc' hc
    obtain ⟨s', hgoes⟩ := goes_settle hact rfl hl hkeep hown hmessages hsaid
    exact ⟨_, s', hgoes⟩

/-- A call of `loop()`, with the callback if it has taken a message. -/
theorem loop_goes (h : Follows b.link s) (hkeep : s.keepAlive = 15) (now : UInt32) :
    ∃ b' s', S.Goes b s (.loop now) b' s' := by
  obtain ⟨ok, l', hloop, hl⟩ := h.loop (S.replies b.device) now
  have hhandles := handles_loop hloop
  by_cases hc : s.connected
  · obtain ⟨hclose, -⟩ | ⟨new, lastOut, lastIn, ping, heq, hnew, -⟩ :=
      s.loop_eq (S.replies b.device) hc now
    · rw [hclose] at hl
      have hnone := drop_delivered h hl (List.append_nil _).symm
      rw [hnone] at hhandles
      exact ⟨_, s.close, goes_rest (act_loop_quiet hloop hnone) hhandles hl hkeep rfl
        (List.nil_sublist _) nofun nofun⟩
    · rw [heq] at hl
      have hdrop := drop_delivered h hl rfl
      have hsublist := taken_sublist s.queue
      have hlength := taken_length_le s.queue
      rw [hdrop] at hhandles
      generalize (fitting (s.queue.take 1)).filterMap content = got at *
      match got, hlength with
      | [], _ =>
        exact ⟨_, _, goes_keep (act_loop_quiet hloop hdrop) hhandles hl hkeep rfl
          (hsublist.trans (List.sublist_append_left _ _)) (fun _ _ => ⟨rfl, hnew⟩)
          fun hc' => absurd hc (by simp [hc'])⟩
      | [m], _ =>
        have hmessage := S.message_mqtt m.1 m.2
        have hreplies : [m].flatMap (answers (S.replies b.device)) =
            (S.react (S.mqtt m.1 m.2) b.device).calls.filterMap short := List.append_nil _
        rw [hreplies] at hnew
        have hown : [S.mqtt m.1 m.2].filter (fun e => (S.message e).isNone) = [] := by
          simp [hmessage]
        have hmessages : ([S.mqtt m.1 m.2].filterMap S.message ++
            (s.queue.drop 1).filterMap content).Sublist (s.queue.filterMap content ++ []) := by
          rw [List.filterMap_cons_some hmessage, List.append_nil]
          exact hsublist
        obtain ⟨s', hgoes⟩ := goes_settle (act_loop_called hloop hdrop) hhandles hl hkeep hown
          hmessages fun _ => ⟨hc, rfl, hnew⟩
        exact ⟨_, s', hgoes⟩
  · have hsame : s.loop (S.replies b.device) now = s := s.loop_closed _ hc now
    rw [hsame] at hl
    have hnone := drop_delivered h hl (List.append_nil _).symm
    rw [hnone] at hhandles
    exact ⟨_, s, goes_rest (act_loop_quiet hloop hnone) hhandles hl hkeep rfl
      (List.sublist_append_left _ _) (fun hc' => absurd hc' hc) fun _ hc' => absurd hc' hc⟩

/-- An attempt to connect. -/
theorem reconnectMQTT_goes (h : Follows b.link s) (hkeep : s.keepAlive = 15) (id : CString)
    (opens : Bool) (reply : List ControlPacket) (now later : UInt32) :
    ∃ b' s', S.Goes b s (.reconnectMQTT id opens reply now later) b' s' := by
  obtain ⟨l', hcall, hl⟩ := h.reconnectMQTT (S.login id b.device) S.topics_short opens reply now
    later
  have hact : S.act b (.reconnectMQTT id opens reply now later) = .ok { b with link := l' } := by
    rw [act, hcall]
    rfl
  rw [Session.reconnectMQTT] at hl
  by_cases hc : s.connected
  · rw [if_pos hc] at hl
    exact ⟨_, s, goes_rest hact rfl hl hkeep rfl (List.sublist_append_left _ _)
      (fun _ _ => rfl) fun hc' => absurd hc (by simp [hc'])⟩
  rw [if_neg hc] at hl
  by_cases hconn : (s.connect (S.login id b.device) opens reply now later).connected
  · rw [if_pos hconn] at hl
    obtain ⟨p, queue, rfl, heq⟩ := Session.connect_eq (by simpa using hc) hconn
    rw [heq] at hl hconn
    obtain ⟨lastId, lastOut, hsubscribed⟩ := Session.subscribeAll_eq hconn S.topics_short later
    rw [hsubscribed] at hl
    refine ⟨_, _, goes_rest hact rfl hl hkeep rfl ?_
      (fun hc' => absurd hc' hc) fun _ _ => ⟨rfl, id, rfl, ?_⟩⟩
    · exact ((List.sublist_cons_self p queue).filterMap content).trans
        (List.sublist_append_right _ _)
    · rw [hkeep]
      rfl
  · rw [if_neg hconn] at hl
    have hqueue := hl.closed (by simpa using hconn)
    refine ⟨_, _, goes_rest hact rfl hl
      ((Session.connect_keepAlive _ _ _ _ _).trans hkeep) rfl ?_ (fun _ hc' => absurd hc' hconn)
      fun _ hc' => absurd hc' hconn⟩
    rw [hqueue]
    exact List.nil_sublist _

/-- A packet that arrives, which nobody hears if there is no connection. -/
theorem arrive_goes (h : Follows b.link s) (hkeep : s.keepAlive = 15) (p : ControlPacket) :
    ∃ b' s', S.Goes b s (.arrive p) b' s' := by
  obtain ⟨l', hreact, hl⟩ := react_follows (S.replies b.device) h (e := .arrive p) not_false
  have hact : S.act b (.arrive p) = .ok { b with link := l' } := by
    rw [act, hreact]
    rfl
  rw [Session.step] at hl
  by_cases hc : s.connected
  · rw [if_pos hc] at hl
    refine ⟨_, _, goes_rest hact rfl hl hkeep rfl ?_ (fun _ _ => rfl)
      fun hc' => absurd hc (by simp [hc'])⟩
    rw [List.filterMap_append]
    exact List.Sublist.refl _
  · rw [if_neg hc] at hl
    exact ⟨_, s, goes_rest hact rfl hl hkeep rfl
      (List.sublist_append_left _ _) (fun hc' => absurd hc' hc) fun _ hc' => absurd hc' hc⟩

/-- Every event is survived. -/
theorem act_goes (h : Follows b.link s) (hkeep : s.keepAlive = 15) (e : S.Event) :
    ∃ b' s', S.Goes b s e b' s' := by
  cases e with
  | own x hx now => exact own_goes h hkeep x hx now
  | reconnectMQTT id opens reply now later =>
    exact reconnectMQTT_goes h hkeep id opens reply now later
  | loop now => exact loop_goes h hkeep now
  | arrive p => exact arrive_goes h hkeep p
  | lose =>
    exact ⟨_, s.close, goes_rest rfl rfl h.stop hkeep rfl (List.nil_sublist _) nofun nofun⟩

/-- What a board has sent on the connection that it has been opened with as `b₁`: CONNECT with the
login in use, the subscriptions, and then what its handlers have published since, between
acknowledgments and pings. -/
structure Spoken (S : Sketch D E) (b₁ : Board D) (gs : List S.Event) (b : Board D) (id : CString)
    (rest : List ControlPacket) (s : Session) : Prop where
  device_eq : b.device = run S.follow b₁.device (S.handled (some b₁) gs)
  own_eq : (S.handled (some b₁) gs).filter (fun e => (S.message e).isNone) =
    gs.filterMap Event.own?
  sent_eq : s.sent = .connect ((S.login id b.device).toConnect 15) ::
    (subscriptions 1 S.topics ++ rest)
  said_eq : rest.filterMap content = S.said b₁.device (S.handled (some b₁) gs)
  /-- The board has not booted since. -/
  steady : S.Steady b₁.device (S.handled (some b₁) gs)
  isClient : ∀ p ∈ rest, IsClient p
  requests_eq : rest.filterMap requestId = []

/-- A board behind these events. -/
structure Holds (S : Sketch D E) (b₀ : Board D) (es : List S.Event) (b : Board D) (s : Session) :
    Prop where
  run_eq : run S.step (some b₀) es = some b
  follows : Follows b.link s
  device_eq : b.device = run S.follow b₀.device (S.handled (some b₀) es)
  own_eq : (S.handled (some b₀) es).filter (fun e => (S.message e).isNone) =
    es.filterMap Event.own?
  messages : ((S.handled (some b₀) es).filterMap S.message ++ s.queue.filterMap content).Sublist
    ((es.flatMap Event.arrived).filterMap content)
  keepAlive_eq : s.keepAlive = 15
  spoken : s.connected → ∃ fs e gs b₁ id rest, es = fs ++ e :: gs ∧
    S.OpenSince (some b₀) fs e gs b₁ ∧ e.clientId? = some id ∧ S.Spoken b₁ gs b id rest s

theorem Goes.step_eq (hg : S.Goes b s e b' s') : S.step (some b) e = some b' := step_act hg.act_eq

/-- What one more event hands to the device. -/
theorem handled_concat {b₀ : Option (Board D)} {es : List S.Event} (h : run S.step b₀ es = some b)
    (e : S.Event) : S.handled b₀ (es ++ [e]) = S.handled b₀ es ++ S.handles b e := by
  rw [handled_append, h]
  exact congrArg (S.handled b₀ es ++ ·) (List.append_nil _)

/-- A connection that stays open over one more event. -/
theorem Spoken.goes {b₁ : Board D} {gs : List S.Event} {id : CString} {rest : List ControlPacket}
    (h : S.Spoken b₁ gs b id rest s) (hrun : run S.step (some b₁) gs = some b)
    (hg : S.Goes b s e b' s') (hspeaks : S.Speaks b s e s') :
    ∃ rest', S.Spoken b₁ (gs ++ [e]) b' id rest' s' := by
  obtain ⟨hsteady, new, acks, hsent, hnew⟩ := hspeaks
  have hlogin : S.login id b'.device = S.login id b.device := by
    rw [hg.device_eq, login_run S hsteady]
  have hconcat := handled_concat hrun e
  refine ⟨rest ++ new, ?_, ?_, ?_, ?_, ?_, ?_, ?_⟩
  · rw [hconcat, run_append, ← h.device_eq, hg.device_eq]
  · rw [hconcat, List.filter_append, h.own_eq, hg.own_eq, List.filterMap_append, filterMap_one]
  · rw [hsent, h.sent_eq, hlogin, List.cons_append, List.append_assoc]
  · rw [hconcat, said_append, ← h.device_eq, List.filterMap_append, h.said_eq, hnew.said_eq]
  · rw [hconcat]
    refine along_append.mpr ⟨h.steady, ?_⟩
    rw [← h.device_eq]
    exact hsteady
  · exact fun p hp => (List.mem_append.mp hp).elim (h.isClient p) (hnew.isClient p)
  · rw [List.filterMap_append, h.requests_eq, hnew.requests_eq, List.append_nil]

/-- It stays open until it is closed. -/
theorem OpenSince.goes {b₀ : Option (Board D)} {fs : List S.Event} {e₁ : S.Event}
    {gs : List S.Event} {b₁ : Board D} (h : S.OpenSince b₀ fs e₁ gs b₁)
    (hrun : run S.step (some b₁) gs = some b) (hg : S.Goes b s e b' s') (hc : s'.connected) :
    S.OpenSince b₀ fs e₁ (gs ++ [e]) b₁ where
  closed := h.closed
  step_eq := h.step_eq
  stays := by
    refine always_concat.mpr ⟨h.stays, ?_⟩
    rw [hrun, hg.step_eq]
    exact hg.follows.isOpen_eq.trans hc

theorem Holds.goes {b₀ : Board D} {es : List S.Event} (h : S.Holds b₀ es b s)
    (hg : S.Goes b s e b' s') : S.Holds b₀ (es ++ [e]) b' s' where
  run_eq := by rw [run_append, h.run_eq, run_cons, run_nil, hg.step_eq]
  follows := hg.follows
  device_eq := by rw [handled_concat h.run_eq, run_append, ← h.device_eq, hg.device_eq]
  own_eq := by
    rw [handled_concat h.run_eq, List.filter_append, h.own_eq, hg.own_eq, List.filterMap_append,
      filterMap_one]
  messages := by
    rw [handled_concat h.run_eq, List.filterMap_append, List.append_assoc, List.flatMap_append,
      List.flatMap_singleton, List.filterMap_append]
    refine (hg.messages.append_left _).trans ?_
    rw [← List.append_assoc]
    exact h.messages.append_right _
  keepAlive_eq := hg.keepAlive_eq
  spoken hc' := by
    by_cases hc : s.connected
    · obtain ⟨fs, e₁, gs, b₁, id, rest, rfl, hopen, hid, hspoken⟩ := h.spoken hc
      have hrun : run S.step (some b₁) gs = some b := by
        have hall := h.run_eq
        rwa [run_append, run_cons, hopen.step_eq] at hall
      obtain ⟨rest', hspoken'⟩ := hspoken.goes hrun hg (hg.speaks hc hc')
      exact ⟨fs, e₁, gs ++ [e], b₁, id, rest', by simp, hopen.goes hrun hg hc', hid, hspoken'⟩
    · have hclosed : s.connected = false := by simpa using hc
      obtain ⟨hhandles, id, hid, hsent⟩ := hg.opens hclosed hc'
      have hsame : b'.device = b.device := by rw [hg.device_eq, hhandles, run_nil]
      refine ⟨es, e, [], b', id, [], rfl, ⟨?_, ?_, ?_⟩, hid, rfl, rfl, ?_, rfl, trivial, nofun, rfl⟩
      · rw [h.run_eq, Option.any_some, h.follows.isOpen_eq, hclosed]
        decide
      · rw [h.run_eq, hg.step_eq]
      · exact always_iff.mpr ⟨hg.follows.isOpen_eq.trans hc', trivial⟩
      · rw [hsent, hsame, List.append_nil]

/-- No run of a board ever stores behind the buffer of its client, and what holds of a board holds
after every run. -/
theorem run_holds (S : Sketch D E) (d : D) (buffer : Memory) (es : List S.Event) :
    ∃ b s, S.Holds (.start d buffer) es b s := by
  induction es using List.reverseRecOn with
  | nil => exact ⟨_, .initial, rfl, initial_follows buffer, rfl, rfl, .refl _, rfl, nofun⟩
  | append_singleton es e ih =>
    obtain ⟨b, s, h⟩ := ih
    obtain ⟨b', s', hg⟩ := act_goes h.follows h.keepAlive_eq e
    exact ⟨b', s', h.goes hg⟩

/-- What the broker has read on an open connection. -/
theorem Holds.read {b₀ : Board D} {es : List S.Event} (h : S.Holds b₀ es b s)
    (hopen : b.link.isOpen) :
    ∃ fs e gs b₁ id rest, es = fs ++ e :: gs ∧ S.OpenSince (some b₀) fs e gs b₁ ∧
      e.clientId? = some id ∧ S.Spoken b₁ gs b id rest s ∧
      packet.decodeAll b.link.sent = .connect ((S.login id b.device).toConnect 15) ::
        (subscriptions 1 S.topics ++ rest) := by
  obtain ⟨fs, e, gs, b₁, id, rest, hsplit, hsince, hid, hspoken⟩ :=
    h.spoken (h.follows.isOpen_eq.symm.trans hopen)
  refine ⟨fs, e, gs, b₁, id, rest, hsplit, hsince, hid, hspoken, ?_⟩
  rw [← hspoken.sent_eq, h.follows.sent_eq]
  exact (packet.decodeAll_part packet_nil List.prefix_rfl).2 rfl

/-- Without a connection the device is handed its own events only. -/
theorem run_closed {gs : List S.Event} (h : Follows b.link s) (hkeep : s.keepAlive = 15)
    (hclosed : Always S.step (fun b => ¬ b.any (fun b => b.link.isOpen)) (some b) gs) :
    ∃ b' s', run S.step (some b) gs = some b' ∧ Follows b'.link s' ∧ s'.keepAlive = 15 ∧
      s'.connected = false ∧ b'.device = run S.follow b.device (gs.filterMap Event.own?) := by
  induction gs generalizing b s with
  | nil =>
    have hshut := hclosed [] [] rfl
    rw [run_nil, Option.any_some, h.isOpen_eq] at hshut
    exact ⟨b, s, rfl, h, hkeep, by simpa using hshut, rfl⟩
  | cons e gs ih =>
    obtain ⟨hshut, hrest⟩ := always_iff.mp hclosed
    rw [Option.any_some, h.isOpen_eq] at hshut
    obtain ⟨b₁, s₁, hg⟩ := act_goes h hkeep e
    have hstep := hg.step_eq
    obtain ⟨b', s', hrun, hl, hkeep', hc', hdevice⟩ := ih hg.follows hg.keepAlive_eq
      (hstep ▸ always_iff.mpr hrest)
    refine ⟨b', s', by rw [run_cons, hstep, hrun], hl, hkeep', hc', ?_⟩
    rw [hdevice, hg.device_eq, handles_closed h (by simpa using hshut) e, ← run_append]
    cases e <;> rfl

/-- A message that arrives when nothing waits is handed to the callback by the next `loop()`,
unless that gives up the connection. -/
theorem run_called (S : Sketch D E) (h : Follows b.link s) (hopen : b.link.isOpen)
    (hidle : b.link.input = []) {m : Publish} (hfits : Fits (.publish m)) {now : UInt32}
    (hdue : ¬ (Link.Client.isDue b.link.client now ∧ b.link.client.pingOutstanding)) :
    ∃ l' new, run S.step (some b) [.arrive (.publish m), .loop now] =
        some (S.settle (S.react (S.mqtt m.topic m.payload) b.device) l') ∧ l'.isOpen ∧
      packet.decodeAll l'.sent = packet.decodeAll b.link.sent ++ new ∧
      Output new m.id.toList
        ((S.react (S.mqtt m.topic m.payload) b.device).calls.filterMap short) := by
  obtain ⟨l₁, hreact, h₁⟩ :=
    react_follows (S.replies b.device) h (e := .arrive (.publish m)) not_false
  have hc : s.connected := h.isOpen_eq.symm.trans hopen
  rw [Session.step, if_pos hc, queue_nil h hidle] at h₁
  rw [h.isDue, h.ping_eq] at hdue
  obtain ⟨ok, l₂, hloop, h₂⟩ := h₁.loop (S.replies b.device) now
  have hact : S.act b (.arrive (.publish m)) = .ok { b with link := l₁ } := by
    rw [act, hreact]
    rfl
  obtain ⟨-, hgiven⟩ | ⟨new, lastOut, lastIn, ping, heq, hnew, -⟩ :=
    Session.loop_eq (s := { s with queue := [] ++ [.publish m] }) (S.replies b.device) hc now
  · exact absurd hgiven hdue
  · have hfit : fitting (([] ++ [ControlPacket.publish m]).take 1) = [.publish m] :=
      List.filter_cons_of_pos (by simpa using hfits)
    rw [heq] at h₂
    dsimp only at h₂ hnew
    rw [hfit] at h₂ hnew
    have hone := drop_delivered h₁ h₂ rfl
    have hids : [ControlPacket.publish m].filterMap awaitedId = m.id.toList := filterMap_one _ _
    have hsaid :
        ([ControlPacket.publish m].filterMap content).flatMap (answers (S.replies b.device)) =
          (S.react (S.mqtt m.topic m.payload) b.device).calls.filterMap short := List.append_nil _
    rw [hids, hsaid] at hnew
    refine ⟨l₂, new, ?_, h₂.isOpen_eq.trans hc, ?_, hnew⟩
    · rw [run_cons, step_act hact, run_cons, step_act (act_loop_called hloop hone)]
      rfl
    · rw [h₂.sent_eq, h.sent_eq, (packet.decodeAll_part packet_nil List.prefix_rfl).2 rfl,
        (packet.decodeAll_part packet_nil List.prefix_rfl).2 rfl]

/-- A board without a connection connects if its CONNECT fits and the broker accepts it. -/
theorem run_connected (S : Sketch D E) (h : Follows b.link s) (hc : s.connected = false)
    (hkeep : s.keepAlive = 15) (id : CString) {p : ControlPacket} (hp : Accepts p)
    (queue : List ControlPacket) (hbody : ((S.login id b.device).toConnect 15).body.length ≤ 251)
    (now later : UInt32) :
    ∃ l', run S.step (some b) [.reconnectMQTT id true (p :: queue) now later] =
        some ⟨b.device, l'⟩ ∧ l'.isOpen ∧
      packet.decodeAll l'.sent =
        .connect ((S.login id b.device).toConnect 15) :: subscriptions 1 S.topics := by
  obtain ⟨l', hcall, hl⟩ := h.reconnectMQTT (S.login id b.device) S.topics_short true (p :: queue)
    now later
  have hact : S.act b (.reconnectMQTT id true (p :: queue) now later) = .ok ⟨b.device, l'⟩ := by
    rw [act, hcall]
    rfl
  have hconnect : s.connect (S.login id b.device) true (p :: queue) now later =
      { s with
        connected := true, lastId := 1, lastOut := now, lastIn := later, pingOutstanding := false
        queue, sent := [.connect ((S.login id b.device).toConnect 15)] } := by
    rw [Session.connect, if_neg (by simp [hc])]
    dsimp only
    rw [hkeep, if_pos hbody, Session.answered, if_pos hp]
  rw [Session.reconnectMQTT, hconnect, if_neg (by simp [hc])] at hl
  obtain ⟨lastId, lastOut, hall⟩ := Session.subscribeAll_eq (s := { s with
    connected := true, lastId := 1, lastOut := now, lastIn := later, pingOutstanding := false
    queue, sent := [.connect ((S.login id b.device).toConnect 15)] }) rfl S.topics_short later
  simp only [if_true] at hl hall
  rw [hall] at hl
  refine ⟨l', step_act hact, hl.isOpen_eq, ?_⟩
  rw [hl.sent_eq]
  exact (packet.decodeAll_part packet_nil List.prefix_rfl).2 rfl

end Sketch
end Esp32Automation
