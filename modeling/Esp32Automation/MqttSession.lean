import Esp32Automation.MqttClient

/-!
# The session behind the calls of PubSubClient

What the client is for, without its buffer and without bytes: it has sent packets, packets wait
to be handled one in each `loop()`, and messages have been delivered.
-/
namespace Esp32Automation.MqttClient
open PubSubClient Mqtt

structure Session where
  connected : Bool
  keepAlive : UInt16
  /-- The id of the last request. -/
  lastId : UInt16
  lastOut : UInt32
  lastIn : UInt32
  pingOutstanding : Bool
  /-- Packets of the broker that have not been handled. -/
  queue : List ControlPacket
  /-- The packets of this connection. -/
  sent : List ControlPacket
  delivered : List (CString × List UInt8)

/-- A message that `publish` accepts, as a packet. -/
def Message.toPublish (m : Message) (h : m.topic.length + m.payload.length ≤ 249) : Publish where
  dup := false
  retain := m.retained
  id := none
  topic := m.topic
  payload := m.payload
  topic_lt := by omega
  remaining_lt := by
    have hid : (idBytes none).length = 0 := rfl
    rw [hid]
    omega

/-- The packet fits the buffer of the client. -/
def Fits (p : ControlPacket) : Prop := (packet.encode p).length ≤ bufferSize

instance (p : ControlPacket) : Decidable (Fits p) :=
  inferInstanceAs (Decidable ((packet.encode p).length ≤ bufferSize))

/-- What `connect` takes for the consent of the broker: any packet of four bytes whose last is
zero, such as a CONNACK with this code. -/
def Accepts (p : ControlPacket) : Prop :=
  (packet.encode p).length = 4 ∧ (packet.encode p)[3]? = some 0

instance (p : ControlPacket) : Decidable (Accepts p) :=
  inferInstanceAs (Decidable (_ ∧ _))

namespace Session

def initial : Session := ⟨false, 15, 0, 0, 0, false, [], [], []⟩

def close (s : Session) : Session := { s with connected := false, queue := [] }

def publish (m : Message) (now : UInt32) (s : Session) : Session :=
  if s.connected then
    if h : m.topic.length + m.payload.length ≤ 249 then
      { s with sent := s.sent ++ [.publish (m.toPublish h)], lastOut := now }
    else s
  else s

def subscribe (topic : CString) (qos : UInt8) (now : UInt32) (s : Session) : Session :=
  if qos ≤ 1 ∧ topic.length ≤ 247 ∧ s.connected then
    { s with
      lastId := Link.nextId s.lastId
      sent := s.sent ++ [.subscribe (Link.nextId s.lastId) (.cut topic) qos]
      lastOut := now }
  else s

def unsubscribe (topic : CString) (now : UInt32) (s : Session) : Session :=
  if topic.length ≤ 247 ∧ s.connected then
    { s with
      lastId := Link.nextId s.lastId
      sent := s.sent ++ [.unsubscribe (Link.nextId s.lastId) (.cut topic)]
      lastOut := now }
  else s

def disconnect (now : UInt32) (s : Session) : Session :=
  close { s with
    sent := if s.connected then s.sent ++ [.disconnect] else s.sent
    lastOut := now
    lastIn := now }

/-- The first packet of the answer to CONNECT decides. -/
def answered (reply : List ControlPacket) (later : UInt32) (s : Session) : Session :=
  match reply with
  | [] => s
  | p :: queue =>
    if Accepts p then
      { s with connected := true, queue, lastIn := later, pingOutstanding := false }
    else s

/-- The CONNECT packet goes out unless it is too long for the buffer. -/
def connect (a : ConnectArgs) (opens : Bool) (reply : List ControlPacket) (now later : UInt32)
    (s : Session) : Session :=
  if s.connected ∨ ¬ opens then s
  else
    let s := { s with sent := [], queue := [], lastId := 1 }
    if (a.toConnect s.keepAlive).body.length ≤ 251 then
      answered reply later { s with
        sent := [.connect (a.toConnect s.keepAlive)], lastOut := now, lastIn := now }
    else s

def publishAll (ms : List Message) (now : UInt32) (s : Session) : Session :=
  ms.foldl (fun s m => s.publish m now) s

section Loop
variable (replies : CString → List UInt8 → List Message)

/-- One packet. -/
def handle (p : ControlPacket) (now : UInt32) (s : Session) : Session :=
  match p with
  | .publish m =>
    let s := { s with delivered := s.delivered ++ [(m.topic, m.payload)] }
    let s := s.publishAll (replies m.topic m.payload) now
    match m.id with
    | none => s
    | some id => { s with sent := s.sent ++ [.puback id], lastOut := now }
  | .pingreq => { s with sent := s.sent ++ [.pingresp] }
  | .pingresp => { s with pingOutstanding := false }
  | _ => s

/-- The first packet that waits is handled if it fits, and dropped if it does not. -/
def receive (now : UInt32) (s : Session) : Session :=
  match s.queue with
  | [] => s
  | p :: queue =>
    if Fits p then handle replies p now { s with queue, lastIn := now } else { s with queue }

def isDue (s : Session) (now : UInt32) : Bool :=
  s.keepAlive.toUInt32 * 1000 < now - s.lastIn || s.keepAlive.toUInt32 * 1000 < now - s.lastOut

def loop (now : UInt32) (s : Session) : Session :=
  if ¬ s.connected then s
  else if s.isDue now then
    if s.pingOutstanding then s.close
    else receive replies now { s with
      sent := s.sent ++ [.pingreq], lastOut := now, lastIn := now, pingOutstanding := true }
  else receive replies now s

def step (s : Session) : Event → Session
  | .connect a opens reply now later => s.connect a opens reply now later
  | .publish m now => s.publish m now
  | .subscribe topic qos now => s.subscribe topic qos now
  | .unsubscribe topic now => s.unsubscribe topic now
  | .disconnect now => s.disconnect now
  | .loop now => s.loop replies now
  | .arrive p => if s.connected then { s with queue := s.queue ++ [p] } else s
  | .lose => s.close

end Loop

/-- The next event stores a QoS behind the buffer. -/
def Overruns (s : Session) : Event → Prop
  | .subscribe topic qos _ => qos ≤ 1 ∧ topic.length = 247 ∧ s.connected
  | _ => False

end Session

end Esp32Automation.MqttClient
