import Esp32Automation.MqttRead
import Esp32Automation.MqttWrite
import Esp32Automation.Subscriptions

/-!
# PubSubClient: the calls

The client with its connection: what it has written on the connection, what has arrived on it
and has not been read, and the calls of the callback. Each call is followed as the source has
it, over the buffer; `none` is a call that has stored behind the buffer. The network client
takes all bytes it is given as long as it is connected; a network that breaks has taken a
beginning of them. What arrives are well-formed packets. The callback publishes what `replies`
says. `millis()` is the same throughout one call, except in `connect`, which waits for the answer
of the broker.
-/
namespace Esp32Automation.MqttClient
open PubSubClient Mqtt
open Subscriptions (mqttConnectionTimeout mqttConnectionLost mqttConnectFailed mqttDisconnected
  mqttConnected)

/-- The members of `PubSubClient` that change. -/
structure Client where
  buffer : Memory
  state : ℤ
  /-- Seconds. -/
  keepAlive : UInt16
  nextMsgId : UInt16
  lastOutActivity : UInt32
  lastInActivity : UInt32
  pingOutstanding : Bool

/-- A client, its network client and its callback. -/
structure Link where
  client : Client
  /-- `_client->connected()`. -/
  isOpen : Bool
  /-- What `_client->read()` will return. -/
  input : List UInt8
  /-- Everything that was given to `_client->write` on this connection. -/
  sent : List UInt8
  /-- The calls of `callback` so far. -/
  delivered : List (CString × List UInt8)

structure Message where
  topic : CString
  payload : List UInt8
  retained : Bool

namespace Link

/-- A global `PubSubClient`, after its constructor. -/
def initial (buffer : Memory) : Link where
  client := ⟨buffer, mqttDisconnected, 15, 0, 0, 0, false⟩
  isOpen := false
  input := []
  sent := []
  delivered := []

/-- `_client->stop()`. -/
def stop (l : Link) : Link := { l with isOpen := false, input := [] }

/-- `connected()`. -/
def connected (l : Link) : Bool × Link :=
  if l.isOpen then (l.client.state = mqttConnected, l)
  else if l.client.state = mqttConnected then
    (false, stop { l with client := { l.client with state := mqttConnectionLost } })
  else (false, l)

/-- `_client->write(buf, n)`, which is complete as long as the connection is open. -/
def send (bytes : List UInt8) (l : Link) : Link :=
  if l.isOpen then { l with sent := l.sent ++ bytes } else l

/-- `write(header, buf, length)`. The count of bytes is that of the whole packet if the connection
is open. -/
def write (header : UInt8) (buf : Memory) (length : ℕ) (now : UInt32) (l : Link) :
    Except Fault (Bool × Link) := do
  let (buf, bytes) ← writePacket header buf length
  return (l.isOpen,
    send bytes { l with client := { l.client with buffer := buf, lastOutActivity := now } })

/-- A packet without body, or an acknowledgment, which is put in the buffer from its start. -/
def sendShort (bytes : List UInt8) (l : Link) : Except Fault Link := do
  let (buf, n) ← writeBytes bytes l.client.buffer 0
  return send (buf.bytes.take n) { l with client := { l.client with buffer := buf } }

/-- `publish(topic, payload, plength, retained)`. -/
def publish (m : Message) (now : UInt32) (l : Link) : Except Fault (Bool × Link) :=
  let (alive, l) := l.connected
  if alive then
    if bufferSize < maxHeaderSize + 2 + min m.topic.length bufferSize + m.payload.length then
      .ok (false, l)
    else do
      let (buf, length) ← writeString m.topic l.client.buffer maxHeaderSize
      let (buf, length) ← writeBytes m.payload buf length
      l.write (publishHeader m.retained) buf (length - maxHeaderSize) now
  else .ok (false, l)

/-- `nextMsgId++; if (nextMsgId == 0) nextMsgId = 1;` -/
def nextId (n : UInt16) : UInt16 := if n + 1 = 0 then 1 else n + 1

/-- `subscribe(topic, qos)`. -/
def subscribe (topic : CString) (qos : UInt8) (now : UInt32) (l : Link) :
    Except Fault (Bool × Link) :=
  if 1 < qos then .ok (false, l)
  else if bufferSize < 9 + min topic.length bufferSize then .ok (false, l)
  else
    let (alive, l) := l.connected
    if alive then do
      let id := nextId l.client.nextMsgId
      let l := { l with client := { l.client with nextMsgId := id } }
      let (buf, length) ← writeBytes [UInt8.ofNat (id.toNat / 256), UInt8.ofNat (id.toNat % 256)]
        l.client.buffer maxHeaderSize
      let (buf, length) ← writeString topic buf length
      let (buf, length) ← writeBytes [qos] buf length
      l.write 0x82 buf (length - maxHeaderSize) now
    else .ok (false, l)

/-- `unsubscribe(topic)`. -/
def unsubscribe (topic : CString) (now : UInt32) (l : Link) : Except Fault (Bool × Link) :=
  if bufferSize < 9 + min topic.length bufferSize then .ok (false, l)
  else
    let (alive, l) := l.connected
    if alive then do
      let id := nextId l.client.nextMsgId
      let l := { l with client := { l.client with nextMsgId := id } }
      let (buf, length) ← writeBytes [UInt8.ofNat (id.toNat / 256), UInt8.ofNat (id.toNat % 256)]
        l.client.buffer maxHeaderSize
      let (buf, length) ← writeString topic buf length
      l.write 0xA2 buf (length - maxHeaderSize) now
    else .ok (false, l)

/-- `disconnect()`. -/
def disconnect (now : UInt32) (l : Link) : Except Fault Link := do
  let l ← l.sendShort [0xE0, 0]
  return stop { l with client := { l.client with
    state := mqttDisconnected, lastInActivity := now, lastOutActivity := now } }

/-- `connect` behind the CONNECT packet: the first packet that arrives decides. -/
def awaitConnack (later : UInt32) (l : Link) : Bool × Link :=
  if l.input = [] then
    (false, stop { l with client := { l.client with state := mqttConnectionTimeout } })
  else match readPacket l.client.buffer l.input with
    | .error .timeout => (false, stop l)
    | .error .badLength =>
      (false, stop { l with client := { l.client with state := mqttDisconnected } })
    | .ok p =>
      let c := { l.client with buffer := p.buffer }
      if p.len = 4 then
        if byteAt p.buffer 3 = 0 then
          (true, { l with
            input := p.input
            client := { c with
              lastInActivity := later, pingOutstanding := false, state := mqttConnected } })
        else (false, stop { l with client := { c with state := byteAt p.buffer 3 } })
      else (false, stop { l with client := c })

/-- `connect(id, user, pass, ..)`; `opens` is the answer of `_client->connect`, and `reply` is
what arrives within the socket timeout. -/
def connect (a : ConnectArgs) (opens : Bool) (reply : List UInt8) (now later : UInt32)
    (l : Link) : Except Fault (Bool × Link) :=
  let (alive, l) := l.connected
  if alive then .ok (true, l)
  else if l.isOpen || opens then
    let l := if l.isOpen then l else { l with isOpen := true, input := [], sent := [] }
    let l := { l with client := { l.client with nextMsgId := 1 } }
    match a.writeBody l.client.keepAlive l.client.buffer with
    | .error .tooLong => .ok (false, stop l)
    | .error .outside => .error .outside
    | .ok (buf, length) => do
      let (_, l) ← l.write 0x10 buf (length - maxHeaderSize) now
      return awaitConnack later { l with
        input := l.input ++ reply
        client := { l.client with lastInActivity := now, lastOutActivity := now } }
  else .ok (false, { l with client := { l.client with state := mqttConnectFailed } })

/-- The callback publishes. -/
def publishAll (ms : List Message) (now : UInt32) (l : Link) : Except Fault Link :=
  ms.foldlM (fun l m => (l.publish m now).map Prod.snd) l

section Loop
variable (replies : CString → List UInt8 → List Message)

/-- What `loop()` does with a packet in the buffer. -/
def handle (p : Packet) (now : UInt32) (l : Link) : Except Fault Link :=
  let header := p.buffer.bytes.head?.getD 0
  if header &&& 0xF0 = 0x30 then
    match dispatch p with
    | .callback topic payload => do
      let l := { l with delivered := l.delivered ++ [(topic, payload)] }
      let l ← l.publishAll (replies topic payload) now
      if header &&& 0x06 = 0x02 then
        let tl := byteAt p.buffer (p.lengthLength + 1) * 256 + byteAt p.buffer (p.lengthLength + 2)
        let msgId := byteAt p.buffer (p.lengthLength + 3 + tl) * 256 +
          byteAt p.buffer (p.lengthLength + 3 + tl + 1)
        let l ← l.sendShort [0x40, 2, UInt8.ofNat (msgId / 256), UInt8.ofNat (msgId % 256)]
        return { l with client := { l.client with lastOutActivity := now } }
      else return l
    -- The topic ends behind the packet, where the source stores its terminator.
    | _ => .error .outside
  else if header &&& 0xF0 = 0xC0 then l.sendShort [0xD0, 0]
  else if header &&& 0xF0 = 0xD0 then
    .ok { l with client := { l.client with pingOutstanding := false } }
  else .ok l

/-- `loop()` from `if (_client->available())` on. -/
def receive (now : UInt32) (l : Link) : Except Fault (Bool × Link) :=
  if l.input = [] then .ok (true, l)
  else match readPacket l.client.buffer l.input with
    | .error .timeout => .ok (connected { l with input := [] })
    | .error .badLength =>
      .ok (connected (stop { l with client := { l.client with state := mqttDisconnected } }))
    | .ok p =>
      let l := { l with client := { l.client with buffer := p.buffer }, input := p.input }
      if p.len = 0 then .ok l.connected
      else do
        let l ← handle replies p now { l with client := { l.client with lastInActivity := now } }
        return (true, l)

/-- More than `keepAlive` seconds have passed since the last packet in or out. -/
def Client.isDue (c : Client) (now : UInt32) : Bool :=
  c.keepAlive.toUInt32 * 1000 < now - c.lastInActivity ||
    c.keepAlive.toUInt32 * 1000 < now - c.lastOutActivity

/-- `loop()`. -/
def loop (now : UInt32) (l : Link) : Except Fault (Bool × Link) :=
  let (alive, l) := l.connected
  if !alive then .ok (false, l)
  else if Client.isDue l.client now then
    if l.client.pingOutstanding then
      .ok (false, stop { l with client := { l.client with state := mqttConnectionTimeout } })
    else do
      let l ← l.sendShort [0xC0, 0]
      receive replies now { l with client := { l.client with
        lastOutActivity := now, lastInActivity := now, pingOutstanding := true } }
  else receive replies now l

end Loop
end Link

/-- What happens to a client: its calls, a packet of the broker that arrives, and the end of the
connection. -/
inductive Event where
  | connect (a : ConnectArgs) (opens : Bool) (reply : List ControlPacket) (now later : UInt32)
  | publish (m : Message) (now : UInt32)
  | subscribe (topic : CString) (qos : UInt8) (now : UInt32)
  | unsubscribe (topic : CString) (now : UInt32)
  | disconnect (now : UInt32)
  | loop (now : UInt32)
  | arrive (p : ControlPacket)
  | lose

/-- One event, packets arriving as bytes. -/
def Link.react (replies : CString → List UInt8 → List Message) (l : Link) :
    Event → Except Fault Link
  | .connect a opens reply now later =>
    (l.connect a opens (reply.flatMap packet.encode) now later).map Prod.snd
  | .publish m now => (l.publish m now).map Prod.snd
  | .subscribe topic qos now => (l.subscribe topic qos now).map Prod.snd
  | .unsubscribe topic now => (l.unsubscribe topic now).map Prod.snd
  | .disconnect now => l.disconnect now
  | .loop now => (l.loop replies now).map Prod.snd
  | .arrive p => .ok (if l.isOpen then { l with input := l.input ++ packet.encode p } else l)
  | .lose => .ok l.stop

def Link.step (replies : CString → List UInt8 → List Message) (l : Option Link) (e : Event) :
    Option Link :=
  l.bind fun l => (l.react replies e).toOption

end Esp32Automation.MqttClient
