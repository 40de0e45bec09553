import Esp32Automation.MqttSession

/-!
# PubSubClient: what each call sends

Every call that writes a packet puts its body in the buffer and sends the packet that the broker
is to see, header and all. `subscribe` needs one byte more than it asks for.
-/
namespace Esp32Automation.MqttClient
open PubSubClient Mqtt
open Subscriptions (mqttConnectFailed)

namespace Link

/-- `write` sends the packet whose body is in the buffer. -/
theorem write_packet {l : Link} (hopen : l.isOpen = true) (p : ControlPacket) {buf : Memory}
    {front : List UInt8} (h : front ++ (toFrame p).body <+: buf.bytes)
    (hfront : front.length = maxHeaderSize) {length : ℕ}
    (hlength : length = (front ++ (toFrame p).body).length) (now : UInt32) :
    ∃ buf', l.write (toFrame p).header buf (length - maxHeaderSize) now = .ok (true,
      { l with
        client := { l.client with buffer := buf', lastOutActivity := now }
        sent := l.sent ++ packet.encode p }) := by
  obtain ⟨buf', hwrite⟩ := writePacket_frame (toFrame p) h hfront
  have hbody : length - maxHeaderSize = (toFrame p).body.length := by
    rw [hlength, List.length_append, hfront, Nat.add_sub_cancel_left]
  refine ⟨buf', ?_⟩
  rw [write, hbody, hwrite]
  simp only [bind, Except.bind, pure, Except.pure, send, hopen, if_true]
  rfl

/-- Five bytes are left for the header. -/
theorem take_header (buf : Memory) : (buf.bytes.take maxHeaderSize).length = maxHeaderSize := by
  rw [List.length_take, buf.length_eq]
  rfl

theorem publish_header (m : Message) (h : m.topic.length + m.payload.length ≤ 249) :
    (toFrame (.publish (m.toPublish h))).header = publishHeader m.retained := by
  show (m.toPublish h).header = _
  cases hretained : m.retained with
  | false => simp [Message.toPublish, Publish.header, publishHeader, hretained]
  | true =>
    simp [Message.toPublish, Publish.header, publishHeader, hretained]
    decide

/-- What `publish` sends. -/
theorem publish_sends {l : Link} (hconn : l.connected = (true, l)) (hopen : l.isOpen = true)
    (m : Message) (h : m.topic.length + m.payload.length ≤ 249) (now : UInt32) :
    ∃ buf', l.publish m now = .ok (true,
      { l with
        client := { l.client with buffer := buf', lastOutActivity := now }
        sent := l.sent ++ packet.encode (.publish (m.toPublish h)) }) := by
  have hsize : bufferSize = 256 := rfl
  have hmax : maxHeaderSize = 5 := rfl
  have hroom : ¬ bufferSize < maxHeaderSize + 2 + min m.topic.length bufferSize +
      m.payload.length := by omega
  have hfront := take_header l.client.buffer
  have hshort : m.topic.length < 65536 := by omega
  obtain ⟨buf₁, hwrite₁, h₁⟩ := writeString_next
    (List.take_prefix maxHeaderSize l.client.buffer.bytes) (by rw [hfront]; omega) hshort
  have hlen₁ : (l.client.buffer.bytes.take maxHeaderSize ++
      text.encode ⟨m.topic, hshort⟩).length = maxHeaderSize + 2 + m.topic.length := by
    rw [List.length_append, hfront, text_length, Nat.add_assoc]
  have hfit₂ : (l.client.buffer.bytes.take maxHeaderSize ++
      text.encode ⟨m.topic, hshort⟩).length + m.payload.length ≤ bufferSize := by
    rw [hlen₁]
    omega
  obtain ⟨buf₂, hwrite₂, h₂⟩ := writeBytes_next h₁ hfit₂
  rw [List.append_assoc] at h₂
  have hlen₂ : maxHeaderSize + 2 + m.topic.length + m.payload.length =
      (l.client.buffer.bytes.take maxHeaderSize ++
        (toFrame (.publish (m.toPublish h))).body).length := by
    rw [← hlen₁, ← List.length_append, List.append_assoc]
    rfl
  rw [hlen₁] at hwrite₂
  rw [hfront] at hwrite₁
  obtain ⟨buf₃, hwrite₃⟩ := write_packet hopen (.publish (m.toPublish h)) h₂ hfront hlen₂ now
  refine ⟨buf₃, ?_⟩
  rw [publish, hconn]
  simp only [if_true, if_neg hroom, hwrite₁, bind, Except.bind, hwrite₂]
  rw [← publish_header m h]
  exact hwrite₃

/-- The id of a request is written in two bytes. -/
theorem writeBytes_id (buf : Memory) (id : UInt16) :
    ∃ buf', writeBytes [UInt8.ofNat (id.toNat / 256), UInt8.ofNat (id.toNat % 256)] buf
        maxHeaderSize = .ok (buf', maxHeaderSize + 2) ∧
      buf.bytes.take maxHeaderSize ++ word.encode id <+: buf'.bytes := by
  have hfront := take_header buf
  have hroom : (buf.bytes.take maxHeaderSize).length + (word.encode id).length ≤ bufferSize := by
    rw [hfront]
    show maxHeaderSize + 2 ≤ bufferSize
    decide
  obtain ⟨buf', hwrite, h⟩ := writeBytes_next (List.take_prefix maxHeaderSize buf.bytes) hroom
  rw [hfront] at hwrite
  exact ⟨buf', hwrite, h⟩

/-- A request without its last byte is in the buffer: the id and the topic. -/
theorem writeString_topic (buf : Memory) (id : UInt16) {topic : CString}
    (h : topic.length ≤ 247) :
    ∃ buf₁ buf₂, writeBytes [UInt8.ofNat (id.toNat / 256), UInt8.ofNat (id.toNat % 256)] buf
        maxHeaderSize = .ok (buf₁, maxHeaderSize + 2) ∧
      writeString topic buf₁ (maxHeaderSize + 2) =
        .ok (buf₂, (buf.bytes.take maxHeaderSize ++
          (word.encode id ++ text.encode (.cut topic))).length) ∧
      buf.bytes.take maxHeaderSize ++ (word.encode id ++ text.encode (.cut topic)) <+:
        buf₂.bytes := by
  have hfront := take_header buf
  have hmax : maxHeaderSize = 5 := rfl
  have hsize : bufferSize = 256 := rfl
  have hshort : topic.length < 65536 := by omega
  obtain ⟨buf₁, hwrite₁, h₁⟩ := writeBytes_id buf id
  have hlen₁ : (buf.bytes.take maxHeaderSize ++ word.encode id).length = maxHeaderSize + 2 := by
    rw [List.length_append, hfront]
    rfl
  obtain ⟨buf₂, hwrite₂, h₂⟩ := writeString_next h₁ (by rw [hlen₁]; omega) hshort
  rw [hlen₁] at hwrite₂
  rw [List.append_assoc] at h₂
  refine ⟨buf₁, buf₂, hwrite₁, ?_, ?_⟩
  · rw [hwrite₂, Text.cut_eq hshort, ← List.append_assoc, List.length_append, hlen₁, text_length,
      Nat.add_assoc (maxHeaderSize + 2)]
  · rw [Text.cut_eq hshort]
    exact h₂

/-- The session with the next id. -/
def withId (l : Link) : Link :=
  { l with client := { l.client with nextMsgId := nextId l.client.nextMsgId } }

/-- What `unsubscribe` sends. -/
theorem unsubscribe_sends {l : Link} (hconn : l.connected = (true, l)) (hopen : l.isOpen = true)
    {topic : CString} (h : topic.length ≤ 247) (now : UInt32) :
    ∃ buf', l.unsubscribe topic now = .ok (true,
      { l.withId with
        client := { l.withId.client with buffer := buf', lastOutActivity := now }
        sent := l.sent ++
          packet.encode (.unsubscribe (nextId l.client.nextMsgId) (.cut topic)) }) := by
  have hsize : bufferSize = 256 := rfl
  have hroom : ¬ bufferSize < 9 + min topic.length bufferSize := by omega
  have hfront := take_header l.client.buffer
  obtain ⟨buf₁, buf₂, hwrite₁, hwrite₂, h₂⟩ :=
    writeString_topic l.client.buffer (nextId l.client.nextMsgId) h
  have hbody : (toFrame (.unsubscribe (nextId l.client.nextMsgId) (.cut topic))).body =
      word.encode (nextId l.client.nextMsgId) ++ text.encode (.cut topic) := by
    show _ ++ (_ ++ []) = _
    rw [List.append_nil]
  rw [← hbody] at h₂ hwrite₂
  obtain ⟨buf₃, hwrite₃⟩ := write_packet (l := l.withId) hopen _ h₂ hfront rfl now
  refine ⟨buf₃, ?_⟩
  rw [unsubscribe, if_neg hroom, hconn]
  simp only [if_true, hwrite₁, bind, Except.bind, hwrite₂]
  exact hwrite₃

/-- What `subscribe` sends, for a topic that leaves room for the QoS. -/
theorem subscribe_sends {l : Link} (hconn : l.connected = (true, l)) (hopen : l.isOpen = true)
    {topic : CString} (h : topic.length ≤ 246) {qos : UInt8} (hqos : qos ≤ 1) (now : UInt32) :
    ∃ buf', l.subscribe topic qos now = .ok (true,
      { l.withId with
        client := { l.withId.client with buffer := buf', lastOutActivity := now }
        sent := l.sent ++
          packet.encode (.subscribe (nextId l.client.nextMsgId) (.cut topic) qos) }) := by
  have hsize : bufferSize = 256 := rfl
  have hmax : maxHeaderSize = 5 := rfl
  have hroom : ¬ bufferSize < 9 + min topic.length bufferSize := by omega
  have hfront := take_header l.client.buffer
  have hcut : (Text.cut topic).chars.length = topic.length := by
    rw [Text.cut_eq (by omega)]
  obtain ⟨buf₁, buf₂, hwrite₁, hwrite₂, h₂⟩ :=
    writeString_topic l.client.buffer (nextId l.client.nextMsgId) (h.trans (by decide))
  have hfit : (l.client.buffer.bytes.take maxHeaderSize ++
      (word.encode (nextId l.client.nextMsgId) ++ text.encode (.cut topic))).length +
        [qos].length ≤ bufferSize := by
    rw [List.length_append, List.length_append, hfront, text_length, hcut]
    show maxHeaderSize + (2 + _) + 1 ≤ _
    omega
  obtain ⟨buf₃, hwrite₃, h₃⟩ := writeBytes_next h₂ hfit
  rw [← List.length_append] at hwrite₃
  rw [List.append_assoc, List.append_assoc] at h₃ hwrite₃
  obtain ⟨buf₄, hwrite₄⟩ := write_packet (l := l.withId) hopen
    (.subscribe (nextId l.client.nextMsgId) (.cut topic) qos) h₃ hfront rfl now
  refine ⟨buf₄, ?_⟩
  rw [subscribe, if_neg (UInt8.not_lt.mpr hqos), if_neg hroom, hconn]
  simp only [if_true, hwrite₁, bind, Except.bind, hwrite₂, hwrite₃]
  exact hwrite₄

/-- For a topic of 247 bytes the QoS is stored behind the buffer. -/
theorem subscribe_outside {l : Link} (hconn : l.connected = (true, l)) {topic : CString}
    (h : topic.length = 247) {qos : UInt8} (hqos : qos ≤ 1) (now : UInt32) :
    l.subscribe topic qos now = .error .outside := by
  have hsize : bufferSize = 256 := rfl
  have hmax : maxHeaderSize = 5 := rfl
  have hroom : ¬ bufferSize < 9 + min topic.length bufferSize := by omega
  have hcut : (Text.cut topic).chars.length = topic.length := by
    rw [Text.cut_eq (by omega)]
  obtain ⟨buf₁, buf₂, hwrite₁, hwrite₂, -⟩ :=
    writeString_topic l.client.buffer (nextId l.client.nextMsgId) h.le
  have hend : (l.client.buffer.bytes.take maxHeaderSize ++
      (word.encode (nextId l.client.nextMsgId) ++ text.encode (.cut topic))).length =
        bufferSize := by
    have hword : (word.encode (nextId l.client.nextMsgId)).length = 2 := rfl
    rw [List.length_append, List.length_append, take_header, text_length, hcut, h, hword, hmax,
      hsize]
  have hput : writeBytes [qos] buf₂ bufferSize = .error .outside := by
    have hfault : put buf₂ bufferSize qos = .error .outside := if_neg (Nat.lt_irrefl _)
    rw [writeBytes, hfault]
    rfl
  rw [hend] at hwrite₂
  rw [subscribe, if_neg (UInt8.not_lt.mpr hqos), if_neg hroom, hconn]
  simp only [if_true, hwrite₁, bind, Except.bind, hwrite₂, hput]

/-- A short packet is given to the network client as it stands. -/
theorem sendShort_eq (l : Link) {bytes : List UInt8} (h : bytes.length ≤ bufferSize) :
    ∃ buf', l.sendShort bytes =
      .ok (send bytes { l with client := { l.client with buffer := buf' } }) := by
  have hroom : ([] : List UInt8).length + bytes.length ≤ bufferSize := by simpa using h
  obtain ⟨buf', hwrite, rest, hbuf⟩ :=
    writeBytes_next (List.nil_prefix (l := l.client.buffer.bytes)) hroom
  refine ⟨buf', ?_⟩
  rw [List.length_nil, Nat.zero_add] at hwrite
  rw [List.nil_append] at hbuf
  simp only [sendShort, hwrite, bind, Except.bind, pure, Except.pure, ← hbuf, List.take_left']

theorem sendShort_sends {l : Link} (hopen : l.isOpen = true) {bytes : List UInt8}
    (h : bytes.length ≤ bufferSize) :
    ∃ buf', l.sendShort bytes = .ok { l with
      client := { l.client with buffer := buf' }
      sent := l.sent ++ bytes } := by
  obtain ⟨buf', hsend⟩ := l.sendShort_eq h
  refine ⟨buf', ?_⟩
  rw [hsend, send]
  exact congrArg Except.ok (if_pos hopen)

/-- A new connection. -/
def opened (l : Link) : Link :=
  { l with
    client := { l.client with nextMsgId := 1 }
    isOpen := true
    input := []
    sent := [] }

/-- What `connect` sends on a new connection, when its strings fit. -/
theorem connect_sends {l l₀ : Link} (hconn : l.connected = (false, l₀)) (hopen : l₀.isOpen = false)
    (a : ConnectArgs) {keepAlive : UInt16} (hkeep : l₀.client.keepAlive = keepAlive)
    (h : (a.toConnect keepAlive).body.length ≤ 251) (reply : List UInt8) (now later : UInt32) :
    ∃ l₁, l.connect a true reply now later = .ok (awaitConnack later l₁) ∧
      ∃ buf', l₁ = { l₀.opened with
        client := { l₀.opened.client with
          buffer := buf', lastInActivity := now, lastOutActivity := now }
        input := reply
        sent := packet.encode (.connect (a.toConnect keepAlive)) } := by
  subst hkeep
  have hsize : bufferSize = 256 := rfl
  have hmax : maxHeaderSize = 5 := rfl
  have hfront := take_header l₀.client.buffer
  obtain ⟨buf, hbody, hbuf⟩ :=
    (a.writes_writeBody l₀.client.keepAlive l₀.client.buffer).fits (by omega)
  generalize hlength : (l₀.client.buffer.bytes.take maxHeaderSize ++
    (a.toConnect l₀.client.keepAlive).body).length = length at hbody
  obtain ⟨buf', hwrite⟩ := write_packet (l := l₀.opened) rfl
    (.connect (a.toConnect l₀.client.keepAlive)) hbuf hfront hlength.symm now
  have hheader : (toFrame (.connect (a.toConnect l₀.client.keepAlive))).header = 0x10 := rfl
  rw [hheader] at hwrite
  refine ⟨_, ?_, buf', rfl⟩
  rw [connect, hconn]
  simp only [hopen, Bool.false_or, Bool.false_eq_true, if_false, if_true, hbody]
  change (l₀.opened.write 0x10 buf (length - maxHeaderSize) now >>= fun r => _) = _
  rw [hwrite]
  rfl

/-- A string that does not fit ends the new connection. -/
theorem connect_tooLong {l l₀ : Link} (hconn : l.connected = (false, l₀))
    (hopen : l₀.isOpen = false) (a : ConnectArgs) {keepAlive : UInt16}
    (hkeep : l₀.client.keepAlive = keepAlive) (h : ¬ (a.toConnect keepAlive).body.length ≤ 251)
    (reply : List UInt8) (now later : UInt32) :
    l.connect a true reply now later = .ok (false, l₀.opened.stop) := by
  subst hkeep
  have hsize : bufferSize = 256 := rfl
  have hmax : maxHeaderSize = 5 := rfl
  have hfront := take_header l₀.client.buffer
  have hwrites := a.writes_writeBody l₀.client.keepAlive l₀.client.buffer
  have hlong := hwrites.tooLong (by omega)
  rw [connect, hconn]
  simp only [hopen, Bool.false_or, Bool.false_eq_true, if_false, if_true, hlong]
  rfl

theorem connect_fails {l l₀ : Link} (hconn : l.connected = (false, l₀))
    (hopen : l₀.isOpen = false) (a : ConnectArgs) (reply : List UInt8) (now later : UInt32) :
    l.connect a false reply now later = .ok (false,
      { l₀ with client := { l₀.client with state := mqttConnectFailed } }) := by
  rw [connect, hconn]
  have hneither : ¬ (l₀.isOpen || false) = true := by rw [hopen]; decide
  simp only [if_neg hneither, Bool.false_eq_true, if_false]

end Link

end Esp32Automation.MqttClient
