import Esp32Automation.MqttSends
import Esp32Automation.Run

/-!
# PubSubClient follows its session

The calls of PubSubClient follow the steps of the session byte for byte, as long as nobody
subscribes to a topic of 247 bytes, and for such a topic it stores behind its buffer.
-/
namespace Esp32Automation.MqttClient
open PubSubClient Mqtt Run
open Subscriptions (mqttConnected mqttConnectionTimeout)

/-- The link is in the state that the session says, with its packets as bytes. -/
structure Follows (l : Link) (s : Session) : Prop where
  isOpen_eq : l.isOpen = s.connected
  state_eq : s.connected → l.client.state = mqttConnected
  keepAlive_eq : l.client.keepAlive = s.keepAlive
  lastId_eq : l.client.nextMsgId = s.lastId
  lastOut_eq : l.client.lastOutActivity = s.lastOut
  lastIn_eq : l.client.lastInActivity = s.lastIn
  ping_eq : l.client.pingOutstanding = s.pingOutstanding
  input_eq : l.input = s.queue.flatMap packet.encode
  sent_eq : l.sent = s.sent.flatMap packet.encode
  delivered_eq : l.delivered = s.delivered
  closed : s.connected = false → s.queue = []

theorem initial_follows (buffer : Memory) : Follows (.initial buffer) .initial where
  isOpen_eq := rfl
  state_eq h := by cases h
  keepAlive_eq := rfl
  lastId_eq := rfl
  lastOut_eq := rfl
  lastIn_eq := rfl
  ping_eq := rfl
  input_eq := rfl
  sent_eq := rfl
  delivered_eq := rfl
  closed _ := rfl

namespace Follows
variable {l : Link} {s : Session}

/-- A connection that is closed on both sides. -/
theorem stop (h : Follows l s) : Follows l.stop s.close :=
  { h with
    isOpen_eq := rfl
    state_eq := fun hc => by cases hc
    input_eq := rfl
    closed := fun _ => rfl }

theorem close_of_closed (h : Follows l s) (hc : s.connected = false) : s.close = s := by
  obtain ⟨_, _, _, _, _, _, queue, _, _⟩ := s
  obtain rfl : queue = [] := h.closed hc
  obtain rfl := hc
  rfl

/-- The test of the connection agrees with the session, and changes nothing when it succeeds. -/
theorem connected (h : Follows l s) : l.connected.1 = s.connected ∧ Follows l.connected.2 s ∧
    (s.connected → l.connected = (true, l)) := by
  unfold Link.connected
  cases hc : s.connected with
  | true =>
    have hopen : l.isOpen = true := h.isOpen_eq.trans hc
    have hstate := h.state_eq hc
    simp [hopen, hstate, h]
  | false =>
    have hopen : l.isOpen = false := h.isOpen_eq.trans hc
    rw [if_neg (by simp [hopen])]
    split_ifs
    · refine ⟨rfl, ?_, nofun⟩
      rw [← h.close_of_closed hc]
      exact stop { h with state_eq := fun hc' => by rw [hc] at hc'; cases hc' }
    · exact ⟨rfl, h, nofun⟩

/-- A packet that has been written. -/
theorem sent (h : Follows l s) (buf : Memory) (now : UInt32) (p : ControlPacket) :
    Follows { l with
      client := { l.client with buffer := buf, lastOutActivity := now }
      sent := l.sent ++ packet.encode p } { s with sent := s.sent ++ [p], lastOut := now } :=
  { h with
    lastOut_eq := rfl
    sent_eq := by simp [h.sent_eq] }

end Follows

namespace Follows
variable {l : Link} {s : Session}

/-- One call of `publish`. -/
theorem publish (h : Follows l s) (m : Message) (now : UInt32) :
    ∃ b l', l.publish m now = .ok (b, l') ∧ Follows l' (s.publish m now) ∧
      (s.publish m now).connected = s.connected := by
  obtain ⟨halive, hfollows, hconn⟩ := h.connected
  cases hc : s.connected with
  | false =>
    rw [hc] at halive
    refine ⟨false, l.connected.2, ?_, ?_, ?_⟩
    · rw [Link.publish]
      simp only [halive, Bool.false_eq_true, if_false]
    · simpa [Session.publish, hc] using hfollows
    · simp [Session.publish, hc]
  | true =>
    have hopen : l.isOpen = true := h.isOpen_eq.trans hc
    by_cases hm : m.topic.length + m.payload.length ≤ 249
    · obtain ⟨buf', hsend⟩ := Link.publish_sends (hconn hc) hopen m hm now
      refine ⟨true, _, hsend, ?_, ?_⟩
      · simpa [Session.publish, hc, hm] using h.sent buf' now (.publish (m.toPublish hm))
      · simp [Session.publish, hc, hm]
    · have hsize : bufferSize = 256 := rfl
      have hmax : maxHeaderSize = 5 := rfl
      have hlong : bufferSize < maxHeaderSize + 2 + min m.topic.length bufferSize +
          m.payload.length := by omega
      refine ⟨false, l, ?_, ?_, ?_⟩
      · rw [Link.publish, hconn hc]
        simp only [if_true, if_pos hlong]
      · simpa [Session.publish, hc, hm] using h
      · simp [Session.publish, hc, hm]

theorem publishAll (h : Follows l s) (ms : List Message) (now : UInt32) :
    ∃ l', l.publishAll ms now = .ok l' ∧ Follows l' (s.publishAll ms now) ∧
      (s.publishAll ms now).connected = s.connected := by
  induction ms generalizing l s with
  | nil => exact ⟨l, rfl, h, rfl⟩
  | cons m ms ih =>
    obtain ⟨b, l₁, hpub, h₁, hc₁⟩ := h.publish m now
    obtain ⟨l₂, hall, h₂, hc₂⟩ := ih h₁
    refine ⟨l₂, ?_, h₂, hc₂.trans hc₁⟩
    rw [Link.publishAll, List.foldlM_cons, hpub]
    exact hall

theorem sentShort (h : Follows l s) (buf : Memory) (p : ControlPacket) :
    Follows { l with
      client := { l.client with buffer := buf }
      sent := l.sent ++ packet.encode p } { s with sent := s.sent ++ [p] } :=
  { h with sent_eq := by simp [h.sent_eq] }

end Follows

/-- A packet of the broker, in the buffer from its start. -/
structure Stored (p : Packet) (q : ControlPacket) : Prop where
  bytes : packet.encode q <+: p.buffer.bytes
  lengthLength_eq : p.lengthLength = (encodeLength 4 (toFrame q).body.length).length
  len_eq : p.len = (packet.encode q).length

namespace Stored
variable {p : Packet} {q : ControlPacket}

theorem header (h : Stored p q) : p.buffer.bytes.head?.getD 0 = (toFrame q).header := by
  obtain ⟨rest, hrest⟩ := h.bytes
  rw [← hrest, packet_encode]
  rfl

theorem byteAt_append {buffer : Memory} {front rest : List UInt8} {c : UInt8} {i : ℕ}
    (h : buffer.bytes = front ++ c :: rest) (hi : i = front.length) :
    byteAt buffer i = c.toNat := by
  subst hi
  simp [byteAt, h]

theorem accepts_iff (h : Stored p q) : p.len = 4 ∧ byteAt p.buffer 3 = 0 ↔ Accepts q := by
  obtain ⟨rest, hrest⟩ := h.bytes
  rw [h.len_eq, Accepts, byteAt, ← hrest]
  refine and_congr_right fun hlen => ?_
  have hlt : 3 < (packet.encode q).length := by omega
  rw [List.getElem?_append_left hlt, List.getElem?_eq_getElem hlt, Option.getD_some,
    Option.some_inj]
  exact UInt8.toNat_inj (b := 0)

/-- The dispatch presents the message of a PUBLISH packet, and its id follows the topic. -/
theorem publish {m : Publish} (h : Stored p (.publish m)) :
    dispatch p = .callback m.topic m.payload ∧
      ∀ id ∈ m.id, ∃ tl, tl = byteAt p.buffer (p.lengthLength + 1) * 256 +
          byteAt p.buffer (p.lengthLength + 2) ∧
        byteAt p.buffer (p.lengthLength + 3 + tl) * 256 +
          byteAt p.buffer (p.lengthLength + 3 + tl + 1) = id.toNat := by
  obtain ⟨rest, hrest⟩ := h.bytes
  rw [packet_publish] at hrest
  have hlen := h.len_eq
  have hll := h.lengthLength_eq
  rw [packet_publish, m.packet_length] at hlen
  have hbody : (toFrame (.publish m)).body.length = m.remaining := publishBody_length m
  rw [hbody] at hll
  have hrem : m.remaining = 2 + m.topic.length + (idBytes m.id).length + m.payload.length := rfl
  have htopic := m.topic_lt
  have hhi : (UInt8.ofNat (m.topic.length / 256)).toNat = m.topic.length / 256 :=
    toNat_ofNat (by omega)
  have hlo : (UInt8.ofNat (m.topic.length % 256)).toNat = m.topic.length % 256 :=
    toNat_ofNat (by omega)
  have htl : (UInt8.ofNat (m.topic.length / 256)).toNat * 256 +
      (UInt8.ofNat (m.topic.length % 256)).toNat = m.topic.length := by
    rw [hhi, hlo]
    omega
  constructor
  · exact dispatch_publish m.header_qos htl hll (by omega) hrest.symm
  · intro id hid
    have hidlt := id.toNat_lt
    have hidhi : (UInt8.ofNat (id.toNat / 256)).toNat = id.toNat / 256 := toNat_ofNat (by omega)
    have hidlo : (UInt8.ofNat (id.toNat % 256)).toNat = id.toNat % 256 := toNat_ofNat (by omega)
    have hmem : m.id = some id := hid
    rw [m.packet_eq, hmem, idBytes] at hrest
    generalize encodeLength 4 m.remaining = enc at hll hrest
    generalize UInt8.ofNat (m.topic.length / 256) = hi at htl hrest
    generalize UInt8.ofNat (m.topic.length % 256) = lo at htl hrest
    generalize UInt8.ofNat (id.toNat / 256) = idhi at hidhi hrest
    generalize UInt8.ofNat (id.toNat % 256) = idlo at hidlo hrest
    have hcount : m.topic.bytes.length = m.topic.length := rfl
    have hb₁ : p.buffer.bytes = (m.header :: enc) ++ hi :: lo ::
        (m.topic.bytes ++ idhi :: idlo :: (m.payload ++ rest)) := by simp [← hrest]
    have hb₂ : p.buffer.bytes = (m.header :: (enc ++ [hi])) ++ lo ::
        (m.topic.bytes ++ idhi :: idlo :: (m.payload ++ rest)) := by simp [← hrest]
    have hb₃ : p.buffer.bytes = (m.header :: (enc ++ hi :: lo :: m.topic.bytes)) ++
        idhi :: idlo :: (m.payload ++ rest) := by simp [← hrest]
    have hb₄ : p.buffer.bytes = (m.header :: (enc ++ hi :: lo :: (m.topic.bytes ++ [idhi]))) ++
        idlo :: (m.payload ++ rest) := by simp [← hrest]
    refine ⟨m.topic.length, ?_, ?_⟩
    · rw [byteAt_append hb₁ (by simp [hll]), byteAt_append hb₂ (by simp [hll]), htl]
    · rw [byteAt_append hb₃ (by simp [hll, hcount]; omega),
        byteAt_append hb₄ (by simp [hll, hcount]; omega), hidhi, hidlo]
      exact Nat.div_add_mod' id.toNat 256

end Stored

section Loop
variable (replies : CString → List UInt8 → List Message)

/-- Packets of other kinds are ignored. -/
theorem Link.handle_other {p : Packet} {q : ControlPacket} (h : Stored p q) (header : UInt8)
    (hheader : (toFrame q).header = header)
    (hkind : header &&& 0xF0 ≠ 0x30 ∧ header &&& 0xF0 ≠ 0xC0 ∧ header &&& 0xF0 ≠ 0xD0)
    (now : UInt32) (l : Link) : l.handle replies p now = .ok l := by
  rw [Link.handle, h.header, hheader]
  simp only [if_neg hkind.1, if_neg hkind.2.1, if_neg hkind.2.2]

namespace Follows
variable {l : Link} {s : Session}

/-- The message of a PUBLISH packet is delivered, answered and acknowledged. -/
theorem handle_publish {p : Packet} {m : Publish} (hp : Stored p (.publish m)) (h : Follows l s)
    (hc : s.connected) (now : UInt32) :
    ∃ l', l.handle replies p now = .ok l' ∧ Follows l' (s.handle replies (.publish m) now) := by
  obtain ⟨hdispatch, hid⟩ := hp.publish
  have hpub : m.header &&& 0xF0 = 0x30 := by simpa [isPublish] using m.isPublish_header
  have hheader : p.buffer.bytes.head?.getD 0 = m.header := hp.header
  have hqos := (header_bits m).1
  have hdelivered : Follows { l with delivered := l.delivered ++ [(m.topic, m.payload)] }
      { s with delivered := s.delivered ++ [(m.topic, m.payload)] } :=
    { h with delivered_eq := by simp [h.delivered_eq] }
  obtain ⟨l₁, hall, h₁, hc₁⟩ := hdelivered.publishAll (replies m.topic m.payload) now
  have hopen₁ : l₁.isOpen = true := h₁.isOpen_eq.trans (hc₁.trans hc)
  rw [Link.handle, hheader, hdispatch]
  simp only [if_pos hpub, hall, bind, Except.bind]
  cases hm : m.id with
  | none =>
    have hnot : ¬ m.header &&& 0x06 = 0x02 := by simpa [hm] using hqos
    refine ⟨l₁, by rw [if_neg hnot]; rfl, ?_⟩
    simpa [Session.handle, hm] using h₁
  | some id =>
    have hyes : m.header &&& 0x06 = 0x02 := by simpa [hm] using hqos
    obtain ⟨tl, rfl, hbytes⟩ := hid id hm
    have hsmall : (packet.encode (.puback id)).length ≤ bufferSize := by
      show 4 ≤ bufferSize
      decide
    obtain ⟨buf', hsend⟩ := Link.sendShort_sends hopen₁ hsmall
    have hack : packet.encode (.puback id) =
        [0x40, 2, UInt8.ofNat (id.toNat / 256), UInt8.ofNat (id.toNat % 256)] := rfl
    rw [hack] at hsend
    refine ⟨_, by simp only [if_pos hyes, hbytes, hsend]; rfl, ?_⟩
    simpa [Session.handle, hm, hack] using h₁.sent buf' now (.puback id)

/-- A packet that fits is handled as the session handles it. -/
theorem handle {p : Packet} {q : ControlPacket} (hp : Stored p q) (h : Follows l s)
    (hc : s.connected) (now : UInt32) :
    ∃ l', l.handle replies p now = .ok l' ∧ Follows l' (s.handle replies q now) := by
  have hopen : l.isOpen = true := h.isOpen_eq.trans hc
  have hother := Link.handle_other replies hp
  cases q with
  | publish m => exact handle_publish replies hp h hc now
  | pingreq =>
    have hsmall : (packet.encode .pingresp).length ≤ bufferSize := by decide
    obtain ⟨buf', hsend⟩ := Link.sendShort_sends hopen hsmall
    refine ⟨_, ?_, h.sentShort buf' .pingresp⟩
    rw [Link.handle, hp.header]
    exact hsend
  | pingresp =>
    have hanswered : Follows
        { l with client := { l.client with pingOutstanding := false } }
        { s with pingOutstanding := false } := { h with ping_eq := rfl }
    refine ⟨_, ?_, hanswered⟩
    rw [Link.handle, hp.header]
    rfl
  | connect c => exact ⟨l, hother 0x10 rfl (by decide) now l, h⟩
  | connack sessionPresent code => exact ⟨l, hother 0x20 rfl (by decide) now l, h⟩
  | puback id => exact ⟨l, hother 0x40 rfl (by decide) now l, h⟩
  | subscribe id topic qos => exact ⟨l, hother 0x82 rfl (by decide) now l, h⟩
  | suback id code => exact ⟨l, hother 0x90 rfl (by decide) now l, h⟩
  | unsubscribe id topic => exact ⟨l, hother 0xA2 rfl (by decide) now l, h⟩
  | unsuback id => exact ⟨l, hother 0xB0 rfl (by decide) now l, h⟩
  | disconnect => exact ⟨l, hother 0xE0 rfl (by decide) now l, h⟩

/-- A PUBLISH packet has room for the length of its topic. -/
theorem two_le_body {q : ControlPacket} (h : isPublish (toFrame q).header) :
    2 ≤ (toFrame q).body.length := by
  cases q with
  | publish m =>
    have hbody : (toFrame (.publish m)).body.length = m.remaining := publishBody_length m
    rw [hbody]
    unfold Publish.remaining
    omega
  | connect c => exact absurd (show isPublish 0x10 from h) (by decide)
  | connack sessionPresent code => exact absurd (show isPublish 0x20 from h) (by decide)
  | puback id => exact absurd (show isPublish 0x40 from h) (by decide)
  | subscribe id topic qos => exact absurd (show isPublish 0x82 from h) (by decide)
  | suback id code => exact absurd (show isPublish 0x90 from h) (by decide)
  | unsubscribe id topic => exact absurd (show isPublish 0xA2 from h) (by decide)
  | unsuback id => exact absurd (show isPublish 0xB0 from h) (by decide)
  | pingreq => exact absurd (show isPublish 0xC0 from h) (by decide)
  | pingresp => exact absurd (show isPublish 0xD0 from h) (by decide)
  | disconnect => exact absurd (show isPublish 0xE0 from h) (by decide)

/-- `readPacket` on the next packet. -/
theorem readPacket_packet (q : ControlPacket) (buffer : Memory) (input : List UInt8) :
    ∃ p, readPacket buffer (packet.encode q ++ input) = .ok p ∧ p.input = input ∧
      if Fits q then Stored p q else p.len = 0 := by
  obtain ⟨p, hread, hinput, hll, hspec⟩ :=
    readPacket_frame (toFrame q) two_le_body buffer input
  refine ⟨p, hread, hinput, ?_⟩
  by_cases hfit : Fits q
  · rw [if_pos hfit]
    rw [if_pos (show (frame.encode (toFrame q)).length ≤ bufferSize from hfit)] at hspec
    exact ⟨hspec.2, hll, hspec.1⟩
  · rw [if_neg hfit]
    rwa [if_neg (show ¬ (frame.encode (toFrame q)).length ≤ bufferSize from hfit)] at hspec

/-- `loop()` takes one packet. -/
theorem receive (h : Follows l s) (hc : s.connected) (now : UInt32) :
    ∃ b l', l.receive replies now = .ok (b, l') ∧ Follows l' (s.receive replies now) := by
  have hinput := h.input_eq
  rw [Link.receive, Session.receive]
  cases hq : s.queue with
  | nil =>
    rw [hq, List.flatMap_nil] at hinput
    exact ⟨true, l, by rw [if_pos hinput], h⟩
  | cons q queue =>
    rw [hq, List.flatMap_cons] at hinput
    obtain ⟨p, hread, hrest, hspec⟩ :=
      readPacket_packet q l.client.buffer (queue.flatMap packet.encode)
    have hne : l.input ≠ [] := by
      rw [hinput]
      simp [packet_encode]
    have htaken : Follows
        { l with client := { l.client with buffer := p.buffer }, input := p.input }
        { s with queue } :=
      { h with
        input_eq := hrest
        closed := fun hclosed => by rw [hc] at hclosed; cases hclosed }
    rw [if_neg hne, hinput, hread]
    by_cases hfit : Fits q
    · rw [if_pos hfit] at hspec
      have hlen : p.len ≠ 0 := by
        rw [hspec.len_eq, packet_encode]
        exact Nat.succ_ne_zero _
      have hstarted : Follows
          { l with
            client := { l.client with buffer := p.buffer, lastInActivity := now }
            input := p.input }
          { s with queue, lastIn := now } := { htaken with lastIn_eq := rfl }
      obtain ⟨l', hhandle, hfollows⟩ := hstarted.handle replies hspec hc now
      refine ⟨true, l', ?_, by simpa only [if_pos hfit] using hfollows⟩
      simp only [if_neg hlen, hhandle]
      rfl
    · rw [if_neg hfit] at hspec
      generalize htake : ({ l with
        client := { l.client with buffer := p.buffer }, input := p.input } : Link) = taken at htaken
      refine ⟨taken.connected.1, taken.connected.2, ?_, ?_⟩
      · simp only [hspec, if_true, htake]
      · simpa only [if_neg hfit] using htaken.connected.2.1

theorem isDue (h : Follows l s) (now : UInt32) : Link.Client.isDue l.client now = s.isDue now := by
  rw [Link.Client.isDue, Session.isDue, h.keepAlive_eq, h.lastIn_eq, h.lastOut_eq]

theorem loop (h : Follows l s) (now : UInt32) :
    ∃ b l', l.loop replies now = .ok (b, l') ∧ Follows l' (s.loop replies now) := by
  obtain ⟨halive, hfollows, hconn⟩ := h.connected
  rw [Link.loop, Session.loop]
  cases hc : s.connected with
  | false =>
    rw [hc] at halive
    refine ⟨false, l.connected.2, ?_, by simpa using hfollows⟩
    simp only [halive]
    rfl
  | true =>
    have hopen : l.isOpen = true := h.isOpen_eq.trans hc
    rw [hconn hc]
    simp only [Bool.not_true, Bool.false_eq_true, if_false, not_true_eq_false, h.isDue now]
    cases hdue : s.isDue now with
    | false =>
      simp only [Bool.false_eq_true, if_false]
      exact h.receive replies hc now
    | true =>
      simp only [if_true]
      cases hping : s.pingOutstanding with
      | true =>
        have htimeout : Follows
            { l with client := { l.client with state := mqttConnectionTimeout } }.stop
            s.close :=
          { h.stop with state_eq := fun hclosed => by cases hclosed }
        refine ⟨false, _, ?_, htimeout⟩
        rw [if_pos (h.ping_eq.trans hping)]
      | false =>
        have hsmall : (packet.encode .pingreq).length ≤ bufferSize := by decide
        obtain ⟨buf', hsend⟩ := Link.sendShort_sends hopen hsmall
        have hpinged : Follows
            { l with
              client := { l.client with
                buffer := buf', lastOutActivity := now, lastInActivity := now
                pingOutstanding := true }
              sent := l.sent ++ packet.encode .pingreq }
            { s with
              sent := s.sent ++ [.pingreq], lastOut := now, lastIn := now
              pingOutstanding := true } :=
          { h.sent buf' now .pingreq with
            lastIn_eq := rfl
            ping_eq := rfl }
        obtain ⟨b, l', hreceive, hreceived⟩ := hpinged.receive replies hc now
        refine ⟨b, l', ?_, by simpa [hc] using hreceived⟩
        have hreq : packet.encode .pingreq = [0xC0, 0] := rfl
        rw [hreq] at hsend
        rw [if_neg (by simp [h.ping_eq, hping])]
        simp only [hsend]
        exact hreceive

end Follows
end Loop

namespace Follows
variable {l : Link} {s : Session}

/-- A request that has been written, with a new id. -/
theorem request (h : Follows l s) (buf : Memory) (now : UInt32) (p : UInt16 → ControlPacket) :
    Follows { l.withId with
      client := { l.withId.client with buffer := buf, lastOutActivity := now }
      sent := l.sent ++ packet.encode (p (Link.nextId l.client.nextMsgId)) }
      { s with
        lastId := Link.nextId s.lastId
        sent := s.sent ++ [p (Link.nextId s.lastId)]
        lastOut := now } := by
  have hid : Follows l.withId { s with lastId := Link.nextId s.lastId } :=
    { h with lastId_eq := congrArg Link.nextId h.lastId_eq }
  rw [h.lastId_eq]
  exact hid.sent buf now (p (Link.nextId s.lastId))

theorem subscribe (h : Follows l s) {topic : CString} {qos : UInt8}
    (hroom : ¬ (qos ≤ 1 ∧ topic.length = 247 ∧ s.connected)) (now : UInt32) :
    ∃ b l', l.subscribe topic qos now = .ok (b, l') ∧ Follows l' (s.subscribe topic qos now) := by
  have hsize : bufferSize = 256 := rfl
  obtain ⟨halive, hfollows, hconn⟩ := h.connected
  rw [Session.subscribe]
  by_cases hqos : qos ≤ 1
  swap
  · refine ⟨false, l, ?_, by rwa [if_neg fun hall => hqos hall.1]⟩
    rw [Link.subscribe, if_pos (UInt8.not_le.mp hqos)]
  by_cases htopic : topic.length ≤ 247
  swap
  · have hlong : bufferSize < 9 + min topic.length bufferSize := by omega
    refine ⟨false, l, ?_, by rwa [if_neg fun hall => htopic hall.2.1]⟩
    rw [Link.subscribe, if_neg (UInt8.not_lt.mpr hqos), if_pos hlong]
  cases hc : s.connected with
  | false =>
    have hshort : ¬ bufferSize < 9 + min topic.length bufferSize := by omega
    rw [hc] at halive
    refine ⟨false, l.connected.2, ?_, by simpa using hfollows⟩
    rw [Link.subscribe, if_neg (UInt8.not_lt.mpr hqos), if_neg hshort]
    simp only [halive, Bool.false_eq_true, if_false]
  | true =>
    have hopen : l.isOpen = true := h.isOpen_eq.trans hc
    have hfits : topic.length ≤ 246 :=
      Nat.lt_succ_iff.mp (lt_of_le_of_ne htopic fun heq => hroom ⟨hqos, heq, hc⟩)
    obtain ⟨buf', hsend⟩ := Link.subscribe_sends (hconn hc) hopen hfits hqos now
    refine ⟨true, _, hsend, ?_⟩
    rw [if_pos ⟨hqos, htopic, rfl⟩, ← hc]
    exact h.request buf' now fun id => .subscribe id (.cut topic) qos

theorem unsubscribe (h : Follows l s) (topic : CString) (now : UInt32) :
    ∃ b l', l.unsubscribe topic now = .ok (b, l') ∧ Follows l' (s.unsubscribe topic now) := by
  have hsize : bufferSize = 256 := rfl
  obtain ⟨halive, hfollows, hconn⟩ := h.connected
  rw [Session.unsubscribe]
  by_cases htopic : topic.length ≤ 247
  swap
  · have hlong : bufferSize < 9 + min topic.length bufferSize := by omega
    refine ⟨false, l, ?_, by rwa [if_neg fun hall => htopic hall.1]⟩
    rw [Link.unsubscribe, if_pos hlong]
  cases hc : s.connected with
  | false =>
    have hshort : ¬ bufferSize < 9 + min topic.length bufferSize := by omega
    rw [hc] at halive
    refine ⟨false, l.connected.2, ?_, by simpa using hfollows⟩
    rw [Link.unsubscribe, if_neg hshort]
    simp only [halive, Bool.false_eq_true, if_false]
  | true =>
    have hopen : l.isOpen = true := h.isOpen_eq.trans hc
    obtain ⟨buf', hsend⟩ := Link.unsubscribe_sends (hconn hc) hopen htopic now
    refine ⟨true, _, hsend, ?_⟩
    rw [if_pos ⟨htopic, rfl⟩, ← hc]
    exact h.request buf' now fun id => .unsubscribe id (.cut topic)

theorem disconnect (h : Follows l s) (now : UInt32) :
    ∃ l', l.disconnect now = .ok l' ∧ Follows l' (s.disconnect now) := by
  have hsmall : (packet.encode .disconnect).length ≤ bufferSize := by decide
  obtain ⟨buf', hsend⟩ := l.sendShort_eq hsmall
  have hbytes : packet.encode .disconnect = [0xE0, 0] := rfl
  rw [hbytes] at hsend
  refine ⟨_, by rw [Link.disconnect, hsend]; rfl, ?_⟩
  rw [Session.disconnect, Link.send]
  cases hc : s.connected with
  | false =>
    rw [if_neg (by simp [h.isOpen_eq, hc])]
    exact { h.stop with
      state_eq := fun hclosed => by cases hclosed
      lastOut_eq := rfl
      lastIn_eq := rfl }
  | true =>
    rw [if_pos (by simp [h.isOpen_eq, hc])]
    have hsent := (h.sentShort buf' .disconnect).stop
    exact { hsent with
      state_eq := fun hclosed => by cases hclosed
      lastOut_eq := rfl
      lastIn_eq := rfl }

/-- What the answer of the broker makes of the connection. -/
theorem awaitConnack (hopen : l.isOpen = true) (h : Follows l.stop s) (hc : s.connected = false)
    {reply : List ControlPacket} (hinput : l.input = reply.flatMap packet.encode)
    (later : UInt32) :
    Follows (l.awaitConnack later).2 (s.answered reply later) := by
  have hstate : s.connected → ∀ state : ℤ, state = mqttConnected :=
    fun hclosed => by rw [hc] at hclosed; cases hclosed
  rw [Link.awaitConnack, hinput]
  unfold Session.answered
  cases reply with
  | nil => exact { h with state_eq := fun hclosed => hstate hclosed _ }
  | cons q queue =>
    obtain ⟨p, hread, hrest, hspec⟩ :=
      readPacket_packet q l.client.buffer (queue.flatMap packet.encode)
    have hne : packet.encode q ++ queue.flatMap packet.encode ≠ [] := by simp [packet_encode]
    rw [List.flatMap_cons, if_neg hne, hread]
    dsimp only
    by_cases hfit : Fits q
    · rw [if_pos hfit] at hspec
      by_cases hlen : p.len = 4
      · by_cases hcode : byteAt p.buffer 3 = 0
        · rw [if_pos hlen, if_pos hcode, if_pos (hspec.accepts_iff.mp ⟨hlen, hcode⟩)]
          exact { h with
            isOpen_eq := hopen
            state_eq := fun _ => rfl
            lastIn_eq := rfl
            ping_eq := rfl
            input_eq := hrest
            closed := fun hclosed => by cases hclosed }
        · have hrefused : ¬ Accepts q := fun hacc => hcode (hspec.accepts_iff.mpr hacc).2
          rw [if_pos hlen, if_neg hcode, if_neg hrefused]
          exact { h with state_eq := fun hclosed => hstate hclosed _ }
      · have hrefused : ¬ Accepts q := fun hacc => hlen (hspec.accepts_iff.mpr hacc).1
        rw [if_neg hlen, if_neg hrefused]
        exact { h with state_eq := fun hclosed => hstate hclosed _ }
    · rw [if_neg hfit] at hspec
      have hrefused : ¬ Accepts q := fun hacc => hfit (by rw [Fits, hacc.1]; decide)
      rw [if_neg (by rw [hspec]; decide), if_neg hrefused]
      exact { h with state_eq := fun hclosed => hstate hclosed _ }

theorem connect (h : Follows l s) (a : ConnectArgs) (opens : Bool) (reply : List ControlPacket)
    (now later : UInt32) :
    ∃ b l', l.connect a opens (reply.flatMap packet.encode) now later = .ok (b, l') ∧
      Follows l' (s.connect a opens reply now later) := by
  obtain ⟨halive, hfollows, hconn⟩ := h.connected
  rw [Session.connect]
  rcases Bool.eq_false_or_eq_true s.connected with hc | hc
  · refine ⟨true, l, ?_, by rwa [if_pos (Or.inl hc)]⟩
    rw [Link.connect, hconn hc]
    rfl
  have hnever : s.connected → ∀ state : ℤ, state = mqttConnected :=
    fun hclosed => by rw [hc] at hclosed; cases hclosed
  have hconn₀ : l.connected = (false, l.connected.2) := by rw [← hc, ← halive]
  generalize l.connected.2 = l₀ at hfollows hconn₀
  have hopen : l₀.isOpen = false := hfollows.isOpen_eq.trans hc
  cases opens with
  | false =>
    refine ⟨false, _, Link.connect_fails hconn₀ hopen a _ now later, ?_⟩
    rw [if_pos (Or.inr (by decide))]
    exact { hfollows with state_eq := fun hclosed => hnever hclosed _ }
  | true =>
    have hopened : Follows l₀.opened.stop { s with sent := [], queue := [], lastId := 1 } :=
      { hfollows.stop with
        isOpen_eq := hc.symm
        state_eq := fun hclosed => hnever hclosed _
        lastId_eq := rfl
        sent_eq := rfl
        closed := fun _ => rfl }
    rw [if_neg (by simp [hc])]
    by_cases hbody : (a.toConnect s.keepAlive).body.length ≤ 251
    · obtain ⟨l₁, hsend, buf', hl₁⟩ := Link.connect_sends hconn₀ hopen a hfollows.keepAlive_eq
        hbody (reply.flatMap packet.encode) now later
      have hwritten : Follows l₁.stop { s with
          sent := [.connect (a.toConnect s.keepAlive)], queue := [], lastId := 1
          lastOut := now, lastIn := now } := by
        subst hl₁
        exact { hopened with
          lastOut_eq := rfl
          lastIn_eq := rfl
          sent_eq := (List.flatMap_singleton _ _).symm }
      have hanswered := awaitConnack (by rw [hl₁]; rfl) hwritten hc (by rw [hl₁]) later
      refine ⟨(l₁.awaitConnack later).1, (l₁.awaitConnack later).2, hsend, ?_⟩
      rw [if_pos hbody]
      exact hanswered
    · rw [if_neg hbody]
      exact ⟨false, _, Link.connect_tooLong hconn₀ hopen a hfollows.keepAlive_eq hbody _ now later,
        hopened⟩

end Follows

section Runs
variable (replies : CString → List UInt8 → List Message)

/-- One event, on both levels. -/
theorem react_follows {l : Link} {s : Session} (h : Follows l s) {e : Event}
    (hroom : ¬ s.Overruns e) :
    ∃ l', l.react replies e = .ok l' ∧ Follows l' (s.step replies e) := by
  have hcall {r : Except Fault (Bool × Link)} {s' : Session}
      (hr : ∃ b l', r = .ok (b, l') ∧ Follows l' s') :
      ∃ l', r.map Prod.snd = .ok l' ∧ Follows l' s' := by
    obtain ⟨b, l', rfl, hfollows⟩ := hr
    exact ⟨l', rfl, hfollows⟩
  cases e with
  | connect a opens reply now later => exact hcall (h.connect a opens reply now later)
  | publish m now =>
    obtain ⟨b, l', hpub, hfollows, -⟩ := h.publish m now
    exact hcall ⟨b, l', hpub, hfollows⟩
  | subscribe topic qos now => exact hcall (h.subscribe hroom now)
  | unsubscribe topic now => exact hcall (h.unsubscribe topic now)
  | disconnect now => exact h.disconnect now
  | loop now => exact hcall (h.loop replies now)
  | arrive p =>
    refine ⟨_, rfl, ?_⟩
    show Follows _ (if s.connected then _ else s)
    by_cases hc : s.connected
    · rw [if_pos hc, if_pos (h.isOpen_eq.trans hc)]
      exact { h with
        input_eq := by simp [h.input_eq]
        closed := fun hclosed => by rw [hc] at hclosed; cases hclosed }
    · rw [if_neg hc, if_neg (by rwa [h.isOpen_eq])]
      exact h
  | lose => exact ⟨l.stop, rfl, h.stop⟩

theorem react_overruns {l : Link} {s : Session} (h : Follows l s) {e : Event}
    (hroom : s.Overruns e) : l.react replies e = .error .outside := by
  cases e with
  | subscribe topic qos now =>
    obtain ⟨hqos, htopic, hc⟩ := hroom
    rw [Link.react, Link.subscribe_outside (h.connected.2.2 hc) htopic hqos now]
    rfl
  | _ => exact hroom.elim

theorem run_none (es : List Event) : run (Link.step replies) none es = none := by
  induction es with
  | nil => rfl
  | cons e es ih => exact ih

/-- A run that has not failed has not failed at any of its events. -/
theorem run_split {l l' : Link} {es es' : List Event} {e : Event}
    (h : run (Link.step replies) (some l) (es ++ e :: es') = some l') :
    ∃ l₁ l₂, run (Link.step replies) (some l) es = some l₁ ∧ l₁.react replies e = .ok l₂ ∧
      run (Link.step replies) (some l₂) es' = some l' := by
  rw [run_append, run_cons] at h
  cases h₁ : run (Link.step replies) (some l) es with
  | none =>
    rw [h₁] at h
    exact absurd (h.symm.trans (run_none replies es')) (by simp)
  | some l₁ =>
    rw [h₁, Link.step, Option.bind_some] at h
    cases h₂ : l₁.react replies e with
    | error fault =>
      rw [h₂] at h
      exact absurd (h.symm.trans (run_none replies es')) (by simp)
    | ok l₂ =>
      rw [h₂] at h
      exact ⟨l₁, l₂, rfl, h₂, h⟩

/-- As long as no QoS is stored behind the buffer, the client is where the session is. -/
theorem run_follows {l : Link} {s : Session} (h : Follows l s) {es : List Event}
    (ha : Along (Session.step replies) (fun s e => ¬ s.Overruns e) s es) :
    ∃ l', run (Link.step replies) (some l) es = some l' ∧
      Follows l' (run (Session.step replies) s es) := by
  induction es generalizing l s with
  | nil => exact ⟨l, rfl, h⟩
  | cons e es ih =>
    obtain ⟨l', hreact, h'⟩ := react_follows replies h ha.1
    have hstep : Link.step replies (some l) e = some l' := by
      rw [Link.step, Option.bind_some, hreact]
      rfl
    rw [run_cons, run_cons, hstep]
    exact ih h' ha.2

theorem run_overruns {l : Link} {s : Session} (h : Follows l s) {es : List Event}
    (ha : ¬ Along (Session.step replies) (fun s e => ¬ s.Overruns e) s es) :
    run (Link.step replies) (some l) es = none := by
  induction es generalizing l s with
  | nil => exact absurd trivial ha
  | cons e es ih =>
    rw [run_cons]
    by_cases hroom : s.Overruns e
    · have hstep : Link.step replies (some l) e = none := by
        rw [Link.step, Option.bind_some, react_overruns replies h hroom]
        rfl
      rw [hstep]
      exact run_none replies es
    · obtain ⟨l', hreact, h'⟩ := react_follows replies h hroom
      have hstep : Link.step replies (some l) e = some l' := by
        rw [Link.step, Option.bind_some, hreact]
        rfl
      rw [hstep]
      exact ih h' fun ha' => ha ⟨hroom, ha'⟩

/-- The session that a client has come to, if it has come anywhere. -/
theorem follows_of_run {l l' : Link} {s : Session} (h : Follows l s) {es : List Event}
    (hrun : run (Link.step replies) (some l) es = some l') :
    Follows l' (run (Session.step replies) s es) := by
  by_cases ha : Along (Session.step replies) (fun s e => ¬ s.Overruns e) s es
  · obtain ⟨l'', hrun', hfollows⟩ := run_follows replies h ha
    obtain rfl := Option.some.inj (hrun.symm.trans hrun')
    exact hfollows
  · rw [run_overruns replies h ha] at hrun
    cases hrun

/-- A connection that stays open stays open in the session. -/
theorem always_connected {l : Link} {s : Session} (h : Follows l s) {es : List Event}
    (hopen : Always (Link.step replies) (fun l => l.any Link.isOpen) (some l) es) :
    Always (Session.step replies) (fun s => s.connected) s es := by
  intro fs gs hsplit
  have hany := hopen fs gs hsplit
  cases hrun : run (Link.step replies) (some l) fs with
  | none =>
    rw [hrun] at hany
    cases hany
  | some l' =>
    rw [hrun] at hany
    exact (follows_of_run replies h hrun).isOpen_eq ▸ hany

/-- The connection stays open as long as the session lasts. -/
theorem always_open {l : Link} {s : Session} (h : Follows l s) {es : List Event}
    (ha : Along (Session.step replies) (fun s e => ¬ s.Overruns e) s es)
    (hc : Always (Session.step replies) (fun s => s.connected) s es) :
    Always (Link.step replies) (fun l => l.any Link.isOpen) (some l) es := by
  intro fs gs hsplit
  have hfs : Along (Session.step replies) (fun s e => ¬ s.Overruns e) s fs := by
    refine along_iff.mpr fun fs' e gs' hsplit' => ?_
    exact along_iff.mp ha fs' e (gs' ++ gs) (by rw [hsplit, hsplit', List.append_assoc]; rfl)
  obtain ⟨l', hrun, hfollows⟩ := run_follows replies h hfs
  rw [hrun]
  exact hfollows.isOpen_eq.trans (hc fs gs hsplit)

end Runs

end Esp32Automation.MqttClient
