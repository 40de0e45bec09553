import Esp32Automation.ConfigFromBlth
import Esp32Automation.PubSubClient

/-!
# The terminator behind the payload

PubSubClient hands its callback pointers into the receive buffer. The callback of
remote_on_off_with_config_from_blth writes a terminator behind the payload, which the
other sketches do in a copy. Here the call is followed in memory, the receive buffer and
what is behind it: a packet that fills the buffer to the last byte makes the callback write
behind it, and no other packet does.
-/
namespace Esp32Automation.PubSubClient

/-- `memmove` inside one memory; pointers are indices. -/
def memmove (dst src n : ℕ) (memory : List UInt8) : List UInt8 :=
  memory.take dst ++ ((memory.drop src).take n ++ memory.drop (dst + n))

/-- The arguments of the callback and the memory they point into, which begins with the
receive buffer. -/
structure Call where
  memory : List UInt8
  topic : ℕ
  payload : ℕ
  length : ℕ

/-- The `MQTTPUBLISH` branch of `loop()` up to the callback. -/
def callbackCall (p : Packet) (behind : List UInt8) : Call :=
  let tl := byteAt p.buffer (p.lengthLength + 1) * 256 + byteAt p.buffer (p.lengthLength + 2)
  let memory := memmove (p.lengthLength + 2) (p.lengthLength + 3) tl (p.buffer.bytes ++ behind)
  let memory := memory.set (p.lengthLength + 2 + tl) 0
  let skip := if p.buffer.bytes.head?.getD 0 &&& 0x06 = 0x02 then 2 else 0
  let payload := p.lengthLength + 3 + tl + skip
  { memory
    topic := p.lengthLength + 2
    payload
    length := (((p.len : ℤ) - payload) % 2 ^ 32).toNat }

/-- The call that `loop()` makes when bytes have arrived, if it makes one. -/
def receive (buffer : CharArray bufferSize) (input behind : List UInt8) : Option Call :=
  match readPacket buffer input with
  | .error _ => none
  | .ok p =>
    if p.len = 0 then none
    else if isPublish (p.buffer.bytes.head?.getD 0) then some (callbackCall p behind)
    else none

/-- Topic, terminator and payload follow each other in memory, the message id in between. -/
def Call.Presents (c : Call) (topic : CString) (payload : List UInt8) : Prop :=
  ∃ front name id rest,
    c.memory = front ++ (name ++ 0 :: (id ++ (payload ++ rest))) ∧
      c.topic = front.length ∧ CString.ofBytes name = topic ∧
      c.payload = front.length + (name.length + 1 + id.length) ∧ c.length = payload.length

/-- Moving a block one byte to the front makes room for its terminator. -/
theorem memmove_terminated {memory : List UInt8} {i n : ℕ} (h : i + 1 + n ≤ memory.length) :
    (memmove i (i + 1) n memory).set (i + n) 0 =
      memory.take i ++ ((memory.drop (i + 1)).take n ++ 0 :: memory.drop (i + 1 + n)) := by
  have hfront : (memory.take i).length = i := List.length_take_of_le (by omega)
  have hblock : ((memory.drop (i + 1)).take n).length = n :=
    List.length_take_of_le (by rw [List.length_drop]; omega)
  have hlt : i + n < memory.length := by omega
  have hnext : i + n + 1 = i + 1 + n := by omega
  rw [memmove, List.set_append_right _ _ (by omega), List.set_append_right _ _ (by omega),
    hfront, hblock, Nat.add_sub_cancel_left, Nat.sub_self, List.drop_eq_getElem_cons hlt,
    List.set_cons_zero, hnext]

/-- A part of the bytes from an index on, and what follows it. -/
theorem drop_eq_part (bytes : List UInt8) (i n : ℕ) :
    bytes.drop i = (bytes.drop i).take n ++ bytes.drop (i + n) := by
  rw [← List.drop_drop, List.take_append_drop]

/-- The memory after the topic has been moved: topic, terminator, message id, payload. -/
theorem memmove_layout {bytes : List UInt8} {i n skip len : ℕ} (h : i + 1 + n + skip ≤ len)
    (hlen : len ≤ bytes.length) (behind : List UInt8) :
    (memmove i (i + 1) n (bytes ++ behind)).set (i + n) 0 =
      bytes.take i ++ ((bytes.drop (i + 1)).take n ++ 0 :: ((bytes.drop (i + 1 + n)).take skip ++
        ((bytes.drop (i + 1 + n + skip)).take (len - (i + 1 + n + skip)) ++
          (bytes.drop len ++ behind)))) := by
  have hmemory : i + 1 + n ≤ (bytes ++ behind).length := by
    rw [List.length_append]
    omega
  have hname : ((bytes ++ behind).drop (i + 1)).take n = (bytes.drop (i + 1)).take n := by
    rw [List.drop_append_of_le_length (by omega), List.take_append_of_le_length]
    rw [List.length_drop]
    omega
  have hid := drop_eq_part bytes (i + 1 + n) skip
  have hpayload := drop_eq_part bytes (i + 1 + n + skip) (len - (i + 1 + n + skip))
  rw [Nat.add_sub_cancel' h] at hpayload
  rw [memmove_terminated hmemory, hname, List.take_append_of_le_length (by omega),
    List.drop_append_of_le_length (by omega), ← List.append_assoc (List.take _ _) _ behind,
    ← hpayload, ← List.append_assoc (List.take skip _), ← hid]

/-- The call presents in memory what the dispatch finds in the packet, and its payload ends
where the packet ends. -/
theorem callbackCall_presents {p : Packet} {topic : CString} {payload : List UInt8}
    (hlen : p.len ≤ bufferSize) (h : dispatch p = .callback topic payload)
    (behind : List UInt8) :
    (callbackCall p behind).Presents topic payload ∧
      (callbackCall p behind).payload + (callbackCall p behind).length = p.len := by
  have hbuffer := p.buffer.length_eq
  simp only [dispatch] at h
  simp only [callbackCall]
  generalize byteAt p.buffer (p.lengthLength + 1) * 256 +
    byteAt p.buffer (p.lengthLength + 2) = tl at h ⊢
  generalize (if p.buffer.bytes.head?.getD 0 &&& 0x06 = 0x02 then 2 else 0) = skip at h ⊢
  split_ifs at h with hle
  obtain ⟨rfl, rfl⟩ := Dispatch.callback.inj h
  -- the subtraction of the source does not wrap around
  have hlength : (((p.len : ℤ) - (p.lengthLength + 3 + tl + skip : ℕ)) % 2 ^ 32).toNat =
      p.len - (p.lengthLength + 3 + tl + skip) := by
    simp only [bufferSize] at hlen
    omega
  have hfront : (p.buffer.bytes.take (p.lengthLength + 2)).length = p.lengthLength + 2 :=
    List.length_take_of_le (by omega)
  have hname : ((p.buffer.bytes.drop (p.lengthLength + 3)).take tl).length = tl :=
    List.length_take_of_le (by rw [List.length_drop]; omega)
  have hid : ((p.buffer.bytes.drop (p.lengthLength + 3 + tl)).take skip).length = skip :=
    List.length_take_of_le (by rw [List.length_drop]; omega)
  have hpayload : ((p.buffer.bytes.drop (p.lengthLength + 3 + tl + skip)).take
      (p.len - (p.lengthLength + 3 + tl + skip))).length =
      p.len - (p.lengthLength + 3 + tl + skip) :=
    List.length_take_of_le (by rw [List.length_drop]; omega)
  refine ⟨⟨_, _, _, _, memmove_layout hle (by omega) behind, hfront.symm, rfl, ?_, ?_⟩, ?_⟩
  · show p.lengthLength + 3 + tl + skip = _
    rw [hfront, hname, hid]
    omega
  · exact hlength.trans hpayload.symm
  · show p.lengthLength + 3 + tl + skip + Int.toNat _ = p.len
    rw [hlength]
    omega

/-- A packet that fits leads to a call that presents it. -/
theorem receive_publish (m : Publish) (h : m.packet.length ≤ bufferSize)
    (buffer : CharArray bufferSize) (input behind : List UInt8) :
    ∃ c, receive buffer (m.packet ++ input) behind = some c ∧ c.Presents m.topic m.payload ∧
      c.payload + c.length = m.packet.length := by
  obtain ⟨p, hp, hspec⟩ := readPacket_publish m buffer input
  rw [if_pos h] at hspec
  obtain ⟨hl, hpub, hdispatch⟩ := hspec
  have hne : p.len ≠ 0 := by
    rw [hl, m.packet_length]
    omega
  obtain ⟨hpresents, hend⟩ := callbackCall_presents (by omega) hdispatch behind
  refine ⟨callbackCall p behind, ?_, hpresents, by rw [hend, hl]⟩
  simp only [receive, hp, if_neg hne, hpub, if_true]

/-- One that does not fit is dropped. -/
theorem receive_dropped (m : Publish) (h : ¬ m.packet.length ≤ bufferSize)
    (buffer : CharArray bufferSize) (input behind : List UInt8) :
    receive buffer (m.packet ++ input) behind = none := by
  obtain ⟨p, hp, hspec⟩ := readPacket_publish m buffer input
  rw [if_neg h] at hspec
  simp only [receive, hp, hspec, if_true]

end Esp32Automation.PubSubClient

namespace Esp32Automation.ConfigFromBlth
open Preferences PubSubClient

/-- The memory after `payload[length] = '\\0'`. -/
def terminate (c : Call) : List UInt8 := c.memory.set (c.payload + c.length) 0

/-- The text that `deserializeJson` reads at `payload`. -/
def parsedText (c : Call) : CString := .ofBytes ((terminate c).drop c.payload)

/-- `mqttCallback` as the library calls it. -/
def mqttCallbackAt {P : Type} [ArrayPreferences P] (c : Call) (d : Device P) :
    Reaction (Device P) :=
  mqttCallback (.ofBytes ((terminate c).drop c.topic)) (parsedText c).bytes d

/-- Wherever the terminator goes, the text is the payload up to its first NUL. -/
theorem presents_text {c : Call} {topic : CString} {payload : List UInt8}
    (h : c.Presents topic payload) : parsedText c = .ofBytes payload := by
  obtain ⟨front, name, id, rest, hmemory, -, -, hpayload, hlength⟩ := h
  have hsplit : c.memory = (front ++ (name ++ 0 :: id)) ++ (payload ++ rest) := by
    simp [hmemory]
  have hfront : (front ++ (name ++ 0 :: id)).length = c.payload := by
    rw [hpayload]
    simp only [List.length_append, List.length_cons]
    omega
  rw [parsedText, terminate, hsplit, hlength, List.set_append_right _ _ (by omega), hfront,
    Nat.add_sub_cancel_left, List.drop_left' hfront, List.set_append_right _ _ le_rfl,
    Nat.sub_self]
  cases rest with
  | nil => rw [List.set_nil, List.append_nil]
  | cons c rest => rw [List.set_cons_zero, CString.ofBytes_append_zero_cons]

/-- The topic stays as it is. -/
theorem presents_topic {c : Call} {topic : CString} {payload : List UInt8}
    (h : c.Presents topic payload) : CString.ofBytes ((terminate c).drop c.topic) = topic := by
  obtain ⟨front, name, id, rest, hmemory, htopic, rfl, hpayload, -⟩ := h
  have hsplit : c.memory = (front ++ (name ++ [0])) ++ (id ++ (payload ++ rest)) := by
    simp [hmemory]
  have hfront : (front ++ (name ++ [0])).length ≤ c.payload + c.length := by
    rw [hpayload]
    simp only [List.length_append, List.length_singleton]
    omega
  rw [terminate, hsplit, List.set_append_right _ _ hfront, htopic, List.append_assoc,
    List.drop_left' rfl, List.append_assoc, List.singleton_append,
    CString.ofBytes_append_zero_cons]

/-- In memory the callback does what it does with a topic and a payload. -/
theorem mqttCallbackAt_eq {P : Type} [ArrayPreferences P] {c : Call} {topic : CString}
    {payload : List UInt8} (h : c.Presents topic payload) (d : Device P) :
    mqttCallbackAt c d = mqttCallback topic payload d := by
  rw [mqttCallbackAt, presents_topic h, presents_text h, mqttCallback, deserializeJson_ofBytes,
    mqttCallback]

/-- The terminator lands in the receive buffer, and the text that is parsed is the payload
up to its first NUL. -/
structure Terminates (c : Call) (payload : List UInt8) : Prop where
  inside : c.payload + c.length < bufferSize
  text_eq : parsedText c = .ofBytes payload

/-- Whatever the buffer held and whatever is behind it: the callback terminates the payload
of a PUBLISH packet as it should exactly when the packet does not fill the buffer. -/
theorem terminates_iff (m : Publish) (buffer : CharArray bufferSize) (input behind : List UInt8)
    (c : Call) (h : receive buffer (m.packet ++ input) behind = some c) :
    Terminates c m.payload ↔ m.packet.length ≠ bufferSize := by
  have hfit : m.packet.length ≤ bufferSize := by
    by_contra hlong
    rw [receive_dropped m hlong] at h
    cases h
  obtain ⟨c', hc', hpresents, hend⟩ := receive_publish m hfit buffer input behind
  obtain rfl := Option.some.inj (hc'.symm.trans h)
  constructor
  · intro hterm
    have hinside := hterm.inside
    omega
  · intro hne
    exact ⟨by omega, presents_text hpresents⟩

/-- `ON` for the pin, with so many blanks behind the document. -/
def paddedPayload (blanks : ℕ) : List UInt8 :=
  ascii "\x7b\"action\":\"ON\"\x7d" ++ List.replicate blanks 32

theorem commandTopic_length : (CString.lit "esp32/command").length = 13 := by decide

theorem commandTopic_lt : (CString.lit "esp32/command").length < 65536 := by
  rw [commandTopic_length]
  omega

theorem padded_remaining_lt (id : Option UInt16) {blanks : ℕ} (h : blanks < 1000) :
    2 + (CString.lit "esp32/command").length + (idBytes id).length +
      (paddedPayload blanks).length < 128 ^ 4 := by
  have htext : (ascii "\x7b\"action\":\"ON\"\x7d").length = 15 := by decide
  have hid : (idBytes id).length ≤ 2 := by cases id <;> simp [idBytes]
  rw [paddedPayload, List.length_append, List.length_replicate, commandTopic_length, htext]
  omega

/-- The command at QoS 1, with one byte of the buffer to spare. -/
def roomyOn : Publish where
  dup := false
  retain := false
  id := some 7
  topic := .lit "esp32/command"
  payload := paddedPayload 220
  topic_lt := commandTopic_lt
  remaining_lt := padded_remaining_lt (some 7) (by omega)

/-- The command at QoS 0, to the last byte of the buffer. -/
def fullOn : Publish where
  dup := false
  retain := false
  id := none
  topic := .lit "esp32/command"
  payload := paddedPayload 223
  topic_lt := commandTopic_lt
  remaining_lt := padded_remaining_lt none (by omega)

theorem roomyOn_length : roomyOn.packet.length + 1 = bufferSize := by decide +kernel

theorem fullOn_length : fullOn.packet.length = bufferSize := by decide +kernel

theorem terminates_roomyOn :
    ∃ c, receive (.zero bufferSize) (roomyOn.packet ++ []) [] = some c ∧
      Terminates c roomyOn.payload := by
  have hlength := roomyOn_length
  obtain ⟨c, hc, -⟩ := receive_publish roomyOn (by omega) (.zero bufferSize) [] []
  exact ⟨c, hc, (terminates_iff roomyOn _ [] [] c hc).mpr (by omega)⟩

/-- The terminator of a packet of exactly 256 bytes is written behind the buffer. -/
theorem terminator_behind_buffer :
    ¬ ∀ (m : Publish) (buffer : CharArray bufferSize) (input behind : List UInt8) (c : Call),
      receive buffer (m.packet ++ input) behind = some c → Terminates c m.payload := by
  intro h
  have hlength := fullOn_length
  obtain ⟨c, hc, -, hend⟩ := receive_publish fullOn (by omega) (.zero bufferSize) [] []
  have hinside := (h fullOn _ [] [] c hc).inside
  omega

end Esp32Automation.ConfigFromBlth
