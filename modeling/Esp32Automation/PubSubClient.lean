import Esp32Automation.CString
import Mathlib.Algebra.Order.Ring.Nat
import Mathlib.Tactic.Ring

/-!
# PubSubClient: receiving a packet

`readPacket` and the dispatch in `loop()`, on the bytes the network delivers. The
receive buffer has `MQTT_MAX_PACKET_SIZE` bytes, which none of the sketches changes.
Bytes that do not fit are read and dropped, and a packet that did not fit is ignored
as a whole. When the input ends inside a packet, `readByte` gives up after the socket
timeout. No sketch sets a stream, so the writes to one are left out.
-/
namespace Esp32Automation.PubSubClient

/-- `MQTT_MAX_PACKET_SIZE`. -/
def bufferSize : ℕ := 256

/-- Why `readPacket` gives up: a byte does not arrive, or the remaining length has more
than four digits, which closes the connection. -/
inductive Stop where
  | timeout
  | badLength
  deriving DecidableEq

/-- `buffer`, `len` and the bytes still to arrive. -/
structure Receiver where
  buffer : CharArray bufferSize
  len : ℕ
  input : List UInt8

/-- `readByte(buffer, &len)`. -/
def readByte (r : Receiver) : Except Stop (UInt8 × Receiver) :=
  match r.input with
  | [] => .error .timeout
  | c :: input => .ok (c, ⟨r.buffer.write r.len c, r.len + 1, input⟩)

/-- The loop over the digits of the remaining length; the first argument counts the
digits that may still come. -/
def readLength : ℕ → ℕ → ℕ → Receiver → Except Stop (ℕ × Receiver)
  | 0, _, _, _ => .error .badLength
  | k + 1, multiplier, length, r => do
    let (digit, r) ← readByte r
    let length := length + digit.toNat % 128 * multiplier
    if 128 ≤ digit.toNat then readLength k (multiplier * 128) length r else return (length, r)

/-- The loop over the rest of the packet. -/
def readRest : ℕ → Receiver → Except Stop Receiver
  | 0, r => .ok r
  | n + 1, r =>
    if r.len < bufferSize then do
      let (_, r) ← readByte r
      readRest n r
    else match r.input with
      | [] => .error .timeout
      | _ :: input => readRest n { r with input }

/-- A packet in the buffer; `len` is zero when it is to be ignored. -/
structure Packet where
  buffer : CharArray bufferSize
  lengthLength : ℕ
  len : ℕ
  input : List UInt8

def isPublish (header : UInt8) : Bool := header &&& 0xF0 = 0x30

/-- `readPacket`. -/
def readPacket (buffer : CharArray bufferSize) (input : List UInt8) : Except Stop Packet := do
  let (header, r) ← readByte ⟨buffer, 0, input⟩
  let (length, r) ← readLength 4 1 0 r
  let lengthLength := r.len - 1
  if isPublish header then
    let (_, r) ← readByte r
    let (_, r) ← readByte r
    let idx := r.len + (length - 2)
    let r ← readRest (length - 2) r
    return ⟨r.buffer, lengthLength, if bufferSize < idx then 0 else r.len, r.input⟩
  else
    let idx := r.len + length
    let r ← readRest length r
    return ⟨r.buffer, lengthLength, if bufferSize < idx then 0 else r.len, r.input⟩

/-- What `loop()` does with the packet that arrives. -/
inductive Dispatch where
  | nothing
  | disconnected
  | callback (topic : CString) (payload : List UInt8)
  deriving DecidableEq

/-- The byte at an index of the buffer. -/
def byteAt (buffer : CharArray bufferSize) (i : ℕ) : ℕ := (buffer.bytes[i]?.getD 0).toNat

/-- The `MQTTPUBLISH` branch of `loop()`, for well-formed packets. The topic is moved one byte to
the front, so that its terminator does not touch the payload. A topic length that points behind the
packet is given no callback here. There the source stores the terminator behind the packet, or
behind the buffer, and calls the callback with what lies there. -/
def dispatch (p : Packet) : Dispatch :=
  let tl := byteAt p.buffer (p.lengthLength + 1) * 256 + byteAt p.buffer (p.lengthLength + 2)
  let topic := CString.ofBytes ((p.buffer.bytes.drop (p.lengthLength + 3)).take tl)
  let skip := if p.buffer.bytes.head?.getD 0 &&& 0x06 = 0x02 then 2 else 0
  let offset := p.lengthLength + 3 + tl + skip
  if offset ≤ p.len then .callback topic ((p.buffer.bytes.drop offset).take (p.len - offset))
  else .nothing

/-- `loop()` on a connected client when bytes have arrived. -/
def loop (buffer : CharArray bufferSize) (input : List UInt8) : Dispatch :=
  match readPacket buffer input with
  | .error .timeout => .nothing
  | .error .badLength => .disconnected
  | .ok p =>
    if p.len = 0 then .nothing
    else if isPublish (p.buffer.bytes.head?.getD 0) then dispatch p
    else .nothing

/-- The remaining length, seven bits a byte, in at most `k` bytes. -/
def encodeLength : ℕ → ℕ → List UInt8
  | 0, _ => []
  | k + 1, n =>
    if n < 128 then [UInt8.ofNat n] else UInt8.ofNat (n % 128 + 128) :: encodeLength k (n / 128)

/-- The first byte of a PUBLISH packet at QoS 0. -/
def publishHeader (retain : Bool) : UInt8 := if retain then 0x31 else 0x30

/-- A PUBLISH packet at QoS 0; MQTT has none whose remaining length exceeds four
digits. -/
def publishPacket (retain : Bool) (topic : CString) (payload : List UInt8) :
    Option (List UInt8) :=
  let length := 2 + topic.length + payload.length
  if length < 128 ^ 4 then
    some (publishHeader retain :: (encodeLength 4 length ++
      UInt8.ofNat (topic.length / 256) :: UInt8.ofNat (topic.length % 256) ::
        (topic.bytes ++ payload)))
  else none

/-- The bytes of a message id. -/
def idBytes : Option UInt16 → List UInt8
  | none => []
  | some n => [UInt8.ofNat (n.toNat / 256), UInt8.ofNat (n.toNat % 256)]

/-- A PUBLISH packet at QoS 0, or at QoS 1 with a message id. -/
structure Publish where
  dup : Bool
  retain : Bool
  id : Option UInt16
  topic : CString
  payload : List UInt8
  topic_lt : topic.length < 65536
  /-- The remaining length has at most four digits. -/
  remaining_lt : 2 + topic.length + (idBytes id).length + payload.length < 128 ^ 4

namespace Publish

def remaining (m : Publish) : ℕ := 2 + m.topic.length + (idBytes m.id).length + m.payload.length

/-- The first byte: DUP, QoS and RETAIN are bits of it. -/
def header (m : Publish) : UInt8 :=
  0x30 ||| (if m.dup then 0x08 else 0) ||| (if m.id.isSome then 0x02 else 0) |||
    (if m.retain then 0x01 else 0)

/-- The packet on the wire. -/
def packet (m : Publish) : List UInt8 :=
  m.header :: (encodeLength 4 m.remaining ++
    UInt8.ofNat (m.topic.length / 256) :: UInt8.ofNat (m.topic.length % 256) ::
      (m.topic.bytes ++ (idBytes m.id ++ m.payload)))

theorem isPublish_header (m : Publish) : isPublish m.header := by
  unfold header
  cases m.dup <;> cases m.retain <;> cases m.id.isSome <;> decide

/-- The header says whether a message id follows. -/
theorem header_qos (m : Publish) :
    (if m.header &&& 0x06 = 0x02 then 2 else 0) = (idBytes m.id).length := by
  unfold header
  cases m.id with
  | none => cases m.dup <;> cases m.retain <;> decide
  | some n =>
    show _ = 2
    simp only [Option.isSome_some]
    cases m.dup <;> cases m.retain <;> decide

theorem packet_eq (m : Publish) :
    m.packet = m.header :: (encodeLength 4 m.remaining ++
      UInt8.ofNat (m.topic.length / 256) :: UInt8.ofNat (m.topic.length % 256) ::
        (m.topic.bytes ++ (idBytes m.id ++ m.payload))) := rfl

theorem packet_length (m : Publish) :
    m.packet.length = (encodeLength 4 m.remaining).length + 1 + m.remaining := by
  simp only [packet, remaining, List.length_cons, List.length_append, CString.length]
  omega

end Publish

/-- At QoS 0 without DUP it is the packet above. -/
theorem publishPacket_eq {retain : Bool} {topic : CString} {payload packet : List UInt8}
    (h : publishPacket retain topic payload = some packet) (ht : topic.length < 65536) :
    ∃ m : Publish, m.topic = topic ∧ m.payload = payload ∧ m.packet = packet := by
  simp only [publishPacket] at h
  split_ifs at h with hlen
  refine ⟨⟨false, retain, none, topic, payload, ht, hlen⟩, rfl, rfl, ?_⟩
  have hheader : 0x30 ||| (if retain then 0x01 else 0) = publishHeader retain := by
    cases retain <;> decide
  rw [← Option.some.inj h, ← hheader]
  simp [Publish.packet, Publish.header, Publish.remaining, idBytes]

theorem encodeLength_length_small {k n : ℕ} (h : n < 128) :
    (encodeLength (k + 1) n).length = 1 := by
  simp [encodeLength, h]

theorem encodeLength_length_two {k n : ℕ} (h : 128 ≤ n) (h' : n < 16384) :
    (encodeLength (k + 2) n).length = 2 := by
  have hd : n / 128 < 128 := by omega
  simp [encodeLength, Nat.not_lt.mpr h, hd]

theorem encodeLength_length_le (k n : ℕ) : (encodeLength k n).length ≤ k := by
  induction k generalizing n with
  | zero => simp [encodeLength]
  | succ k ih =>
    have hrec := ih (n / 128)
    rw [encodeLength]
    split_ifs
    · simp
    · simp only [List.length_cons]
      omega

theorem two_le_encodeLength_length {k n : ℕ} (h : 128 ≤ n) :
    2 ≤ (encodeLength (k + 2) n).length := by
  rw [encodeLength, if_neg (Nat.not_lt.mpr h)]
  simp only [encodeLength]
  split_ifs <;> simp

/-- A packet fits the buffer exactly when its topic and payload leave room for the length
of the topic and three bytes of header. -/
theorem publishPacket_fits_iff {retain : Bool} {topic : CString} {payload packet : List UInt8}
    (h : publishPacket retain topic payload = some packet) :
    packet.length ≤ bufferSize ↔ topic.length + payload.length ≤ 251 := by
  simp only [publishPacket] at h
  split_ifs at h with hlen
  obtain rfl := Option.some.inj h
  have htopic : topic.bytes.length = topic.length := rfl
  simp only [List.length_cons, List.length_append, bufferSize, htopic]
  by_cases hsmall : 2 + topic.length + payload.length < 128
  · have hone : (encodeLength 4 (2 + topic.length + payload.length)).length = 1 :=
      encodeLength_length_small hsmall
    omega
  · have hlarge : 2 ≤ (encodeLength 4 (2 + topic.length + payload.length)).length :=
      two_le_encodeLength_length (Nat.not_lt.mp hsmall)
    constructor
    · intro hfit
      omega
    · intro hfit
      have htwo : (encodeLength 4 (2 + topic.length + payload.length)).length = 2 :=
        encodeLength_length_two (Nat.not_lt.mp hsmall) (by omega)
      omega

/-- The receiver has stored exactly these bytes. -/
structure Holds (r : Receiver) (stored : List UInt8) : Prop where
  len_eq : r.len = stored.length
  take_eq : r.buffer.bytes.take stored.length = stored

theorem Holds.length_le {r : Receiver} {stored : List UInt8} (h : Holds r stored) :
    stored.length ≤ bufferSize := by
  have hl := congrArg List.length h.take_eq
  rw [List.length_take, r.buffer.length_eq] at hl
  omega

/-- The stored bytes are the beginning of the buffer. -/
theorem Holds.exists_tail {r : Receiver} {stored : List UInt8} (h : Holds r stored) :
    ∃ tail, r.buffer.bytes = stored ++ tail :=
  ⟨_, by rw [← List.take_append_drop stored.length r.buffer.bytes, h.take_eq]⟩

theorem holds_nil (buffer : CharArray bufferSize) (input : List UInt8) :
    Holds ⟨buffer, 0, input⟩ [] := ⟨rfl, rfl⟩

theorem readByte_holds {r : Receiver} {c : UInt8} {input stored : List UInt8} (h : Holds r stored)
    (hin : r.input = c :: input) (hlen : stored.length < bufferSize) :
    ∃ r', readByte r = .ok (c, r') ∧ r'.input = input ∧ Holds r' (stored ++ [c]) := by
  obtain ⟨buffer, len, _⟩ := r
  obtain ⟨rfl, htake⟩ := h
  obtain rfl := hin
  refine ⟨_, rfl, rfl, by simp, ?_⟩
  have hb := buffer.length_eq
  have hlt : stored.length < buffer.bytes.length := by omega
  have hle : (buffer.bytes.take stored.length).length ≤ stored.length := List.length_take_le _ _
  simp only [CharArray.write, List.length_append, List.length_singleton]
  rw [List.take_add_one, List.take_set, List.set_eq_of_length_le hle, htake]
  simp [hlt]

theorem toNat_ofNat {n : ℕ} (h : n < 256) : (UInt8.ofNat n).toNat = n := by
  rw [UInt8.toNat_ofNat']
  omega

/-- A digit without continuation bit is the last one. -/
theorem readLength_last {k n : ℕ} (hn : n < 128) (multiplier length : ℕ) {r : Receiver}
    {input stored : List UInt8} (h : Holds r stored)
    (hin : r.input = encodeLength (k + 1) n ++ input) (hlen : stored.length < bufferSize) :
    ∃ r', readLength (k + 1) multiplier length r = .ok (length + n * multiplier, r') ∧
      r'.input = input ∧ Holds r' (stored ++ encodeLength (k + 1) n) := by
  simp only [encodeLength, if_pos hn, List.singleton_append] at hin ⊢
  obtain ⟨r', hr, hin', hh⟩ := readByte_holds h hin hlen
  refine ⟨r', ?_, hin', hh⟩
  simp only [readLength, hr, bind, Except.bind, toNat_ofNat (show n < 256 by omega),
    Nat.mod_eq_of_lt hn, if_neg (Nat.not_le.mpr hn)]
  rfl

/-- The digits of a length are read back as that length. -/
theorem readLength_holds {k n : ℕ} (multiplier length : ℕ) {r : Receiver}
    {input stored : List UInt8} (h : Holds r stored)
    (hin : r.input = encodeLength (k + 1) n ++ input) (hn : n < 128 ^ (k + 1))
    (hlen : stored.length + (k + 1) ≤ bufferSize) :
    ∃ r', readLength (k + 1) multiplier length r = .ok (length + n * multiplier, r') ∧
      r'.input = input ∧ Holds r' (stored ++ encodeLength (k + 1) n) := by
  induction k generalizing n multiplier length r stored with
  | zero => exact readLength_last (by simpa using hn) multiplier length h hin (by omega)
  | succ k ih =>
    by_cases hs : n < 128
    · exact readLength_last hs multiplier length h hin (by omega)
    · rw [encodeLength] at hin ⊢
      simp only [if_neg hs, List.cons_append] at hin ⊢
      obtain ⟨r', hr, hin', hh⟩ := readByte_holds h hin (by omega)
      have hd : (UInt8.ofNat (n % 128 + 128)).toNat = n % 128 + 128 := toNat_ofNat (by omega)
      have hdiv : n / 128 < 128 ^ (k + 1) := by
        rw [Nat.div_lt_iff_lt_mul (by omega), ← pow_succ]
        exact hn
      obtain ⟨r'', hr'', hin'', hh''⟩ := ih (multiplier * 128) (length + n % 128 * multiplier) hh
        hin' hdiv (by simp; omega)
      refine ⟨r'', ?_, hin'', by simpa using hh''⟩
      rw [readLength]
      have hmod : (n % 128 + 128) % 128 = n % 128 := by omega
      simp only [hr, bind, Except.bind, hd, hmod, Nat.le_add_left, if_true]
      rw [hr'']
      congr 2
      have hsplit := Nat.div_add_mod n 128
      calc length + n % 128 * multiplier + n / 128 * (multiplier * 128)
          = length + (128 * (n / 128) + n % 128) * multiplier := by ring
        _ = length + n * multiplier := by rw [hsplit]

/-- What fits is stored. -/
theorem readRest_holds {r : Receiver} {bytes input stored : List UInt8} (h : Holds r stored)
    (hin : r.input = bytes ++ input) (hlen : stored.length + bytes.length ≤ bufferSize) :
    ∃ r', readRest bytes.length r = .ok r' ∧ r'.input = input ∧ Holds r' (stored ++ bytes) := by
  induction bytes generalizing r stored with
  | nil => exact ⟨r, rfl, hin, by simpa using h⟩
  | cons c bytes ih =>
    simp only [List.length_cons] at hlen
    have hroom : r.len < bufferSize := by rw [h.len_eq]; omega
    obtain ⟨r', hr, hin', hh⟩ := readByte_holds h hin (by omega)
    obtain ⟨r'', hr'', hin'', hh''⟩ := ih hh hin' (by simp; omega)
    refine ⟨r'', ?_, hin'', by simpa using hh''⟩
    rw [List.length_cons, readRest, if_pos hroom, hr]
    exact hr''

/-- What does not fit is read all the same. -/
theorem readRest_ok {r : Receiver} {bytes input : List UInt8} (hin : r.input = bytes ++ input) :
    ∃ r', readRest bytes.length r = .ok r' := by
  induction bytes generalizing r with
  | nil => exact ⟨r, rfl⟩
  | cons c bytes ih =>
    rw [List.length_cons, readRest]
    by_cases hroom : r.len < bufferSize
    · obtain ⟨buffer, len, _⟩ := r
      obtain rfl := hin
      rw [if_pos hroom]
      exact ih rfl
    · rw [if_neg hroom, hin]
      exact ih rfl

/-- The header, the remaining length and the length of the topic are stored, and the rest of the
packet is what `readRest` makes of it. -/
theorem readPacket_head {header hi lo : UInt8} {n : ℕ} (hpub : isPublish header)
    (hn : n < 128 ^ 4) (buffer : CharArray bufferSize) (rest : List UInt8) :
    ∃ r, r.input = rest ∧ Holds r (header :: (encodeLength 4 n ++ [hi, lo])) ∧
      ∀ r', readRest (n - 2) r = .ok r' →
        readPacket buffer (header :: (encodeLength 4 n ++ hi :: lo :: rest)) =
          .ok ⟨r'.buffer, (encodeLength 4 n).length,
            if bufferSize < r.len + (n - 2) then 0 else r'.len, r'.input⟩ := by
  have henc := encodeLength_length_le 4 n
  have hsize : bufferSize = 256 := rfl
  obtain ⟨r₀, hr₀, hin₀, hh₀⟩ := readByte_holds
    (holds_nil buffer (header :: (encodeLength 4 n ++ hi :: lo :: rest))) rfl (by decide)
  have hdigits : ∃ r, readLength 4 1 0 r₀ = .ok (0 + n * 1, r) ∧
      r.input = hi :: lo :: rest ∧ Holds r ([] ++ [header] ++ encodeLength 4 n) :=
    readLength_holds 1 0 hh₀ hin₀ hn (by simp [bufferSize])
  obtain ⟨r₁, hr₁, hin₁, hh₁⟩ := hdigits
  have hlen₁ : ([] ++ [header] ++ encodeLength 4 n).length = 1 + (encodeLength 4 n).length := by
    simp only [List.nil_append, List.length_append, List.length_singleton]
  obtain ⟨r₂, hr₂, hin₂, hh₂⟩ := readByte_holds hh₁ hin₁ (by omega)
  obtain ⟨r₃, hr₃, hin₃, hh₃⟩ := readByte_holds hh₂ hin₂ (by
    rw [List.length_append, hlen₁, List.length_singleton]
    omega)
  have hll : r₁.len - 1 = (encodeLength 4 n).length := by
    rw [hh₁.len_eq, hlen₁]
    omega
  have hcount : 0 + n * 1 - 2 = n - 2 := by omega
  refine ⟨r₃, hin₃, by simpa using hh₃, fun r₄ hr₄ => ?_⟩
  simp only [readPacket, bind, Except.bind, hr₀, hr₁, hr₂, hr₃, hpub, if_true, hcount, hr₄, hll]
  rfl

/-- `readPacket` stores a PUBLISH packet that fits, and marks one that does not. -/
theorem readPacket_holds {header hi lo : UInt8} {n : ℕ} {body packet : List UInt8}
    (hpub : isPublish header) (hn : n < 128 ^ 4) (hbody : body.length = n - 2)
    (hpacket : packet = header :: (encodeLength 4 n ++ hi :: lo :: body))
    (buffer : CharArray bufferSize) (input : List UInt8) :
    ∃ p, readPacket buffer (packet ++ input) = .ok p ∧
      if packet.length ≤ bufferSize then
        p.lengthLength = (encodeLength 4 n).length ∧ p.len = packet.length ∧
          ∃ tail, p.buffer.bytes = packet ++ tail
      else p.len = 0 := by
  have hin : packet ++ input = header :: (encodeLength 4 n ++ hi :: lo :: (body ++ input)) := by
    simp [hpacket]
  have hstored : header :: (encodeLength 4 n ++ [hi, lo]) ++ body = packet := by
    simp [hpacket]
  obtain ⟨r, hrest, hh, hread⟩ := readPacket_head hpub hn buffer
    (body ++ input)
  rw [← hin, ← hbody] at hread
  have hidx : r.len + body.length = packet.length := by
    rw [hh.len_eq, ← hstored, List.length_append]
  rw [hidx] at hread
  by_cases hfit : packet.length ≤ bufferSize
  · have hroom : (header :: (encodeLength 4 n ++ [hi, lo])).length + body.length ≤ bufferSize := by
      rw [← hh.len_eq, hidx]
      exact hfit
    obtain ⟨r', hr', -, hh'⟩ := readRest_holds hh hrest hroom
    rw [hstored] at hh'
    refine ⟨_, hread r' hr', ?_⟩
    rw [if_pos hfit, if_neg (Nat.not_lt.mpr hfit)]
    exact ⟨rfl, hh'.len_eq, hh'.exists_tail⟩
  · obtain ⟨r', hr'⟩ := readRest_ok hrest
    refine ⟨_, hread r' hr', ?_⟩
    rw [if_neg hfit, if_pos (Nat.not_le.mp hfit)]

/-- The dispatch finds topic and payload where the packet has them. -/
theorem dispatch_publish {p : Packet} {header hi lo : UInt8} {enc id : List UInt8}
    {topic : CString} {payload tail : List UInt8}
    (hqos : (if header &&& 0x06 = 0x02 then 2 else 0) = id.length)
    (htl : hi.toNat * 256 + lo.toNat = topic.length) (hll : p.lengthLength = enc.length)
    (hlen : p.len = enc.length + 3 + topic.length + id.length + payload.length)
    (hb : p.buffer.bytes =
      header :: (enc ++ hi :: lo :: (topic.bytes ++ (id ++ payload))) ++ tail) :
    dispatch p = .callback topic payload := by
  have htopic : topic.bytes.length = topic.length := rfl
  have hfront : p.buffer.bytes =
      (header :: enc) ++ hi :: lo :: (topic.bytes ++ (id ++ (payload ++ tail))) := by simp [hb]
  have hhi : byteAt p.buffer (enc.length + 1) = hi.toNat := by
    simp [byteAt, hfront]
  have hlo : byteAt p.buffer (enc.length + 2) = lo.toNat := by
    simp [byteAt, hfront]
  have htopicAt : p.buffer.bytes.drop (enc.length + 3) =
      topic.bytes ++ (id ++ (payload ++ tail)) := by
    rw [hfront, show (header :: enc) ++ hi :: lo :: (topic.bytes ++ (id ++ (payload ++ tail))) =
      ((header :: enc) ++ [hi, lo]) ++ (topic.bytes ++ (id ++ (payload ++ tail))) by simp]
    exact List.drop_left' (by simp)
  have hpayloadAt : p.buffer.bytes.drop (enc.length + 3 + topic.length + id.length) =
      payload ++ tail := by
    rw [← List.drop_drop, ← List.drop_drop, htopicAt, List.drop_left' htopic]
    exact List.drop_left' rfl
  have hhead : p.buffer.bytes.head?.getD 0 = header := by simp [hfront]
  have hle : enc.length + 3 + topic.length + id.length ≤ p.len := by omega
  have hrest : p.len - (enc.length + 3 + topic.length + id.length) = payload.length := by omega
  simp only [dispatch, hll, hhi, hlo, htl, hhead, hqos, if_pos hle, hrest, htopicAt, hpayloadAt]
  rw [List.take_left' htopic, List.take_left' rfl, CString.ofBytes_bytes]

/-- `readPacket` on a PUBLISH packet, as the dispatch sees the result. -/
theorem readPacket_publish (m : Publish) (buffer : CharArray bufferSize) (input : List UInt8) :
    ∃ p, readPacket buffer (m.packet ++ input) = .ok p ∧
      if m.packet.length ≤ bufferSize then
        p.len = m.packet.length ∧ isPublish (p.buffer.bytes.head?.getD 0) ∧
          dispatch p = .callback m.topic m.payload
      else p.len = 0 := by
  have htl := m.topic_lt
  have hrem : m.remaining = 2 + m.topic.length + (idBytes m.id).length + m.payload.length := rfl
  have hlt : m.remaining < 128 ^ 4 := m.remaining_lt
  have hbody : (m.topic.bytes ++ (idBytes m.id ++ m.payload)).length = m.remaining - 2 := by
    rw [hrem, List.length_append, List.length_append]
    simp only [CString.length]
    omega
  obtain ⟨p, hp, hspec⟩ :=
    readPacket_holds m.isPublish_header hlt hbody m.packet_eq buffer input
  refine ⟨p, hp, ?_⟩
  by_cases hfit : m.packet.length ≤ bufferSize
  · rw [if_pos hfit]
    rw [if_pos hfit] at hspec
    obtain ⟨hll, hl, tail, htail⟩ := hspec
    have hhi : (UInt8.ofNat (m.topic.length / 256)).toNat = m.topic.length / 256 :=
      toNat_ofNat (by omega)
    have hlo : (UInt8.ofNat (m.topic.length % 256)).toNat = m.topic.length % 256 :=
      toNat_ofNat (by omega)
    have htotal : p.len = (encodeLength 4 m.remaining).length + 3 + m.topic.length +
        (idBytes m.id).length + m.payload.length := by
      rw [hl, m.packet_length]
      omega
    have hhead : p.buffer.bytes.head?.getD 0 = m.header := by
      rw [htail]
      rfl
    refine ⟨hl, by rw [hhead]; exact m.isPublish_header, ?_⟩
    exact dispatch_publish m.header_qos (by rw [hhi, hlo]; omega) hll htotal htail
  · rw [if_neg hfit] at hspec ⊢
    exact hspec

/-- `loop()` hands a PUBLISH packet to the callback exactly when the packet fits the
buffer, with the topic and the payload it was made of. -/
theorem loop_publish (m : Publish) (buffer : CharArray bufferSize) (input : List UInt8) :
    loop buffer (m.packet ++ input) =
      if m.packet.length ≤ bufferSize then .callback m.topic m.payload else .nothing := by
  obtain ⟨p, hp, hspec⟩ := readPacket_publish m buffer input
  rw [loop, hp]
  by_cases hfit : m.packet.length ≤ bufferSize
  · rw [if_pos hfit] at hspec ⊢
    obtain ⟨hl, hpub, hdispatch⟩ := hspec
    have hne : p.len ≠ 0 := by
      rw [hl, m.packet_length]
      omega
    simp only [if_neg hne, hpub, if_true, hdispatch]
  · rw [if_neg hfit] at hspec ⊢
    simp only [hspec, if_true]

theorem loop_publishPacket {retain : Bool} {topic : CString} {payload packet : List UInt8}
    (h : publishPacket retain topic payload = some packet) (ht : topic.length < 65536)
    (buffer : CharArray bufferSize) (input : List UInt8) :
    loop buffer (packet ++ input) =
      if packet.length ≤ bufferSize then .callback topic payload else .nothing := by
  obtain ⟨m, rfl, rfl, rfl⟩ := publishPacket_eq h ht
  exact loop_publish m buffer input

end Esp32Automation.PubSubClient
