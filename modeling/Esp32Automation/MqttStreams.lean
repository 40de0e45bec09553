import Esp32Automation.MqttRuns

/-!
# PubSubClient: messages past the buffer

`publish_P` and `beginPublish` put only the topic in the buffer and pass the payload on as it
comes. Neither looks at the length of the topic. `publish_P` counts the packet in 32 bits,
`beginPublish` in 16, and where the count is wrong the broker takes the end of the payload for
packets of the client.
-/
namespace Esp32Automation.MqttClient
open PubSubClient Mqtt Run

namespace Link

/-- `publish_P(topic, payload, plength, retained)`. -/
def publishP (m : Message) (now : UInt32) (l : Link) : Except Fault (Bool × Link) :=
  let (alive, l) := l.connected
  if alive then do
    let tlen := min m.topic.length bufferSize
    let digits := encodeLength 5 ((m.payload.length + 2 + tlen) % 4294967296)
    let buf ← put l.client.buffer 0 (publishHeader m.retained)
    let (buf, pos) ← writeBytes digits buf 1
    let (buf, pos) ← writeString m.topic buf pos
    let l := send (buf.bytes.take pos) { l with client := { l.client with buffer := buf } }
    let l := m.payload.foldl (fun l c => send [c] l) l
    let rc := if l.isOpen then pos + m.payload.length else 0
    let expectedLength := 1 + digits.length + 2 + tlen + m.payload.length
    return (rc % 4294967296 = expectedLength % 4294967296,
      { l with client := { l.client with lastOutActivity := now } })
  else .ok (false, l)

/-- `beginPublish(topic, plength, retained)`. -/
def beginPublish (topic : CString) (plength : ℕ) (retained : Bool) (now : UInt32) (l : Link) :
    Except Fault (Bool × Link) :=
  let (alive, l) := l.connected
  if alive then do
    let (buf, length) ← writeString topic l.client.buffer maxHeaderSize
    let (buf, hlen) ← buildHeader (publishHeader retained) buf (plength + length - maxHeaderSize)
    let start := maxHeaderSize - hlen
    return (l.isOpen, send ((buf.bytes.drop start).take (length - start))
      { l with client := { l.client with buffer := buf, lastOutActivity := now } })
  else .ok (false, l)

/-- `write(buffer, size)`, and with one byte `write(data)`. -/
def writeData (buffer : List UInt8) (now : UInt32) (l : Link) : Link :=
  send buffer { l with client := { l.client with lastOutActivity := now } }

/-- A message in pieces: `beginPublish` with their whole length and, if that succeeds, `write`
for each of them. `endPublish` does nothing. -/
def publishPieces (topic : CString) (retained : Bool) (pieces : List (List UInt8 × UInt32))
    (now : UInt32) (l : Link) : Except Fault (Bool × Link) := do
  let (begun, l) ← l.beginPublish topic (pieces.map Prod.fst).flatten.length retained now
  return (begun, if begun then pieces.foldl (fun l p => l.writeData p.1 p.2) l else l)

end Link

theorem writeBytes_outside {cs : List UInt8} {buf : Memory} {pos : ℕ} (hpos : pos ≤ bufferSize)
    (h : bufferSize < pos + cs.length) : writeBytes cs buf pos = .error .outside := by
  induction cs generalizing buf pos with
  | nil =>
    rw [List.length_nil] at h
    omega
  | cons c cs ih =>
    rw [writeBytes, put]
    split_ifs with hlt
    · refine ih hlt ?_
      rw [List.length_cons] at h
      omega
    · rfl

theorem writeString_outside {string : CString} {buf : Memory} {pos : ℕ}
    (hpos : pos + 2 ≤ bufferSize) (h : bufferSize < pos + 2 + string.length) :
    writeString string buf pos = .error .outside := by
  rw [writeString, writeBytes_outside hpos h]
  rfl

/-- The packet at QoS 0 that brings a message. -/
structure Carries (p : Publish) (m : Message) : Prop where
  dup_eq : p.dup = false
  retain_eq : p.retain = m.retained
  id_eq : p.id = none
  topic_eq : p.topic = m.topic
  payload_eq : p.payload = m.payload

theorem exists_carries {m : Message} (ht : m.topic.length < 65536)
    (h : 2 + m.topic.length + m.payload.length < 128 ^ 4) : ∃ p : Publish, Carries p m :=
  ⟨⟨false, m.retained, none, m.topic, m.payload, ht, by simpa [idBytes] using h⟩,
    rfl, rfl, rfl, rfl, rfl⟩

/-- The bytes of a message behind a header that counts `r` of them. -/
def counted (m : Message) (ht : m.topic.length < 65536) (r : ℕ) : List UInt8 :=
  publishHeader m.retained :: (encodeLength 5 r ++ (text.encode ⟨m.topic, ht⟩ ++ m.payload))

theorem encodeLength_more {k n : ℕ} (h : n < 128 ^ (k + 1)) :
    encodeLength (k + 2) n = encodeLength (k + 1) n := by
  induction k generalizing n with
  | zero =>
    have hn : n < 128 := by simpa using h
    simp only [encodeLength, if_pos hn]
  | succ k ih =>
    have hdiv : n / 128 < 128 ^ (k + 1) := by
      rw [Nat.div_lt_iff_lt_mul (by omega), ← pow_succ]
      exact h
    unfold encodeLength
    rw [ih hdiv]

theorem Carries.remaining_eq {p : Publish} {m : Message} (h : Carries p m) :
    p.remaining = 2 + m.topic.length + m.payload.length := by
  rw [Publish.remaining, h.id_eq, h.topic_eq, h.payload_eq, idBytes, List.length_nil, Nat.add_zero]

theorem Carries.header_eq {p : Publish} {m : Message} (h : Carries p m) :
    p.header = publishHeader m.retained := by
  unfold Publish.header
  rw [h.dup_eq, h.retain_eq, h.id_eq]
  cases m.retained <;> decide

/-- With the right count it is the packet. -/
theorem Carries.counted_eq {p : Publish} {m : Message} (h : Carries p m)
    (ht : m.topic.length < 65536) : counted m ht p.remaining = packet.encode (.publish p) := by
  have hdigits : encodeLength 5 p.remaining = encodeLength 4 p.remaining :=
    encodeLength_more p.remaining_lt
  rw [packet_publish, p.packet_eq, h.header_eq, h.id_eq, counted, text_encode, hdigits, h.topic_eq,
    h.payload_eq]
  simp [idBytes]

namespace Link
variable {l : Link}

theorem send_open (hopen : l.isOpen = true) (bytes : List UInt8) :
    send bytes l = { l with sent := l.sent ++ bytes } := if_pos hopen

/-- Bytes that are sent one by one. -/
theorem foldl_send (hopen : l.isOpen = true) (bytes : List UInt8) :
    bytes.foldl (fun l c => send [c] l) l = { l with sent := l.sent ++ bytes } := by
  induction bytes generalizing l with
  | nil => simp
  | cons c bytes ih =>
    rw [List.foldl_cons, send_open hopen]
    refine (ih (l := { l with sent := l.sent ++ [c] }) hopen).trans ?_
    simp

theorem foldl_writeData (hopen : l.isOpen = true) (pieces : List (List UInt8 × UInt32)) :
    ∃ lastOut, pieces.foldl (fun l p => l.writeData p.1 p.2) l =
      { l with
        client := { l.client with lastOutActivity := lastOut }
        sent := l.sent ++ (pieces.map Prod.fst).flatten } := by
  induction pieces generalizing l with
  | nil => exact ⟨l.client.lastOutActivity, by simp⟩
  | cons p pieces ih =>
    have hone : l.writeData p.1 p.2 =
        { l with
          client := { l.client with lastOutActivity := p.2 }
          sent := l.sent ++ p.1 } :=
      send_open (l := { l with client := { l.client with lastOutActivity := p.2 } }) hopen p.1
    obtain ⟨lastOut, hrest⟩ := ih (l := l.writeData p.1 p.2) (by rw [hone]; exact hopen)
    refine ⟨lastOut, ?_⟩
    rw [List.foldl_cons, hrest, hone]
    simp

/-- The header of `publish_P` stands at the front of the buffer. -/
theorem publishP_header (buf : Memory) (header : UInt8) {digits : List UInt8}
    (h : 1 + digits.length ≤ bufferSize) :
    ∃ buf₁ buf₂, put buf 0 header = .ok buf₁ ∧
      writeBytes digits buf₁ 1 = .ok (buf₂, 1 + digits.length) ∧
      [header] ++ digits <+: buf₂.bytes := by
  obtain ⟨buf₁, hput, h₁⟩ := put_next (List.nil_prefix (l := buf.bytes)) (by decide) header
  obtain ⟨buf₂, hwrite, h₂⟩ := writeBytes_next h₁ h
  exact ⟨buf₁, buf₂, hput, hwrite, h₂⟩

/-- What `publish_P` sends, for a topic that leaves room for the header. -/
theorem publishP_sends (hconn : l.connected = (true, l)) (hopen : l.isOpen = true) {m : Message}
    (ht : m.topic.length < 65536) (now : UInt32)
    (h : m.topic.length +
      (encodeLength 5 ((m.payload.length + 2 + m.topic.length) % 4294967296)).length ≤ 253) :
    ∃ buf', l.publishP m now = .ok (true,
      { l with
        client := { l.client with buffer := buf', lastOutActivity := now }
        sent := l.sent ++
          counted m ht ((m.payload.length + 2 + m.topic.length) % 4294967296) }) := by
  have hsize : bufferSize = 256 := rfl
  have htlen : min m.topic.length bufferSize = m.topic.length := by omega
  rw [publishP, hconn]
  simp only [if_true, htlen, counted]
  generalize encodeLength 5 ((m.payload.length + 2 + m.topic.length) % 4294967296) = digits at h ⊢
  obtain ⟨buf₁, buf₂, hput, hwrite₂, h₂⟩ :=
    publishP_header l.client.buffer (publishHeader m.retained)
      (show 1 + digits.length ≤ bufferSize by omega)
  have hlength : ([publishHeader m.retained] ++ digits).length = 1 + digits.length := by
    rw [List.length_append, List.length_singleton]
  obtain ⟨buf₃, hwrite₃, h₃⟩ := writeString_next h₂ (by rw [hlength]; omega) ht
  rw [hlength] at hwrite₃
  have hpos : 1 + digits.length + 2 + m.topic.length =
      ([publishHeader m.retained] ++ digits ++ text.encode ⟨m.topic, ht⟩).length := by
    rw [List.length_append, hlength, text_length]
    dsimp only
    omega
  have hsent : buf₃.bytes.take (1 + digits.length + 2 + m.topic.length) =
      [publishHeader m.retained] ++ digits ++ text.encode ⟨m.topic, ht⟩ := by
    rw [hpos]
    exact (List.prefix_iff_eq_take.mp h₃).symm
  refine ⟨buf₃, ?_⟩
  simp only [bind, Except.bind, hput, hwrite₂, hwrite₃, pure, Except.pure, hsent]
  rw [send_open (by exact hopen), foldl_send (by exact hopen)]
  simp [hopen]

theorem publishP_outside (hconn : l.connected = (true, l)) {m : Message} (now : UInt32)
    (h : 253 < m.topic.length + (encodeLength 5
      ((m.payload.length + 2 + min m.topic.length bufferSize) % 4294967296)).length) :
    l.publishP m now = .error .outside := by
  have hsize : bufferSize = 256 := rfl
  rw [publishP, hconn]
  simp only [if_true]
  have hle := encodeLength_length_le 5
    ((m.payload.length + 2 + min m.topic.length bufferSize) % 4294967296)
  generalize encodeLength 5 ((m.payload.length + 2 + min m.topic.length bufferSize) % 4294967296) =
    digits at h hle ⊢
  obtain ⟨buf₁, buf₂, hput, hwrite₂, -⟩ :=
    publishP_header l.client.buffer (publishHeader m.retained)
      (show 1 + digits.length ≤ bufferSize by omega)
  have hwrite₃ : writeString m.topic buf₂ (1 + digits.length) = .error .outside :=
    writeString_outside (by omega) (by omega)
  simp only [bind, Except.bind, hput, hwrite₂, hwrite₃]

/-- What `beginPublish` sends. -/
theorem beginPublish_sends (hconn : l.connected = (true, l)) (hopen : l.isOpen = true)
    {topic : CString} (h : topic.length ≤ 249) (plength : ℕ) (retained : Bool) (now : UInt32) :
    ∃ buf', l.beginPublish topic plength retained now = .ok (true,
      { l with
        client := { l.client with buffer := buf', lastOutActivity := now }
        sent := l.sent ++ publishHeader retained ::
          (encodeLength 4 ((2 + topic.length + plength) % 65536) ++
            text.encode (.cut topic)) }) := by
  have hsize : bufferSize = 256 := rfl
  have hmax : maxHeaderSize = 5 := rfl
  have hfront := take_header l.client.buffer
  have hshort : topic.length < 65536 := by omega
  obtain ⟨buf₁, hwrite, h₁⟩ := writeString_next
    (List.take_prefix maxHeaderSize l.client.buffer.bytes) (by rw [hfront]; omega) hshort
  rw [hfront] at hwrite
  rw [← Text.cut_eq hshort] at h₁
  obtain ⟨buf₂, hlen, hbuild, hle, hlen_eq, hsent⟩ := buildHeader_front (publishHeader retained)
    (plength + (maxHeaderSize + 2 + topic.length) - maxHeaderSize) h₁ hfront
  have hcount : plength + (maxHeaderSize + 2 + topic.length) - maxHeaderSize =
      2 + topic.length + plength := by omega
  rw [hcount] at hbuild hlen_eq hsent
  have htotal : maxHeaderSize + 2 + topic.length - (maxHeaderSize - hlen) =
      (publishHeader retained :: (encodeLength 4 ((2 + topic.length + plength) % 65536) ++
        text.encode (.cut topic))).length := by
    have hchars : (Text.cut topic).chars.length = topic.length := by rw [Text.cut_eq hshort]
    rw [← List.cons_append, List.length_append, ← hlen_eq, text_length, hchars]
    omega
  refine ⟨buf₂, ?_⟩
  rw [beginPublish, hconn]
  simp only [if_true, bind, Except.bind, hwrite, hcount, hbuild, pure, Except.pure]
  rw [send_open (by exact hopen), htotal, ← List.prefix_iff_eq_take.mp hsent]
  simp only [hopen]

theorem beginPublish_outside (hconn : l.connected = (true, l)) {topic : CString}
    (h : 249 < topic.length) (plength : ℕ) (retained : Bool) (now : UInt32) :
    l.beginPublish topic plength retained now = .error .outside := by
  have hsize : bufferSize = 256 := rfl
  have hwrite : writeString topic l.client.buffer maxHeaderSize = .error .outside :=
    writeString_outside (by decide) (by simp only [maxHeaderSize]; omega)
  rw [beginPublish, hconn]
  simp only [if_true, bind, Except.bind, hwrite]

/-- What a message in pieces sends. -/
theorem publishPieces_sends (hconn : l.connected = (true, l)) (hopen : l.isOpen = true)
    (m : Message) (ht : m.topic.length < 65536) (h : m.topic.length ≤ 249)
    {pieces : List (List UInt8 × UInt32)}
    (hpieces : (pieces.map Prod.fst).flatten = m.payload) (now : UInt32) :
    ∃ buf' lastOut, l.publishPieces m.topic m.retained pieces now = .ok (true,
      { l with
        client := { l.client with buffer := buf', lastOutActivity := lastOut }
        sent := l.sent ++ counted m ht ((2 + m.topic.length + m.payload.length) % 65536) }) := by
  obtain ⟨buf', hbegin⟩ := beginPublish_sends hconn hopen h m.payload.length m.retained now
  have hdigits : encodeLength 5 ((2 + m.topic.length + m.payload.length) % 65536) =
      encodeLength 4 ((2 + m.topic.length + m.payload.length) % 65536) :=
    encodeLength_more (k := 3) (by omega)
  rw [publishPieces, hpieces, hbegin, counted, hdigits]
  simp only [bind, Except.bind, pure, Except.pure, if_true]
  obtain ⟨lastOut, hwrite⟩ := foldl_writeData (l := { l with
    client := { l.client with buffer := buf', lastOutActivity := now }
    sent := l.sent ++ publishHeader m.retained ::
      (encodeLength 4 ((2 + m.topic.length + m.payload.length) % 65536) ++
        text.encode (.cut m.topic)) }) hopen pieces
  refine ⟨buf', lastOut, ?_⟩
  rw [hwrite, hpieces, Text.cut_eq ht]
  simp

end Link

theorem decodeLength_long {k n : ℕ} (h : 128 ^ (k + 1) ≤ n) (rest : List UInt8) :
    decodeLength (k + 1) (encodeLength (k + 2) n ++ rest) = none := by
  induction k generalizing n with
  | zero =>
    have hn : ¬ n < 128 := by simpa using h
    have hdigit : (UInt8.ofNat (n % 128 + 128)).toNat = n % 128 + 128 := toNat_ofNat (by omega)
    have hnot : ¬ n % 128 + 128 < 128 := by omega
    rw [encodeLength, if_neg hn, List.cons_append, decodeLength, hdigit, if_neg hnot]
    rfl
  | succ k ih =>
    have hpos : 128 ^ 1 ≤ 128 ^ (k + 1 + 1) := Nat.pow_le_pow_right (by decide) (by omega)
    have hn : ¬ n < 128 := by omega
    have hdiv : 128 ^ (k + 1) ≤ n / 128 := by
      rw [Nat.le_div_iff_mul_le (by decide), ← pow_succ]
      exact h
    have hdigit : (UInt8.ofNat (n % 128 + 128)).toNat = n % 128 + 128 := toNat_ofNat (by omega)
    have hnot : ¬ n % 128 + 128 < 128 := by omega
    rw [encodeLength, if_neg hn, List.cons_append, decodeLength, hdigit, if_neg hnot, ih hdiv]
    rfl

/-- A frame is cut by the count in its header. -/
theorem frame_read {header : UInt8} {r : ℕ} {s rest : List UInt8} {f : Frame}
    (h : frame.decode (header :: (encodeLength 5 r ++ s)) = some (f, rest)) :
    r < 128 ^ 4 ∧ f.body.length = r := by
  by_cases hr : r < 128 ^ 4
  · have hdigits : encodeLength 5 r = encodeLength 4 r := encodeLength_more hr
    have hread : remainingLength.decode (encodeLength 4 r ++ s) = some (⟨r, hr⟩, s) :=
      remainingLength.decode_append ⟨r, hr⟩ s
    rw [hdigits] at h
    simp only [frame, Codec.refine, Codec.counted, Codec.pair, Codec.symbol, Option.bind_some,
      hread, Option.map_some] at h
    split_ifs at h with hle
    · simp only [Option.bind_some, Option.some.injEq, Prod.mk.injEq] at h
      refine ⟨hr, ?_⟩
      rw [← h.1]
      exact List.length_take_of_le hle
    · cases h
  · have hread : remainingLength.decode (encodeLength 5 r ++ s) = none := by
      have hnone : decodeLength 4 (encodeLength 5 r ++ s) = none :=
        decodeLength_long (Nat.not_lt.mp hr) s
      show (decodeLength 4 _).bind _ = none
      rw [hnone, Option.bind_none]
    simp only [frame, Codec.refine, Codec.counted, Codec.pair, Codec.symbol, Option.bind_some,
      hread, Option.map_none, Option.bind_none] at h
    cases h

theorem word_read {s rest : List UInt8} {n : UInt16} (h : word.decode s = some (n, rest)) :
    s.length = 2 + rest.length := by
  match s with
  | [] => cases h
  | [_] => cases h
  | a :: b :: s =>
    obtain rfl : s = rest := (Prod.mk.inj (Option.some.inj h)).2
    rw [List.length_cons, List.length_cons]
    omega

theorem text_read {s rest : List UInt8} {t : Text} (h : text.decode s = some (t, rest)) :
    s.length = 2 + t.chars.length + rest.length := by
  simp only [text, Codec.refine, Codec.counted] at h
  obtain ⟨⟨block, rest'⟩, hblock, hchars⟩ := Option.bind_eq_some_iff.mp h
  obtain ⟨⟨n, s'⟩, hword, htake⟩ := Option.bind_eq_some_iff.mp hblock
  have hs := word_read hword
  dsimp only at htake hchars
  split_ifs at htake with hle
  · obtain ⟨rfl, rfl⟩ := Prod.mk.inj (Option.some.inj htake)
    split_ifs at hchars with hnul
    · cases hchars
    · obtain ⟨rfl, rfl⟩ := Prod.mk.inj (Option.some.inj hchars)
      rw [hs, CString.length, List.length_take_of_le hle, List.length_drop]
      omega

theorem optional_read {flag : Bool} {s rest : List UInt8} {id : Option UInt16}
    (h : optional flag word s = some (id, rest)) :
    s.length = (idBytes id).length + rest.length := by
  rw [Mqtt.optional] at h
  split_ifs at h
  · obtain ⟨⟨n, rest'⟩, hword, heq⟩ := Option.map_eq_some_iff.mp h
    obtain ⟨rfl, rfl⟩ := Prod.mk.inj heq
    exact word_read hword
  · obtain ⟨rfl, rfl⟩ := Prod.mk.inj (Option.some.inj h)
    simp [idBytes]

/-- A message takes the whole body of its packet. -/
theorem ofPublish_read {header : UInt8} {body : List UInt8} {p : Publish}
    (h : ofPublish header body = some (.publish p)) : body.length = p.remaining := by
  obtain ⟨⟨topic, s⟩, htext, h⟩ := Option.bind_eq_some_iff.mp h
  obtain ⟨⟨id, payload⟩, hid, h⟩ := Option.bind_eq_some_iff.mp h
  dsimp only at h hid
  split_ifs at h with hlen
  obtain rfl := ControlPacket.publish.inj (Option.some.inj h)
  have htopic := text_read htext
  have hrest := optional_read hid
  show _ = 2 + topic.chars.length + (idBytes id).length + payload.length
  omega

theorem ite_ne_some {c : Prop} [Decidable c] {a b : Option ControlPacket} {p : ControlPacket}
    (ha : a ≠ some p) (hb : b ≠ some p) : (if c then a else b) ≠ some p := by
  split_ifs
  · exact ha
  · exact hb

theorem map_ne_some {α : Type} {g : α → ControlPacket} {p : ControlPacket} (hg : ∀ a, g a ≠ p)
    (o : Option α) : o.map g ≠ some p := by
  intro h
  obtain ⟨a, -, ha⟩ := Option.map_eq_some_iff.mp h
  exact hg a ha

theorem bind_ne_some {α : Type} {g : α → Option ControlPacket} {p : ControlPacket}
    (hg : ∀ a, g a ≠ some p) (o : Option α) : o.bind g ≠ some p := by
  intro h
  obtain ⟨a, -, ha⟩ := Option.bind_eq_some_iff.mp h
  exact hg a ha

/-- No other kind of packet is read as a message. -/
theorem ofFrame_ne_publish {f : Frame} (h : ¬ isPublish f.header) (p : Publish) :
    ofFrame f ≠ some (.publish p) := by
  rw [ofFrame, if_neg h]
  refine ite_ne_some (map_ne_some (fun _ => by simp) _) ?_
  refine ite_ne_some ?_ ?_
  · split <;> simp
  refine ite_ne_some (map_ne_some (fun _ => by simp) _) ?_
  refine ite_ne_some (bind_ne_some (fun _ => map_ne_some (fun _ => by simp) _) _) ?_
  refine ite_ne_some (bind_ne_some (fun _ => map_ne_some (fun _ => by simp) _) _) ?_
  refine ite_ne_some (map_ne_some (fun _ => by simp) _) ?_
  refine ite_ne_some (map_ne_some (fun _ => by simp) _) ?_
  exact ite_ne_some (by simp) (ite_ne_some (by simp) (ite_ne_some (by simp) (by simp)))

theorem ofFrame_read {f : Frame} {p : Publish} (h : ofFrame f = some (.publish p)) :
    f.body.length = p.remaining := by
  by_cases hpub : isPublish f.header
  · rw [ofFrame, if_pos hpub] at h
    exact ofPublish_read h
  · exact absurd h (ofFrame_ne_publish hpub p)

/-- The count of a message that is read to its end is right. -/
theorem remaining_of_read {ps : List ControlPacket} {header : UInt8} {r : ℕ} {bytes : List UInt8}
    {p : Publish} (h : packet.decodeAll (ps.flatMap packet.encode ++
      header :: (encodeLength 5 r ++ bytes)) = ps ++ [.publish p]) :
    r < 128 ^ 4 ∧ r = p.remaining := by
  obtain ⟨fuel, hfuel, hall⟩ :=
    packet.decodeAll_append packet_nil ps (header :: (encodeLength 5 r ++ bytes))
  have hmany := List.append_cancel_left (hall.symm.trans h)
  obtain ⟨fuel, rfl⟩ := Nat.exists_eq_add_one.mpr (Nat.zero_lt_of_lt hfuel)
  rw [Codec.decodeMany] at hmany
  cases hread : packet.decode (header :: (encodeLength 5 r ++ bytes)) with
  | none =>
    rw [hread] at hmany
    cases hmany
  | some q =>
    rw [hread] at hmany
    have hq : q.1 = .publish p := (List.cons.inj hmany).1
    obtain ⟨⟨f, rest⟩, hframe, hmap⟩ := Option.bind_eq_some_iff.mp hread
    obtain ⟨p', hp', rfl⟩ := Option.map_eq_some_iff.mp hmap
    obtain ⟨hr, hlen⟩ := frame_read hframe
    exact ⟨hr, hlen.symm.trans (ofFrame_read (hp'.trans (congrArg some hq)))⟩

/-- The broker has read the message exactly if it was counted right, in at most four digits. -/
theorem read_counted_iff (ps : List ControlPacket) (m : Message) (ht : m.topic.length < 65536)
    (r : ℕ) :
    (∃ p, Carries p m ∧
      packet.decodeAll (ps.flatMap packet.encode ++ counted m ht r) = ps ++ [.publish p]) ↔
      r < 128 ^ 4 ∧ r = 2 + m.topic.length + m.payload.length := by
  constructor
  · rintro ⟨p, hp, hread⟩
    rw [← hp.remaining_eq]
    exact remaining_of_read hread
  · rintro ⟨hr, rfl⟩
    obtain ⟨p, hp⟩ := exists_carries ht hr
    refine ⟨p, hp, ?_⟩
    have hbytes : ps.flatMap packet.encode ++ packet.encode (.publish p) =
        (ps ++ [ControlPacket.publish p]).flatMap packet.encode := by simp
    rw [← hp.remaining_eq, hp.counted_eq, hbytes]
    exact (packet.decodeAll_part packet_nil List.prefix_rfl).2 rfl

section Runs
variable {replies : CString → List UInt8 → List Message} {buffer : Memory} {es : List Event}
  {l : Link}

/-- An open client after a run: its packets, and a test of the connection that succeeds. -/
theorem open_of_run (hrun : run (Link.step replies) (some (.initial buffer)) es = some l)
    (hopen : l.isOpen) : l.connected = (true, l) ∧ ∃ ps : List ControlPacket,
      l.sent = ps.flatMap packet.encode ∧ packet.decodeAll l.sent = ps := by
  have h := follows_of_run replies (initial_follows buffer) hrun
  refine ⟨h.connected.2.2 (h.isOpen_eq.symm.trans hopen), _, h.sent_eq, ?_⟩
  rw [h.sent_eq]
  exact (packet.decodeAll_part packet_nil List.prefix_rfl).2 rfl

/-- `publish_P` leaves the buffer exactly for a topic that does not fit behind its header, and
otherwise the broker reads the message exactly if its length has four digits. -/
theorem run_publishP (hrun : run (Link.step replies) (some (.initial buffer)) es = some l)
    (hopen : l.isOpen) (m : Message) (now : UInt32) :
    (l.publishP m now = .error .outside ↔ 253 < m.topic.length + (encodeLength 5
        ((m.payload.length + 2 + min m.topic.length bufferSize) % 4294967296)).length) ∧
      ∀ b l', l.publishP m now = .ok (b, l') →
        ((∃ p, Carries p m ∧
          packet.decodeAll l'.sent = packet.decodeAll l.sent ++ [.publish p]) ↔
            2 + m.topic.length + m.payload.length < 128 ^ 4) := by
  have hsize : bufferSize = 256 := rfl
  obtain ⟨hconn, ps, hsent, hread⟩ := open_of_run hrun hopen
  by_cases hlong : 253 < m.topic.length + (encodeLength 5
      ((m.payload.length + 2 + min m.topic.length bufferSize) % 4294967296)).length
  · have hout := Link.publishP_outside hconn now hlong
    refine ⟨iff_of_true hout hlong, fun b l' hok => ?_⟩
    rw [hout] at hok
    cases hok
  · have ht : m.topic.length < 65536 := by omega
    have htlen : min m.topic.length bufferSize = m.topic.length := by omega
    rw [htlen] at hlong ⊢
    obtain ⟨buf', hsends⟩ := Link.publishP_sends hconn hopen ht now (Nat.not_lt.mp hlong)
    rw [hsends]
    refine ⟨iff_of_false nofun hlong, fun b l' hok => ?_⟩
    obtain ⟨-, rfl⟩ := Prod.mk.inj (Except.ok.inj hok)
    rw [hread]
    dsimp only
    rw [hsent, read_counted_iff]
    have hpow : 128 ^ 4 = 268435456 := rfl
    omega

theorem run_publishP_greeting : ∃ l,
    run (Link.step noReplies) (some (.initial (.zero bufferSize))) greeting = some l ∧
      ((l.publishP ⟨.ofBytes [65], [66], false⟩ 2 = .error .outside ↔ 253 < 1 + (encodeLength 5
          ((1 + 2 + min 1 bufferSize) % 4294967296)).length) ∧
        ∀ b l', l.publishP ⟨.ofBytes [65], [66], false⟩ 2 = .ok (b, l') →
          ((∃ p, Carries p ⟨.ofBytes [65], [66], false⟩ ∧
            packet.decodeAll l'.sent = packet.decodeAll l.sent ++ [.publish p]) ↔
              2 + 1 + 1 < 128 ^ 4)) := by
  obtain ⟨l, hrun, hl⟩ := run_greeting
  exact ⟨l, hrun, run_publishP hrun (hl.isOpen_eq.trans (by decide)) ⟨.ofBytes [65], [66], false⟩ 2⟩

/-- `beginPublish` leaves the buffer exactly for a topic of more than 249 bytes, and otherwise the
broker reads the message in pieces exactly if 16 bits can count it. -/
theorem run_publishPieces (hrun : run (Link.step replies) (some (.initial buffer)) es = some l)
    (hopen : l.isOpen) (m : Message) {pieces : List (List UInt8 × UInt32)}
    (hpieces : (pieces.map Prod.fst).flatten = m.payload) (now : UInt32) :
    (l.publishPieces m.topic m.retained pieces now = .error .outside ↔ 249 < m.topic.length) ∧
      ∀ b l', l.publishPieces m.topic m.retained pieces now = .ok (b, l') →
        ((∃ p, Carries p m ∧
          packet.decodeAll l'.sent = packet.decodeAll l.sent ++ [.publish p]) ↔
            2 + m.topic.length + m.payload.length < 65536) := by
  obtain ⟨hconn, ps, hsent, hread⟩ := open_of_run hrun hopen
  by_cases hlong : 249 < m.topic.length
  · have hout : l.publishPieces m.topic m.retained pieces now = .error .outside := by
      rw [Link.publishPieces, Link.beginPublish_outside hconn hlong]
      rfl
    refine ⟨iff_of_true hout hlong, fun b l' hok => ?_⟩
    rw [hout] at hok
    cases hok
  · have ht : m.topic.length < 65536 := by omega
    obtain ⟨buf', lastOut, hsends⟩ :=
      Link.publishPieces_sends hconn hopen m ht (Nat.not_lt.mp hlong) hpieces now
    rw [hsends]
    refine ⟨iff_of_false nofun hlong, fun b l' hok => ?_⟩
    obtain ⟨-, rfl⟩ := Prod.mk.inj (Except.ok.inj hok)
    rw [hread]
    dsimp only
    rw [hsent, read_counted_iff]
    have hpow : 128 ^ 4 = 268435456 := rfl
    omega

theorem run_publishPieces_greeting : ∃ l,
    run (Link.step noReplies) (some (.initial (.zero bufferSize))) greeting = some l ∧
      ((l.publishPieces (.ofBytes [65]) false [([66], 2), ([67], 3)] 2 = .error .outside ↔
          249 < 1) ∧
        ∀ b l', l.publishPieces (.ofBytes [65]) false [([66], 2), ([67], 3)] 2 = .ok (b, l') →
          ((∃ p, Carries p ⟨.ofBytes [65], [66, 67], false⟩ ∧
            packet.decodeAll l'.sent = packet.decodeAll l.sent ++ [.publish p]) ↔
              2 + 1 + 2 < 65536)) := by
  obtain ⟨l, hrun, hl⟩ := run_greeting
  exact ⟨l, hrun, run_publishPieces hrun (hl.isOpen_eq.trans (by decide))
    ⟨.ofBytes [65], [66, 67], false⟩ rfl 2⟩

/-- Where the count of `beginPublish` ends within the payload, the broker reads the message up to
there, and whatever packets the rest of the payload spells as packets of the client. -/
theorem run_publishPieces_rest
    (hrun : run (Link.step replies) (some (.initial buffer)) es = some l) (hopen : l.isOpen)
    (m : Message) {pieces : List (List UInt8 × UInt32)} {qs : List ControlPacket}
    (hpieces : (pieces.map Prod.fst).flatten = m.payload ++ qs.flatMap packet.encode)
    (htopic : m.topic.length ≤ 249)
    (hcount : (2 + m.topic.length + (m.payload ++ qs.flatMap packet.encode).length) % 65536 =
      2 + m.topic.length + m.payload.length) (now : UInt32) :
    ∃ l' p, l.publishPieces m.topic m.retained pieces now = .ok (true, l') ∧ Carries p m ∧
      packet.decodeAll l'.sent = packet.decodeAll l.sent ++ .publish p :: qs := by
  have ht : m.topic.length < 65536 := by omega
  have hlt : 2 + m.topic.length + m.payload.length < 65536 := by
    rw [← hcount]
    exact Nat.mod_lt _ (by decide)
  obtain ⟨p, hp⟩ := exists_carries ht (hlt.trans (by decide))
  obtain ⟨hconn, ps, hsent, hread⟩ := open_of_run hrun hopen
  obtain ⟨buf', lastOut, hsends⟩ := Link.publishPieces_sends hconn hopen
    { m with payload := m.payload ++ qs.flatMap packet.encode } ht htopic hpieces now
  refine ⟨_, p, hsends, hp, ?_⟩
  have hbytes : l.sent ++ counted { m with payload := m.payload ++ qs.flatMap packet.encode } ht
      ((2 + m.topic.length + (m.payload ++ qs.flatMap packet.encode).length) % 65536) =
        (ps ++ .publish p :: qs).flatMap packet.encode := by
    rw [hcount, hsent, List.flatMap_append, List.flatMap_cons, ← hp.counted_eq ht,
      hp.remaining_eq]
    simp [counted]
  rw [hread]
  dsimp only
  rw [hbytes]
  exact (packet.decodeAll_part packet_nil List.prefix_rfl).2 rfl

/-- One byte and 32768 packets without body make such a payload. -/
theorem run_publishPieces_rest_greeting : ∃ (qs : List ControlPacket) (l l' : Link) (p : Publish),
    qs.length = 32768 ∧
      run (Link.step noReplies) (some (.initial (.zero bufferSize))) greeting = some l ∧
      l.publishPieces (.ofBytes [65]) false [([66] ++ qs.flatMap packet.encode, 3)] 2 =
        .ok (true, l') ∧
      Carries p ⟨.ofBytes [65], [66], false⟩ ∧
      packet.decodeAll l'.sent = packet.decodeAll l.sent ++ .publish p :: qs := by
  obtain ⟨l, hrun, hl⟩ := run_greeting
  obtain ⟨qs, hqs, hlen⟩ : ∃ qs : List ControlPacket, qs.length = 32768 ∧
      (qs.flatMap packet.encode).length = 65536 := by
    refine ⟨List.replicate 32768 .disconnect, List.length_replicate, ?_⟩
    rw [List.length_flatMap, List.map_replicate, List.sum_replicate_nat]
    rfl
  have hpieces : ([([66] ++ qs.flatMap packet.encode, (3 : UInt32))].map Prod.fst).flatten =
      [66] ++ qs.flatMap packet.encode := List.flatten_singleton
  obtain ⟨l', p, hok, hp, hread⟩ := run_publishPieces_rest hrun (hl.isOpen_eq.trans (by decide))
    ⟨.ofBytes [65], [66], false⟩ hpieces (by decide) (by rw [List.length_append, hlen]; rfl) 2
  exact ⟨qs, l, l', p, hqs, hrun, hok, hp, hread⟩

end Runs

end Esp32Automation.MqttClient
