import Esp32Automation.Codec
import Esp32Automation.PubSubClient

/-!
# MQTT control packets

The packets of MQTT 3.1.1 between this client and its broker, as the protocol lays them out. A
packet is a header byte, the remaining length in digits of seven bits and a body of that length.
Texts are strings with their length ahead, without NUL. SUBSCRIBE and UNSUBSCRIBE name one topic
here, which is what the client sends. Reading a packet back is a codec, so that a stream of
packets is read as these packets.
-/
namespace Esp32Automation.Mqtt
open PubSubClient

/-- A string whose length is written in two bytes. -/
structure Text where
  chars : CString
  short : chars.length < 65536
  deriving DecidableEq

/-- A string as far as two bytes can count it. -/
def Text.cut (s : CString) : Text where
  chars := s.take 65535
  short := by
    rw [CString.length_take]
    omega

theorem Text.cut_eq {s : CString} (h : s.length < 65536) : cut s = ⟨s, h⟩ := by
  rw [Text.mk.injEq]
  exact CString.take_of_length_le (by omega)

/-- A message that the broker publishes when the connection breaks. -/
structure Will where
  topic : Text
  message : Text
  qos : Fin 3
  retain : Bool
  deriving DecidableEq

structure Connect where
  cleanSession : Bool
  /-- Seconds. -/
  keepAlive : UInt16
  clientId : Text
  will : Option Will
  /-- User and password; a password does not go without a user. -/
  login : Option (Text × Option Text)
  deriving DecidableEq

inductive ControlPacket where
  | connect (c : Connect)
  | connack (sessionPresent : Bool) (code : UInt8)
  | publish (m : Publish)
  | puback (id : UInt16)
  | subscribe (id : UInt16) (topic : Text) (qos : UInt8)
  | suback (id : UInt16) (code : UInt8)
  | unsubscribe (id : UInt16) (topic : Text)
  | unsuback (id : UInt16)
  | pingreq
  | pingresp
  | disconnect

/-- Two bytes, the higher one first. -/
def word : Codec UInt16 UInt8 :=
  (Codec.symbol.pair Codec.symbol).refine
    (fun n => (UInt8.ofNat (n.toNat / 256), UInt8.ofNat (n.toNat % 256)))
    (fun p => some (UInt16.ofNat (p.1.toNat * 256 + p.2.toNat)))
    (by
      intro n
      have hlt := n.toNat_lt
      have hhi : (UInt8.ofNat (n.toNat / 256)).toNat = n.toNat / 256 := toNat_ofNat (by omega)
      have hlo : (UInt8.ofNat (n.toNat % 256)).toNat = n.toNat % 256 := toNat_ofNat (by omega)
      have hsum : n.toNat / 256 * 256 + n.toNat % 256 = n.toNat := by omega
      rw [hhi, hlo, hsum, UInt16.ofNat_toNat])

theorem length_toNat {n : ℕ} (h : n < 65536) : (UInt16.ofNat n).toNat = n := by
  rw [UInt16.toNat_ofNat']
  omega

theorem block_length_lt (p : {p : UInt16 × List UInt8 // p.2.length = p.1.toNat}) :
    p.1.2.length < 65536 := by
  rw [p.2]
  exact p.1.1.toNat_lt

def text : Codec Text UInt8 :=
  (word.counted UInt16.toNat).refine
    (fun t => ⟨(UInt16.ofNat t.chars.length, t.chars.bytes), (length_toNat t.short).symm⟩)
    (fun p => if h : (0 : UInt8) ∉ p.1.2 then some ⟨⟨p.1.2, h⟩, block_length_lt p⟩ else none)
    (fun t => dif_pos t.chars.nul_free)

/-- The digits of a remaining length, at most `k` of them. -/
def decodeLength : ℕ → List UInt8 → Option (ℕ × List UInt8)
  | 0, _ => none
  | _ + 1, [] => none
  | k + 1, digit :: s =>
    if digit.toNat < 128 then some (digit.toNat, s)
    else (decodeLength k s).map fun r => (digit.toNat % 128 + 128 * r.1, r.2)

theorem decodeLength_append {k n : ℕ} (h : n < 128 ^ (k + 1)) (rest : List UInt8) :
    decodeLength (k + 1) (encodeLength (k + 1) n ++ rest) = some (n, rest) := by
  induction k generalizing n with
  | zero =>
    have hn : n < 128 := by simpa using h
    simp only [encodeLength, if_pos hn, List.singleton_append, decodeLength,
      toNat_ofNat (show n < 256 by omega)]
  | succ k ih =>
    rw [encodeLength]
    by_cases hn : n < 128
    · simp only [if_pos hn, List.singleton_append, decodeLength,
        toNat_ofNat (show n < 256 by omega)]
    · have hdiv : n / 128 < 128 ^ (k + 1) := by
        rw [Nat.div_lt_iff_lt_mul (by omega), ← pow_succ]
        exact h
      have hdigit : (UInt8.ofNat (n % 128 + 128)).toNat = n % 128 + 128 := toNat_ofNat (by omega)
      have hnot : ¬ n % 128 + 128 < 128 := by omega
      rw [if_neg hn, List.cons_append, decodeLength, hdigit, if_neg hnot, ih hdiv]
      simp only [Option.map_some, Option.some.injEq, Prod.mk.injEq, and_true]
      omega

theorem decodeLength_incomplete {k n : ℕ} {p q : List UInt8} (h : encodeLength (k + 1) n = p ++ q)
    (hq : q ≠ []) : decodeLength (k + 1) p = none := by
  induction k generalizing n p with
  | zero =>
    cases p with
    | nil => rfl
    | cons d p =>
      have hlen := congrArg List.length h
      have hle : (encodeLength (0 + 1) n).length ≤ 0 + 1 := encodeLength_length_le _ n
      have hpos := List.length_pos_iff.mpr hq
      simp only [List.length_append, List.length_cons] at hlen
      omega
  | succ k ih =>
    cases p with
    | nil => rfl
    | cons d p =>
      rw [encodeLength] at h
      split_ifs at h with hn
      · have hnil := (List.cons.inj h).2
        exact absurd (List.append_eq_nil_iff.mp hnil.symm).2 hq
      · obtain ⟨rfl, hrest⟩ := List.cons.inj h
        have hdigit : (UInt8.ofNat (n % 128 + 128)).toNat = n % 128 + 128 := toNat_ofNat (by omega)
        have hnot : ¬ n % 128 + 128 < 128 := by omega
        rw [decodeLength, hdigit, if_neg hnot, ih hrest, Option.map_none]

/-- The remaining length has at most four digits. -/
def remainingLength : Codec {n : ℕ // n < 128 ^ 4} UInt8 where
  encode n := encodeLength 4 n.1
  decode s := (decodeLength 4 s).bind fun r =>
    if h : r.1 < 128 ^ 4 then some (⟨r.1, h⟩, r.2) else none
  decode_append n rest := by
    rw [decodeLength_append n.2, Option.bind_some, dif_pos n.2]
  decode_incomplete n p q h hq := by
    rw [decodeLength_incomplete h hq, Option.bind_none]

/-- A packet whose body has not been looked at. -/
structure Frame where
  header : UInt8
  body : List UInt8
  short : body.length < 128 ^ 4

def frame : Codec Frame UInt8 :=
  ((Codec.symbol.pair remainingLength).counted fun p => p.2.1).refine
    (fun f => ⟨((f.header, ⟨f.body.length, f.short⟩), f.body), rfl⟩)
    (fun p => some ⟨p.1.1.1, p.1.2, p.2 ▸ p.1.1.2.2⟩)
    (fun _ => rfl)

theorem frame_encode (f : Frame) :
    frame.encode f = f.header :: (encodeLength 4 f.body.length ++ f.body) := by
  simp [frame, Codec.refine, Codec.counted, Codec.pair, Codec.symbol, remainingLength]

/-- An optional part is there if its flag says so. -/
def optional {α : Type} (flag : Bool) (c : Codec α UInt8) (s : List UInt8) :
    Option (Option α × List UInt8) :=
  if flag then (c.decode s).map fun r => (some r.1, r.2) else some (none, s)

theorem optional_append {α : Type} {flag : Bool} (c : Codec α UInt8) {a : Option α}
    (h : flag = a.isSome) (s : List UInt8) :
    optional flag c (a.elim [] c.encode ++ s) = some (a, s) := by
  subst h
  cases a with
  | none => rfl
  | some a =>
    simp only [optional, Option.isSome_some, if_true, Option.elim_some]
    rw [c.decode_append, Option.map_some]

namespace Connect

def bit (b : Bool) (mask : UInt8) : UInt8 := if b then mask else 0x00

def willFlags : Option Will → UInt8
  | none => 0x00
  | some w => (0x04 : UInt8) ||| (UInt8.ofNat w.qos.val <<< 3) ||| bit w.retain 0x20

def loginFlags : Option (Text × Option Text) → UInt8
  | none => 0x00
  | some (_, none) => 0x80
  | some (_, some _) => 0xC0

def flags (c : Connect) : UInt8 :=
  willFlags c.will ||| bit c.cleanSession 0x02 ||| loginFlags c.login

/-- Name and level of the protocol. -/
def protocol : List UInt8 := [0, 4, 77, 81, 84, 84, 4]

def body (c : Connect) : List UInt8 :=
  protocol ++ c.flags :: (word.encode c.keepAlive ++ (text.encode c.clientId ++
    ((c.will.elim [] fun w => text.encode w.topic ++ text.encode w.message) ++
      (c.login.elim [] fun l => text.encode l.1 ++ l.2.elim [] text.encode))))

def ofBody : List UInt8 → Option Connect
  | 0 :: 4 :: 77 :: 81 :: 84 :: 84 :: 4 :: flags :: s => do
    let (keepAlive, s) ← word.decode s
    let (clientId, s) ← text.decode s
    let (will, s) ← optional (flags &&& 0x04 == 0x04) (text.pair text) s
    let (user, s) ← optional (flags &&& 0x80 == 0x80) text s
    let (pass, _) ← optional (flags &&& 0x40 == 0x40) text s
    some {
      cleanSession := flags &&& 0x02 == 0x02
      keepAlive := keepAlive
      clientId := clientId
      will := will.map fun w =>
        ⟨w.1, w.2, Fin.ofNat 3 ((flags >>> 3) &&& 3).toNat, flags &&& 0x20 == 0x20⟩
      login := user.map fun u => (u, pass) }
  | _ => none

theorem flags_spec (c : Connect) :
    (c.flags &&& 0x04 == 0x04) = c.will.isSome ∧
      (c.flags &&& 0x80 == 0x80) = (c.login.map Prod.fst).isSome ∧
      (c.flags &&& 0x40 == 0x40) = (c.login.bind Prod.snd).isSome ∧
      (c.flags &&& 0x02 == 0x02) = c.cleanSession := by
  obtain ⟨clean, keepAlive, clientId, will, login⟩ := c
  unfold flags
  obtain _ | ⟨topic, message, qos, retain⟩ := will <;> obtain _ | ⟨user, _ | pass⟩ := login <;>
    cases clean <;> dsimp only [willFlags, loginFlags, Option.isSome, Option.map,
      Option.bind]
  all_goals first
    | decide
    | (revert qos retain; decide)

theorem flags_will {c : Connect} {w : Will} (h : c.will = some w) :
    Fin.ofNat 3 ((c.flags >>> 3) &&& 3).toNat = w.qos ∧
      (c.flags &&& 0x20 == 0x20) = w.retain := by
  obtain ⟨clean, keepAlive, clientId, will, login⟩ := c
  obtain rfl : will = some w := h
  obtain ⟨topic, message, qos, retain⟩ := w
  unfold flags
  obtain _ | ⟨user, _ | pass⟩ := login <;> cases clean <;> dsimp only [willFlags, loginFlags]
  all_goals
    revert qos retain
    decide

theorem ofBody_body (c : Connect) : ofBody c.body = some c := by
  obtain ⟨hwill, huser, hpass, hclean⟩ := c.flags_spec
  have hlogin : (c.login.elim [] fun l => text.encode l.1 ++ l.2.elim [] text.encode) =
      (c.login.map Prod.fst).elim [] text.encode ++
        ((c.login.bind Prod.snd).elim [] text.encode ++ []) := by
    cases c.login with
    | none => rfl
    | some l => simp
  have hpair : (c.will.elim [] fun w => text.encode w.topic ++ text.encode w.message) =
      (c.will.map fun w => (w.topic, w.message)).elim [] (text.pair text).encode := by
    cases c.will with
    | none => rfl
    | some w => rfl
  rw [body, protocol, hlogin, hpair]
  simp only [List.cons_append, List.nil_append, ofBody, word.decode_append, text.decode_append,
    Option.bind_eq_bind, Option.bind_some]
  rw [optional_append (text.pair text) (by rw [hwill, Option.isSome_map]), Option.bind_some,
    optional_append text huser, Option.bind_some, optional_append text hpass, Option.bind_some]
  obtain ⟨clean, keepAlive, clientId, will, login⟩ := c
  have hlogin' : (login.map Prod.fst).map (fun u => (u, login.bind Prod.snd)) = login := by
    cases login <;> rfl
  dsimp only at hclean ⊢
  simp only [hclean, hlogin', Option.some.injEq, Connect.mk.injEq, true_and, and_true]
  cases will with
  | none => rfl
  | some w =>
    obtain ⟨hqos, hretain⟩ := flags_will (c := ⟨clean, keepAlive, clientId, some w, login⟩) rfl
    simp only [Option.map_some, hqos, hretain]

end Connect

theorem word_encode (n : UInt16) : word.encode n = idBytes (some n) := rfl

theorem text_encode (t : Text) : text.encode t =
    UInt8.ofNat (t.chars.length / 256) :: UInt8.ofNat (t.chars.length % 256) :: t.chars.bytes := by
  have hword : text.encode t = word.encode (UInt16.ofNat t.chars.length) ++ t.chars.bytes := rfl
  rw [hword, word_encode, idBytes, length_toNat t.short]
  rfl

theorem text_length (t : Text) : (text.encode t).length = 2 + t.chars.length := by
  rw [text_encode, List.length_cons, List.length_cons, CString.length]
  omega

theorem Connect.body_length_lt (c : Connect) : c.body.length < 128 ^ 4 := by
  have hid := c.clientId.short
  have hwill : (c.will.elim [] fun w => text.encode w.topic ++ text.encode w.message).length ≤
      131074 := by
    cases c.will with
    | none => simp
    | some w =>
      have htopic := w.topic.short
      have hmessage := w.message.short
      simp only [Option.elim_some, List.length_append, text_length]
      omega
  have hlogin : (c.login.elim [] fun l => text.encode l.1 ++ l.2.elim [] text.encode).length ≤
      131074 := by
    cases c.login with
    | none => simp
    | some l =>
      obtain ⟨user, pass⟩ := l
      have huser := user.short
      cases pass with
      | none =>
        simp only [Option.elim_some, Option.elim_none, List.length_append, text_length,
          List.length_nil]
        omega
      | some pass =>
        have hpass := pass.short
        simp only [Option.elim_some, List.length_append, text_length]
        omega
  simp only [body, protocol, List.length_append, List.length_cons, List.length_nil, text_length,
    word_encode, idBytes]
  omega

/-- The body of a SUBSCRIBE packet; the one of UNSUBSCRIBE has no QoS. -/
def topicBody (id : UInt16) (topic : Text) (qos : List UInt8) : List UInt8 :=
  word.encode id ++ (text.encode topic ++ qos)

theorem topicBody_length_lt (id : UInt16) (topic : Text) {qos : List UInt8} (h : qos.length ≤ 1) :
    (topicBody id topic qos).length < 128 ^ 4 := by
  have htopic := topic.short
  simp only [topicBody, List.length_append, text_length, word_encode, idBytes, List.length_cons,
    List.length_nil]
  omega

def publishBody (m : Publish) : List UInt8 :=
  text.encode ⟨m.topic, m.topic_lt⟩ ++ (m.id.elim [] word.encode ++ m.payload)

theorem publishBody_length (m : Publish) : (publishBody m).length = m.remaining := by
  cases hid : m.id <;>
    simp only [publishBody, hid, Publish.remaining, List.length_append, text_length, idBytes,
      Option.elim_none, Option.elim_some, word_encode] <;> omega

theorem length_lt {body : List UInt8} (n : ℕ) (h : body.length = n) (hn : n ≤ 3) :
    body.length < 128 ^ 4 :=
  (h.trans_le hn).trans_lt (by decide)

def toFrame : ControlPacket → Frame
  | .connect c => ⟨0x10, c.body, c.body_length_lt⟩
  | .connack sessionPresent code =>
    ⟨0x20, [Connect.bit sessionPresent 0x01, code], length_lt 2 rfl (by decide)⟩
  | .publish m => ⟨m.header, publishBody m, (publishBody_length m).trans_lt m.remaining_lt⟩
  | .puback id => ⟨0x40, word.encode id, length_lt 2 rfl (by decide)⟩
  | .subscribe id topic qos => ⟨0x82, topicBody id topic [qos], topicBody_length_lt id topic le_rfl⟩
  | .suback id code => ⟨0x90, word.encode id ++ [code], length_lt 3 rfl (by decide)⟩
  | .unsubscribe id topic => ⟨0xA2, topicBody id topic [], topicBody_length_lt id topic (by decide)⟩
  | .unsuback id => ⟨0xB0, word.encode id, length_lt 2 rfl (by decide)⟩
  | .pingreq => ⟨0xC0, [], length_lt 0 rfl (by decide)⟩
  | .pingresp => ⟨0xD0, [], length_lt 0 rfl (by decide)⟩
  | .disconnect => ⟨0xE0, [], length_lt 0 rfl (by decide)⟩

/-- A PUBLISH packet at QoS 0 or 1. -/
def ofPublish (header : UInt8) (body : List UInt8) : Option ControlPacket := do
  let (topic, s) ← text.decode body
  let (id, payload) ← optional (header &&& 0x06 == 0x02) word s
  if h : 2 + topic.chars.length + (idBytes id).length + payload.length < 128 ^ 4 then
    some (.publish ⟨header &&& 0x08 == 0x08, header &&& 0x01 == 0x01, id, topic.chars, payload,
      topic.short, h⟩)
  else none

def ofTopicBody (body : List UInt8) : Option (UInt16 × Text × List UInt8) := do
  let (id, s) ← word.decode body
  let (topic, s) ← text.decode s
  some (id, topic, s)

def ofFrame (f : Frame) : Option ControlPacket :=
  if isPublish f.header then ofPublish f.header f.body
  else if f.header = 0x10 then (Connect.ofBody f.body).map .connect
  else if f.header = 0x20 then
    match f.body with
    | [flags, code] => some (.connack (flags == 0x01) code)
    | _ => none
  else if f.header = 0x40 then (word.decode f.body).map fun r => .puback r.1
  else if f.header = 0x82 then
    (ofTopicBody f.body).bind fun r => r.2.2.head?.map fun qos => .subscribe r.1 r.2.1 qos
  else if f.header = 0x90 then
    (word.decode f.body).bind fun r => r.2.head?.map fun code => .suback r.1 code
  else if f.header = 0xA2 then (ofTopicBody f.body).map fun r => .unsubscribe r.1 r.2.1
  else if f.header = 0xB0 then (word.decode f.body).map fun r => .unsuback r.1
  else if f.header = 0xC0 then some .pingreq
  else if f.header = 0xD0 then some .pingresp
  else if f.header = 0xE0 then some .disconnect
  else none

theorem header_bits (m : Publish) :
    (m.header &&& 0x06 == 0x02) = m.id.isSome ∧ (m.header &&& 0x08 == 0x08) = m.dup ∧
      (m.header &&& 0x01 == 0x01) = m.retain := by
  unfold Publish.header
  cases m.dup <;> cases m.retain <;> cases m.id.isSome <;> decide

theorem ofPublish_publishBody (m : Publish) :
    ofPublish m.header (publishBody m) = some (.publish m) := by
  obtain ⟨hid, hdup, hretain⟩ := header_bits m
  have hrem := m.remaining_lt
  simp only [ofPublish, publishBody, text.decode_append, Option.bind_eq_bind, Option.bind_some]
  rw [optional_append word hid, Option.bind_some]
  dsimp only
  rw [dif_pos hrem]
  obtain ⟨dup, retain, id, topic, payload, htopic, hremaining⟩ := m
  dsimp only at hdup hretain ⊢
  simp only [hdup, hretain]

theorem ofTopicBody_topicBody (id : UInt16) (topic : Text) (qos : List UInt8) :
    ofTopicBody (topicBody id topic qos) = some (id, topic, qos) := by
  simp only [ofTopicBody, topicBody, word.decode_append, text.decode_append, Option.bind_eq_bind,
    Option.bind_some]

theorem ofFrame_toFrame (p : ControlPacket) : ofFrame (toFrame p) = some p := by
  cases p with
  | connect c =>
    have hnot : isPublish 0x10 = false := by decide
    have hread := c.ofBody_body
    simp [ofFrame, toFrame, hnot, hread]
  | connack sessionPresent code =>
    have hnot : isPublish 0x20 = false := by decide
    cases sessionPresent <;> simp [ofFrame, toFrame, hnot, Connect.bit]
  | publish m =>
    have hpub := m.isPublish_header
    simp [ofFrame, toFrame, hpub, ofPublish_publishBody]
  | puback id =>
    have hnot : isPublish 0x40 = false := by decide
    have hread := word.decode_encode id
    simp [ofFrame, toFrame, hnot, hread]
  | subscribe id topic qos =>
    have hnot : isPublish 0x82 = false := by decide
    have hread := ofTopicBody_topicBody id topic [qos]
    simp [ofFrame, toFrame, hnot, hread]
  | suback id code =>
    have hnot : isPublish 0x90 = false := by decide
    have hread := word.decode_append id [code]
    simp [ofFrame, toFrame, hnot, hread]
  | unsubscribe id topic =>
    have hnot : isPublish 0xA2 = false := by decide
    have hread := ofTopicBody_topicBody id topic []
    simp [ofFrame, toFrame, hnot, hread]
  | unsuback id =>
    have hnot : isPublish 0xB0 = false := by decide
    have hread := word.decode_encode id
    simp [ofFrame, toFrame, hnot, hread]
  | pingreq => rfl
  | pingresp => rfl
  | disconnect => rfl

/-- The packets on the wire. -/
def packet : Codec ControlPacket UInt8 := frame.refine toFrame ofFrame ofFrame_toFrame

theorem packet_encode (p : ControlPacket) :
    packet.encode p = (toFrame p).header ::
      (encodeLength 4 (toFrame p).body.length ++ (toFrame p).body) :=
  frame_encode (toFrame p)

theorem packet_nil : packet.decode [] = none := rfl

theorem packet_publish (m : Publish) : packet.encode (.publish m) = m.packet := by
  have hbody : (toFrame (.publish m)).body = publishBody m := rfl
  rw [packet_encode, hbody, publishBody_length, m.packet_eq, publishBody, text_encode]
  cases m.id <;> rfl

end Esp32Automation.Mqtt
