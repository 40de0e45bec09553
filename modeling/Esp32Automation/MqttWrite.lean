import Esp32Automation.Mqtt

/-!
# PubSubClient: writing a packet

A packet is put together in the buffer of the client, behind five bytes that are left for its
header, and the header is written last, in front of the body. Nothing of this is checked by the
language; here every store says whether it stays in the buffer. Where the calls check the
lengths before they write, they check enough, with one exception: `subscribe` forgets the byte of
the QoS, and a topic of 247 bytes makes it write behind the buffer.
-/
namespace Esp32Automation.MqttClient
open PubSubClient Mqtt

/-- What can go wrong: a store outside of the buffer, or a text that `CHECK_STRING_LENGTH`
turns down. -/
inductive Fault where
  | outside
  | tooLong
  deriving DecidableEq

abbrev Memory := CharArray bufferSize

/-- `MQTT_MAX_HEADER_SIZE`. -/
def maxHeaderSize : ℕ := 5

/-- `buf[pos] = c`. -/
def put (buf : Memory) (pos : ℕ) (c : UInt8) : Except Fault Memory :=
  if pos < bufferSize then .ok (buf.write pos c) else .error .outside

/-- `buf[pos++] = c` for each of the bytes. -/
def writeBytes : List UInt8 → Memory → ℕ → Except Fault (Memory × ℕ)
  | [], buf, pos => .ok (buf, pos)
  | c :: cs, buf, pos => do
    let buf ← put buf pos c
    writeBytes cs buf (pos + 1)

/-- `writeString`: the length is written behind the text, into the gap in front of it. -/
def writeString (string : CString) (buf : Memory) (pos : ℕ) : Except Fault (Memory × ℕ) := do
  let (buf, pos) ← writeBytes string.bytes buf (pos + 2)
  let i := string.length
  let buf ← put buf (pos - i - 2) (UInt8.ofNat (i / 256))
  let buf ← put buf (pos - i - 1) (UInt8.ofNat (i % 256))
  return (buf, pos)

/-- `buildHeader`; its length is of 16 bits. The digits of the remaining length end where the
body begins. -/
def buildHeader (header : UInt8) (buf : Memory) (length : ℕ) : Except Fault (Memory × ℕ) := do
  let lenBuf := encodeLength 4 (length % 65536)
  let llen := lenBuf.length
  let buf ← put buf (4 - llen) header
  let (buf, _) ← writeBytes lenBuf buf (maxHeaderSize - llen)
  return (buf, llen + 1)

/-- `write(header, buf, length)`: the buffer, and the bytes that go to the network client. -/
def writePacket (header : UInt8) (buf : Memory) (length : ℕ) :
    Except Fault (Memory × List UInt8) := do
  let (buf, hlen) ← buildHeader header buf length
  return (buf, (buf.bytes.drop (maxHeaderSize - hlen)).take (length + hlen))

/-- A store behind the front changes one byte. -/
theorem put_inside {buf : Memory} {front back : List UInt8} {x : UInt8}
    (h : front ++ x :: back <+: buf.bytes) (c : UInt8) :
    ∃ buf', put buf front.length c = .ok buf' ∧ front ++ c :: back <+: buf'.bytes := by
  obtain ⟨rest, hrest⟩ := h
  have hlen := congrArg List.length hrest
  rw [buf.length_eq] at hlen
  simp only [List.length_append, List.length_cons] at hlen
  have hlt : front.length < bufferSize := by omega
  refine ⟨buf.write front.length c, if_pos hlt, rest, ?_⟩
  show _ = buf.bytes.set front.length c
  rw [← hrest]
  simp

theorem put_next {buf : Memory} {front : List UInt8} (h : front <+: buf.bytes)
    (hlt : front.length < bufferSize) (c : UInt8) :
    ∃ buf', put buf front.length c = .ok buf' ∧ front ++ [c] <+: buf'.bytes := by
  obtain ⟨rest, hrest⟩ := h
  cases rest with
  | nil =>
    have hlen := congrArg List.length hrest
    rw [List.append_nil, buf.length_eq] at hlen
    omega
  | cons x rest =>
    have hfront : front ++ x :: [] <+: buf.bytes := ⟨rest, by simp [hrest]⟩
    exact put_inside hfront c

theorem writeBytes_next {cs : List UInt8} {buf : Memory} {front : List UInt8}
    (h : front <+: buf.bytes) (hlen : front.length + cs.length ≤ bufferSize) :
    ∃ buf', writeBytes cs buf front.length = .ok (buf', front.length + cs.length) ∧
      front ++ cs <+: buf'.bytes := by
  induction cs generalizing buf front with
  | nil => exact ⟨buf, rfl, by simpa using h⟩
  | cons c cs ih =>
    rw [List.length_cons] at hlen
    obtain ⟨buf₁, hput, hfront⟩ := put_next h (by omega) c
    obtain ⟨buf₂, hwrite, hall⟩ := ih hfront (by simp; omega)
    rw [List.length_append, List.length_singleton] at hwrite
    refine ⟨buf₂, ?_, by simpa using hall⟩
    rw [writeBytes, hput, List.length_cons]
    simp only [bind, Except.bind, hwrite]
    congr 2
    omega

/-- Bytes in front of the place where the writing starts stay. -/
theorem writeBytes_inside {cs : List UInt8} {buf : Memory} {front back old : List UInt8}
    (h : front ++ (old ++ back) <+: buf.bytes) (hlen : old.length = cs.length) :
    ∃ buf', writeBytes cs buf front.length = .ok (buf', front.length + cs.length) ∧
      front ++ (cs ++ back) <+: buf'.bytes := by
  induction cs generalizing buf front old with
  | nil =>
    obtain rfl := List.length_eq_zero_iff.mp hlen
    exact ⟨buf, rfl, h⟩
  | cons c cs ih =>
    cases old with
    | nil => cases hlen
    | cons x old =>
      obtain ⟨buf₁, hput, hfront⟩ := put_inside h c
      have hnext : front ++ [c] ++ (old ++ back) <+: buf₁.bytes := by simpa using hfront
      obtain ⟨buf₂, hwrite, hall⟩ := ih hnext (Nat.succ.inj hlen)
      rw [List.length_append, List.length_singleton] at hwrite
      refine ⟨buf₂, ?_, by simpa using hall⟩
      rw [writeBytes, hput, List.length_cons]
      simp only [bind, Except.bind, hwrite]
      congr 2
      omega

/-- A text is written with its length in front of it. -/
theorem writeString_next {string : CString} {buf : Memory} {front : List UInt8}
    (h : front <+: buf.bytes) (hlen : front.length + 2 + string.length ≤ bufferSize)
    (hshort : string.length < 65536) :
    ∃ buf', writeString string buf front.length =
        .ok (buf', front.length + 2 + string.length) ∧
      front ++ text.encode ⟨string, hshort⟩ <+: buf'.bytes := by
  have hbytes : string.bytes.length = string.length := rfl
  -- two bytes of whatever the buffer holds are left out for the length
  obtain ⟨x, y, hgap⟩ : ∃ x y, front ++ [x, y] <+: buf.bytes := by
    obtain ⟨rest, hrest⟩ := h
    have hl := congrArg List.length hrest
    rw [List.length_append, buf.length_eq] at hl
    match rest with
    | [] => simp at hl; omega
    | [x] => simp at hl; omega
    | x :: y :: rest => exact ⟨x, y, rest, by simp [hrest]⟩
  have hgaplen : (front ++ [x, y]).length = front.length + 2 := by simp
  have hroom : (front ++ [x, y]).length + string.bytes.length ≤ bufferSize := by
    rw [hgaplen, hbytes]
    exact hlen
  obtain ⟨buf₁, hwrite, h₁⟩ := writeBytes_next hgap hroom
  rw [hgaplen, hbytes] at hwrite
  have h₁' : front ++ x :: y :: string.bytes <+: buf₁.bytes := by simpa using h₁
  obtain ⟨buf₂, hput₁, h₂⟩ := put_inside h₁' (UInt8.ofNat (string.length / 256))
  have h₂' : front ++ [UInt8.ofNat (string.length / 256)] ++ y :: string.bytes <+: buf₂.bytes := by
    simpa using h₂
  obtain ⟨buf₃, hput₂, h₃⟩ := put_inside h₂' (UInt8.ofNat (string.length % 256))
  rw [List.length_append, List.length_singleton] at hput₂
  refine ⟨buf₃, ?_, ?_⟩
  · have hfirst : front.length + 2 + string.length - string.length - 2 = front.length := by omega
    have hsecond : front.length + 2 + string.length - string.length - 1 = front.length + 1 := by
      omega
    rw [writeString, hwrite]
    simp only [bind, Except.bind, hfirst, hput₁, hsecond, hput₂]
    rfl
  · rw [text_encode]
    simpa using h₃

theorem encodeLength_pos (n : ℕ) : 1 ≤ (encodeLength 4 n).length := by
  rw [encodeLength]
  split_ifs <;> simp

/-- A list is cut at one of its elements. -/
theorem exists_cut {front : List UInt8} {i : ℕ} (h : i < front.length) :
    ∃ a x old, front = a ++ x :: old ∧ a.length = i ∧ old.length = front.length - i - 1 :=
  ⟨front.take i, front[i], front.drop (i + 1), by simp, by simp; omega, by simp; omega⟩

/-- Behind five bytes, the header is put in front of the body. -/
theorem buildHeader_front {buf : Memory} {front body : List UInt8} (header : UInt8) (n : ℕ)
    (h : front ++ body <+: buf.bytes) (hfront : front.length = maxHeaderSize) :
    ∃ buf' hlen, buildHeader header buf n = .ok (buf', hlen) ∧ hlen ≤ maxHeaderSize ∧
      hlen = (header :: encodeLength 4 (n % 65536)).length ∧
      header :: (encodeLength 4 (n % 65536) ++ body) <+:
        buf'.bytes.drop (maxHeaderSize - hlen) := by
  have hle := encodeLength_length_le 4 (n % 65536)
  have hpos := encodeLength_pos (n % 65536)
  rw [buildHeader]
  generalize encodeLength 4 (n % 65536) = digits at hle hpos ⊢
  simp only [maxHeaderSize] at hfront
  have hlt : 4 - digits.length < front.length := by omega
  obtain ⟨a, x, old, rfl, ha, hold⟩ := exists_cut hlt
  have h₀ : a ++ x :: (old ++ body) <+: buf.bytes := by simpa using h
  obtain ⟨buf₁, hput, h₁⟩ := put_inside h₀ header
  have h₁' : a ++ [header] ++ (old ++ body) <+: buf₁.bytes := by simpa using h₁
  have hgap : old.length = digits.length := by omega
  obtain ⟨buf₂, hwrite, rest, h₂⟩ := writeBytes_inside h₁' hgap
  have hstart : (a ++ [header]).length = maxHeaderSize - digits.length := by
    rw [List.length_append, List.length_singleton, ha, maxHeaderSize]
    omega
  rw [hstart] at hwrite
  rw [ha] at hput
  refine ⟨buf₂, digits.length + 1, ?_, Nat.succ_le_succ hle, rfl, rest, ?_⟩
  · simp only [bind, Except.bind, hput, hwrite, pure, Except.pure]
  · -- the header starts right behind the bytes that are not sent
    have hbytes : buf₂.bytes = a ++ ((header :: (digits ++ body)) ++ rest) := by simp [← h₂]
    have hfrom : a.length = maxHeaderSize - (digits.length + 1) := by
      rw [ha, maxHeaderSize]
      omega
    rw [hbytes, List.drop_left' hfrom]

/-- What is sent is the header and the body. -/
theorem writePacket_frame {buf : Memory} {front : List UInt8} (f : Frame)
    (h : front ++ f.body <+: buf.bytes) (hfront : front.length = maxHeaderSize) :
    ∃ buf', writePacket f.header buf f.body.length = .ok (buf', frame.encode f) := by
  have hlen := h.length_le
  rw [buf.length_eq, List.length_append, hfront] at hlen
  have hsmall : f.body.length % 65536 = f.body.length := by
    simp only [bufferSize] at hlen
    omega
  obtain ⟨buf', hlen', hbuild, -, hlen_eq, hsent⟩ :=
    buildHeader_front f.header f.body.length h hfront
  rw [hsmall] at hlen_eq hsent
  have htotal : f.body.length + hlen' =
      (f.header :: (encodeLength 4 f.body.length ++ f.body)).length := by
    rw [hlen_eq]
    simp only [List.length_cons, List.length_append]
    omega
  refine ⟨buf', ?_⟩
  rw [frame_encode, writePacket, hbuild]
  simp only [bind, Except.bind, pure, Except.pure]
  rw [htotal, ← List.prefix_iff_eq_take.mp hsent]

/-- A last will; `willQos` is at most two. -/
structure WillArgs where
  topic : CString
  message : CString
  qos : Fin 3
  retain : Bool

/-- The arguments of `connect`; a null pointer is `none`. -/
structure ConnectArgs where
  id : CString
  login : Option (CString × Option CString)
  will : Option WillArgs
  cleanSession : Bool

/-- `connect(id, user, pass)`. -/
def ConnectArgs.ofLogin (id user pass : CString) : ConnectArgs :=
  ⟨id, some (user, some pass), none, true⟩

/-- `CHECK_STRING_LENGTH(length, s)` and `writeString(s, buffer, length)`. -/
def checkedString (s : CString) (b : Memory × ℕ) : Except Fault (Memory × ℕ) :=
  if bufferSize < b.2 + 2 + min s.length bufferSize then .error .tooLong
  else writeString s b.1 b.2

namespace ConnectArgs

/-- `v`. -/
def flags (a : ConnectArgs) : UInt8 :=
  let v : UInt8 := match a.will with
    | none => 0x00
    | some w => (0x04 : UInt8) ||| (UInt8.ofNat w.qos.val <<< 3) ||| (w.retain.toUInt8 <<< 5)
  let v := bif a.cleanSession then v ||| 0x02 else v
  match a.login with
  | none => v
  | some (_, none) => v ||| 0x80
  | some (_, some _) => v ||| (0x80 : UInt8) ||| ((0x80 : UInt8) >>> (1 : UInt8))

/-- `if (willTopic) ..` -/
def writeWill (a : ConnectArgs) (b : Memory × ℕ) : Except Fault (Memory × ℕ) :=
  match a.will with
  | none => .ok b
  | some w => checkedString w.topic b >>= checkedString w.message

/-- `if(user != NULL) ..` -/
def writeLogin (a : ConnectArgs) (b : Memory × ℕ) : Except Fault (Memory × ℕ) :=
  match a.login with
  | none => .ok b
  | some (user, none) => checkedString user b
  | some (user, some pass) => checkedString user b >>= checkedString pass

/-- The body of the CONNECT packet, as `connect` puts it in the buffer. -/
def writeBody (a : ConnectArgs) (keepAlive : UInt16) (buf : Memory) :
    Except Fault (Memory × ℕ) := do
  let b ← writeBytes [0, 4, 77, 81, 84, 84, 4] buf maxHeaderSize
  let b ← writeBytes [a.flags] b.1 b.2
  let b ← writeBytes [UInt8.ofNat (keepAlive.toNat / 256), UInt8.ofNat (keepAlive.toNat % 256)]
    b.1 b.2
  let b ← checkedString a.id b
  let b ← a.writeWill b
  a.writeLogin b

end ConnectArgs

/-- The call writes these bytes behind the front if there is room, and turns them down
otherwise. -/
structure Writes (r : Except Fault (Memory × ℕ)) (front bytes : List UInt8) : Prop where
  fits : front.length + bytes.length ≤ bufferSize → ∃ buf,
    r = .ok (buf, (front ++ bytes).length) ∧ front ++ bytes <+: buf.bytes
  tooLong : bufferSize < front.length + bytes.length → r = .error .tooLong

theorem Writes.bind {r : Except Fault (Memory × ℕ)} {f : Memory × ℕ → Except Fault (Memory × ℕ)}
    {front bytes more : List UInt8} (h : Writes r front bytes)
    (hf : ∀ buf, front ++ bytes <+: buf.bytes →
      Writes (f (buf, (front ++ bytes).length)) (front ++ bytes) more) :
    Writes (r >>= f) front (bytes ++ more) := by
  constructor
  · intro hlen
    rw [List.length_append] at hlen
    obtain ⟨buf, rfl, hbuf⟩ := h.fits (by omega)
    obtain ⟨buf', hr, hbuf'⟩ := (hf buf hbuf).fits (by rw [List.length_append]; omega)
    rw [← List.append_assoc]
    exact ⟨buf', hr, hbuf'⟩
  · intro hlen
    rw [List.length_append] at hlen
    by_cases hroom : front.length + bytes.length ≤ bufferSize
    · obtain ⟨buf, rfl, hbuf⟩ := h.fits hroom
      exact (hf buf hbuf).tooLong (by rw [List.length_append]; omega)
    · rw [h.tooLong (by omega)]
      rfl

theorem writes_nil {buf : Memory} {front : List UInt8} (h : front <+: buf.bytes) :
    Writes (.ok (buf, front.length)) front [] := by
  have hle := h.length_le
  rw [buf.length_eq] at hle
  constructor
  · intro _
    exact ⟨buf, by simp, by simpa using h⟩
  · intro hlen
    rw [List.length_nil] at hlen
    omega

theorem writes_bytes {buf : Memory} {front : List UInt8} (h : front <+: buf.bytes)
    {cs : List UInt8} (hlen : front.length + cs.length ≤ bufferSize) :
    Writes (writeBytes cs buf front.length) front cs := by
  constructor
  · intro _
    rw [List.length_append]
    exact writeBytes_next h hlen
  · intro h'
    omega

theorem writes_checkedString {buf : Memory} {front : List UInt8} (h : front <+: buf.bytes)
    (s : CString) : Writes (checkedString s (buf, front.length)) front (text.encode (.cut s)) := by
  have hle := h.length_le
  rw [buf.length_eq] at hle
  have hlen : (text.encode (.cut s)).length = 2 + min 65535 s.length := by
    rw [text_length, Text.cut, CString.length_take]
  have hsize : bufferSize = 256 := rfl
  constructor
  · intro hroom
    have hshort : s.length < 65536 := by omega
    have hcut : Text.cut s = ⟨s, hshort⟩ := Text.cut_eq hshort
    have hfits : ¬ bufferSize < front.length + 2 + min s.length bufferSize := by omega
    obtain ⟨buf', hwrite, hbuf'⟩ := writeString_next h (by omega) hshort
    rw [checkedString, if_neg hfits, hcut, List.length_append, text_length]
    exact ⟨buf', by rw [hwrite, Nat.add_assoc], hbuf'⟩
  · intro hlong
    exact if_pos (by dsimp only; omega)

namespace ConnectArgs

/-- The packet that the broker is to see. -/
def toConnect (a : ConnectArgs) (keepAlive : UInt16) : Connect where
  cleanSession := a.cleanSession
  keepAlive := keepAlive
  clientId := .cut a.id
  will := a.will.map fun w => ⟨.cut w.topic, .cut w.message, w.qos, w.retain⟩
  login := a.login.map fun l => (.cut l.1, l.2.map .cut)

theorem toConnect_flags (a : ConnectArgs) (keepAlive : UInt16) :
    (a.toConnect keepAlive).flags = a.flags := by
  obtain ⟨id, login, will, clean⟩ := a
  obtain _ | ⟨topic, message, qos, retain⟩ := will <;> obtain _ | ⟨user, _ | pass⟩ := login <;>
    cases clean <;> simp only [toConnect, Connect.flags, flags, Connect.willFlags,
      Connect.loginFlags, Option.map_none, Option.map_some]
  all_goals first
    | decide
    | (revert qos retain; decide)

theorem toConnect_body (a : ConnectArgs) (keepAlive : UInt16) :
    (a.toConnect keepAlive).body =
      [0, 4, 77, 81, 84, 84, 4] ++ ([a.flags] ++ (word.encode keepAlive ++
        (text.encode (.cut a.id) ++
          ((a.will.elim [] fun w => text.encode (.cut w.topic) ++ text.encode (.cut w.message)) ++
            (a.login.elim [] fun l =>
              text.encode (.cut l.1) ++ l.2.elim [] fun p => text.encode (.cut p)))))) := by
  rw [Connect.body, Connect.protocol, toConnect_flags]
  obtain ⟨id, login, will, clean⟩ := a
  cases will <;> obtain _ | ⟨user, _ | pass⟩ := login <;> rfl

theorem writes_writeWill (a : ConnectArgs) {buf : Memory} {front : List UInt8}
    (h : front <+: buf.bytes) : Writes (a.writeWill (buf, front.length)) front
      (a.will.elim [] fun w => text.encode (.cut w.topic) ++ text.encode (.cut w.message)) := by
  unfold writeWill
  cases a.will with
  | none => exact writes_nil h
  | some w =>
    exact (writes_checkedString h w.topic).bind fun buf hbuf =>
      writes_checkedString hbuf w.message

theorem writes_writeLogin (a : ConnectArgs) {buf : Memory} {front : List UInt8}
    (h : front <+: buf.bytes) : Writes (a.writeLogin (buf, front.length)) front
      (a.login.elim [] fun l =>
        text.encode (.cut l.1) ++ l.2.elim [] fun p => text.encode (.cut p)) := by
  unfold writeLogin
  obtain _ | ⟨user, _ | pass⟩ := a.login
  · exact writes_nil h
  · rw [Option.elim_some, Option.elim_none, List.append_nil]
    exact writes_checkedString h user
  · exact (writes_checkedString h user).bind fun buf hbuf => writes_checkedString hbuf pass

/-- `connect` writes the body of its packet, or finds a string too long for the buffer. -/
theorem writes_writeBody (a : ConnectArgs) (keepAlive : UInt16) (buf : Memory) :
    Writes (a.writeBody keepAlive buf) (buf.bytes.take maxHeaderSize)
      (a.toConnect keepAlive).body := by
  have hfront : (buf.bytes.take maxHeaderSize).length = maxHeaderSize := by
    rw [List.length_take, buf.length_eq]
    rfl
  rw [toConnect_body]
  have hroom : (buf.bytes.take maxHeaderSize).length +
      [(0 : UInt8), 4, 77, 81, 84, 84, 4].length ≤ bufferSize := by
    rw [hfront]
    decide
  have hname := writes_bytes (List.take_prefix maxHeaderSize buf.bytes) hroom
  rw [hfront] at hname
  refine hname.bind fun buf₁ h₁ => ?_
  have hflags : (buf.bytes.take maxHeaderSize ++ [(0 : UInt8), 4, 77, 81, 84, 84, 4]).length +
      [a.flags].length ≤ bufferSize := by
    simp only [List.length_append, hfront, List.length_cons, List.length_nil]
    decide
  refine (writes_bytes h₁ hflags).bind fun buf₂ h₂ => ?_
  have hkeepAlive : (buf.bytes.take maxHeaderSize ++ [(0 : UInt8), 4, 77, 81, 84, 84, 4] ++
      [a.flags]).length + (word.encode keepAlive).length ≤ bufferSize := by
    simp only [List.length_append, hfront, List.length_cons, List.length_nil, word_encode, idBytes]
    decide
  refine (writes_bytes h₂ hkeepAlive).bind fun buf₃ h₃ => ?_
  refine (writes_checkedString h₃ a.id).bind fun buf₄ h₄ => ?_
  exact (a.writes_writeWill h₄).bind fun buf₅ h₅ => a.writes_writeLogin h₅

end ConnectArgs

end Esp32Automation.MqttClient
