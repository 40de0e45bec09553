import Esp32Automation.Mqtt

/-!
# PubSubClient: reading a packet

`readPacket` on a packet of any kind, with whatever follows it in the stream: the packet is taken
out of the stream as a whole, and it is in the buffer if it fits.
-/
namespace Esp32Automation.MqttClient
open PubSubClient Mqtt

/-- The rest of a packet is taken out of the stream, whether it is stored or not. -/
theorem readRest_input {r r' : Receiver} {bytes input : List UInt8}
    (h : readRest bytes.length r = .ok r') (hin : r.input = bytes ++ input) : r'.input = input := by
  induction bytes generalizing r with
  | nil =>
    obtain rfl := Except.ok.inj h
    exact hin
  | cons c bytes ih =>
    obtain ⟨buffer, len, _⟩ := r
    obtain rfl := hin
    rw [List.length_cons, readRest] at h
    split_ifs at h
    · exact ih h rfl
    · exact ih h rfl

/-- The header and the remaining length of a packet that is no PUBLISH are stored, and the rest of
it is what `readRest` makes of it. -/
theorem readPacket_other {header : UInt8} {n : ℕ} (hpub : isPublish header = false)
    (hn : n < 128 ^ 4) (buffer : CharArray bufferSize) (rest : List UInt8) :
    ∃ r, r.input = rest ∧ Holds r (header :: encodeLength 4 n) ∧
      ∀ r', readRest n r = .ok r' →
        readPacket buffer (header :: (encodeLength 4 n ++ rest)) =
          .ok ⟨r'.buffer, (encodeLength 4 n).length,
            if bufferSize < r.len + n then 0 else r'.len, r'.input⟩ := by
  obtain ⟨r₀, hr₀, hin₀, hh₀⟩ := readByte_holds
    (holds_nil buffer (header :: (encodeLength 4 n ++ rest))) rfl (by decide)
  have hdigits : ∃ r, readLength 4 1 0 r₀ = .ok (0 + n * 1, r) ∧
      r.input = rest ∧ Holds r ([] ++ [header] ++ encodeLength 4 n) :=
    readLength_holds 1 0 hh₀ hin₀ hn (by simp [bufferSize])
  obtain ⟨r₁, hr₁, hin₁, hh₁⟩ := hdigits
  have hll : r₁.len - 1 = (encodeLength 4 n).length := by
    rw [hh₁.len_eq]
    simp
  have hcount : 0 + n * 1 = n := by omega
  refine ⟨r₁, hin₁, by simpa using hh₁, fun r' hr' => ?_⟩
  simp only [readPacket, bind, Except.bind, hr₀, hr₁, hpub, Bool.false_eq_true, if_false, hcount,
    hr', hll]
  rfl

/-- A packet has arrived in full: it is taken out of the stream, and stored if it fits. -/
theorem readPacket_frame (f : Frame) (hbody : isPublish f.header → 2 ≤ f.body.length)
    (buffer : CharArray bufferSize) (input : List UInt8) :
    ∃ p, readPacket buffer (frame.encode f ++ input) = .ok p ∧ p.input = input ∧
      p.lengthLength = (encodeLength 4 f.body.length).length ∧
      if (frame.encode f).length ≤ bufferSize then
        p.len = (frame.encode f).length ∧ frame.encode f <+: p.buffer.bytes
      else p.len = 0 := by
  rw [frame_encode]
  generalize hpacket : f.header :: (encodeLength 4 f.body.length ++ f.body) = packet
  -- what is behind the front is read by `readRest`, the front is stored in any case
  obtain ⟨front, bytes, hsplit, r, hrest, hh, hread⟩ :
      ∃ front bytes, packet = front ++ bytes ∧ ∃ r : Receiver, r.input = bytes ++ input ∧
        Holds r front ∧ ∀ r', readRest bytes.length r = .ok r' →
          readPacket buffer (packet ++ input) =
            .ok ⟨r'.buffer, (encodeLength 4 f.body.length).length,
              if bufferSize < r.len + bytes.length then 0 else r'.len, r'.input⟩ := by
    cases hpub : isPublish f.header with
    | true =>
      match hb : f.body, hbody hpub with
      | hi :: lo :: bytes, _ =>
        obtain ⟨r, hrest, hh, hread⟩ :=
          @readPacket_head f.header hi lo f.body.length hpub f.short buffer (bytes ++ input)
        have hcount : f.body.length - 2 = bytes.length := by simp [hb]
        rw [hcount] at hread
        refine ⟨_, bytes, ?_, r, hrest, hh, ?_⟩
        · simp [← hpacket, hb]
        · rw [← hpacket, hb]
          rw [hb] at hread
          simpa using hread
    | false =>
      obtain ⟨r, hrest, hh, hread⟩ := readPacket_other hpub f.short buffer (f.body ++ input)
      refine ⟨_, f.body, ?_, r, hrest, hh, ?_⟩
      · simp [← hpacket]
      · rw [← hpacket]
        simpa using hread
  have hidx : r.len + bytes.length = packet.length := by
    rw [hh.len_eq, hsplit, List.length_append]
  rw [hidx] at hread
  by_cases hfit : packet.length ≤ bufferSize
  · have hroom : front.length + bytes.length ≤ bufferSize := by
      rw [← hh.len_eq, hidx]
      exact hfit
    obtain ⟨r', hr', hin', hh'⟩ := readRest_holds hh hrest hroom
    rw [← hsplit] at hh'
    refine ⟨_, hread r' hr', hin', rfl, ?_⟩
    rw [if_pos hfit, if_neg (Nat.not_lt.mpr hfit)]
    obtain ⟨tail, htail⟩ := hh'.exists_tail
    exact ⟨hh'.len_eq, tail, htail.symm⟩
  · obtain ⟨r', hr'⟩ := readRest_ok hrest
    refine ⟨_, hread r' hr', readRest_input hr' hrest, rfl, ?_⟩
    rw [if_neg hfit, if_pos (Nat.not_le.mp hfit)]

end Esp32Automation.MqttClient
