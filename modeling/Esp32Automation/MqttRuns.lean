import Esp32Automation.MqttRefinement

/-!
# PubSubClient: conversations with the broker

What holds of a client after any events: when it stores behind its buffer, what the broker reads
from it, which packets follow CONNECT and with which ids, and which messages reach the callback.
-/
namespace Esp32Automation.MqttClient
open PubSubClient Mqtt Run

section Memory
variable (replies : CString → List UInt8 → List Message)

end Memory

/-- What a client says between CONNECT and DISCONNECT: its messages have QoS 0 and are short. -/
def IsClient : ControlPacket → Prop
  | .publish m => m.id = none ∧ m.dup = false ∧ m.topic.length + m.payload.length ≤ 249
  | .puback _ | .subscribe _ _ _ | .unsubscribe _ _ | .pingreq | .pingresp => True
  | _ => False

def requestId : ControlPacket → Option UInt16
  | .subscribe id _ _ | .unsubscribe id _ => some id
  | _ => none

/-- Ids count from 2 to 65535 and begin again with 1. -/
def requestIds (n : ℕ) : List UInt16 :=
  (List.range n).map fun k => UInt16.ofNat ((k + 1) % 65535 + 1)

theorem requestIds_succ (n : ℕ) :
    requestIds (n + 1) = requestIds n ++ [UInt16.ofNat ((n + 1) % 65535 + 1)] := by
  simp only [requestIds, List.range_succ, List.map_append, List.map_cons, List.map_nil]

theorem nextId_ofNat (n : ℕ) :
    Link.nextId (UInt16.ofNat (n % 65535 + 1)) = UInt16.ofNat ((n + 1) % 65535 + 1) := by
  have hlt : n % 65535 < 65535 := Nat.mod_lt n (by decide)
  have hsucc : UInt16.ofNat (n % 65535 + 1) + 1 = UInt16.ofNat (n % 65535 + 2) := by
    rw [show n % 65535 + 2 = n % 65535 + 1 + 1 from rfl, UInt16.ofNat_add (n % 65535 + 1) 1]
    rfl
  rw [Link.nextId, hsucc]
  by_cases hlast : n % 65535 = 65534
  · have hnext : (n + 1) % 65535 = 0 := by omega
    rw [hlast, hnext]
    rfl
  · have hnext : (n + 1) % 65535 = n % 65535 + 1 := by omega
    have hne : UInt16.ofNat (n % 65535 + 2) ≠ 0 := by
      intro hzero
      have htoNat := congrArg UInt16.toNat hzero
      rw [UInt16.toNat_ofNat', Nat.mod_eq_of_lt (by omega)] at htoNat
      exact absurd htoNat (by simp)
    rw [if_neg hne, hnext]

/-- The packets of a connection: nothing, or CONNECT for arguments among `args`, what a client
says, with its requests numbered, and DISCONNECT at the end of the connection. -/
inductive Conversation (args : ConnectArgs → Prop) :
    Bool → UInt16 → List ControlPacket → Prop
  | silent (id : UInt16) : Conversation args false id []
  | spoken {a : ConnectArgs} (ha : args a) {middle last : List ControlPacket} {n : ℕ} {b : Bool}
      (hmiddle : ∀ p ∈ middle, IsClient p)
      (hids : middle.filterMap requestId = requestIds n)
      (hlast : last = [] ∨ last = [.disconnect] ∧ b = false) :
      Conversation args b (UInt16.ofNat (n % 65535 + 1))
        (.connect (a.toConnect 15) :: (middle ++ last))

namespace Conversation
variable {args : ConnectArgs → Prop} {id : UInt16} {ps : List ControlPacket}

theorem say (h : Conversation args true id ps) {p : ControlPacket} (hp : IsClient p)
    (hid : requestId p = none) : Conversation args true id (ps ++ [p]) := by
  cases h with
  | @spoken a ha middle last n _ hmiddle hids hlast =>
    obtain rfl : last = [] := hlast.resolve_right (by simp)
    have hsaid : ∀ q ∈ middle ++ [p], IsClient q := by
      simpa [or_imp, forall_and] using ⟨hmiddle, hp⟩
    have hmore := spoken (b := true) ha hsaid (by simpa [hid] using hids) (.inl rfl)
    simpa using hmore

theorem ask (h : Conversation args true id ps) {p : ControlPacket} (hp : IsClient p)
    (hid : requestId p = some (Link.nextId id)) :
    Conversation args true (Link.nextId id) (ps ++ [p]) := by
  cases h with
  | @spoken a ha middle last n _ hmiddle hids hlast =>
    obtain rfl : last = [] := hlast.resolve_right (by simp)
    rw [nextId_ofNat] at hid ⊢
    have hsaid : ∀ q ∈ middle ++ [p], IsClient q := by
      simpa [or_imp, forall_and] using ⟨hmiddle, hp⟩
    have hnext : (middle ++ [p]).filterMap requestId = requestIds (n + 1) := by
      rw [requestIds_succ, List.filterMap_append, hids, List.filterMap_cons_some hid,
        List.filterMap_nil]
    have hmore := spoken (b := true) ha hsaid hnext (.inl rfl)
    simpa using hmore

theorem close {connected : Bool} (h : Conversation args connected id ps) :
    Conversation args false id ps := by
  cases h with
  | silent id => exact .silent id
  | spoken ha hmiddle hids hlast =>
    exact .spoken ha hmiddle hids (hlast.imp_right fun hdisc => ⟨hdisc.1, rfl⟩)

theorem leave (h : Conversation args true id ps) :
    Conversation args false id (ps ++ [.disconnect]) := by
  cases h with
  | spoken ha hmiddle hids hlast =>
    obtain rfl : _ = [] := hlast.resolve_right (by simp)
    simpa using Conversation.spoken ha hmiddle hids (.inr ⟨rfl, rfl⟩)

end Conversation

/-- Arguments of `connect` come from `args`. -/
def Event.From (args : ConnectArgs → Prop) : Event → Prop
  | .connect a _ _ _ _ => args a
  | _ => True

def Event.arrived : Event → List ControlPacket
  | .arrive p => [p]
  | _ => []

def Event.isLoop : Event → Bool
  | .loop _ => true
  | _ => false

/-- What a packet brings to the callback. -/
def content : ControlPacket → Option (CString × List UInt8)
  | .publish m => some (m.topic, m.payload)
  | _ => none

/-- The id under which a packet is to be acknowledged. -/
def awaitedId : ControlPacket → Option UInt16
  | .publish m => m.id
  | _ => none

def acknowledgedId : ControlPacket → Option UInt16
  | .puback id => some id
  | _ => none

def answersPing : ControlPacket → Bool
  | .pingresp => true
  | _ => false

/-- The packets that fit, of those that a `loop()` has taken. -/
def fitting (ps : List ControlPacket) : List ControlPacket := ps.filter fun p => Fits p

theorem filterMap_one {α β : Type*} (f : α → Option β) (a : α) :
    [a].filterMap f = (f a).toList := by
  cases h : f a <;> simp [h]

/-- A message that is not too long to be published. -/
def short (m : Message) : Option (CString × List UInt8) :=
  if m.topic.length + m.payload.length ≤ 249 then some (m.topic, m.payload) else none

/-- What the callback says to a message. -/
def answers (replies : CString → List UInt8 → List Message) (m : CString × List UInt8) :
    List (CString × List UInt8) :=
  (replies m.1 m.2).filterMap short

/-- Packets that ask for nothing, with their acknowledgments and their messages. -/
structure Output (new : List ControlPacket) (acks : List UInt16)
    (said : List (CString × List UInt8)) : Prop where
  isClient : ∀ p ∈ new, IsClient p
  requests_eq : new.filterMap requestId = []
  acks_eq : new.filterMap acknowledgedId = acks
  said_eq : new.filterMap content = said

namespace Output
variable {new more : List ControlPacket} {acks acks' : List UInt16}
  {said said' : List (CString × List UInt8)}

theorem nil : Output [] [] [] := ⟨by simp, rfl, rfl, rfl⟩

theorem append (h : Output new acks said) (h' : Output more acks' said') :
    Output (new ++ more) (acks ++ acks') (said ++ said') where
  isClient p hp := (List.mem_append.mp hp).elim (h.isClient p) (h'.isClient p)
  requests_eq := by rw [List.filterMap_append, h.requests_eq, h'.requests_eq, List.append_nil]
  acks_eq := by rw [List.filterMap_append, h.acks_eq, h'.acks_eq]
  said_eq := by rw [List.filterMap_append, h.said_eq, h'.said_eq]

theorem ping : Output [.pingreq] [] [] := ⟨by simp [IsClient], rfl, rfl, rfl⟩

theorem pong : Output [.pingresp] [] [] := ⟨by simp [IsClient], rfl, rfl, rfl⟩

theorem puback (id : UInt16) : Output [.puback id] [id] [] := ⟨by simp [IsClient], rfl, rfl, rfl⟩

theorem message {m : Message} (h : m.topic.length + m.payload.length ≤ 249) :
    Output [.publish (m.toPublish h)] [] [(m.topic, m.payload)] :=
  ⟨by simpa [IsClient, Message.toPublish] using h, rfl, rfl, rfl⟩

end Output

namespace Session
variable (s : Session)

/-- The time of the last packet out is that of a call that has written one. -/
def Stamped (new : List ControlPacket) (now lastOut : UInt32) : Prop :=
  lastOut = s.lastOut ∨ lastOut = now ∧ new ≠ []

theorem publish_eq (hc : s.connected) (m : Message) (now : UInt32) :
    ∃ new lastOut, s.publish m now = { s with sent := s.sent ++ new, lastOut } ∧
      Output new [] (short m).toList ∧ s.Stamped new now lastOut := by
  rw [publish, if_pos hc, short]
  split_ifs with h
  · exact ⟨_, now, rfl, .message h, .inr ⟨rfl, by simp⟩⟩
  · exact ⟨[], s.lastOut, by simp, .nil, .inl rfl⟩

theorem publishAll_eq (hc : s.connected) (ms : List Message) (now : UInt32) :
    ∃ new lastOut, s.publishAll ms now = { s with sent := s.sent ++ new, lastOut } ∧
      Output new [] (ms.filterMap short) ∧ s.Stamped new now lastOut := by
  induction ms generalizing s with
  | nil => exact ⟨[], s.lastOut, by simp [publishAll], .nil, .inl rfl⟩
  | cons m ms ih =>
    obtain ⟨new, lastOut, hpub, hnew, htime⟩ := s.publish_eq hc m now
    obtain ⟨more, lastOut', hall, hmore, htime'⟩ := ih (s.publish m now) (by rw [hpub]; exact hc)
    refine ⟨new ++ more, lastOut', ?_, ?_, ?_⟩
    · rw [publishAll, List.foldl_cons]
      refine hall.trans ?_
      rw [hpub, List.append_assoc]
    · have hboth := hnew.append hmore
      rwa [← filterMap_one, ← List.filterMap_append] at hboth
    · rw [hpub] at htime'
      rcases htime' with rfl | ⟨rfl, hne⟩
      · exact htime.imp_right fun h => ⟨h.1, by simp [h.2]⟩
      · exact .inr ⟨rfl, by simp [hne]⟩

section Loop
variable (replies : CString → List UInt8 → List Message)

theorem handle_eq (hc : s.connected) (p : ControlPacket) (now : UInt32) :
    ∃ new lastOut pingOutstanding, s.handle replies p now =
        { s with
          lastOut, pingOutstanding
          sent := s.sent ++ new
          delivered := s.delivered ++ (content p).toList } ∧
      Output new (awaitedId p).toList ((content p).toList.flatMap (answers replies)) ∧
      s.Stamped new now lastOut ∧
      pingOutstanding = (s.pingOutstanding && !answersPing p) := by
  cases p with
  | publish m =>
    rw [handle]
    obtain ⟨new, lastOut, hall, hnew, htime⟩ := publishAll_eq
      { s with delivered := s.delivered ++ [(m.topic, m.payload)] } hc (replies m.topic m.payload)
      now
    have hsaid : (content (.publish m)).toList.flatMap (answers replies) =
        (replies m.topic m.payload).filterMap short := List.append_nil _
    rw [hsaid]
    simp only [hall]
    cases hid : m.id with
    | none =>
      exact ⟨new, lastOut, s.pingOutstanding, rfl, by simpa [awaitedId, hid] using hnew, htime,
        by simp [answersPing]⟩
    | some id =>
      refine ⟨new ++ [.puback id], now, s.pingOutstanding, by simp [content], ?_,
        .inr ⟨rfl, by simp⟩, by simp [answersPing]⟩
      simpa [awaitedId, hid] using hnew.append (.puback id)
  | pingreq =>
    exact ⟨[.pingresp], s.lastOut, s.pingOutstanding, by simp [handle, content], .pong, .inl rfl,
      by simp [answersPing]⟩
  | pingresp =>
    exact ⟨[], s.lastOut, false, by simp [handle, content], .nil, .inl rfl, by simp [answersPing]⟩
  | _ =>
    exact ⟨[], s.lastOut, s.pingOutstanding, by simp [handle, content], .nil, .inl rfl,
      by simp [answersPing]⟩

/-- The times behind a call, and the PINGREQ that is open behind it. -/
structure Passes (pinged : Prop) (taken new : List ControlPacket) (now lastOut lastIn : UInt32)
    (pingOutstanding : Bool) : Prop where
  lastOut : s.Stamped new now lastOut
  lastIn : lastIn = s.lastIn ∨ lastIn = now
  ping : pingOutstanding → pinged ∧ ∀ p ∈ taken, ¬ answersPing p

theorem receive_eq (hc : s.connected) (now : UInt32) :
    ∃ new lastOut lastIn pingOutstanding, s.receive replies now =
        { s with
          lastOut, lastIn, pingOutstanding
          queue := s.queue.drop 1
          sent := s.sent ++ new
          delivered := s.delivered ++ (fitting (s.queue.take 1)).filterMap content } ∧
      Output new ((fitting (s.queue.take 1)).filterMap awaitedId)
        (((fitting (s.queue.take 1)).filterMap content).flatMap (answers replies)) ∧
      s.Passes s.pingOutstanding (fitting (s.queue.take 1)) new now lastOut lastIn
        pingOutstanding := by
  rw [receive]
  cases hq : s.queue with
  | nil =>
    refine ⟨[], s.lastOut, s.lastIn, s.pingOutstanding, ?_, .nil, .inl rfl, .inl rfl,
      fun h => ⟨h, by simp [fitting]⟩⟩
    obtain ⟨_, _, _, _, _, _, queue, _, _⟩ := s
    obtain rfl : queue = [] := hq
    simp [fitting]
  | cons p queue =>
    by_cases hfit : Fits p
    · obtain ⟨new, lastOut, ping, hhandle, hnew, htime, hping⟩ :=
        handle_eq { s with queue, lastIn := now } replies hc p now
      have htaken : fitting ((p :: queue).take 1) = [p] := by simp [fitting, hfit]
      refine ⟨new, lastOut, now, ping, ?_, ?_, htime, .inr rfl, fun h => ?_⟩
      · rw [htaken, filterMap_one]
        simp only [if_pos hfit, hhandle, List.drop_succ_cons, List.drop_zero]
      · rwa [htaken, filterMap_one, filterMap_one]
      · rw [hping, Bool.and_eq_true, Bool.not_eq_true'] at h
        rw [htaken]
        exact ⟨h.1, by simp [h.2]⟩
    · have htaken : fitting ((p :: queue).take 1) = [] := by simp [fitting, hfit]
      refine ⟨[], s.lastOut, s.lastIn, s.pingOutstanding, ?_, ?_, .inl rfl, .inl rfl,
        fun h => ⟨h, by rw [htaken]; simp⟩⟩
      · simp only [if_neg hfit, htaken, List.filterMap_nil, List.append_nil, List.drop_succ_cons,
          List.drop_zero]
      · rw [htaken]
        exact .nil

/-- A `loop()` gives up the connection when a PINGREQ has not been answered in time. Otherwise it
takes one packet, behind a PINGREQ if it is time for one. -/
theorem loop_eq (hc : s.connected) (now : UInt32) :
    s.loop replies now = s.close ∧ s.isDue now ∧ s.pingOutstanding ∨
      ∃ new lastOut lastIn pingOutstanding, s.loop replies now =
          { s with
            lastOut, lastIn, pingOutstanding
            queue := s.queue.drop 1
            sent := s.sent ++ new
            delivered := s.delivered ++ (fitting (s.queue.take 1)).filterMap content } ∧
        Output new ((fitting (s.queue.take 1)).filterMap awaitedId)
          (((fitting (s.queue.take 1)).filterMap content).flatMap (answers replies)) ∧
        s.Passes (s.pingOutstanding ∨ s.isDue now) (fitting (s.queue.take 1)) new now lastOut
          lastIn pingOutstanding ∧
        (s.isDue now → lastOut = now ∧ lastIn = now ∧ .pingreq ∈ new) := by
  rw [loop, if_neg (not_not_intro hc)]
  by_cases hdue : s.isDue now
  · rw [if_pos hdue]
    by_cases hping : s.pingOutstanding
    · exact .inl ⟨if_pos hping, hdue, hping⟩
    · rw [if_neg hping]
      obtain ⟨new, lastOut, lastIn, ping, hreceive, hnew, hpasses⟩ := receive_eq
        { s with
          sent := s.sent ++ [.pingreq], lastOut := now, lastIn := now, pingOutstanding := true }
        replies hc now
      have hout : lastOut = now := hpasses.lastOut.elim id And.left
      have hin : lastIn = now := hpasses.lastIn.elim id id
      refine .inr ⟨.pingreq :: new, lastOut, lastIn, ping, ?_, Output.ping.append hnew,
        ⟨.inr ⟨hout, by simp⟩, .inr hin, fun h => ⟨.inr hdue, (hpasses.ping h).2⟩⟩,
        fun _ => ⟨hout, hin, List.mem_cons_self⟩⟩
      rw [hreceive]
      simp
  · rw [if_neg hdue]
    obtain ⟨new, lastOut, lastIn, ping, hreceive, hnew, hpasses⟩ := s.receive_eq replies hc now
    exact .inr ⟨new, lastOut, lastIn, ping, hreceive, hnew,
      ⟨hpasses.lastOut, hpasses.lastIn, fun h => (hpasses.ping h).imp_left .inl⟩,
      fun h => absurd h hdue⟩

theorem loop_closed (hc : ¬ s.connected) (now : UInt32) : s.loop replies now = s := if_pos hc

end Loop

/-- The packets of the connection are in order. -/
structure Orderly (args : ConnectArgs → Prop) (s : Session) : Prop where
  keepAlive_eq : s.keepAlive = 15
  conversation : Conversation args s.connected s.lastId s.sent

variable {s} {args : ConnectArgs → Prop}

theorem Orderly.output {new : List ControlPacket} {acks : List UInt16}
    {said : List (CString × List UInt8)} (h : s.Orderly args) (hc : s.connected)
    (hnew : Output new acks said) :
    Conversation args s.connected s.lastId (s.sent ++ new) := by
  have hconv := h.conversation
  rw [hc] at hconv ⊢
  generalize s.sent = ps at hconv
  induction new generalizing ps acks said with
  | nil => rwa [List.append_nil]
  | cons p new ih =>
    have hid : requestId p = none := by
      by_contra hsome
      obtain ⟨id, hid⟩ := Option.ne_none_iff_exists'.mp hsome
      have hnone := hnew.requests_eq
      rw [List.filterMap_cons_some hid] at hnone
      cases hnone
    have hrest : Output new (new.filterMap acknowledgedId) (new.filterMap content) :=
      ⟨fun q hq => hnew.isClient q (List.mem_cons_of_mem p hq),
        by simpa [hid] using hnew.requests_eq, rfl, rfl⟩
    have hmore := ih hrest (ps ++ [p]) (hconv.say (hnew.isClient p List.mem_cons_self) hid)
    rwa [List.append_assoc] at hmore

theorem Orderly.publish (h : s.Orderly args) (m : Message) (now : UInt32) :
    (s.publish m now).Orderly args := by
  by_cases hc : s.connected
  · obtain ⟨new, lastOut, hpub, hnew, -⟩ := s.publish_eq hc m now
    rw [hpub]
    exact ⟨h.keepAlive_eq, h.output hc hnew⟩
  · rwa [Session.publish, if_neg hc]

theorem Orderly.loop (replies : CString → List UInt8 → List Message) (h : s.Orderly args)
    (now : UInt32) : (s.loop replies now).Orderly args := by
  by_cases hc : s.connected
  · obtain ⟨hclose, -⟩ | ⟨new, lastOut, lastIn, ping, hloop, hnew, -⟩ := s.loop_eq replies hc now
    · rw [hclose]
      exact ⟨h.keepAlive_eq, h.conversation.close⟩
    · rw [hloop]
      exact ⟨h.keepAlive_eq, h.output hc hnew⟩
  · rwa [s.loop_closed replies hc]

theorem Orderly.request (h : s.Orderly args) (hc : s.connected) {p : ControlPacket}
    (hp : IsClient p) (hid : requestId p = some (Link.nextId s.lastId)) (now : UInt32) :
    Orderly args { s with
      lastId := Link.nextId s.lastId, sent := s.sent ++ [p], lastOut := now } := by
  have hconv := h.conversation
  refine ⟨h.keepAlive_eq, ?_⟩
  rw [hc] at hconv ⊢
  exact hconv.ask hp hid

theorem Orderly.connect (h : s.Orderly args) {a : ConnectArgs} (ha : args a) (opens : Bool)
    (reply : List ControlPacket) (now later : UInt32) :
    (s.connect a opens reply now later).Orderly args := by
  have hsaid (b : Bool) : Conversation args b 1 [.connect (a.toConnect s.keepAlive)] := by
    have hnothing : ∀ p ∈ ([] : List ControlPacket), IsClient p := by simp
    rw [h.keepAlive_eq]
    exact .spoken (n := 0) ha hnothing rfl (.inl rfl)
  rw [Session.connect]
  by_cases hno : s.connected ∨ ¬ opens
  · rwa [if_pos hno]
  rw [if_neg hno]
  dsimp only
  split_ifs with hbody
  · unfold answered
    cases reply with
    | nil => exact ⟨h.keepAlive_eq, hsaid s.connected⟩
    | cons p queue =>
      dsimp only
      split_ifs
      · exact ⟨h.keepAlive_eq, hsaid true⟩
      · exact ⟨h.keepAlive_eq, hsaid s.connected⟩
  · have hc : s.connected = false := by simpa using fun hc => hno (.inl hc)
    refine ⟨h.keepAlive_eq, ?_⟩
    show Conversation args s.connected _ _
    rw [hc]
    exact .silent 1

theorem Orderly.disconnect (h : s.Orderly args) (now : UInt32) :
    (s.disconnect now).Orderly args := by
  refine ⟨h.keepAlive_eq, ?_⟩
  have hconv := h.conversation
  show Conversation args false s.lastId (if s.connected then s.sent ++ [.disconnect] else s.sent)
  cases hc : s.connected with
  | true =>
    rw [hc] at hconv
    exact hconv.leave
  | false => exact hconv.close

theorem step_orderly (replies : CString → List UInt8 → List Message) (h : s.Orderly args)
    {e : Event} (he : e.From args) : (s.step replies e).Orderly args := by
  cases e with
  | connect a opens reply now later => exact h.connect he opens reply now later
  | publish m now => exact h.publish m now
  | subscribe topic qos now =>
    rw [step, subscribe]
    split_ifs with hall
    · exact h.request hall.2.2 (p := .subscribe _ _ _) trivial rfl now
    · exact h
  | unsubscribe topic now =>
    rw [step, unsubscribe]
    split_ifs with hall
    · exact h.request hall.2 (p := .unsubscribe _ _) trivial rfl now
    · exact h
  | disconnect now => exact h.disconnect now
  | loop now => exact h.loop replies now
  | arrive p =>
    rw [step]
    split_ifs
    · exact ⟨h.keepAlive_eq, h.conversation⟩
    · exact h
  | lose => exact ⟨h.keepAlive_eq, h.conversation.close⟩

theorem initial_orderly (args : ConnectArgs → Prop) : initial.Orderly args :=
  ⟨rfl, .silent 0⟩

theorem run_orderly (replies : CString → List UInt8 → List Message) {es : List Event}
    (hes : ∀ e ∈ es, e.From args) : Orderly args (run (step replies) .initial es) := by
  have hstep : ∀ s e, Orderly args s → e.From args → Orderly args (step replies s e) :=
    fun s e hs he => step_orderly replies hs he
  exact run_invariant hstep (initial_orderly args) ((along_event_iff _ es).mpr hes)

/-- Packets have arrived, `taken` have been handled, and `new` has been written, with the
messages `said`. -/
structure Handles (arrived taken new : List ControlPacket) (said : List (CString × List UInt8))
    (s s' : Session) : Prop where
  queue_eq : s.queue ++ arrived = taken ++ s'.queue
  delivered_eq : s'.delivered = s.delivered ++ (fitting taken).filterMap content
  sent_eq : s'.sent = s.sent ++ new
  acks_eq : new.filterMap acknowledgedId = (fitting taken).filterMap awaitedId
  said_eq : new.filterMap content = said

theorem Handles.trans {arrived taken new arrived' taken' new' : List ControlPacket}
    {said said' : List (CString × List UInt8)} {s s' s'' : Session}
    (h : Handles arrived taken new said s s') (h' : Handles arrived' taken' new' said' s' s'') :
    Handles (arrived ++ arrived') (taken ++ taken') (new ++ new') (said ++ said') s s'' where
  queue_eq := by
    rw [← List.append_assoc, h.queue_eq, List.append_assoc, h'.queue_eq, List.append_assoc]
  delivered_eq := by
    rw [h'.delivered_eq, h.delivered_eq, fitting, fitting, fitting, List.filter_append,
      List.filterMap_append, List.append_assoc]
  sent_eq := by rw [h'.sent_eq, h.sent_eq, List.append_assoc]
  acks_eq := by
    rw [List.filterMap_append, h.acks_eq, h'.acks_eq, fitting, fitting, fitting,
      List.filter_append, List.filterMap_append]
  said_eq := by rw [List.filterMap_append, h.said_eq, h'.said_eq]

/-- Nothing has arrived, and nothing was taken. -/
theorem Handles.writes {new : List ControlPacket} {said : List (CString × List UInt8)}
    {s s' : Session} (hqueue : s'.queue = s.queue) (hdelivered : s'.delivered = s.delivered)
    (hsent : s'.sent = s.sent ++ new) (hacks : new.filterMap acknowledgedId = [])
    (hsaid : new.filterMap content = said) : Handles [] [] new said s s' where
  queue_eq := by rw [hqueue, List.append_nil, List.nil_append]
  delivered_eq := by rw [hdelivered]; exact (List.append_nil _).symm
  sent_eq := hsent
  acks_eq := hacks
  said_eq := hsaid

theorem Handles.refl (s : Session) : Handles [] [] [] [] s s :=
  .writes rfl rfl (List.append_nil _).symm rfl rfl

/-- The packet that a step takes. -/
def taken (s : Session) : Event → List ControlPacket
  | .loop _ => s.queue.take 1
  | _ => []

theorem taken_length (s : Session) (e : Event) :
    (s.taken e).length = if e.isLoop then min 1 s.queue.length else 0 := by
  cases e <;> simp [taken, Event.isLoop]

/-- The messages that a step publishes: that of the call, or those of the callback. -/
def said (replies : CString → List UInt8 → List Message) (s : Session) :
    Event → List (CString × List UInt8)
  | .publish m _ => (short m).toList
  | e => ((fitting (s.taken e)).filterMap content).flatMap (answers replies)

/-- A step that keeps the connection takes one packet in a `loop()`, if one waits. -/
theorem step_handles (replies : CString → List UInt8 → List Message) {s : Session} {e : Event}
    (hc : s.connected) (hc' : (s.step replies e).connected) :
    ∃ new, Handles e.arrived (s.taken e) new (s.said replies e) s (s.step replies e) := by
  cases e with
  | connect a opens reply now later =>
    have hsame : s.connect a opens reply now later = s := if_pos (.inl hc)
    exact ⟨[], by rw [step, hsame]; exact .refl s⟩
  | publish m now =>
    obtain ⟨new, lastOut, hpub, hnew, -⟩ := s.publish_eq hc m now
    exact ⟨new, by rw [step, hpub]; exact .writes rfl rfl rfl hnew.acks_eq hnew.said_eq⟩
  | subscribe topic qos now =>
    by_cases hall : qos ≤ 1 ∧ topic.length ≤ 247 ∧ s.connected
    · rw [step, subscribe, if_pos hall]
      exact ⟨[.subscribe _ _ _], .writes rfl rfl rfl rfl rfl⟩
    · rw [step, subscribe, if_neg hall]
      exact ⟨[], .refl s⟩
  | unsubscribe topic now =>
    by_cases hall : topic.length ≤ 247 ∧ s.connected
    · rw [step, unsubscribe, if_pos hall]
      exact ⟨[.unsubscribe _ _], .writes rfl rfl rfl rfl rfl⟩
    · rw [step, unsubscribe, if_neg hall]
      exact ⟨[], .refl s⟩
  | disconnect now => cases hc'
  | loop now =>
    rw [step] at hc' ⊢
    obtain ⟨hclose, -⟩ | ⟨new, lastOut, lastIn, ping, hloop, hnew, -⟩ := s.loop_eq replies hc now
    · rw [hclose] at hc'
      cases hc'
    · have hqueue : s.queue ++ [] = s.queue.take 1 ++ s.queue.drop 1 := by
        rw [List.append_nil, List.take_append_drop]
      rw [hloop]
      exact ⟨new, hqueue, rfl, rfl, hnew.acks_eq, hnew.said_eq⟩
  | arrive p =>
    rw [step, if_pos hc]
    exact ⟨[], rfl, (List.append_nil _).symm, (List.append_nil _).symm, rfl, rfl⟩
  | lose => cases hc'

/-- The packets that a run takes. -/
def takenIn (replies : CString → List UInt8 → List Message) : Session → List Event →
    List ControlPacket
  | _, [] => []
  | s, e :: es => s.taken e ++ takenIn replies (s.step replies e) es

/-- The messages that a run publishes. -/
def saidIn (replies : CString → List UInt8 → List Message) : Session → List Event →
    List (CString × List UInt8)
  | _, [] => []
  | s, e :: es => s.said replies e ++ saidIn replies (s.step replies e) es

/-- While the connection lasts, packets are taken in the order of their arrival, none is lost,
each `loop()` takes one, and those that waited at first are taken first. -/
theorem run_handles (replies : CString → List UInt8 → List Message) {s : Session}
    {es : List Event} (hc : Always (step replies) (fun s => s.connected) s es) :
    ∃ new, Handles (es.flatMap Event.arrived) (s.takenIn replies es) new (s.saidIn replies es) s
        (run (step replies) s es) ∧
      (s.takenIn replies es).length ≤ es.countP Event.isLoop ∧
      min (es.countP Event.isLoop) s.queue.length ≤ (s.takenIn replies es).length := by
  induction es generalizing s with
  | nil => exact ⟨[], .refl s, by simp [takenIn], by simp⟩
  | cons e es ih =>
    obtain ⟨hs, ha⟩ := always_iff.mp hc
    obtain ⟨new, hstep⟩ := step_handles replies hs ha.1
    obtain ⟨new', hrun, hle, hge⟩ := ih (always_iff.mpr ⟨ha.1, ha.2⟩)
    have hone := s.taken_length e
    have hqueue := congrArg List.length hstep.queue_eq
    rw [List.length_append, List.length_append] at hqueue
    refine ⟨_, hstep.trans hrun, ?_, ?_⟩ <;>
      rw [takenIn, List.countP_cons, List.length_append]
    all_goals split_ifs at hone ⊢ <;> omega

/-- A run without calls of `publish` says what the callback says. -/
theorem saidIn_eq (replies : CString → List UInt8 → List Message) {s : Session} {es : List Event}
    (h : ∀ e ∈ es, ∀ m now, e ≠ .publish m now) :
    s.saidIn replies es =
      ((fitting (s.takenIn replies es)).filterMap content).flatMap (answers replies) := by
  induction es generalizing s with
  | nil => rfl
  | cons e es ih =>
    have hone : s.said replies e =
        ((fitting (s.taken e)).filterMap content).flatMap (answers replies) := by
      cases e with
      | publish m now => exact absurd rfl (h _ List.mem_cons_self m now)
      | _ => rfl
    rw [saidIn, hone, ih fun f hf => h f (List.mem_cons_of_mem e hf), takenIn, fitting, fitting,
      fitting, List.filter_append, List.filterMap_append, List.flatMap_append]

end Session

theorem quiet_along {replies : CString → List UInt8 → List Message} {es : List Event}
    {s : Session} (h : ∀ e ∈ es, ∀ topic qos now, e ≠ .subscribe topic qos now) :
    Along (Session.step replies) (fun s e => ¬ s.Overruns e) s es := by
  refine along_iff.mpr fun fs e gs hsplit => ?_
  have he : e ∈ es := by rw [hsplit]; simp
  cases e with
  | subscribe topic qos now => exact absurd rfl (h _ he topic qos now)
  | _ => exact not_false

def noReplies : CString → List UInt8 → List Message := fun _ _ => []

/-- A client that connects. -/
def greeting : List Event :=
  [.connect (.ofLogin (.ofBytes [1]) (.ofBytes [2]) (.ofBytes [3])) true [.connack false 0] 0 1]

/-- It has said CONNECT. -/
theorem run_greeting : ∃ l,
    run (Link.step noReplies) (some (.initial (.zero bufferSize))) greeting = some l ∧
      Follows l (run (Session.step noReplies) .initial greeting) :=
  run_follows _ (initial_follows _) (quiet_along (by simp [greeting]))

section Runs
variable {replies : CString → List UInt8 → List Message} {buffer : Memory}

/-- Whatever beginning of the bytes has arrived, the broker has read a beginning of what the
client has said, and all of it when everything has arrived. -/
theorem run_received {es : List Event} {l : Link}
    (hrun : run (Link.step replies) (some (.initial buffer)) es = some l)
    {received : List UInt8} (h : received <+: l.sent) :
    packet.decodeAll received <+: (run (Session.step replies) .initial es).sent ∧
      (received = l.sent →
        packet.decodeAll received = (run (Session.step replies) .initial es).sent) := by
  have hsent := (follows_of_run replies (initial_follows buffer) hrun).sent_eq
  rw [hsent] at h ⊢
  exact packet.decodeAll_part packet_nil h

/-- A client that connects, subscribes twice, publishes and disconnects. -/
def farewell : List Event :=
  greeting ++ [.subscribe (.lit "esp32/command") 0 2, .subscribe (.lit "esp32/config") 1 3,
    .publish ⟨.lit "esp32/status", [66], false⟩ 4, .disconnect 5]

/-- A byte of DISCONNECT has not arrived. -/
theorem run_received_farewell : ∃ l,
    run (Link.step noReplies) (some (.initial (.zero bufferSize))) farewell = some l ∧
      packet.decodeAll l.sent.dropLast <+: (run (Session.step noReplies) .initial farewell).sent ∧
      packet.decodeAll l.sent = (run (Session.step noReplies) .initial farewell).sent ∧
      ((run (Session.step noReplies) .initial farewell).sent.filterMap requestId = [2, 3]) := by
  have hsome : ∃ l ∈ run (Link.step noReplies) (some (.initial (.zero bufferSize))) farewell,
      l.isOpen = false := by decide +kernel
  obtain ⟨l, hrun, -⟩ := hsome
  exact ⟨l, hrun, (run_received hrun (List.dropLast_prefix l.sent)).1,
    (run_received hrun List.prefix_rfl).2 rfl, by decide⟩

/-- What the broker reads on a connection begins with the one CONNECT, for arguments that the
client was given, and DISCONNECT is the last. The requests between them are numbered from 2 on,
past 65535 from 1 on, and never with 0. -/
theorem run_conversation {es : List Event} {l : Link}
    (hrun : run (Link.step replies) (some (.initial buffer)) es = some l) :
    packet.decodeAll l.sent = [] ∨ ∃ a opens reply now later middle last n,
      .connect a opens reply now later ∈ es ∧
      packet.decodeAll l.sent = .connect (a.toConnect 15) :: (middle ++ last) ∧
      (∀ p ∈ middle, IsClient p) ∧ middle.filterMap requestId = requestIds n ∧
      (last = [] ∨ last = [.disconnect] ∧ l.isOpen = false) := by
  have hfollows := follows_of_run replies (initial_follows buffer) hrun
  let args (a : ConnectArgs) : Prop :=
    ∃ opens reply now later, .connect a opens reply now later ∈ es
  have hfrom : ∀ e ∈ es, e.From args := fun e he => by
    cases e with
    | connect a opens reply now later => exact ⟨opens, reply, now, later, he⟩
    | _ => trivial
  have horderly := Session.run_orderly replies hfrom
  have hread := (packet.decodeAll_part packet_nil (hfollows.sent_eq ▸ List.prefix_rfl)).2
    hfollows.sent_eq
  rw [hread, hfollows.isOpen_eq]
  have hconv := horderly.conversation
  generalize (run (Session.step replies) .initial es).connected = b at hconv ⊢
  generalize (run (Session.step replies) .initial es).lastId = id at hconv ⊢
  generalize (run (Session.step replies) .initial es).sent = ps at hconv ⊢
  cases hconv with
  | silent id => exact .inl rfl
  | @spoken a ha middle last n _ hmiddle hids hlast =>
    obtain ⟨opens, reply, now, later, ha⟩ := ha
    exact .inr ⟨a, opens, reply, now, later, middle, last, n, ha, rfl, hmiddle, hids, hlast⟩

theorem run_conversation_farewell : ∃ l a middle last n,
    run (Link.step noReplies) (some (.initial (.zero bufferSize))) farewell = some l ∧
      packet.decodeAll l.sent = .connect (ConnectArgs.toConnect a 15) :: (middle ++ last) ∧
      (∀ p ∈ middle, IsClient p) ∧ middle.filterMap requestId = requestIds n ∧ n = 2 ∧
      (last = [] ∨ last = [.disconnect] ∧ l.isOpen = false) := by
  have hsome : ∃ l ∈ run (Link.step noReplies) (some (.initial (.zero bufferSize))) farewell,
      (packet.decodeAll l.sent).filterMap requestId = [2, 3] := by decide +kernel
  obtain ⟨l, hrun, hids⟩ := hsome
  obtain hnone | ⟨a, -, -, -, -, middle, last, n, -, hread, hmiddle, hnumbers, hlast⟩ :=
    run_conversation hrun
  · rw [hnone] at hids
    cases hids
  refine ⟨l, a, middle, last, n, hrun, hread, hmiddle, hnumbers, ?_, hlast⟩
  have hlength : (requestIds n).length = n := by rw [requestIds, List.length_map, List.length_range]
  have hrequests : last.filterMap requestId = [] := by
    rcases hlast with rfl | ⟨rfl, -⟩ <;> rfl
  have hconnect : requestId (.connect (a.toConnect 15)) = none := rfl
  rw [hread, List.filterMap_cons_none hconnect, List.filterMap_append, hnumbers, hrequests,
    List.append_nil] at hids
  rw [← hlength, hids]
  rfl

/-- While the connection stays open, the packets of the broker are taken in the order of their
arrival, one in a `loop()`, those that waited at first without delay. The callback gets every
message that fits the buffer and no other, and exactly their ids are acknowledged. -/
theorem run_delivered {fs es : List Event} {l l' : Link}
    (hreach : run (Link.step replies) (some (.initial buffer)) fs = some l)
    (hrun : run (Link.step replies) (some l) es = some l')
    (hopen : Always (Link.step replies) (fun l => l.any Link.isOpen) (some l) es) :
    ∃ waiting waiting' taken new : List ControlPacket,
      l.input = waiting.flatMap packet.encode ∧ l'.input = waiting'.flatMap packet.encode ∧
      waiting ++ es.flatMap Event.arrived = taken ++ waiting' ∧
      l'.delivered = l.delivered ++ (fitting taken).filterMap content ∧
      l'.sent = l.sent ++ new.flatMap packet.encode ∧
      new.filterMap acknowledgedId = (fitting taken).filterMap awaitedId ∧
      taken.length ≤ es.countP Event.isLoop ∧
      min (es.countP Event.isLoop) waiting.length ≤ taken.length := by
  have hl := follows_of_run replies (initial_follows buffer) hreach
  have hl' := follows_of_run replies hl hrun
  generalize run (Session.step replies) .initial fs = s at hl hl'
  obtain ⟨new, hhandles, hle, hge⟩ :=
    Session.run_handles replies (always_connected replies hl hopen)
  refine ⟨s.queue, (run (Session.step replies) s es).queue, s.takenIn replies es, new,
    hl.input_eq, hl'.input_eq, hhandles.queue_eq, ?_, ?_, hhandles.acks_eq, hle, hge⟩
  · rw [hl'.delivered_eq, hhandles.delivered_eq, hl.delivered_eq]
  · rw [hl'.sent_eq, hhandles.sent_eq, hl.sent_eq, List.flatMap_append]

/-- A message with an id arrives and is read. -/
def greeted : Publish where
  dup := false
  retain := false
  id := some 7
  topic := .ofBytes [65]
  payload := [66]
  topic_lt := by decide
  remaining_lt := by decide

theorem greeted_quiet : Along (Session.step noReplies) (fun s e => ¬ s.Overruns e)
    (run (Session.step noReplies) .initial greeting) [.arrive (.publish greeted), .loop 2] :=
  quiet_along (by simp)

theorem greeted_connected : Always (Session.step noReplies) (fun s => s.connected)
    (run (Session.step noReplies) .initial greeting) [.arrive (.publish greeted), .loop 2] :=
  always_iff.mpr ⟨by decide, by decide, by decide, trivial⟩

theorem run_delivered_greeted : ∃ l l',
    run (Link.step noReplies) (some (.initial (.zero bufferSize))) greeting = some l ∧
    run (Link.step noReplies) (some l) [.arrive (.publish greeted), .loop 2] = some l' ∧
    ∃ waiting waiting' taken new : List ControlPacket,
      l.input = waiting.flatMap packet.encode ∧ l'.input = waiting'.flatMap packet.encode ∧
      waiting ++ [.publish greeted] = taken ++ waiting' ∧
      l'.delivered = l.delivered ++ (fitting taken).filterMap content ∧
      l'.sent = l.sent ++ new.flatMap packet.encode ∧
      new.filterMap acknowledgedId = (fitting taken).filterMap awaitedId ∧
      taken.length ≤ 1 ∧ min 1 waiting.length ≤ taken.length := by
  obtain ⟨l, hreach, hl⟩ := run_greeting
  obtain ⟨l', hrun, -⟩ := run_follows noReplies hl greeted_quiet
  exact ⟨l, l', hreach, hrun,
    run_delivered hreach hrun (always_open noReplies hl greeted_quiet greeted_connected)⟩

/-- What the client says for a call of `publish`. -/
def published (m : Message) : Option ControlPacket :=
  if h : m.topic.length + m.payload.length ≤ 249 then some (.publish (m.toPublish h)) else none

/-- Calls of `publish`, with their times. -/
def publishing (ms : List (Message × UInt32)) : List Event := ms.map fun m => .publish m.1 m.2

theorem run_publishing (replies : CString → List UInt8 → List Message) {s : Session}
    (hc : s.connected) (ms : List (Message × UInt32)) :
    ∃ lastOut, run (Session.step replies) s (publishing ms) =
      { s with sent := s.sent ++ ms.filterMap fun m => published m.1, lastOut } := by
  induction ms generalizing s with
  | nil => exact ⟨s.lastOut, by simp [publishing]⟩
  | cons m ms ih =>
    have hstep : ∃ lastOut, s.publish m.1 m.2 =
        { s with sent := s.sent ++ (published m.1).toList, lastOut } := by
      rw [Session.publish, if_pos hc, published]
      split_ifs with h
      · exact ⟨m.2, rfl⟩
      · exact ⟨s.lastOut, by simp⟩
    obtain ⟨lastOut, hpub⟩ := hstep
    obtain ⟨lastOut', hrun⟩ := ih (s := s.publish m.1 m.2) (by rw [hpub]; exact hc)
    refine ⟨lastOut', ?_⟩
    rw [publishing, List.map_cons, run_cons]
    refine hrun.trans ?_
    rw [hpub]
    cases hm : published m.1 <;> simp [hm]

/-- The new bytes are the packets of the calls. -/
theorem decode_publishing {l l' : Link} {s : Session} {ms : List (Message × UInt32)}
    (h : Follows l s) (h' : Follows l' (run (Session.step replies) s (publishing ms)))
    (hopen : l.isOpen) : packet.decodeAll (l'.sent.drop l.sent.length) =
      ms.filterMap fun m => published m.1 := by
  obtain ⟨lastOut, hsession⟩ := run_publishing replies (h.isOpen_eq.symm.trans hopen) ms
  have hsent := h'.sent_eq
  rw [hsession, List.flatMap_append, ← h.sent_eq] at hsent
  rw [hsent, List.drop_left]
  exact (packet.decodeAll_part packet_nil List.prefix_rfl).2 rfl

theorem content_published (m : Message) : (published m).bind content = short m := by
  rw [published, short]
  split_ifs <;> rfl

/-- A message that one client can publish every client can receive, also with an id. -/
theorem fits_of_content {p : ControlPacket} {m : CString × List UInt8} (h : content p = some m)
    (hshort : m.1.length + m.2.length ≤ 249) : Fits p := by
  cases p with
  | publish q =>
    obtain rfl : (q.topic, q.payload) = m := Option.some.inj h
    have hid : (idBytes q.id).length ≤ 2 := by cases q.id <;> simp [idBytes]
    have hrem : q.remaining = 2 + q.topic.length + (idBytes q.id).length + q.payload.length := rfl
    rw [Fits, packet_publish, q.packet_length]
    dsimp only at hshort
    have hsize : bufferSize = 256 := rfl
    by_cases hsmall : q.remaining < 128
    · rw [encodeLength_length_small hsmall]
      omega
    · rw [encodeLength_length_two (Nat.not_lt.mp hsmall) (by omega)]
      omega
  | _ => cases h

theorem filterMap_fitting {ps : List ControlPacket}
    (h : ∀ m ∈ ps.filterMap content, m.1.length + m.2.length ≤ 249) :
    (fitting ps).filterMap content = ps.filterMap content := by
  induction ps with
  | nil => rfl
  | cons p ps ih =>
    cases hm : content p with
    | none =>
      have hrest := ih (by simpa [hm] using h)
      by_cases hfit : Fits p <;> simpa [fitting, hfit, hm] using hrest
    | some m =>
      rw [List.filterMap_cons_some hm] at h ⊢
      have hfit := fits_of_content hm (h m List.mem_cons_self)
      have hrest := ih fun q hq => h q (List.mem_cons_of_mem m hq)
      rw [← hrest, fitting, List.filter_cons_of_pos (by simpa using hfit),
        List.filterMap_cons_some hm]
      rfl

theorem queue_nil {l : Link} {s : Session} (h : Follows l s) (hinput : l.input = []) :
    s.queue = [] := by
  have hbytes := h.input_eq.symm.trans hinput
  cases hq : s.queue with
  | nil => rfl
  | cons p queue =>
    rw [hq, List.flatMap_cons, packet_encode] at hbytes
    cases hbytes

/-- When the broker passes on, in their order, the messages that it has read from one client and
a second client wants, and the second has read what has arrived, it has taken every message that
was not too long to be published. -/
theorem run_passed {replies' : CString → List UInt8 → List Message} {l₀ l₁ l l' : Link}
    {s₀ s : Session} {ms : List (Message × UInt32)} {es : List Event}
    {wanted : CString × List UInt8 → Bool} (h₀ : Follows l₀ s₀) (hopen₀ : l₀.isOpen)
    (h₁ : Follows l₁ (run (Session.step replies) s₀ (publishing ms))) (hl : Follows l s)
    (hl' : Follows l' (run (Session.step replies') s es))
    (hc : Always (Session.step replies') (fun s => s.connected) s es)
    (hbroker : (es.flatMap Event.arrived).filterMap content =
      ((packet.decodeAll (l₁.sent.drop l₀.sent.length)).filterMap content).filter wanted)
    (hbefore : l.input = []) (hafter : l'.input = []) :
    (fitting (s.takenIn replies' es)).filterMap content =
      (ms.filterMap fun m => short m.1).filter wanted := by
  have hcontent : (es.flatMap Event.arrived).filterMap content =
      (ms.filterMap fun m => short m.1).filter wanted := by
    rw [hbroker, decode_publishing h₀ h₁ hopen₀, List.filterMap_filterMap]
    exact congrArg _ (List.filterMap_congr fun m _ => content_published m.1)
  -- nothing waits at first, and nothing at the end
  obtain ⟨new, hhandles, -, -⟩ := Session.run_handles replies' hc
  have htaken := hhandles.queue_eq
  rw [queue_nil hl hbefore, queue_nil hl' hafter, List.nil_append, List.append_nil] at htaken
  rw [← htaken, filterMap_fitting, hcontent]
  rw [hcontent]
  intro m hm
  obtain ⟨call, -, hcall⟩ := List.mem_filterMap.mp (List.mem_filter.mp hm).1
  rw [short] at hcall
  split_ifs at hcall with hlen
  obtain rfl := Option.some.inj hcall
  exact hlen

/-- From `publish` to the callback: what one client publishes and a second one wants, the broker
passing it on in its order, is what the callback of the second is given, unchanged and in order,
whatever ids the broker gives to the messages and whatever else it sends. -/
theorem run_published {replies' : CString → List UInt8 → List Message} {buffer' : Memory}
    {fs fs' es : List Event} {l₀ l₁ l l' : Link} {ms : List (Message × UInt32)}
    (wanted : CString × List UInt8 → Bool)
    (hreach₀ : run (Link.step replies) (some (.initial buffer)) fs = some l₀)
    (hopen₀ : l₀.isOpen)
    (hpublish : run (Link.step replies) (some l₀) (publishing ms) = some l₁)
    (hreach : run (Link.step replies') (some (.initial buffer')) fs' = some l)
    (hrun : run (Link.step replies') (some l) es = some l')
    (hopen : Always (Link.step replies') (fun l => l.any Link.isOpen) (some l) es)
    (hbroker : (es.flatMap Event.arrived).filterMap content =
      ((packet.decodeAll (l₁.sent.drop l₀.sent.length)).filterMap content).filter wanted)
    (hbefore : l.input = []) (hafter : l'.input = []) :
    l'.delivered = l.delivered ++ (ms.filterMap fun m => short m.1).filter wanted := by
  have h₀ := follows_of_run replies (initial_follows buffer) hreach₀
  have h₁ := follows_of_run replies h₀ hpublish
  have hl := follows_of_run replies' (initial_follows buffer') hreach
  have hl' := follows_of_run replies' hl hrun
  have hc := always_connected replies' hl hopen
  obtain ⟨new, hhandles, -, -⟩ := Session.run_handles replies' hc
  rw [hl'.delivered_eq, hhandles.delivered_eq, ← hl.delivered_eq,
    run_passed h₀ hopen₀ h₁ hl hl' hc hbroker hbefore hafter]

theorem run_published_greeted : ∃ l₀ l₁ l l',
    run (Link.step noReplies) (some (.initial (.zero bufferSize))) greeting = some l₀ ∧
    run (Link.step noReplies) (some l₀) (publishing [(⟨greeted.topic, [66], false⟩, 2)]) = some l₁ ∧
    run (Link.step noReplies) (some (.initial (.zero bufferSize))) greeting = some l ∧
    run (Link.step noReplies) (some l) [.arrive (.publish greeted), .loop 2] = some l' ∧
    l'.delivered = l.delivered ++ [(greeted.topic, [66])] := by
  obtain ⟨l, hreach, hl⟩ := run_greeting
  have hquiet : Along (Session.step noReplies) (fun s e => ¬ s.Overruns e)
      (run (Session.step noReplies) .initial greeting)
      (publishing [(⟨greeted.topic, [66], false⟩, 2)]) := quiet_along (by simp [publishing])
  obtain ⟨l₁, hpublish, h₁⟩ := run_follows noReplies hl hquiet
  obtain ⟨l', hrun, hl'⟩ := run_follows noReplies hl greeted_quiet
  have hopen : l.isOpen := hl.isOpen_eq.trans (by decide)
  refine ⟨l, l₁, l, l', hreach, hpublish, hreach, hrun, ?_⟩
  exact run_published (fun _ => true) hreach hopen hpublish hreach hrun
    (always_open noReplies hl greeted_quiet greeted_connected)
    (by rw [decode_publishing hl h₁ hopen]; rfl) hl.input_eq hl'.input_eq

end Runs

end Esp32Automation.MqttClient
