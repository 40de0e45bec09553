import Esp32Automation.MqttRuns
import Esp32Automation.Ticks

/-!
# PubSubClient: keeping a connection alive

With times on the events, `loop()` at least every `g` milliseconds, and whatever else is called in
between: how long a connected client stays silent, when it gives up a broker that has fallen
silent, and that it gives up only behind a PINGREQ for which it has seen no answer. The counter of
milliseconds may wrap around at any time.
-/
namespace Esp32Automation.MqttClient
open PubSubClient Mqtt Run Ticks

/-- The call reads this time from `millis()`. On an open connection `connect` does not read it. -/
def Event.At (t : ℕ) : Event → Prop
  | .publish _ now | .subscribe _ _ now | .unsubscribe _ now | .disconnect now | .loop now =>
    now = stamp t
  | .connect _ _ _ _ _ | .arrive _ | .lose => True

/-- `keepAlive`, in milliseconds. -/
def period : ℕ := 15000

/-- What a step does to the times of a connection that it keeps. -/
structure Stepped (t : ℕ) (e : Event) (new : List ControlPacket) (s s' : Session) : Prop where
  keepAlive_eq : s'.keepAlive = s.keepAlive
  sent_eq : s'.sent = s.sent ++ new
  lastOut : s'.lastOut = s.lastOut ∨ s'.lastOut = stamp t ∧ new ≠ []
  lastIn : s'.lastIn = s.lastIn ∨ s'.lastIn = stamp t
  due : e.isLoop → s.isDue (stamp t) →
    s'.lastOut = stamp t ∧ s'.lastIn = stamp t ∧ .pingreq ∈ new
  ping : s'.pingOutstanding → (s.pingOutstanding ∨ e.isLoop ∧ s.isDue (stamp t)) ∧
    ∀ p ∈ fitting (s.taken e), ¬ answersPing p

theorem stepped_refl {t : ℕ} {e : Event} (he : ¬ e.isLoop) (s : Session) : Stepped t e [] s s where
  keepAlive_eq := rfl
  sent_eq := (List.append_nil _).symm
  lastOut := .inl rfl
  lastIn := .inl rfl
  due h := absurd h he
  ping h := ⟨.inl h, by cases e <;> simp_all [Session.taken, fitting, Event.isLoop]⟩

theorem step_stepped (replies : CString → List UInt8 → List Message) {t : ℕ} {s : Session}
    {e : Event} (ht : e.At t) (hc : s.connected) (hc' : (s.step replies e).connected) :
    ∃ new, Stepped t e new s (s.step replies e) := by
  cases e with
  | connect a opens reply now later =>
    have hsame : s.connect a opens reply now later = s := if_pos (.inl hc)
    rw [Session.step, hsame]
    exact ⟨[], stepped_refl (by simp [Event.isLoop]) s⟩
  | publish m now =>
    obtain rfl : now = stamp t := ht
    obtain ⟨new, lastOut, hpub, -, htime⟩ := s.publish_eq hc m (stamp t)
    rw [Session.step, hpub]
    exact ⟨new, rfl, rfl, htime, .inl rfl, by simp [Event.isLoop],
      fun h => ⟨.inl h, by simp [Session.taken, fitting]⟩⟩
  | subscribe topic qos now =>
    rw [Session.step, Session.subscribe]
    by_cases hall : qos ≤ 1 ∧ topic.length ≤ 247 ∧ s.connected
    · rw [if_pos hall]
      exact ⟨[_], rfl, rfl, .inr ⟨ht, by simp⟩, .inl rfl, by simp [Event.isLoop],
        fun h => ⟨.inl h, by simp [Session.taken, fitting]⟩⟩
    · rw [if_neg hall]
      exact ⟨[], stepped_refl (by simp [Event.isLoop]) s⟩
  | unsubscribe topic now =>
    rw [Session.step, Session.unsubscribe]
    by_cases hall : topic.length ≤ 247 ∧ s.connected
    · rw [if_pos hall]
      exact ⟨[_], rfl, rfl, .inr ⟨ht, by simp⟩, .inl rfl, by simp [Event.isLoop],
        fun h => ⟨.inl h, by simp [Session.taken, fitting]⟩⟩
    · rw [if_neg hall]
      exact ⟨[], stepped_refl (by simp [Event.isLoop]) s⟩
  | disconnect now => cases hc'
  | loop now =>
    obtain rfl : now = stamp t := ht
    rw [Session.step] at hc' ⊢
    obtain ⟨hclose, -⟩ | ⟨new, lastOut, lastIn, ping, hloop, -, hpasses, hdue⟩ :=
      s.loop_eq replies hc (stamp t)
    · rw [hclose] at hc'
      cases hc'
    · rw [hloop]
      exact ⟨new, rfl, rfl, hpasses.lastOut, hpasses.lastIn, fun _ => hdue,
        fun h => (hpasses.ping h).imp_left (Or.imp_right fun hd => ⟨rfl, hd⟩)⟩
  | arrive p =>
    rw [Session.step, if_pos hc]
    exact ⟨[], rfl, (List.append_nil _).symm, .inl rfl, .inl rfl, by simp [Event.isLoop],
      fun h => ⟨.inl h, by simp [Session.taken, fitting]⟩⟩
  | lose => cases hc'

/-- Where a connected client is between two of its calls: `out` and `inn` are the times of its
last packet out and in, as it keeps them, `last` that of its last `loop()`, and `prev` that of its
last call. -/
structure Timely (g last prev out inn : ℕ) (s : Session) : Prop where
  keepAlive_eq : s.keepAlive = 15
  lastOut_eq : s.lastOut = stamp out
  lastIn_eq : s.lastIn = stamp inn
  out_le : out ≤ prev
  in_le : inn ≤ prev
  paced : prev ≤ last + g
  soon_out : last ≤ out + period
  soon_in : last ≤ inn + period

section Runs
variable {replies : CString → List UInt8 → List Message} {s : Session}
  {g last prev out inn t : ℕ}

theorem Timely.isDue_iff (h : Timely g last prev out inn s) (hprev : prev ≤ t)
    (hpace : t ≤ last + g) (hg : period + g < 2 ^ 32) :
    s.isDue (stamp t) ↔ inn + period < t ∨ out + period < t := by
  obtain ⟨hkeep, hout, hin, hle, hle', -, hsoon, hsoon'⟩ := h
  have hperiod : (s.keepAlive.toUInt32 * 1000).toNat = period := by
    rw [hkeep]
    decide
  rw [Session.isDue, hin, hout, Bool.or_eq_true, decide_eq_true_iff,
    decide_eq_true_iff, lt_stamp_sub_iff (by omega) (by omega),
    lt_stamp_sub_iff (by omega) (by omega), hperiod]
  omega

/-- One step: the times stay timely, and that of the last packet out stays unless one goes out. -/
theorem Timely.step (h : Timely g last prev out inn s) {e : Event} {new : List ControlPacket}
    {s' : Session} (hstep : Stepped t e new s s') (hprev : prev ≤ t) (hpace : t ≤ last + g)
    (hg : period + g < 2 ^ 32) :
    ∃ out' inn', Timely g (if e.isLoop then t else last) t out' inn' s' ∧
      out ≤ out' ∧ inn ≤ inn' ∧ (new = [] → out' = out) := by
  have hdue_iff := h.isDue_iff hprev hpace hg
  obtain ⟨hkeep, hout, hin, hle, hle', -, hsoon, hsoon'⟩ := h
  have hkeep' := hstep.keepAlive_eq.trans hkeep
  by_cases hdue : e.isLoop ∧ s.isDue (stamp t)
  · obtain ⟨hout', hin', hnew⟩ := hstep.due hdue.1 hdue.2
    rw [if_pos hdue.1]
    refine ⟨t, t, ⟨hkeep', hout', hin', ?_, ?_, ?_, ?_, ?_⟩, ?_, ?_,
      fun hnil => by simp [hnil] at hnew⟩ <;> omega
  · -- behind a `loop()` that sends no PINGREQ, neither packet is long ago
    have hrecent : e.isLoop → t ≤ out + period ∧ t ≤ inn + period := fun hloop => by
      have hnot := mt hdue_iff.mpr fun hd => hdue ⟨hloop, hd⟩
      omega
    obtain ⟨out', hout', hcase⟩ : ∃ out', s'.lastOut = stamp out' ∧
        (out' = out ∨ out' = t ∧ new ≠ []) :=
      hstep.lastOut.elim (fun heq => ⟨out, heq.trans hout, .inl rfl⟩)
        fun heq => ⟨t, heq.1, .inr ⟨rfl, heq.2⟩⟩
    obtain ⟨inn', hin', hcase'⟩ : ∃ inn', s'.lastIn = stamp inn' ∧ (inn' = inn ∨ inn' = t) :=
      hstep.lastIn.elim (fun heq => ⟨inn, heq.trans hin, .inl rfl⟩) fun heq => ⟨t, heq, .inr rfl⟩
    have hcase₀ : out' = out ∨ out' = t := hcase.imp_right And.left
    have hlast : t ≤ (if e.isLoop then t else last) + g ∧
        (if e.isLoop then t else last) ≤ out' + period ∧
        (if e.isLoop then t else last) ≤ inn' + period := by
      split_ifs with hloop
      · have hsoon := hrecent hloop
        omega
      · omega
    exact ⟨out', inn', ⟨hkeep', hout', hin', by omega, by omega, hlast.1, hlast.2.1, hlast.2.2⟩,
      by omega, by omega, fun hnil => hcase.resolve_right fun h => h.2 hnil⟩

/-- The same for a run in which the connection stays. -/
theorem run_timely (hg : period + g < 2 ^ 32) {ts : List (ℕ × Event)}
    (h : Timely g last prev out inn s)
    (hc : Always (Session.step replies) (fun s => s.connected) s (ts.map Prod.snd))
    (hat : ∀ e ∈ ts, e.2.At e.1) (hp : Paced Event.isLoop g last prev ts) :
    ∃ out' inn' new, Timely g (lastBeat Event.isLoop last ts) (finish prev ts) out' inn'
        (run (Session.step replies) s (ts.map Prod.snd)) ∧
      (run (Session.step replies) s (ts.map Prod.snd)).sent = s.sent ++ new ∧
      out ≤ out' ∧ inn ≤ inn' ∧ (new = [] → out' = out) := by
  induction ts generalizing s last prev out inn with
  | nil => exact ⟨out, inn, [], h, (List.append_nil _).symm, le_rfl, le_rfl,
      fun _ => rfl⟩
  | cons e ts ih =>
    obtain ⟨hs, ha⟩ := always_iff.mp hc
    obtain ⟨hprev, hpace, hp⟩ := hp
    obtain ⟨new, hstep⟩ := step_stepped replies (hat e List.mem_cons_self) hs ha.1
    obtain ⟨out₁, inn₁, h₁, hle₁, hle₁', hout₁⟩ := h.step hstep hprev hpace hg
    obtain ⟨out₂, inn₂, new₂, h₂, hsent₂, hle₂, hle₂', hout₂⟩ := ih h₁ (always_iff.mpr ⟨ha.1, ha.2⟩)
      (fun f hf => hat f (List.mem_cons_of_mem e hf)) hp
    refine ⟨out₂, inn₂, new ++ new₂, h₂, ?_, hle₁.trans hle₂, hle₁'.trans hle₂', fun hnil => ?_⟩
    · rw [List.map_cons, run_cons, hsent₂, hstep.sent_eq, List.append_assoc]
    · obtain ⟨hnew, hnew₂⟩ := List.append_eq_nil_iff.mp hnil
      rw [hout₂ hnew₂, hout₁ hnew]

theorem stamp_inj {a b : ℕ} (h : stamp a = stamp b) (hab : a < b + 2 ^ 32)
    (hba : b < a + 2 ^ 32) : a = b := by
  have htoNat := congrArg UInt32.toNat h
  rw [stamp, stamp, UInt32.toNat_ofNat', UInt32.toNat_ofNat'] at htoNat
  omega

/-- A `loop()` that finds nothing. -/
theorem loop_silent (hq : s.queue = []) (hc : s.connected) (now : UInt32) :
    s.loop replies now =
      if s.isDue now then
        if s.pingOutstanding then s.close
        else { s with
          sent := s.sent ++ [.pingreq], lastOut := now, lastIn := now, pingOutstanding := true }
      else s := by
  rw [Session.loop, if_neg (not_not_intro hc), Session.receive, Session.receive, hq]

/-- While nothing arrives, a PINGREQ stays open, and without one nothing counts as heard. -/
theorem step_silent {e : Event} (hq : s.queue = []) (harrive : e.arrived = [])
    (hc : s.connected) (hc' : (s.step replies e).connected) :
    (s.step replies e).queue = [] ∧
      ((s.step replies e).lastIn = s.lastIn ∧
        (s.step replies e).pingOutstanding = s.pingOutstanding ∨
      s.pingOutstanding = false ∧ (s.step replies e).pingOutstanding = true) := by
  cases e with
  | connect a opens reply now later =>
    have hsame : s.connect a opens reply now later = s := if_pos (.inl hc)
    rw [Session.step, hsame]
    exact ⟨hq, .inl ⟨rfl, rfl⟩⟩
  | publish m now =>
    obtain ⟨new, lastOut, hpub, -⟩ := s.publish_eq hc m now
    rw [Session.step, hpub]
    exact ⟨hq, .inl ⟨rfl, rfl⟩⟩
  | subscribe topic qos now =>
    rw [Session.step, Session.subscribe]
    split_ifs <;> exact ⟨hq, .inl ⟨rfl, rfl⟩⟩
  | unsubscribe topic now =>
    rw [Session.step, Session.unsubscribe]
    split_ifs <;> exact ⟨hq, .inl ⟨rfl, rfl⟩⟩
  | disconnect now => cases hc'
  | loop now =>
    rw [Session.step, loop_silent hq hc] at hc' ⊢
    split_ifs at hc' ⊢ with hdue hping
    · cases hc'
    · exact ⟨hq, .inr ⟨by simpa using hping, rfl⟩⟩
    · exact ⟨hq, .inl ⟨rfl, rfl⟩⟩
  | arrive p => cases harrive
  | lose => cases hc'

/-- A broker from which nothing arrives behind `heard` is given up in time. -/
theorem run_silent {heard : ℕ} (hg : period + g < 2 ^ 32) {ts : List (ℕ × Event)}
    (h : Timely g last prev out inn s) (hq : s.queue = [])
    (hin : inn ≤ heard + if s.pingOutstanding then period + g else 0)
    (hc : Always (Session.step replies) (fun s => s.connected) s (ts.map Prod.snd))
    (hat : ∀ e ∈ ts, e.2.At e.1) (hp : Paced Event.isLoop g last prev ts)
    (hsilent : ∀ e ∈ ts, e.2.arrived = []) :
    finish prev ts ≤ heard + 2 * (period + g) := by
  induction ts generalizing s last prev out inn with
  | nil =>
    have hsoon := h.soon_in
    have hpaced := h.paced
    rw [finish_nil]
    split_ifs at hin <;> omega
  | cons e ts ih =>
    obtain ⟨hs, ha⟩ := always_iff.mp hc
    obtain ⟨hprev, hpace, hp⟩ := hp
    obtain ⟨new, hstep⟩ := step_stepped replies (hat e List.mem_cons_self) hs ha.1
    obtain ⟨out₁, inn₁, h₁, -, hle, -⟩ := h.step hstep hprev hpace hg
    obtain ⟨hq₁, hcase⟩ := step_silent hq (hsilent e List.mem_cons_self) hs ha.1
    refine ih h₁ hq₁ ?_ (always_iff.mpr ⟨ha.1, ha.2⟩)
      (fun f hf => hat f (List.mem_cons_of_mem e hf)) hp
      (fun f hf => hsilent f (List.mem_cons_of_mem e hf))
    have hsoon := h.soon_in
    have hle₁ := h₁.in_le
    rcases hcase with ⟨hsame, hping⟩ | ⟨hping, hping'⟩
    · have heq : inn₁ = inn := by
        refine stamp_inj (h₁.lastIn_eq.symm.trans (hsame.trans h.lastIn_eq)) ?_ ?_ <;> omega
      rwa [heq, hping]
    · rw [hping, if_neg (by decide)] at hin
      rw [hping', if_pos rfl]
      omega

theorem arrived_of_isLoop {e : Event} (h : e.isLoop) : e.arrived = [] := by
  cases e with
  | loop now => rfl
  | _ => cases h

/-- Behind a run a PINGREQ is open because it was open before and has not been answered, or
because one was sent on the way and has not been answered since, nor in the `loop()` itself. -/
theorem run_pinged (hg : period + g < 2 ^ 32) {ts : List (ℕ × Event)}
    (h : Timely g last prev out inn s)
    (hc : Always (Session.step replies) (fun s => s.connected) s (ts.map Prod.snd))
    (hat : ∀ e ∈ ts, e.2.At e.1) (hp : Paced Event.isLoop g last prev ts)
    (hping : (run (Session.step replies) s (ts.map Prod.snd)).pingOutstanding) :
    (s.pingOutstanding ∧
        ∀ p ∈ fitting (s.takenIn replies (ts.map Prod.snd)), ¬ answersPing p) ∨
      ∃ ts₁ e ts₂ new, ts = ts₁ ++ e :: ts₂ ∧ e.2.isLoop ∧
        Stepped e.1 e.2 new (run (Session.step replies) s (ts₁.map Prod.snd))
          (run (Session.step replies) s ((ts₁ ++ [e]).map Prod.snd)) ∧
        (run (Session.step replies) s (ts₁.map Prod.snd)).isDue (stamp e.1) ∧
        ∀ p ∈ fitting ((run (Session.step replies) s (ts₁.map Prod.snd)).takenIn replies
          ((e :: ts₂).map Prod.snd)), ¬ answersPing p := by
  induction ts generalizing s last prev out inn with
  | nil => exact .inl ⟨hping, by simp [Session.takenIn, fitting]⟩
  | cons e ts ih =>
    obtain ⟨hs, ha⟩ := always_iff.mp hc
    obtain ⟨hprev, hpace, hp⟩ := hp
    obtain ⟨new, hstep⟩ := step_stepped replies (hat e List.mem_cons_self) hs ha.1
    obtain ⟨out₁, inn₁, h₁, -⟩ := h.step hstep hprev hpace hg
    rcases ih h₁ (always_iff.mpr ⟨ha.1, ha.2⟩) (fun f hf => hat f (List.mem_cons_of_mem e hf)) hp
      hping with ⟨hping₁, hnone⟩ | ⟨ts₁, f, ts₂, new₂, rfl, hrest⟩
    · obtain ⟨hcase, hnone₁⟩ := hstep.ping hping₁
      have hall : ∀ p ∈ fitting (s.takenIn replies ((e :: ts).map Prod.snd)),
          ¬ answersPing p := by
        intro p hp
        rw [List.map_cons, Session.takenIn, fitting, List.filter_append] at hp
        exact (List.mem_append.mp hp).elim (hnone₁ p) (hnone p)
      rcases hcase with hopen | ⟨hloop, hdue⟩
      · exact .inl ⟨hopen, hall⟩
      · exact .inr ⟨[], e, ts, new, rfl, hloop, hstep, hdue, hall⟩
    · exact .inr ⟨e :: ts₁, f, ts₂, new₂, rfl, hrest⟩

/-- The times behind a `loop()` that was due are not older than it. -/
theorem run_due (hg : period + g < 2 ^ 32) {ts₁ ts₂ : List (ℕ × Event)} {e : ℕ × Event}
    (h : Timely g last prev out inn s)
    (hc : Always (Session.step replies) (fun s => s.connected) s
      ((ts₁ ++ e :: ts₂).map Prod.snd))
    (hat : ∀ f ∈ ts₁ ++ e :: ts₂, f.2.At f.1)
    (hp : Paced Event.isLoop g last prev (ts₁ ++ e :: ts₂)) (hloop : e.2.isLoop)
    (hdue : (run (Session.step replies) s (ts₁.map Prod.snd)).isDue (stamp e.1)) :
    ∃ out' inn', Timely g (lastBeat Event.isLoop last (ts₁ ++ e :: ts₂))
        (finish prev (ts₁ ++ e :: ts₂)) out' inn'
        (run (Session.step replies) s ((ts₁ ++ e :: ts₂).map Prod.snd)) ∧
      e.1 ≤ out' ∧ e.1 ≤ inn' := by
  induction ts₁ generalizing s last prev out inn with
  | nil =>
    obtain ⟨hs, ha⟩ := always_iff.mp hc
    obtain ⟨hprev, hpace, hp⟩ := hp
    obtain ⟨new, hstep⟩ := step_stepped replies (hat e (by simp)) hs ha.1
    obtain ⟨out₁, inn₁, h₁, -⟩ := h.step hstep hprev hpace hg
    obtain ⟨hout, hin, -⟩ := hstep.due hloop hdue
    have hle := h₁.out_le
    have hle' := h₁.in_le
    have hsoon := h₁.soon_out
    have hsoon' := h₁.soon_in
    rw [if_pos hloop] at hsoon hsoon'
    have heq : out₁ = e.1 := stamp_inj (h₁.lastOut_eq.symm.trans hout) (by omega) (by omega)
    have heq' : inn₁ = e.1 := stamp_inj (h₁.lastIn_eq.symm.trans hin) (by omega) (by omega)
    obtain ⟨out₂, inn₂, -, h₂, -, hmore, hmore', -⟩ := run_timely hg h₁
      (always_iff.mpr ⟨ha.1, ha.2⟩) (fun f hf => hat f (List.mem_cons_of_mem e hf)) hp
    exact ⟨out₂, inn₂, h₂, heq ▸ hmore, heq' ▸ hmore'⟩
  | cons f ts₁ ih =>
    obtain ⟨hs, ha⟩ := always_iff.mp hc
    obtain ⟨hprev, hpace, hp⟩ := hp
    obtain ⟨new, hstep⟩ := step_stepped replies (hat f (by simp)) hs ha.1
    obtain ⟨out₁, inn₁, h₁, -⟩ := h.step hstep hprev hpace hg
    exact ih h₁ (always_iff.mpr ⟨ha.1, ha.2⟩)
      (fun k hk => hat k (List.mem_cons_of_mem f hk)) hp hdue

end Runs

section Client
variable (replies : CString → List UInt8 → List Message)

/-- The client `l` has just been connected, by a call that began at `t₀` and returned at `t₁`,
with the answer of the broker. -/
structure Opened (buffer : Memory) (t₀ t₁ : ℕ) (l : Link) : Prop where
  reached : ∃ fs l₀ a reply, run (Link.step replies) (some (.initial buffer)) fs = some l₀ ∧
    l₀.isOpen = false ∧
    l₀.react replies (.connect a true reply (stamp t₀) (stamp t₁)) = .ok l
  isOpen : l.isOpen
  le : t₀ ≤ t₁
  soon : t₁ ≤ t₀ + period

/-- Events with times lead from `l` to `l'`, and the connection stays open. -/
structure Stretch (g last prev : ℕ) (ts : List (ℕ × Event)) (l l' : Link) : Prop where
  run_eq : run (Link.step replies) (some l) (ts.map Prod.snd) = some l'
  isOpen : Always (Link.step replies) (fun l => l.any Link.isOpen) (some l) (ts.map Prod.snd)
  timed : ∀ e ∈ ts, e.2.At e.1
  paced : Paced Event.isLoop g last prev ts

variable {replies}

theorem connect_times {s : Session} {a : ConnectArgs} {reply : List ControlPacket}
    {now later : UInt32} (hc : s.connected = false)
    (hc' : (s.connect a true reply now later).connected) :
    (s.connect a true reply now later).lastOut = now ∧
      (s.connect a true reply now later).lastIn = later ∧
      (s.connect a true reply now later).pingOutstanding = false ∧
      (s.connect a true reply now later).keepAlive = s.keepAlive := by
  rw [Session.connect, if_neg (by simp [hc])] at hc' ⊢
  dsimp only at hc' ⊢
  unfold Session.answered at hc' ⊢
  split_ifs at hc' ⊢ with hbody
  · cases reply with
    | nil => simp [hc] at hc'
    | cons p queue =>
      dsimp only at hc' ⊢
      split_ifs at hc' ⊢
      · exact ⟨rfl, rfl, rfl, rfl⟩
      · simp [hc] at hc'
  · simp [hc] at hc'

theorem Opened.start {buffer : Memory} {t₀ t₁ : ℕ} {l : Link}
    (h : Opened replies buffer t₀ t₁ l) (g : ℕ) :
    ∃ s, Follows l s ∧ s.connected ∧ s.pingOutstanding = false ∧ Timely g t₁ t₁ t₀ t₁ s := by
  obtain ⟨⟨fs, l₀, a, reply, hreach, hclosed, hconn⟩, hopen, hle, hsoon⟩ := h
  have hl₀ := follows_of_run replies (initial_follows buffer) hreach
  have horderly : Session.Orderly (fun _ => True) (run (Session.step replies) .initial fs) :=
    Session.run_orderly replies fun e _ => by cases e <;> trivial
  have hkeep := horderly.keepAlive_eq
  generalize run (Session.step replies) .initial fs = s at hl₀ hkeep
  obtain ⟨l', hreact, hl⟩ := react_follows replies hl₀
    (e := .connect a true reply (stamp t₀) (stamp t₁)) not_false
  obtain rfl := Except.ok.inj (hconn.symm.trans hreact)
  have hc' : (s.connect a true reply (stamp t₀) (stamp t₁)).connected :=
    hl.isOpen_eq.symm.trans hopen
  obtain ⟨hout, hin, hping, hkeep'⟩ := connect_times (hl₀.isOpen_eq.symm.trans hclosed) hc'
  exact ⟨_, hl, hc', hping, hkeep'.trans hkeep, hout, hin, hle, le_rfl, Nat.le_add_right t₁ g,
    hsoon, Nat.le_add_right t₁ period⟩

theorem Stretch.follows {g last prev : ℕ} {ts : List (ℕ × Event)} {l l' : Link}
    (h : Stretch replies g last prev ts l l') {s : Session} (hl : Follows l s) :
    Follows l' (run (Session.step replies) s (ts.map Prod.snd)) ∧
      Always (Session.step replies) (fun s => s.connected) s (ts.map Prod.snd) :=
  ⟨follows_of_run replies hl h.run_eq, always_connected replies hl h.isOpen⟩

/-- A new client that the broker accepts. -/
theorem exists_opened (a : ConnectArgs) (reply : List ControlPacket) (t₀ t₁ : ℕ) (hle : t₀ ≤ t₁)
    (hsoon : t₁ ≤ t₀ + period)
    (hc : (Session.initial.connect a true reply (stamp t₀) (stamp t₁)).connected) :
    ∃ l, Opened replies (.zero bufferSize) t₀ t₁ l ∧
      Follows l (Session.initial.connect a true reply (stamp t₀) (stamp t₁)) := by
  obtain ⟨l, hreact, hl⟩ := react_follows replies (initial_follows (.zero bufferSize))
    (e := .connect a true reply (stamp t₀) (stamp t₁)) not_false
  exact ⟨l, ⟨⟨[], _, a, reply, rfl, rfl, hreact⟩, hl.isOpen_eq.trans hc, hle, hsoon⟩, hl⟩

theorem opened_greeting : ∃ l, Opened noReplies (.zero bufferSize) 0 1 l ∧
    Follows l (run (Session.step noReplies) .initial greeting) :=
  exists_opened (.ofLogin (.ofBytes [1]) (.ofBytes [2]) (.ofBytes [3])) [.connack false 0] 0 1
    (by decide) (by decide) (by decide)

/-- Events without subscriptions that keep a session. -/
theorem exists_stretch {l : Link} {s : Session} (hl : Follows l s) {g last prev : ℕ}
    {ts : List (ℕ × Event)}
    (hquiet : ∀ e ∈ ts.map Prod.snd, ∀ topic qos now, e ≠ .subscribe topic qos now)
    (hc : Always (Session.step replies) (fun s => s.connected) s (ts.map Prod.snd))
    (hat : ∀ e ∈ ts, e.2.At e.1) (hp : Paced Event.isLoop g last prev ts) :
    ∃ l', Stretch replies g last prev ts l l' ∧
      Follows l' (run (Session.step replies) s (ts.map Prod.snd)) := by
  obtain ⟨l', hrun, hl'⟩ := run_follows replies hl (quiet_along hquiet)
  exact ⟨l', ⟨hrun, always_open replies hl (quiet_along hquiet) hc, hat, hp⟩, hl'⟩

variable {buffer : Memory} {g t₀ t₁ : ℕ} {l₀ l l' : Link} {ts us : List (ℕ × Event)}

/-- A connected client is never silent for longer than its keep-alive time and one round of its
main loop. -/
theorem run_silence (h₀ : Opened replies buffer t₀ t₁ l₀) (hg : period + g < 2 ^ 32)
    (h : Stretch replies g t₁ t₁ ts l₀ l)
    (h' : Stretch replies g (lastBeat Event.isLoop t₁ ts) (finish t₁ ts) us l l')
    (hsilent : l'.sent = l.sent) :
    finish t₁ (ts ++ us) ≤ finish t₁ ts + (period + g) := by
  obtain ⟨s₀, hl₀, -, -, htimely₀⟩ := h₀.start g
  obtain ⟨hl, hc⟩ := h.follows hl₀
  obtain ⟨hl', hc'⟩ := h'.follows hl
  obtain ⟨out, inn, -, htimely, -⟩ := run_timely hg htimely₀ hc h.timed h.paced
  obtain ⟨out', inn', new, htimely', hsent, -, -, hsame⟩ :=
    run_timely hg htimely hc' h'.timed h'.paced
  have hnew : new = [] := by
    have hbytes := hl'.sent_eq.symm.trans (hsilent.trans hl.sent_eq)
    rw [hsent, List.flatMap_append, List.append_right_eq_self] at hbytes
    cases new with
    | nil => rfl
    | cons p new =>
      rw [List.flatMap_cons, packet_encode] at hbytes
      cases hbytes
  have hout := htimely.out_le
  have hpaced := htimely'.paced
  have hsoon := htimely'.soon_out
  rw [hsame hnew] at hsoon
  rw [finish_append]
  omega

/-- The counter wraps around soon. -/
def lateGreeting : Event :=
  .connect (.ofLogin (.ofBytes [1]) (.ofBytes [2]) (.ofBytes [3])) true [.connack false 0]
    (stamp 4294940000) (stamp 4294940000)

theorem opened_late : ∃ l, Opened noReplies (.zero bufferSize) 4294940000 4294940000 l ∧
    Follows l (run (Session.step noReplies) .initial [lateGreeting]) :=
  exists_opened (.ofLogin (.ofBytes [1]) (.ofBytes [2]) (.ofBytes [3])) [.connack false 0]
    4294940000 4294940000 le_rfl (by decide) (by decide)

/-- A PINGREQ goes out, the counter wraps around, and the answer is read just in time. -/
def ping : List (ℕ × Event) := [(4294955001, .loop (stamp 4294955001))]

def pong : List (ℕ × Event) :=
  [(4294955002, .arrive .pingresp), (4294970001, .loop (stamp 4294970001)),
    (4294986001, .arrive .pingresp)]

/-- The stretch lasts as long as one can. -/
theorem run_silence_pong : ∃ l₀ l l',
    Opened noReplies (.zero bufferSize) 4294940000 4294940000 l₀ ∧
    Stretch noReplies 16000 4294940000 4294940000 ping l₀ l ∧
    Stretch noReplies 16000 4294955001 4294955001 pong l l' ∧
    finish 4294940000 (ping ++ pong) ≤ 4294955001 + (period + 16000) ∧
    finish 4294940000 (ping ++ pong) = 4294955001 + (period + 16000) := by
  obtain ⟨l₀, h₀, hl₀⟩ := opened_late
  have hc : Always (Session.step noReplies) (fun s => s.connected)
      (run (Session.step noReplies) .initial [lateGreeting]) (ping.map Prod.snd) :=
    always_iff.mpr ⟨by decide, by decide, trivial⟩
  obtain ⟨l, h, hl⟩ := exists_stretch hl₀ (by simp [ping]) hc (by simp [ping, Event.At])
    (show Paced Event.isLoop 16000 4294940000 4294940000 ping from ⟨by decide, by decide, trivial⟩)
  have hc' : Always (Session.step noReplies) (fun s => s.connected)
      (run (Session.step noReplies) (run (Session.step noReplies) .initial [lateGreeting])
        (ping.map Prod.snd)) (pong.map Prod.snd) :=
    always_iff.mpr ⟨by decide, by decide, by decide, by decide, trivial⟩
  obtain ⟨l', h', hl'⟩ := exists_stretch hl (by simp [pong]) hc' (by simp [pong, Event.At])
    (show Paced Event.isLoop 16000 4294955001 4294955001 pong from
      ⟨by decide, by decide, by decide, by decide, by decide, by decide, trivial⟩)
  have hsilent : l'.sent = l.sent := hl'.sent_eq.trans hl.sent_eq.symm
  exact ⟨l₀, l, l', h₀, h, h', run_silence h₀ (by decide) h h' hsilent, rfl⟩

/-- When nothing more arrives from the broker, and nothing waits to be read, the client gives up
the connection within two keep-alive times and two rounds of its main loop. -/
theorem run_deaf (h₀ : Opened replies buffer t₀ t₁ l₀) (hg : period + g < 2 ^ 32)
    (h : Stretch replies g t₁ t₁ ts l₀ l) (hinput : l.input = [])
    (h' : Stretch replies g (lastBeat Event.isLoop t₁ ts) (finish t₁ ts) us l l')
    (hsilent : ∀ e ∈ us, e.2.arrived = []) :
    finish t₁ (ts ++ us) ≤ finish t₁ ts + 2 * (period + g) := by
  obtain ⟨s₀, hl₀, -, -, htimely₀⟩ := h₀.start g
  obtain ⟨hl, hc⟩ := h.follows hl₀
  obtain ⟨-, hc'⟩ := h'.follows hl
  obtain ⟨out, inn, -, htimely, -⟩ := run_timely hg htimely₀ hc h.timed h.paced
  have hin := htimely.in_le
  rw [finish_append]
  exact run_silent hg htimely (queue_nil hl hinput) (hin.trans (Nat.le_add_right _ _)) hc'
    h'.timed h'.paced hsilent

/-- The broker falls silent. One PINGREQ goes out, and the connection lasts as long as one can. -/
def unheard : List (ℕ × Event) :=
  [(4294955000, .loop (stamp 4294955000)), (4294971000, .loop (stamp 4294971000)),
    (4294986000, .loop (stamp 4294986000)),
    (4295002000, .publish ⟨.lit "esp32/status", [66], false⟩ (stamp 4295002000))]

theorem run_deaf_unheard : ∃ l l',
    Opened noReplies (.zero bufferSize) 4294940000 4294940000 l ∧
    Stretch noReplies 16000 4294940000 4294940000 unheard l l' ∧
    finish 4294940000 ([] ++ unheard) ≤ 4294940000 + 2 * (period + 16000) ∧
    finish 4294940000 ([] ++ unheard) = 4294940000 + 2 * (period + 16000) := by
  obtain ⟨l, h₀, hl⟩ := opened_late
  have hnone : Stretch noReplies 16000 4294940000 4294940000 [] l l :=
    ⟨rfl, always_iff.mpr ⟨h₀.isOpen, trivial⟩, by simp, trivial⟩
  have hc : Always (Session.step noReplies) (fun s => s.connected)
      (run (Session.step noReplies) .initial [lateGreeting]) (unheard.map Prod.snd) :=
    always_iff.mpr ⟨by decide, by decide, by decide, by decide, by decide, trivial⟩
  obtain ⟨l', h', -⟩ := exists_stretch hl (by simp [unheard]) hc (by simp [unheard, Event.At])
    (show Paced Event.isLoop 16000 4294940000 4294940000 unheard from
      ⟨by decide, by decide, by decide, by decide, by decide, by decide, by decide, by decide,
        trivial⟩)
  exact ⟨l, l', h₀, h', run_deaf h₀ (by decide) hnone hl.input_eq h'
    (by simp [unheard, Event.arrived]), rfl⟩

/-- A `loop()` gives up the connection only if a PINGREQ was sent more than a keep-alive time
ago, and no PINGRESP is among the packets that were read since, from the `loop()` on that has sent
it. -/
theorem run_unanswered {t : ℕ} {b : Bool} (h₀ : Opened replies buffer t₀ t₁ l₀)
    (hg : period + g < 2 ^ 32) (h : Stretch replies g t₁ t₁ ts l₀ l)
    (hprev : finish t₁ ts ≤ t) (hpace : t ≤ lastBeat Event.isLoop t₁ ts + g)
    (hloop : l.loop replies (stamp t) = .ok (b, l')) (hclosed : l'.isOpen = false) :
    ∃ ts₁ e ts₂ l₁ l₂, ∃ new read waiting waiting' taken : List ControlPacket,
      ts = ts₁ ++ e :: ts₂ ∧ e.1 + period < t ∧
      run (Link.step replies) (some l₀) (ts₁.map Prod.snd) = some l₁ ∧
      l₁.react replies e.2 = .ok l₂ ∧
      l₂.sent = l₁.sent ++ new.flatMap packet.encode ∧ .pingreq ∈ new ∧
      l₁.input = (read ++ waiting).flatMap packet.encode ∧
      l₂.input = waiting.flatMap packet.encode ∧ l.input = waiting'.flatMap packet.encode ∧
      waiting ++ (ts₂.map Prod.snd).flatMap Event.arrived = taken ++ waiting' ∧
      .pingresp ∉ read ++ taken := by
  obtain ⟨s₀, hl₀, -, hping₀, htimely₀⟩ := h₀.start g
  obtain ⟨hl, hc⟩ := h.follows hl₀
  have hs := hc _ [] (List.append_nil _).symm
  -- the client closes the connection because a PINGREQ is open when the next one is due
  obtain ⟨b', l'', hloop', hl'⟩ := hl.loop replies (stamp t)
  obtain ⟨-, rfl⟩ := Prod.mk.inj (Except.ok.inj (hloop.symm.trans hloop'))
  have hgone := hl'.isOpen_eq.symm.trans hclosed
  obtain ⟨-, hdue, hping⟩ | ⟨new, lastOut, lastIn, ping, hstays, -⟩ :=
    Session.loop_eq _ replies hs (stamp t)
  swap
  · rw [hstays, hs] at hgone
    cases hgone
  rcases run_pinged hg htimely₀ hc h.timed h.paced hping with
    ⟨hopen, -⟩ | ⟨ts₁, e, ts₂, new, rfl, hpoll, hstep, hdue₁, hnone⟩
  · rw [hping₀] at hopen
    cases hopen
  obtain ⟨out, inn, htimely, hout, hin⟩ :=
    run_due hg htimely₀ hc h.timed h.paced hpoll hdue₁
  have hlate := (htimely.isDue_iff hprev hpace hg).mp hdue
  obtain ⟨l₁, l₂, hrun₁, hreact, hrun₂⟩ := run_split replies
    (show run _ _ (ts₁.map Prod.snd ++ e.2 :: ts₂.map Prod.snd) = some l by
      rw [← List.map_cons, ← List.map_append]; exact h.run_eq)
  have hl₁ := follows_of_run replies hl₀ hrun₁
  have hl₂ := follows_of_run replies hl₀
    (show run _ _ ((ts₁ ++ [e]).map Prod.snd) = some l₂ by
      rw [List.map_append, run_append, hrun₁]
      exact (congrArg Except.toOption hreact))
  have hc₂ : Always (Session.step replies) (fun s => s.connected)
      (run (Session.step replies) s₀ ((ts₁ ++ [e]).map Prod.snd)) (ts₂.map Prod.snd) := by
    intro fs gs hsplit
    rw [← run_append]
    refine hc _ gs ?_
    rw [List.append_assoc, ← hsplit]
    simp
  obtain ⟨more, hhandles, -⟩ := Session.run_handles replies hc₂
  have hs₁ := hc (ts₁.map Prod.snd) ((e :: ts₂).map Prod.snd) (by rw [List.map_append])
  have hs₂ := hc₂ [] (ts₂.map Prod.snd) rfl
  rw [List.map_append, run_append] at hs₂
  obtain ⟨more₁, hhandles₁⟩ := Session.step_handles replies hs₁ hs₂
  have harrived := arrived_of_isLoop hpoll
  have hread : (run (Session.step replies) s₀ (ts₁.map Prod.snd)).queue =
      (run (Session.step replies) s₀ (ts₁.map Prod.snd)).taken e.2 ++
        (run (Session.step replies) s₀ ((ts₁ ++ [e]).map Prod.snd)).queue := by
    rw [List.map_append, run_append]
    have hqueue := hhandles₁.queue_eq
    rwa [harrived, List.append_nil] at hqueue
  have hend : Follows l (run (Session.step replies)
      (run (Session.step replies) s₀ ((ts₁ ++ [e]).map Prod.snd)) (ts₂.map Prod.snd)) := by
    rw [← run_append, ← List.map_append, List.append_assoc]
    exact hl
  refine ⟨ts₁, e, ts₂, l₁, l₂, new, _, _, _, _, rfl, by omega, hrun₁, hreact, ?_,
    (hstep.due hpoll hdue₁).2.2, hread ▸ hl₁.input_eq, hl₂.input_eq, hend.input_eq,
    hhandles.queue_eq, fun hpong => ?_⟩
  · rw [hl₂.sent_eq, hstep.sent_eq, hl₁.sent_eq, List.flatMap_append]
  · have hfit : Fits .pingresp := by decide
    rw [List.map_append, run_append] at hpong
    exact hnone .pingresp (List.mem_filter.mpr ⟨hpong, by simpa using hfit⟩) rfl

/-- A PINGREQ goes out. -/
def pinging : List (ℕ × Event) := [(15002, .loop (stamp 15002))]

theorem run_unanswered_pinging : ∃ l₀ l l', Opened noReplies (.zero bufferSize) 0 1 l₀ ∧
    Stretch noReplies 16000 1 1 pinging l₀ l ∧
    (∃ b, l.loop noReplies (stamp 30003) = .ok (b, l')) ∧ l'.isOpen = false ∧
    ∃ ts₁ e ts₂ l₁ l₂, ∃ new read waiting waiting' taken : List ControlPacket,
      pinging = ts₁ ++ e :: ts₂ ∧ e.1 + period < 30003 ∧
      run (Link.step noReplies) (some l₀) (ts₁.map Prod.snd) = some l₁ ∧
      l₁.react noReplies e.2 = .ok l₂ ∧
      l₂.sent = l₁.sent ++ new.flatMap packet.encode ∧ .pingreq ∈ new ∧
      l₁.input = (read ++ waiting).flatMap packet.encode ∧
      l₂.input = waiting.flatMap packet.encode ∧ l.input = waiting'.flatMap packet.encode ∧
      waiting ++ (ts₂.map Prod.snd).flatMap Event.arrived = taken ++ waiting' ∧
      .pingresp ∉ read ++ taken := by
  obtain ⟨l₀, h₀, hl₀⟩ := opened_greeting
  have hpaced : Paced Event.isLoop 16000 1 1 pinging := ⟨by decide, by decide, trivial⟩
  have hc : Always (Session.step noReplies) (fun s => s.connected)
      (run (Session.step noReplies) .initial greeting) (pinging.map Prod.snd) :=
    always_iff.mpr ⟨by decide, by decide, trivial⟩
  obtain ⟨l, h, hl⟩ := exists_stretch hl₀ (by simp [pinging]) hc (by simp [pinging, Event.At])
    hpaced
  obtain ⟨b, l', hloop, hl'⟩ := hl.loop noReplies (stamp 30003)
  have hclosed : l'.isOpen = false := hl'.isOpen_eq.trans (by decide)
  exact ⟨l₀, l, l', h₀, h, ⟨b, hloop⟩, hclosed,
    run_unanswered h₀ (by decide) h (by decide) (by decide) hloop hclosed⟩

end Client

end Esp32Automation.MqttClient
