import Esp32Automation.ApWifi
import Esp32Automation.Hotspot
import Esp32Automation.While
import Esp32Automation.WifiServer

/-!
# One iteration of `loop()`

Behind the MQTT client every iteration serves HTTP and looks at the reset pin. In front of
it stands `reconnectMQTT`, which tries until it is connected. Two of the sketches ask for
Wi-Fi first, the third does not. The network is what the sketches see of it: whether Wi-Fi
and the client are connected, and what each `mqttClient.connect` still to come will do.
Callbacks return here; one that restarts the board ends the iteration in its own way.
-/
namespace Esp32Automation
open Preferences While

/-- What the calls of `loop()` that matter for its progress are, in the order made. -/
inductive Call where
  | connect (c : ConnectCall)
  | subscribe (topic : String)
  | delay (ms : ℕ)
  | mqttLoop
  | handleClient
  | handleReset
  deriving DecidableEq

def Call.isConnect : Call → Bool
  | connect _ => true
  | _ => false

/-- What `mqttClient.connect` does: the value it returns, and whether the client is
connected when the condition of the loop is tested next. -/
structure Outcome where
  returned : Bool
  connected : Bool

structure Network where
  /-- `WiFi.status() == WL_CONNECTED`. -/
  wifiConnected : Bool
  /-- `mqttClient.connected()`. -/
  mqttConnected : Bool
  /-- The attempts still to come. -/
  outcomes : ℕ → Outcome
  /-- The calls made so far. -/
  calls : List Call

namespace Network

def call (c : Call) (n : Network) : Network := { n with calls := n.calls ++ [c] }

/-- The number of attempts made so far. -/
def connects (n : Network) : ℕ := n.calls.countP Call.isConnect

/-- The body of the loop in `reconnectMQTT`. -/
def attempt (c : ConnectCall) (n : Network) : Network :=
  let outcome := n.outcomes 0
  let n := { n.call (.connect c) with
    mqttConnected := outcome.connected
    outcomes := fun i => n.outcomes (i + 1) }
  if outcome.returned then (n.call (.subscribe "esp32/command")).call (.subscribe "esp32/config")
  else n.call (.delay 5000)

/-- `while (!mqttClient.connected())` in `reconnectMQTT`. -/
def reconnectMQTT (c : ConnectCall) (fuel : ℕ) (n : Network) : Option Network :=
  whileLoop (fun n => !n.mqttConnected) (attempt c) fuel n

/-- `if (!mqttClient.connected()) reconnectMQTT(); mqttClient.loop();` -/
def serveMQTT (c : ConnectCall) (fuel : ℕ) (n : Network) : Option Network :=
  (if !n.mqttConnected then reconnectMQTT c fuel n else some n).map (call .mqttLoop)

/-- `loop()`: the MQTT client is served if `guard` says so, HTTP and the pin always. -/
def loop (guard : Bool) (c : ConnectCall) (fuel : ℕ) (n : Network) : Option Network :=
  (if guard then serveMQTT c fuel n else some n).map fun n =>
    (n.call .handleClient).call .handleReset

/-- Is the client connected when `k` attempts have been made? -/
def connectedAfter (n : Network) : ℕ → Bool
  | 0 => n.mqttConnected
  | k + 1 => (n.outcomes k).connected

/-- The client is connected after `k` attempts, and was not after fewer. -/
structure FirstConnected (n : Network) (k : ℕ) : Prop where
  connected : n.connectedAfter k = true
  first : ∀ i < k, n.connectedAfter i = false

/-- An iteration that runs to its end: it makes `k` attempts and then serves HTTP and looks
at the reset pin. -/
def Reaches (iteration : ℕ → Network → Option Network) (n : Network) (k : ℕ) : Prop :=
  ∃ fuel n', iteration fuel n = some n' ∧ n'.connects = n.connects + k ∧
    [.handleClient, .handleReset] <:+ n'.calls

end Network

/-- `loop()` of ap_wifi_plus_mqtt_connection_after_config. -/
def ApWifi.loop {P : Type} (d : ApWifi.Device P) (fuel : ℕ) (n : Network) : Option Network :=
  n.loop n.wifiConnected (ApWifi.reconnectMQTT d) fuel

/-- `loop()` of esp32_wifi_server_with_mqtt_remote_on_off; the state of the connections is
the one of the network. -/
def WifiServer.loop {P : Type} [Preferences P] (d : WifiServer.Device P) (fuel : ℕ)
    (n : Network) : Option Network :=
  n.loop n.wifiConnected (WifiServer.reconnectMQTT d.preferences).1 fuel

/-- `loop()` of esp32_hotspot_mqtt_remote_on_off. -/
def Hotspot.loop {P : Type} (d : Hotspot.Device P) (fuel : ℕ) (n : Network) : Option Network :=
  n.loop true (Hotspot.reconnectMQTT d) fuel

namespace Network

@[simp] theorem connects_call (c : Call) (n : Network) :
    (n.call c).connects = n.connects + if c.isConnect then 1 else 0 := by
  simp [connects, call, List.countP_append, List.countP_singleton]

@[simp] theorem call_calls (c : Call) (n : Network) : (n.call c).calls = n.calls ++ [c] := rfl

/-- An attempt is one call of `connect`, and uses up one outcome. -/
theorem attempt_connects (c : ConnectCall) (n : Network) :
    (n.attempt c).connects = n.connects + 1 := by
  unfold attempt
  dsimp only
  split_ifs
  · simp [connects, call, List.countP_cons, Call.isConnect]
  · simp [connects, call, List.countP_cons, Call.isConnect]

theorem attempt_connectedAfter (c : ConnectCall) (n : Network) (k : ℕ) :
    (n.attempt c).connectedAfter k = n.connectedAfter (k + 1) := by
  unfold attempt
  dsimp only
  split_ifs
  · cases k <;> rfl
  · cases k <;> rfl

/-- After `k` attempts. -/
theorem iterate_attempt (c : ConnectCall) (k : ℕ) (n : Network) :
    ((attempt c)^[k] n).connects = n.connects + k ∧
      ((attempt c)^[k] n).mqttConnected = n.connectedAfter k := by
  induction k generalizing n with
  | zero => exact ⟨rfl, rfl⟩
  | succ k ih =>
    obtain ⟨hc, hm⟩ := ih (n.attempt c)
    rw [Function.iterate_succ_apply]
    refine ⟨?_, ?_⟩
    · rw [hc, attempt_connects]
      omega
    · rw [hm, attempt_connectedAfter]

/-- The loop of `reconnectMQTT` leaves at the first test that finds the client connected. -/
theorem exitsAfter_iff (c : ConnectCall) (n : Network) (k : ℕ) :
    ExitsAfter (fun n : Network => !n.mqttConnected) (attempt c) n k ↔ n.FirstConnected k := by
  constructor
  · intro h
    refine ⟨?_, fun i hi => ?_⟩
    · have hl := h.leaves
      rwa [(iterate_attempt c k n).2, Bool.not_eq_false'] at hl
    · have he := h.enters i hi
      rwa [(iterate_attempt c i n).2, Bool.not_eq_true'] at he
  · intro h
    refine ⟨fun i hi => ?_, ?_⟩
    · rw [(iterate_attempt c i n).2, h.first i hi]
      rfl
    · rw [(iterate_attempt c k n).2, h.connected]
      rfl

/-- `if (!mqttClient.connected()) reconnectMQTT();` comes through exactly when the client
gets connected. The test in front is the first test of the loop. -/
theorem reconnectMQTT_iff (c : ConnectCall) (n m : Network) :
    (∃ fuel, (if !n.mqttConnected then reconnectMQTT c fuel n else some n) = some m) ↔
      ∃ k, n.FirstConnected k ∧ (attempt c)^[k] n = m := by
  have hloop : (∃ fuel, reconnectMQTT c fuel n = some m) ↔
      ∃ k, n.FirstConnected k ∧ (attempt c)^[k] n = m := by
    simp only [reconnectMQTT, exists_whileLoop_iff, exitsAfter_iff]
  rw [← hloop]
  cases hm : n.mqttConnected with
  | false => rfl
  | true =>
    have hone : ∀ fuel, reconnectMQTT c (fuel + 1) n = some n := fun fuel => by
      simp [reconnectMQTT, whileLoop, hm]
    constructor
    · rintro ⟨_, h⟩
      exact ⟨1, (hone 0).trans h⟩
    · rintro ⟨fuel, h⟩
      cases fuel with
      | zero => cases h
      | succ fuel => exact ⟨0, (hone fuel).symm.trans h⟩

/-- Without its MQTT part the iteration is over at once. -/
theorem reaches_unguarded (c : ConnectCall) (n : Network) (k : ℕ) :
    Reaches (fun fuel n => n.loop false c fuel) n k ↔ k = 0 := by
  constructor
  · rintro ⟨fuel, n', hn, hk, -⟩
    obtain rfl := Option.some.inj hn
    simpa [Call.isConnect, eq_comm] using hk
  · rintro rfl
    exact ⟨0, _, rfl, by simp [Call.isConnect], n.calls, by simp⟩

/-- With it the iteration ends exactly when the client gets connected, with one call of
`connect` for each attempt up to the first that leaves it connected. -/
theorem reaches_guarded (c : ConnectCall) (n : Network) (k : ℕ) :
    Reaches (fun fuel n => n.loop true c fuel) n k ↔ n.FirstConnected k := by
  constructor
  · rintro ⟨fuel, n', hn, hk, -⟩
    obtain ⟨m', hm', rfl⟩ := Option.map_eq_some_iff.mp hn
    obtain ⟨m, hm, rfl⟩ := Option.map_eq_some_iff.mp hm'
    obtain ⟨j, hj, rfl⟩ := (reconnectMQTT_iff c n m).mp ⟨fuel, hm⟩
    obtain rfl : j = k := by
      simpa [Call.isConnect, (iterate_attempt c j n).1] using hk
    exact hj
  · intro hk
    obtain ⟨fuel, hm⟩ := (reconnectMQTT_iff c n _).mpr ⟨k, hk, rfl⟩
    have hloop : n.loop true c fuel =
        some (((((attempt c)^[k] n).call .mqttLoop).call .handleClient).call .handleReset) := by
      simp only [loop, serveMQTT, if_true, hm, Option.map_some]
    refine ⟨fuel, _, hloop, ?_, ?_⟩
    · simp [Call.isConnect, (iterate_attempt c k n).1]
    · exact ⟨((attempt c)^[k] n).calls ++ [.mqttLoop], by simp⟩

end Network

section Loops
open Network
variable {P : Type} [Preferences P]

/-- Without Wi-Fi the two sketches that ask for it reach HTTP and the reset pin at once. With
Wi-Fi all three reach them exactly when the client is connected or some attempt leaves it
connected, and make exactly the attempts up to that one. -/
theorem loop_reaches_iff (a : ApWifi.Device P) (w : WifiServer.Device P) (h : Hotspot.Device P)
    (n : Network) (k : ℕ) :
    (Reaches (ApWifi.loop a) n k ↔ if n.wifiConnected then n.FirstConnected k else k = 0) ∧
      (Reaches (WifiServer.loop w) n k ↔
        if n.wifiConnected then n.FirstConnected k else k = 0) ∧
      (n.wifiConnected → (Reaches (Hotspot.loop h) n k ↔ n.FirstConnected k)) := by
  have hguard : ∀ c : ConnectCall, Reaches (fun fuel n => n.loop n.wifiConnected c fuel) n k ↔
      if n.wifiConnected then n.FirstConnected k else k = 0 := by
    intro c
    have hsame : Reaches (fun fuel n => n.loop n.wifiConnected c fuel) n k ↔
        Reaches (fun fuel m => m.loop n.wifiConnected c fuel) n k := Iff.rfl
    rw [hsame]
    cases n.wifiConnected with
    | true => exact reaches_guarded c n k
    | false => exact reaches_unguarded c n k
  exact ⟨hguard _, hguard _, fun _ => reaches_guarded _ n k⟩

/-- Wi-Fi is up and the broker answers the third attempt. -/
def thirdAttempt : Network := ⟨true, false, fun i => ⟨i = 2, i = 2⟩, []⟩

theorem loop_reaches_third_attempt :
    Reaches (Hotspot.loop (Hotspot.boot fun _ => none : Hotspot.Device FlashObject))
      thirdAttempt 3 :=
  ((loop_reaches_iff (ApWifi.boot fun _ => none) (WifiServer.boot fun _ => none)
    (Hotspot.boot fun _ => none) thirdAttempt 3).2.2 rfl).mpr ⟨by decide, by decide⟩

/-- Wi-Fi is up and the broker never answers. -/
def unreachable : Network := ⟨true, false, fun _ => ⟨false, false⟩, []⟩

theorem unreachable_not_firstConnected (k : ℕ) : ¬ unreachable.FirstConnected k := by
  intro h
  have hc := h.connected
  cases k <;> simp [unreachable, connectedAfter] at hc

/-- With such a broker none of the three gets to the reset pin, after any number of
attempts. -/
theorem owner_locked_out :
    (¬ ∃ N, ∀ (d : ApWifi.Device FlashObject) n, ∃ k ≤ N, Reaches (ApWifi.loop d) n k) ∧
      (¬ ∃ N, ∀ (d : WifiServer.Device FlashObject) n,
        ∃ k ≤ N, Reaches (WifiServer.loop d) n k) ∧
      ¬ ∃ N, ∀ (d : Hotspot.Device FlashObject) n, ∃ k ≤ N, Reaches (Hotspot.loop d) n k := by
  refine ⟨?_, ?_, ?_⟩
  · rintro ⟨N, h⟩
    obtain ⟨k, -, hk⟩ := h (ApWifi.boot fun _ => none) unreachable
    exact unreachable_not_firstConnected k ((reaches_guarded _ unreachable k).mp hk)
  · rintro ⟨N, h⟩
    obtain ⟨k, -, hk⟩ := h (WifiServer.boot fun _ => none) unreachable
    exact unreachable_not_firstConnected k ((reaches_guarded _ unreachable k).mp hk)
  · rintro ⟨N, h⟩
    obtain ⟨k, -, hk⟩ := h (Hotspot.boot fun _ => none) unreachable
    exact unreachable_not_firstConnected k ((reaches_guarded _ unreachable k).mp hk)

end Loops
end Esp32Automation
