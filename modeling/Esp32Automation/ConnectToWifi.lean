import Mathlib.Data.Nat.Find
import Mathlib.Tactic.Common

/-!
# Waiting for Wi-Fi in ap_wifi_plus_mqtt_connection_after_config

`connectToWiFi` polls a driver that changes on its own, so every call of `WiFi.status()` and
of `millis()` is a reading of its own. The status is read at the head of the loop, once more in
its body and once behind it. `delay(500)` shows in the readings of the clock only.
-/
namespace Esp32Automation.ApWifi

/-- `wl_status_t`. -/
inductive WlStatus where
  | noShield
  | stopped
  | idleStatus
  | noSsidAvail
  | scanCompleted
  | connected
  | connectFailed
  | connectionLost
  | disconnected
  deriving DecidableEq

/-- What the successive calls of `WiFi.status()` and of `millis()` return. -/
structure Readings where
  status : ℕ → WlStatus
  millis : ℕ → UInt32

/-- How `connectToWiFi` returns. -/
structure Waited where
  attempts : ℕ
  /-- `setupWiFiAP` has been called. -/
  accessPoint : Bool
  /-- The last status that was read. -/
  last : WlStatus
  deriving DecidableEq

/-- The loop of `connectToWiFi` and what follows it, when `reads` statuses and `ticks` times
have been read; `none` when the fuel is spent. -/
def waitForWiFi (r : Readings) (timeout : UInt32) : ℕ → ℕ → ℕ → ℕ → Option Waited
  | 0, _, _, _ => none
  | fuel + 1, reads, ticks, attempts =>
    if r.status reads ≠ .connected ∧ r.millis ticks < timeout then
      let attempts := attempts + 1
      let status := r.status (reads + 1)
      if status = .disconnected ∧ attempts ≥ 20 then some ⟨attempts, true, status⟩
      else if attempts ≥ 20 then some ⟨attempts, true, status⟩
      else waitForWiFi r timeout fuel (reads + 2) (ticks + 1) attempts
    else
      let status := r.status (reads + 1)
      some ⟨attempts, status ≠ .connected, status⟩

/-- `timeout` in `connectToWiFi`. -/
def Readings.timeout (r : Readings) : UInt32 := r.millis 0 + 20000

/-- `connectToWiFi`. -/
def connectToWiFi (r : Readings) (fuel : ℕ) : Option Waited :=
  waitForWiFi r r.timeout fuel 0 1 0

/-- It returns after at most 20 rounds, and has opened the access point exactly when the last
status it read is not `WL_CONNECTED`. -/
def Settles (r : Readings) : Prop :=
  ∃ w, (∃ enough, ∀ fuel ≥ enough, connectToWiFi r fuel = some w) ∧ w.attempts ≤ 20 ∧
    (w.accessPoint ↔ w.last ≠ .connected)

/-- `delay(500)` moves the clock by at least half a second, and the clock does not wrap during
the wait. -/
structure Readings.Delayed (r : Readings) : Prop where
  started : (r.millis 0).toNat ≤ (r.millis 1).toNat
  delayed : ∀ i < 19, (r.millis (i + 1)).toNat + 500 ≤ (r.millis (i + 2)).toNat
  no_wrap : (r.millis 0).toNat + 20000 < UInt32.size

/-- The test at the head of the loop before round `i` lets it in. -/
def Readings.Enters (r : Readings) (i : ℕ) : Prop :=
  r.status (2 * i) ≠ .connected ∧ r.millis (i + 1) < r.timeout

instance (r : Readings) (i : ℕ) : Decidable (r.Enters i) :=
  inferInstanceAs (Decidable (r.status (2 * i) ≠ .connected ∧ r.millis (i + 1) < r.timeout))

/-- Between two rounds the number of readings goes with the number of attempts. -/
def waitFrom (r : Readings) (fuel attempts : ℕ) : Option Waited :=
  waitForWiFi r r.timeout fuel (2 * attempts) (attempts + 1) attempts

/-- Without a round the status behind the loop decides. -/
theorem waitFrom_leaves {r : Readings} {attempts : ℕ} (h : ¬ r.Enters attempts) (fuel : ℕ) :
    waitFrom r (fuel + 1) attempts =
      some ⟨attempts, r.status (2 * attempts + 1) ≠ .connected, r.status (2 * attempts + 1)⟩ := by
  unfold waitFrom waitForWiFi
  exact if_neg h

/-- A round before the last leads to the next one, whatever status its body reads. -/
theorem waitFrom_round {r : Readings} {attempts : ℕ} (h : r.Enters attempts)
    (hlt : attempts + 1 < 20) (fuel : ℕ) :
    waitFrom r (fuel + 1) attempts = waitFrom r fuel (attempts + 1) := by
  have hmore : ¬ attempts + 1 ≥ 20 := by omega
  unfold waitFrom
  rw [waitForWiFi]
  refine (if_pos h).trans ?_
  simp only [hmore, and_false, if_false]
  rfl

/-- The last round opens the access point, whatever status its body reads. -/
theorem waitFrom_last {r : Readings} (h : r.Enters 19) (fuel : ℕ) :
    waitFrom r (fuel + 1) 19 = some ⟨20, true, r.status 39⟩ := by
  unfold waitFrom
  rw [waitForWiFi]
  refine (if_pos h).trans ?_
  simp

/-- The rounds that the head of the loop lets in lead on to the first that it does not. -/
theorem waitFrom_enters {r : Readings} {n : ℕ} (hn : n < 20) (h : ∀ i < n, r.Enters i)
    (fuel : ℕ) : waitFrom r (fuel + n) 0 = waitFrom r fuel n := by
  induction n generalizing fuel with
  | zero => rfl
  | succ n ih =>
    have hprev : ∀ i < n, r.Enters i := fun i hi => h i (by omega)
    calc waitFrom r (fuel + (n + 1)) 0
        = waitFrom r (fuel + 1 + n) 0 := by rw [show fuel + (n + 1) = fuel + 1 + n by omega]
      _ = waitFrom r (fuel + 1) n := ih (by omega) hprev (fuel + 1)
      _ = waitFrom r fuel (n + 1) := waitFrom_round (h n (by omega)) hn fuel

/-- The way out in front of round `n`, if it is the first that is not entered. -/
theorem connectToWiFi_leaves {r : Readings} {n : ℕ} (hn : n < 20) (h : ∀ i < n, r.Enters i)
    (hleave : ¬ r.Enters n) {fuel : ℕ} (hf : 21 ≤ fuel) :
    connectToWiFi r fuel =
      some ⟨n, r.status (2 * n + 1) ≠ .connected, r.status (2 * n + 1)⟩ := by
  have hfuel : fuel = (fuel - n - 1) + 1 + n := by omega
  have hstart : connectToWiFi r fuel = waitFrom r fuel 0 := rfl
  rw [hstart, hfuel, waitFrom_enters hn h, waitFrom_leaves hleave]

/-- The way out of the body, if every round is entered. -/
theorem connectToWiFi_last {r : Readings} (h : ∀ i < 20, r.Enters i) {fuel : ℕ}
    (hf : 21 ≤ fuel) : connectToWiFi r fuel = some ⟨20, true, r.status 39⟩ := by
  have hfuel : fuel = (fuel - 20) + 1 + 19 := by omega
  have hstart : connectToWiFi r fuel = waitFrom r fuel 0 := rfl
  have hprev : ∀ i < 19, r.Enters i := fun i hi => h i (by omega)
  rw [hstart, hfuel, waitFrom_enters (by omega) hprev, waitFrom_last (h 19 (by omega))]

/-- There is only one way to return. -/
theorem settles_of_returns {r : Readings} {w : Waited}
    (h : ∀ fuel ≥ 21, connectToWiFi r fuel = some w) (hw : w.attempts ≤ 20) :
    Settles r ↔ (w.accessPoint ↔ w.last ≠ .connected) := by
  constructor
  · rintro ⟨w', ⟨enough, hw'⟩, -, hiff⟩
    have hboth := (h (max enough 21) (Nat.le_max_right _ _)).symm.trans
      (hw' (max enough 21) (Nat.le_max_left _ _))
    obtain rfl := Option.some.inj hboth
    exact hiff
  · intro hiff
    exact ⟨w, ⟨21, h⟩, hw, hiff⟩

/-- For all readings of the status and of the clock, whatever the clock does: `connectToWiFi`
returns after at most 20 rounds and has opened the access point exactly when the last status
was not `WL_CONNECTED`, if and only if the head of the loop ends the wait within 20 rounds or the
status read in the body of the last round is not `WL_CONNECTED`. -/
theorem settles_iff (r : Readings) :
    Settles r ↔ (∃ i < 20, ¬ r.Enters i) ∨ r.status 39 ≠ .connected := by
  by_cases hall : ∀ i < 20, r.Enters i
  · have hnone : ¬ ∃ i < 20, ¬ r.Enters i := by
      rintro ⟨i, hi, hleave⟩
      exact hleave (hall i hi)
    rw [settles_of_returns (fun fuel hf => connectToWiFi_last hall hf) le_rfl]
    simp [hnone]
  · have hsome : ∃ i, i < 20 ∧ ¬ r.Enters i := by
      by_contra hno
      exact hall fun i hi => by_contra fun hleave => hno ⟨i, hi, hleave⟩
    let n := Nat.find hsome
    obtain ⟨hn, hleave⟩ := Nat.find_spec hsome
    have hbefore : ∀ i < n, r.Enters i := by
      intro i hi
      have hmin := Nat.find_min hsome hi
      by_contra hno
      exact hmin ⟨by omega, hno⟩
    rw [settles_of_returns (fun fuel hf => connectToWiFi_leaves hn hbefore hleave hf)
      (Nat.le_of_lt hn)]
    simp only [decide_eq_true_eq, true_iff]
    exact .inl hsome

/-- The connection is there when the last round looks, and half a second passes each time. -/
def connectedInLastRound : Readings where
  status reads := if reads = 39 then .connected else .disconnected
  millis ticks := 500 * (UInt32.ofNat ticks)

/-- A device that joins its network in the twentieth half-second opens the access point, on a
clock that goes as it should. -/
theorem access_point_though_connected : ¬ ∀ r : Readings, r.Delayed → Settles r := by
  intro h
  have hdelayed : connectedInLastRound.Delayed :=
    ⟨by decide +kernel, by decide +kernel, by decide +kernel⟩
  obtain ⟨w, ⟨enough, hw⟩, -, hiff⟩ := h connectedInLastRound hdelayed
  have hlast := connectToWiFi_last (r := connectedInLastRound) (by decide +kernel)
    (Nat.le_max_right enough 21)
  rw [hw _ (Nat.le_max_left _ _)] at hlast
  obtain rfl := Option.some.inj hlast
  exact hiff.mp rfl (by decide)

end Esp32Automation.ApWifi
