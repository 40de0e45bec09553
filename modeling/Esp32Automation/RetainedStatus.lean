import Esp32Automation.ConfigFromBlth
import Esp32Automation.JsonSerializer

/-!
# The status of remote_on_off_with_config_from_blth at the broker

`publishStatus` passes the number of bytes of the document as the third argument of
`client.publish`. With a `char` array as the second, that is the overload whose third
argument is the retain flag, so every status is retained by the broker. A restart switches
the pin off and publishes nothing.
-/
namespace Esp32Automation.ConfigFromBlth
open Preferences Run

/-- A call of `client.publish(topic, payload, retained)`. -/
structure PublishCall where
  topic : String
  payload : List UInt8
  retained : Bool
  deriving DecidableEq

/-- `char buffer[96]; size_t n = serializeJson(jsonDoc, buffer);` and the publication. The
payload ends at the terminator, and `n` becomes a `boolean`. -/
def publishCall (p : Publication) : Option PublishCall :=
  (serializeJson p.payload 96).map fun buffer =>
    ⟨p.topic, (CString.ofBytes buffer).bytes, buffer.length ≠ 0⟩

/-- The board and what the broker retains on `esp32/status`. -/
structure System (P : Type) where
  device : Device P
  retained : Option (List UInt8)

/-- The broker keeps the last message on the topic that was sent with the flag. -/
def retain (retained : Option (List UInt8)) (p : Publication) : Option (List UInt8) :=
  match publishCall p with
  | some call =>
    if call.topic = "esp32/status" ∧ call.retained then some call.payload else retained
  | none => retained

/-- The `state` of a status. -/
def stateOf (text : List UInt8) : Option CString :=
  (deserializeJson text).toOption.bind fun doc => doc.charPtr "state"

/-- The text of a status, as `publishStatus` writes it. -/
def statusText (outputPin : Bool) : List UInt8 :=
  ascii (if outputPin then
    "\x7b\"status\":\"success\",\"state\":\"ON\",\"message\":\"GPIO 32 set to HIGH\"\x7d"
  else "\x7b\"status\":\"success\",\"state\":\"OFF\",\"message\":\"GPIO 32 set to LOW\"\x7d")

/-- A status is retained. -/
theorem retain_publishStatus (retained : Option (List UInt8)) (outputPin : Bool) :
    retain retained (publishStatus outputPin) = some (statusText outputPin) := by
  have hcall : publishCall (publishStatus outputPin) =
      some ⟨"esp32/status", statusText outputPin, true⟩ := by
    revert outputPin
    decide +kernel
  rw [retain, hcall]
  rfl

theorem stateOf_statusText (outputPin : Bool) :
    stateOf (statusText outputPin) = some (.lit (if outputPin then "ON" else "OFF")) := by
  revert outputPin
  decide +kernel

variable {P : Type} [ArrayPreferences P]

namespace System

/-- One event at the board, with what it publishes. -/
def step (s : System P) (e : Event) : System P where
  device := ConfigFromBlth.step s.device e
  retained := (react e s.device).published.foldl retain s.retained

/-- What a new subscriber is handed, if anything, is the level of the pin. -/
def Agrees (s : System P) : Prop :=
  ∀ text ∈ s.retained, stateOf text = some (.lit (if s.device.outputPin then "ON" else "OFF"))

end System

/-- The event ends the program: an accepted configuration, or the power. -/
def Event.Restarts (e : Event) : Prop := e.document.isSome ∨ e = .powerCycle

/-- After a restart the pin is at LOW, and nothing has been published. -/
theorem step_restarts {e : Event} (h : e.Restarts) (s : System P) :
    (s.step e).device.outputPin = false ∧ (s.step e).retained = s.retained := by
  rcases h with hd | rfl
  · obtain ⟨doc, hdoc⟩ := Option.isSome_iff_exists.mp hd
    have hr := react_document hdoc s.device
    simp only [System.step, ConfigFromBlth.step, hr, saveAndRestart]
    exact ⟨rfl, rfl⟩
  · exact ⟨rfl, rfl⟩

/-- Otherwise the pin and the status stay, or the status is that of the new level. -/
theorem step_continues {e : Event} (h : ¬ e.Restarts) (s : System P) :
    (s.step e).device.outputPin = s.device.outputPin ∧ (s.step e).retained = s.retained ∨
      (s.step e).retained = some (statusText (s.step e).device.outputPin) := by
  have hd : e.document = none := by
    rw [← Option.not_isSome_iff_eq_none]
    exact fun hs => h (.inl hs)
  rcases react_cases hd s.device with hr | ⟨level, hr⟩ | rfl
  · left
    simp only [System.step, ConfigFromBlth.step, hr]
    exact ⟨rfl, rfl⟩
  · right
    simp only [System.step, ConfigFromBlth.step, hr, settle, if_true, List.foldl_cons,
      List.foldl_nil, retain_publishStatus]
  · exact absurd (.inr rfl) h

/-- The pin is at HIGH only after a status has been published, and that one is retained. -/
structure Steady (s : System P) : Prop where
  agrees : s.Agrees
  published : s.device.outputPin = true → s.retained.isSome

/-- No restart finds the pin at HIGH. -/
def LowAtRestart (s : System P) (e : Event) : Prop := e.Restarts → s.device.outputPin = false

omit [ArrayPreferences P] in
theorem agrees_statusText {s : System P} (h : s.retained = some (statusText s.device.outputPin)) :
    s.Agrees := by
  intro text ht
  rw [h] at ht
  obtain rfl := Option.some.inj ht
  exact stateOf_statusText _

/-- One step keeps the agreement exactly when it is no restart with the pin at HIGH. -/
theorem agrees_step_iff {s : System P} {e : Event} (h : Steady s) :
    (s.step e).Agrees ↔ LowAtRestart s e := by
  by_cases hr : e.Restarts
  · obtain ⟨hpin, hretained⟩ := step_restarts hr s
    constructor
    · intro hagrees _
      by_contra hhigh
      have hhigh' : s.device.outputPin = true := by simpa using hhigh
      obtain ⟨text, ht⟩ := Option.isSome_iff_exists.mp (h.published hhigh')
      have hon := h.agrees text ht
      have hoff := hagrees text (hretained.trans ht)
      rw [hhigh'] at hon
      rw [hpin, hon] at hoff
      exact absurd hoff (by decide)
    · intro hlow text ht
      have hsame : s.device.outputPin = (s.step e).device.outputPin := by rw [hlow hr, hpin]
      rw [← hsame]
      exact h.agrees text (hretained ▸ ht)
  · refine ⟨fun _ hrestart => absurd hrestart hr, fun _ => ?_⟩
    rcases step_continues hr s with ⟨hpin, hretained⟩ | hpublished
    · intro text ht
      rw [hpin]
      exact h.agrees text (hretained ▸ ht)
    · exact agrees_statusText hpublished

theorem steady_step {s : System P} {e : Event} (h : Steady s) (hlow : LowAtRestart s e) :
    Steady (s.step e) := by
  refine ⟨(agrees_step_iff h).mpr hlow, fun hhigh => ?_⟩
  by_cases hr : e.Restarts
  · rw [(step_restarts hr s).1] at hhigh
    cases hhigh
  · rcases step_continues hr s with ⟨hpin, hretained⟩ | hpublished
    · rw [hretained]
      exact h.published (hpin ▸ hhigh)
    · rw [hpublished]
      rfl

/-- From a power-up with a broker that retains nothing false, what it retains is the level of
the pin in every state of a run exactly when no restart of the run finds the pin at HIGH. -/
theorem run_agrees_iff (f : Nvs) (retained : Option (List UInt8))
    (h : System.Agrees (⟨boot f, retained⟩ : System P)) (es : List Event) :
    Always System.step System.Agrees (⟨boot f, retained⟩ : System P) es ↔
      Along System.step LowAtRestart (⟨boot f, retained⟩ : System P) es := by
  have hsteady : Steady (⟨boot f, retained⟩ : System P) := ⟨h, fun hhigh => by cases hhigh⟩
  have hstep : ∀ (s : System P) e, Steady s → LowAtRestart s e → Steady (s.step e) :=
    fun _ _ hs hlow => steady_step hs hlow
  have hiff : ∀ (s : System P) e, Steady s → ((s.step e).Agrees ↔ LowAtRestart s e) :=
    fun _ _ hs => agrees_step_iff hs
  rw [always_iff, ← along_iff_along hstep hiff hsteady es]
  exact and_iff_right h

/-- A board and a broker that has not heard of it. -/
def fresh : System FlashObject := ⟨boot fun _ => none, none⟩

/-- The pin is switched on. -/
def switchOn : Event := .mqtt (.lit "esp32/command") (ascii "\x7b\"action\":\"ON\"\x7d")

theorem run_agrees_iff_switchOn :
    Always System.step System.Agrees fresh [switchOn, .reconnect] ↔
      Along System.step LowAtRestart fresh [switchOn, .reconnect] :=
  run_agrees_iff (fun _ => none) none (fun _ ht => by cases ht) _

/-- After a power cycle the broker still says `ON`. -/
theorem not_agrees_powerCycle :
    ¬ System.Agrees (run System.step fresh [switchOn, .powerCycle]) := by
  intro h
  have hon : (run System.step fresh [switchOn, .powerCycle]).retained =
      some (statusText true) := by decide +kernel
  have hlow : (run System.step fresh [switchOn, .powerCycle]).device.outputPin = false := by
    decide +kernel
  have hstate := h (statusText true) hon
  rw [stateOf_statusText, hlow] at hstate
  exact absurd hstate (by decide)

theorem stale_status :
    ¬ ∀ (f : Nvs) (retained : Option (List UInt8)),
      System.Agrees (⟨boot f, retained⟩ : System FlashObject) → ∀ es : List Event,
      Always System.step System.Agrees (⟨boot f, retained⟩ : System FlashObject) es := by
  intro h
  have halways := h (fun _ => none) none (fun _ ht => by cases ht) [switchOn, .powerCycle]
  exact not_agrees_powerCycle (halways [switchOn, .powerCycle] [] rfl)

end Esp32Automation.ConfigFromBlth
