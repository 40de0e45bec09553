import Esp32Automation.ApWifiCommands
import Esp32Automation.ConfigFromBlth
import Esp32Automation.Hotspot
import Esp32Automation.RemoteOnOff

/-!
# One command protocol, four programs

Boards with four of the sketches listen to the same messages on `esp32/command`. Three of
them are the switch of the command protocol. remote_on_off_with_config_from_blth takes
every action that is not `ON` for `OFF`, and does not answer a message without an action.
-/
namespace Esp32Automation.CommandVariants
open Run

inductive Variant where
  | remoteOnOff
  | apWifi
  | hotspot
  | configFromBlth
  deriving DecidableEq

structure Boards (P : Type) where
  remoteOnOff : RemoteOnOff.Device
  apWifi : ApWifi.Device P
  hotspot : Hotspot.Device P
  configFromBlth : ConfigFromBlth.Device P

namespace Boards
variable {P : Type}

/-- The level of the output pin of a board. -/
def level (s : Boards P) : Variant → Bool
  | .remoteOnOff => s.remoteOnOff.pin32
  | .apWifi => s.apWifi.outputPin
  | .hotspot => s.hotspot.pin32
  | .configFromBlth => s.configFromBlth.outputPin

variable [ArrayPreferences P]

/-- A payload on `esp32/command`, delivered to every board. -/
def deliver (s : Boards P) (payload : List UInt8) : Boards P where
  remoteOnOff := (RemoteOnOff.mqttCallback (.lit "esp32/command") payload s.remoteOnOff).device
  apWifi := (ApWifi.mqttCallback (.lit "esp32/command") payload s.apWifi).device
  hotspot := (Hotspot.mqttCallback (.lit "esp32/command") payload s.hotspot).device
  configFromBlth :=
    (ConfigFromBlth.mqttCallback (.lit "esp32/command") payload s.configFromBlth).device

/-- What each board publishes on it. -/
def published (s : Boards P) (payload : List UInt8) : Variant → List Publication
  | .remoteOnOff =>
    (RemoteOnOff.mqttCallback (.lit "esp32/command") payload s.remoteOnOff).published
  | .apWifi => (ApWifi.mqttCallback (.lit "esp32/command") payload s.apWifi).published
  | .hotspot => (Hotspot.mqttCallback (.lit "esp32/command") payload s.hotspot).published
  | .configFromBlth =>
    (ConfigFromBlth.mqttCallback (.lit "esp32/command") payload s.configFromBlth).published

end Boards

/-- The rule of remote_on_off_with_config_from_blth, beside `Command.switch`. -/
def follow (level : Bool) : Option Command → Bool × List Status
  | none | some .missing => (level, [])
  | some .on => (true, [.success true])
  | some .off | some .other => (false, [.success false])

section Sketches
variable {P : Type}

theorem ofPayload_error {payload : List UInt8} {err : JsonDeserializer.Error}
    (h : deserializeJson payload = .error err) : Command.ofPayload payload = none := by
  rw [Command.ofPayload, h]
  rfl

theorem ofPayload_ok {payload : List UInt8} {doc : Json} (h : deserializeJson payload = .ok doc) :
    Command.ofPayload payload = some (.ofAction (doc.charPtr "action")) := by
  rw [Command.ofPayload, h]
  rfl

theorem remoteOnOff_switch (payload : List UInt8) (d : RemoteOnOff.Device) :
    ((RemoteOnOff.mqttCallback (.lit "esp32/command") payload d).device.pin32,
        statuses (RemoteOnOff.mqttCallback (.lit "esp32/command") payload d).published) =
      Command.switch d.pin32 (Command.ofPayload payload) := by
  have hcopy : deserializeJson (payload ++ [0]) = deserializeJson payload := by
    rw [deserializeJson, deserializeJson, CString.ofBytes_append_nul]
  simp only [RemoteOnOff.mqttCallback, hcopy]
  cases hp : deserializeJson payload with
  | error err => rw [ofPayload_error hp]; rfl
  | ok doc =>
    rw [ofPayload_ok hp]
    dsimp only
    cases doc.charPtr "action" with
    | none => rfl
    | some action =>
      simp only [Command.ofAction]
      split_ifs <;> rfl

variable [ArrayPreferences P]

theorem apWifi_switch (payload : List UInt8) (d : ApWifi.Device P) :
    ((ApWifi.mqttCallback (.lit "esp32/command") payload d).device.outputPin,
        statuses (ApWifi.mqttCallback (.lit "esp32/command") payload d).published) =
      Command.switch d.outputPin (Command.ofPayload payload) := by
  have hne : CString.lit "esp32/command" ≠ CString.lit "esp32/config" := by decide
  simp only [ApWifi.mqttCallback, if_neg hne, if_true]
  cases hp : deserializeJson payload with
  | error err => rw [ofPayload_error hp]; rfl
  | ok doc =>
    rw [ofPayload_ok hp]
    simp only [ApWifi.handleCommand]
    cases doc.charPtr "action" with
    | none => rfl
    | some action =>
      simp only [Command.ofAction]
      split_ifs <;> rfl

theorem hotspot_switch (payload : List UInt8) (d : Hotspot.Device P) :
    ((Hotspot.mqttCallback (.lit "esp32/command") payload d).device.pin32,
        statuses (Hotspot.mqttCallback (.lit "esp32/command") payload d).published) =
      Command.switch d.pin32 (Command.ofPayload payload) := by
  simp only [Hotspot.mqttCallback, if_true]
  cases hp : deserializeJson payload with
  | error err => rw [ofPayload_error hp]; rfl
  | ok doc =>
    rw [ofPayload_ok hp]
    simp only [Hotspot.commandReaction, Hotspot.handleActionCommand]
    cases doc.charPtr "action" with
    | none => rfl
    | some action =>
      simp only [Command.ofAction]
      split_ifs <;> rfl

theorem configFromBlth_follow (payload : List UInt8) (d : ConfigFromBlth.Device P) :
    ((ConfigFromBlth.mqttCallback (.lit "esp32/command") payload d).device.outputPin,
        statuses (ConfigFromBlth.mqttCallback (.lit "esp32/command") payload d).published) =
      follow d.outputPin (Command.ofPayload payload) := by
  have hne : CString.lit "esp32/command" ≠ CString.lit "esp32/config" := by decide
  simp only [ConfigFromBlth.mqttCallback, if_neg hne, if_true]
  cases hp : deserializeJson payload with
  | error err => rw [ofPayload_error hp]; rfl
  | ok doc =>
    rw [ofPayload_ok hp]
    simp only [ConfigFromBlth.handleCommand]
    cases doc.charPtr "action" with
    | none => rfl
    | some action =>
      simp only [Command.ofAction]
      split_ifs with hon hoff
      · simp only [hon, decide_true]
        rfl
      · simp only [hon, decide_false]
        rfl
      · simp only [hon, decide_false]
        rfl

end Sketches

section Boards
variable {P : Type} [ArrayPreferences P]

/-- The rule that a board follows. -/
def Variant.rule : Variant → Bool → Option Command → Bool × List Status
  | .configFromBlth => follow
  | _ => Command.switch

theorem deliver_rule (s : Boards P) (payload : List UInt8) (v : Variant) :
    ((s.deliver payload).level v, statuses (s.published payload v)) =
      v.rule (s.level v) (Command.ofPayload payload) := by
  cases v with
  | remoteOnOff => exact remoteOnOff_switch payload s.remoteOnOff
  | apWifi => exact apWifi_switch payload s.apWifi
  | hotspot => exact hotspot_switch payload s.hotspot
  | configFromBlth => exact configFromBlth_follow payload s.configFromBlth

/-- The pins of all boards are at one level. -/
def SameLevel (s : Boards P) : Prop := ∀ v w, s.level v = s.level w

/-- A payload has the same effect on every board and gets the same status documents, and an
action other than `ON` and `OFF` moves no pin. -/
structure Agree (s : Boards P) (payload : List UInt8) : Prop where
  level : SameLevel (s.deliver payload)
  statuses : ∀ v w, statuses (s.published payload v) = statuses (s.published payload w)
  other : Command.ofPayload payload = some .other → ∀ v, (s.deliver payload).level v = s.level v

/-- The payload is not JSON, or has the action `ON` or `OFF`. -/
def Plain (payload : List UInt8) : Prop :=
  ∀ c ∈ Command.ofPayload payload, c = .on ∨ c = .off

instance (payload : List UInt8) : Decidable (Plain payload) :=
  inferInstanceAs (Decidable (∀ c ∈ Command.ofPayload payload, c = .on ∨ c = .off))

/-- The two rules agree on plain payloads. -/
theorem rule_plain {payload : List UInt8} (h : Plain payload) (v : Variant) (level : Bool) :
    v.rule level (Command.ofPayload payload) =
      Command.switch level (Command.ofPayload payload) := by
  cases v with
  | configFromBlth =>
    cases hc : Command.ofPayload payload with
    | none => rfl
    | some c =>
      obtain rfl | rfl := h c hc
      · rfl
      · rfl
  | remoteOnOff | apWifi | hotspot => rfl

/-- On every other payload they publish different statuses. -/
theorem plain_of_statuses {payload : List UInt8} {level level' : Bool}
    (h : (Command.switch level (Command.ofPayload payload)).2 =
      (follow level' (Command.ofPayload payload)).2) : Plain payload := by
  intro c hc
  rw [Option.mem_def.mp hc] at h
  cases c with
  | on => exact .inl rfl
  | off => exact .inr rfl
  | other =>
    have hne : [Status.error] ≠ [Status.success false] := by decide
    exact absurd h hne
  | missing =>
    have hne : [Status.error] ≠ [] := by decide
    exact absurd h hne

theorem deliver_sameLevel {s : Boards P} (h : SameLevel s) {payload : List UInt8}
    (hp : Plain payload) : SameLevel (s.deliver payload) := by
  intro v w
  have hv := deliver_rule s payload v
  have hw := deliver_rule s payload w
  rw [rule_plain hp] at hv hw
  have hlevel : s.level v = s.level w := h v w
  rw [hlevel, ← hw] at hv
  exact congrArg Prod.fst hv

theorem agree_iff {s : Boards P} (h : SameLevel s) (payload : List UInt8) :
    Agree s payload ↔ Plain payload := by
  constructor
  · intro hagree
    have hswitch : statuses (s.published payload .apWifi) = _ :=
      congrArg Prod.snd (deliver_rule s payload .apWifi)
    have hfollow : statuses (s.published payload .configFromBlth) = _ :=
      congrArg Prod.snd (deliver_rule s payload .configFromBlth)
    have hstat := hagree.statuses .apWifi .configFromBlth
    rw [hswitch, hfollow] at hstat
    exact plain_of_statuses hstat
  · intro hp
    refine ⟨deliver_sameLevel h hp, fun v w => ?_, fun hother => ?_⟩
    · have hv := deliver_rule s payload v
      have hw := deliver_rule s payload w
      rw [rule_plain hp] at hv hw
      rw [h v w, ← hw] at hv
      exact congrArg Prod.snd hv
    · have hnot : Command.other = .on ∨ Command.other = .off := hp .other hother
      simp at hnot

/-- From one level, the four programs treat a sequence of payloads alike exactly when each
of them is no JSON text or has the action `ON` or `OFF`. -/
theorem variants_agree_iff (s : Boards P) (h : SameLevel s) (payloads : List (List UInt8)) :
    Along Boards.deliver Agree s payloads ↔ ∀ payload ∈ payloads, Plain payload := by
  have hstep : ∀ (s : Boards P) payload, SameLevel s → Plain payload →
      SameLevel (s.deliver payload) := fun _ _ hs hp => deliver_sameLevel hs hp
  exact along_iff_forall_mem hstep (fun _ payload hs => agree_iff hs payload) h payloads

end Boards

/-- Four boards after power-up on blank flash. -/
def fresh : Boards FlashObject :=
  ⟨RemoteOnOff.boot, ApWifi.boot fun _ => none, Hotspot.boot fun _ => none,
    ConfigFromBlth.boot fun _ => none⟩

theorem fresh_sameLevel : SameLevel fresh := by
  have hlow : ∀ v, fresh.level v = false := by
    intro v
    cases v <;> rfl
  intro v w
  rw [hlow v, hlow w]

theorem variants_agree_iff_fresh :
    Along Boards.deliver Agree fresh [ascii "\x7b\"action\":\"ON\"\x7d"] ↔
      ∀ payload ∈ [ascii "\x7b\"action\":\"ON\"\x7d"], Plain payload :=
  variants_agree_iff fresh fresh_sameLevel _

/-- After `ON`, an unknown action switches one of the boards off and none of the others. -/
theorem toggle_moves_pin :
    ¬ ∀ (s : Boards FlashObject), SameLevel s → ∀ payloads : List (List UInt8),
      Along Boards.deliver Agree s payloads := by
  intro h
  have hagree := h fresh fresh_sameLevel
    [ascii "\x7b\"action\":\"ON\"\x7d", ascii "\x7b\"action\":\"TOGGLE\"\x7d"]
  have hother := hagree.2.1.other (by decide +kernel) .configFromBlth
  exact absurd hother (by decide +kernel)

end Esp32Automation.CommandVariants
