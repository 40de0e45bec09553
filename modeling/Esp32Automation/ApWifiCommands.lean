import Esp32Automation.ApWifiRuns
import Esp32Automation.CommandProtocol

/-!
# Commands to ap_wifi_plus_mqtt_connection_after_config

Between two boots the sketch is the switch of the command protocol: the output pin is at
the level of the last command that set one, and every command is answered once.
-/
namespace Esp32Automation.ApWifi
open Preferences Run

variable {P : Type} [Preferences P]

/-- The delivery of a message. -/
def delivery (m : Message) : Event := .mqtt m.topic m.payload

omit [Preferences P] in
/-- The command branch follows the command of the document. -/
theorem handleCommand_spec (doc : Json) (d : Device P) :
    ∃ p : Publication, p.topic = "esp32/status" ∧
      handleCommand doc d =
        ⟨{ d with outputPin := ((Command.ofDocument doc).level).getD d.outputPin }, .returned, none,
          [p]⟩ ∧
      Status.ofDocument p.payload = (match (Command.ofDocument doc).level with
        | some level => .success level
        | none => .error) := by
  simp only [handleCommand, Command.ofDocument, Command.ofAction]
  cases doc.charPtr "action" with
  | none => exact ⟨_, rfl, rfl, rfl⟩
  | some action =>
    dsimp only
    split_ifs with hon hoff
    · exact ⟨_, rfl, rfl, Status.ofDocument_success true _⟩
    · exact ⟨_, rfl, rfl, Status.ofDocument_success false _⟩
    · exact ⟨_, rfl, rfl, rfl⟩

/-- A command changes the pin to the level it sets, if any, and is answered by one status. -/
theorem react_command {m : Message} {c : Command} (h : m.command = some c) (d : Device P) :
    ∃ p : Publication, p.topic = "esp32/status" ∧
      react (delivery m) d =
        ⟨{ d with outputPin := c.level.getD d.outputPin }, .returned, none, [p]⟩ ∧
      Status.ofDocument p.payload = (match c.level with
        | some level => .success level
        | none => .error) := by
  unfold Message.command Command.ofPayload at h
  split_ifs at h with ht
  obtain ⟨doc, hdoc, rfl⟩ := Option.map_eq_some_iff.mp h
  have hp := mem_deserializeJson.mp hdoc
  have hne : m.topic ≠ .lit "esp32/config" := by
    rw [ht]
    decide
  have hreact : react (delivery m) d = handleCommand doc d := by
    simp only [react, delivery, mqttCallback, hp, if_neg hne, if_pos ht]
  rw [hreact]
  exact handleCommand_spec doc d

/-- Every other message leaves the pin alone and publishes nothing. -/
theorem react_noCommand {m : Message} (h : m.command = none) (d : Device P) :
    (react (delivery m) d).device.outputPin = d.outputPin ∧
      (react (delivery m) d).published = [] := by
  unfold Message.command Command.ofPayload at h
  simp only [react, delivery, mqttCallback]
  cases hp : deserializeJson m.payload with
  | error err => exact ⟨rfl, rfl⟩
  | ok doc =>
    dsimp only
    split_ifs with hconfig hcommand
    · unfold updateAndRestart
      cases hu : handleConfigurationUpdate doc d with
      | none => exact ⟨rfl, rfl⟩
      | some d' =>
        obtain ⟨g, -, rfl⟩ := Option.map_eq_some_iff.mp hu
        exact ⟨rfl, rfl⟩
    · simp [hcommand, hp, Except.toOption] at h
    · exact ⟨rfl, rfl⟩

/-- In both cases the pin goes where the switch goes. -/
theorem react_outputPin (m : Message) (d : Device P) :
    (react (delivery m) d).device.outputPin = (Command.switch d.outputPin m.command).1 := by
  rw [Command.switch_level]
  cases hc : m.command with
  | none => exact (react_noCommand hc d).1
  | some c =>
    obtain ⟨p, -, hr, -⟩ := react_command hc d
    rw [hr]
    rfl

/-- What one message does to a pin that was at `before`: the status it is answered by, and
the level it leaves. -/
def Answered (c : Option Command) (before after : Bool) (published : List Publication) : Prop :=
  match c with
  | none => after = before ∧ published = []
  | some c => ∃ p, published = [p] ∧ p.topic = "esp32/status" ∧
    match c.level with
    | some level => after = level ∧ Status.ofDocument p.payload = .success after
    | none => after = before ∧ Status.ofDocument p.payload = .error

theorem react_answered (m : Message) (d : Device P) :
    Answered m.command d.outputPin (react (delivery m) d).device.outputPin
      (react (delivery m) d).published := by
  cases hc : m.command with
  | none => exact react_noCommand hc d
  | some c =>
    obtain ⟨p, htopic, hr, hstatus⟩ := react_command hc d
    rw [hr]
    refine ⟨p, rfl, htopic, ?_⟩
    cases hl : c.level with
    | none => exact ⟨rfl, by simpa [hl] using hstatus⟩
    | some level => exact ⟨rfl, by simpa [hl] using hstatus⟩

/-- One message, up to the head of the next `loop()`. -/
def stepMessage (d : Device P) (m : Message) : Device P := step d (delivery m)

/-- The program goes on after the message. -/
def Continues (d : Device P) (m : Message) : Prop := (react (delivery m) d).exit = .returned

/-- While no message ends the program, the pin is a latch of the levels they set. -/
theorem run_outputPin (f : Nvs) (ms : List Message)
    (h : Along stepMessage Continues (boot f : Device P) ms) :
    (run stepMessage (boot f : Device P) ms).outputPin = lastLevel ms := by
  have hstep : ∀ (d : Device P) level (m : Message), d.outputPin = level → Continues d m →
      (stepMessage d m).outputPin = (Command.switch level m.command).1 := by
    intro d level m hd hc
    have hx : (react (delivery m) d).exit = .returned := hc
    have hs : stepMessage d m = (react (delivery m) d).device := by
      rw [stepMessage, step, settle, if_pos hx]
    rw [hs, react_outputPin, hd]
  have hrun : (run stepMessage (boot f : Device P) ms).outputPin =
      run (fun level (m : Message) => (Command.switch level m.command).1) false (ms.map id) :=
    run_simulation (R := fun (d : Device P) level => d.outputPin = level) hstep rfl h
  rw [hrun, List.map_id, run_switch]

/-- After any messages that leave the program running, one more message leaves the pin at
the level of the last one that set a level, and is answered accordingly. -/
theorem run_answered (f : Nvs) (ms : List Message) (m : Message)
    (h : Along stepMessage Continues (boot f : Device P) ms) :
    (react (delivery m) (run stepMessage (boot f : Device P) ms)).device.outputPin =
        lastLevel (ms ++ [m]) ∧
      Answered m.command (lastLevel ms) (lastLevel (ms ++ [m]))
        (react (delivery m) (run stepMessage (boot f : Device P) ms)).published := by
  have hbefore := run_outputPin f ms h
  have hafter : (react (delivery m) (run stepMessage (boot f : Device P) ms)).device.outputPin =
      lastLevel (ms ++ [m]) := by
    rw [react_outputPin, hbefore, ← run_switch, ← run_switch, run_append, run_cons, run_nil]
  have hanswered := react_answered m (run stepMessage (boot f : Device P) ms)
  rw [hbefore, hafter] at hanswered
  exact ⟨hafter, hanswered⟩

/-- Switch on, ask for something else, switch off. -/
def onOther : List Message :=
  [⟨.lit "esp32/command", ascii "\x7b\"action\":\"ON\"\x7d"⟩,
    ⟨.lit "esp32/command", ascii "\x7b\"action\":\"BLINK\"\x7d"⟩]

def off : Message := ⟨.lit "esp32/command", ascii "\x7b\"action\":\"OFF\"\x7d"⟩

theorem onOther_continues :
    Along stepMessage Continues (boot fun _ => none : Device FlashObject) onOther := by
  have hcommand : ∀ m ∈ onOther, m.command.isSome := by decide +kernel
  refine along_iff.mpr fun fs m gs hsplit => ?_
  obtain ⟨c, hc⟩ := Option.isSome_iff_exists.mp (hcommand m (by simp [hsplit]))
  obtain ⟨p, -, hr, -⟩ := react_command hc
    (run stepMessage (boot fun _ => none : Device FlashObject) fs)
  rw [Continues, hr]

theorem run_answered_off :
    (react (delivery off) (run stepMessage (boot fun _ => none : Device FlashObject)
        onOther)).device.outputPin = lastLevel (onOther ++ [off]) ∧
      Answered off.command (lastLevel onOther) (lastLevel (onOther ++ [off]))
        (react (delivery off) (run stepMessage (boot fun _ => none : Device FlashObject)
          onOther)).published :=
  run_answered _ onOther off onOther_continues

end Esp32Automation.ApWifi
