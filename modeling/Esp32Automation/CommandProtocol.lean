import Esp32Automation.Arduino
import Esp32Automation.JsonDeserializer
import Esp32Automation.Run

/-!
# The command protocol

What a message on `esp32/command` asks for, and what a board that understands it does: a
switch that keeps the last level it was told, answers every command with one status
document, and takes everything that is not `ON` or `OFF` for an error.
-/
namespace Esp32Automation
open Run

/-- What a JSON document asks for. -/
inductive Command where
  | on
  | off
  /-- An action that is neither. -/
  | other
  /-- No action that reads as a C string. -/
  | missing
  deriving DecidableEq

namespace Command

def ofAction : Option CString → Command
  | some action => if action = .lit "ON" then on else if action = .lit "OFF" then off else other
  | none => missing

def ofDocument (doc : Json) : Command := ofAction (doc.charPtr "action")

/-- A payload that is not JSON asks for nothing. -/
def ofPayload (payload : List UInt8) : Option Command :=
  (deserializeJson payload).toOption.map ofDocument

/-- The level a command sets. -/
def level : Command → Option Bool
  | on => some true
  | off => some false
  | other | missing => none

end Command

/-- The fields of a status document that say what happened. -/
structure Status where
  status : Option CString
  state : Option CString
  deriving DecidableEq

namespace Status

def ofDocument (doc : Json) : Status := ⟨doc.charPtr "status", doc.charPtr "state"⟩

/-- The status document that a text is. -/
def ofText (text : List UInt8) : Option Status := (deserializeJson text).toOption.map ofDocument

def success (level : Bool) : Status :=
  ⟨some (.lit "success"), some (.lit (if level then "ON" else "OFF"))⟩

def error : Status := ⟨some (.lit "error"), none⟩

theorem ofDocument_success (level : Bool) (message : String) :
    ofDocument (createSuccessResponse .null (if level then "ON" else "OFF") message) =
      success level := by
  cases level <;> rfl

end Status

/-- The status documents among what was published. -/
def statuses (published : List Publication) : List Status :=
  (published.filter (·.topic = "esp32/status")).map fun p => .ofDocument p.payload

/-- The switch: its new level and the statuses it publishes. -/
def Command.switch (level : Bool) : Option Command → Bool × List Status
  | none => (level, [])
  | some c => match c.level with
    | some l => (l, [.success l])
    | none => (level, [.error])

/-- A message on a topic. -/
structure Message where
  topic : CString
  payload : List UInt8

namespace Message

/-- The command a message brings. -/
def command (m : Message) : Option Command :=
  if m.topic = .lit "esp32/command" then Command.ofPayload m.payload else none

/-- The level a message sets. -/
def level (m : Message) : Option Bool := m.command.bind Command.level

end Message

/-- The level after a sequence of messages: that of the most recent one that sets one, and
LOW if there is none. -/
def lastLevel (ms : List Message) : Bool := ((ms.filterMap Message.level).getLast?).getD false

theorem Command.switch_level (level : Bool) (c : Option Command) :
    (switch level c).1 = (c.bind Command.level).getD level := by
  cases c with
  | none => rfl
  | some c => cases c <;> rfl

/-- A switch that starts at LOW is at the level of the last message that set one. -/
theorem run_switch (ms : List Message) :
    run (fun level (m : Message) => (Command.switch level m.command).1) false ms =
      lastLevel ms := by
  have hlatch : (fun level (m : Message) => (Command.switch level m.command).1) =
      fun level m => (m.level).getD level := by
    funext level m
    exact Command.switch_level level m.command
  rw [hlatch]
  exact run_latch Message.level false ms

end Esp32Automation
