import Esp32Automation.CommandProtocol

/-!
# mqtt_remote_on_off

The sketch whose settings are constants of the program: a pin that is driven over MQTT.
Its callback does not look at the topic.
-/
namespace Esp32Automation.RemoteOnOff

structure Device where
  /-- The level of `PIN32`. -/
  pin32 : Bool
  deriving DecidableEq

/-- Power-up. -/
def boot : Device := ⟨false⟩

/-- The call of `client.connect` in `reconnectMQTT`. -/
def reconnectMQTT : ConnectCall where
  server := .lit "192.168.0.148"
  port := 1883
  username := .lit "testuser"
  password := .lit "password"

/-- `mqttCallback`. The payload is copied, with a terminator, before it is parsed. -/
def mqttCallback (_topic : CString) (payload : List UInt8) (d : Device) : Reaction Device :=
  match deserializeJson (payload ++ [0]) with
  | .error _ => .idle d
  | .ok jsonDoc =>
    match jsonDoc.charPtr "action" with
    | some action =>
      if action = .lit "ON" then
        ⟨{ d with pin32 := true }, .returned, none,
          [⟨"esp32/status", createSuccessResponse .null "ON" "GPIO 32 set to HIGH"⟩]⟩
      else if action = .lit "OFF" then
        ⟨{ d with pin32 := false }, .returned, none,
          [⟨"esp32/status", createSuccessResponse .null "OFF" "GPIO 32 set to LOW"⟩]⟩
      else ⟨d, .returned, none,
        [⟨"esp32/status", createErrorResponse .null "Invalid action received"⟩]⟩
    | none => ⟨d, .returned, none,
        [⟨"esp32/status", createErrorResponse .null "Missing 'action' field in JSON"⟩]⟩

end Esp32Automation.RemoteOnOff
