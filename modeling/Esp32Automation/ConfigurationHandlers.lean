import Esp32Automation.ApWifiRuns
import Esp32Automation.Hotspot
import Esp32Automation.WifiServer

/-!
# `handleConfigurationUpdate` in the three web-server sketches

The presence check of the handlers accepts a member of any kind, and the copy behind it
needs a string. Two of the sketches check setting by setting; the third looks at SSID
and passphrase only when both are there.
-/
namespace Esp32Automation
variable {P : Type} [Preferences P]

/-- A well-typed document holds a string under each string key it contains. -/
def WellTyped (doc : Json) : Prop := ∀ s, HoldsString doc s

theorem wellTyped_iff (doc : Json) : WellTyped doc ↔ ∀ s ∈ Setting.all, HoldsString doc s :=
  ⟨fun h s _ => h s, fun h s => h s (Setting.mem_all s)⟩

/-- Every copy of the three handlers has a source exactly when the document holds a
string under each string key that it contains and that the handler looks at. -/
theorem handlers_copy_iff (doc : Json) (a : ApWifi.Device P) (h : Hotspot.Device P)
    (w : WifiServer.Device P) :
    ((ApWifi.handleConfigurationUpdate doc a).isSome ↔ WellTyped doc) ∧
      ((Hotspot.handleConfigurationUpdate doc h).isSome ↔ WellTyped doc) ∧
      ((WifiServer.handleConfigurationUpdate doc w).isSome ↔
        ∀ s ∈ WifiServer.copied doc, HoldsString doc s) := by
  refine ⟨?_, ?_, ?_⟩
  · rw [wellTyped_iff]
    exact ApWifi.handleConfigurationUpdate_isSome doc a
  · rw [wellTyped_iff]
    exact Hotspot.handleConfigurationUpdate_isSome doc h
  · exact WifiServer.handleConfigurationUpdate_isSome doc w

/-- A null broker name stops each of the three. -/
theorem null_server_crashes :
    (¬ ∀ (doc : Json) (a : ApWifi.Device FlashObject),
        (ApWifi.handleConfigurationUpdate doc a).isSome) ∧
      (¬ ∀ (doc : Json) (h : Hotspot.Device FlashObject),
        (Hotspot.handleConfigurationUpdate doc h).isSome) ∧
      ¬ ∀ (doc : Json) (w : WifiServer.Device FlashObject),
        (WifiServer.handleConfigurationUpdate doc w).isSome := by
  refine ⟨fun h => ?_, fun h => ?_, fun h => ?_⟩
  · have hs := h (.object [(ascii "mqtt_server", .null)]) (ApWifi.boot fun _ => none)
    exact absurd hs (by decide +kernel)
  · have hs := h (.object [(ascii "mqtt_server", .null)]) (Hotspot.boot fun _ => none)
    exact absurd hs (by decide +kernel)
  · have hs := h (.object [(ascii "mqtt_server", .null)]) (WifiServer.boot fun _ => none)
    exact absurd hs (by decide +kernel)

end Esp32Automation
