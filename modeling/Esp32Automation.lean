import Esp32Automation.JsonDeserializer
import Esp32Automation.Json
import Esp32Automation.Decimal
import Esp32Automation.Preferences
import Esp32Automation.Arduino
import Esp32Automation.Codec
import Esp32Automation.Overlay
import Esp32Automation.Run
import Esp32Automation.WebConfig
import Esp32Automation.ApWifi
import Esp32Automation.ApWifiRuns
import Esp32Automation.ApWifiUpdates
import Esp32Automation.ApWifiTransport
import Esp32Automation.WifiServer
import Esp32Automation.WifiServerRuns
import Esp32Automation.ConfigurationHandlers
import Esp32Automation.Mqtt
import Esp32Automation.MqttRead
import Esp32Automation.MqttWrite
import Esp32Automation.Recovery
import Esp32Automation.RemoteConfig
import Esp32Automation.ConfigFromBlth
import Esp32Automation.CommandProtocol
import Esp32Automation.ApWifiCommands
import Esp32Automation.CommandVariants
import Esp32Automation.BluetoothCommands
import Esp32Automation.ClearPreferences
import Esp32Automation.JsonSerializer
import Esp32Automation.JsonText
import Esp32Automation.JsonRoundTrip
import Esp32Automation.RetainedStatus
import Esp32Automation.HotspotAgreement
import Esp32Automation.RemoteConfigArrays
import Esp32Automation.CallbackMemory
import Esp32Automation.HotspotActions
import Esp32Automation.PortUpdates
import Esp32Automation.CurrentConfig
import Esp32Automation.ConnectToWifi
import Esp32Automation.Subscriptions
import Esp32Automation.MqttClient
import Esp32Automation.MqttSession
import Esp32Automation.MqttSends
import Esp32Automation.MqttRefinement
import Esp32Automation.MqttRuns
import Esp32Automation.MqttStreams
import Esp32Automation.MqttTime
import Esp32Automation.Board
import Esp32Automation.BoardRuns
import Esp32Automation.Publisher
import Esp32Automation.RemoteControl
