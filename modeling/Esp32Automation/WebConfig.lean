import Esp32Automation.Arduino
import Esp32Automation.Overlay
import Esp32Automation.Preferences
import Mathlib.Data.Fintype.Defs
import Mathlib.Data.List.Induction

/-!
# The configuration of the web-server sketches

Three sketches keep the same configuration: five `char[32]` globals and a port, saved
under six keys. A `Config` is the configuration as such, a value for every setting. It
is what `Globals` hold in RAM, and what a namespace holds in flash once the defaults
stand in for missing keys (`effective`). Saving commits the settings one by one, so a
namespace in the middle of a save is a mixture of both configurations.
-/
namespace Esp32Automation
open Overlay

/-- The string settings. -/
inductive Field where
  | ssid
  | password
  | mqttServer
  | mqttUsername
  | mqttPassword
  deriving DecidableEq

namespace Field

instance : Fintype Field where
  elems := ⟨[ssid, password, mqttServer, mqttUsername, mqttPassword], by decide⟩
  complete f := by cases f <;> decide

/-- The key in flash, in requests and in documents. -/
def key : Field → String
  | ssid => "ssid"
  | password => "password"
  | mqttServer => "mqtt_server"
  | mqttUsername => "mqtt_username"
  | mqttPassword => "mqtt_password"

theorem key_injective : Function.Injective key := by
  intro a b h
  cases a <;> cases b <;> first | rfl | exact absurd h (by decide)

theorem forall_iff {p : Field → Prop} : (∀ f, p f) ↔
    p ssid ∧ p password ∧ p mqttServer ∧ p mqttUsername ∧ p mqttPassword := by
  constructor
  · intro h
    exact ⟨h _, h _, h _, h _, h _⟩
  · rintro ⟨h₁, h₂, h₃, h₄, h₅⟩ f
    cases f <;> assumption

end Field

inductive Setting where
  | text (f : Field)
  | mqttPort
  deriving DecidableEq

namespace Setting

/-- In the order `saveConfiguration` writes them. -/
def all : List Setting :=
  [text .ssid, text .password, text .mqttServer, text .mqttUsername, text .mqttPassword, mqttPort]

theorem mem_all (s : Setting) : s ∈ all := by
  cases s with
  | text f => cases f <;> decide
  | mqttPort => decide

/-- What a setting is set to. -/
abbrev Val : Setting → Type
  | text _ => CString
  | mqttPort => ℤ

end Setting

/-- A value for every setting. -/
abbrev Config := ∀ s : Setting, s.Val

/-- A static `char[32]` without initializer. -/
def emptyText : Buffer 32 := .ofCString (.lit "") (by decide)

/-- The global variables `ssid`, `password`, `mqtt_server`, `mqtt_username`,
`mqtt_password` and `mqtt_port`. -/
structure Globals where
  text : Field → Buffer 32
  mqttPort : ℤ

namespace Globals

/-- The configuration in RAM. -/
def config (g : Globals) : Config
  | .text f => (g.text f).cstr
  | .mqttPort => g.mqttPort

@[simp] theorem config_text (g : Globals) (f : Field) : g.config (.text f) = (g.text f).cstr := rfl
@[simp] theorem config_mqttPort (g : Globals) : g.config .mqttPort = g.mqttPort := rfl

/-- The buffers hold nothing but their strings. -/
theorem ext_config {g g' : Globals} (h : g.config = g'.config) : g = g' := by
  have ht : g.text = g'.text := funext fun f => Buffer.ext_cstr (congrFun h (.text f))
  have hp : g.mqttPort = g'.mqttPort := congrFun h .mqttPort
  cases g; cases g'; simp_all

/-- `strncpy(f, src, sizeof(f) - 1)`. -/
def strncpy (f : Field) (src : CString) (g : Globals) : Globals :=
  { g with text := Function.update g.text f ((g.text f).strncpy src) }

/-- `f[sizeof(f) - 1] = '\0'`. -/
def terminate (f : Field) (g : Globals) : Globals :=
  { g with text := Function.update g.text f (g.text f).terminate }

@[simp] theorem strncpy_mqttPort (f : Field) (src : CString) (g : Globals) :
    (g.strncpy f src).mqttPort = g.mqttPort := rfl

/-- The copy changes its own field. -/
@[simp] theorem strncpy_text (f f' : Field) (src : CString) (g : Globals) :
    ((g.strncpy f src).text f').cstr = if f' = f then src.take 31 else (g.text f').cstr := by
  by_cases h : f' = f
  · subst h; simp [strncpy]
  · simp [strncpy, h]

theorem config_strncpy (f : Field) (src : CString) (g : Globals) :
    (g.strncpy f src).config = Function.update g.config (.text f) (src.take 31) := by
  funext s
  cases s with
  | text f' =>
    by_cases h : f' = f
    · subst h; simp
    · simp [h]
  | mqttPort => simp

/-- The terminator is in place already. -/
@[simp] theorem terminate_eq (f : Field) (g : Globals) : g.terminate f = g := by
  simp [terminate]

theorem config_port (g : Globals) (n : ℤ) :
    { g with mqttPort := n }.config = Function.update g.config .mqttPort n := by
  funext s
  cases s with
  | text f => simp
  | mqttPort => simp

/-- The choice in `setup` between `setupWiFiAP` and `connectToWiFi`, which calls
`WiFi.begin` first. -/
def wifiArguments (g : Globals) : Option (CString × CString) :=
  if (g.text .ssid).isEmpty || (g.text .password).isEmpty then none
  else some ((g.text .ssid).cstr, (g.text .password).cstr)

/-- The `put` call that saves one setting. -/
def write (g : Globals) : Setting → Write
  | .text f => .str f.key (some (g.text f).cstr)
  | .mqttPort => .int "mqtt_port" g.mqttPort

/-- `saveConfiguration`. -/
def saveConfiguration (g : Globals) : List Write := Setting.all.map g.write

/-- A complete save leaves every string under its key. -/
theorem saved_str (g : Globals) (ns : Namespace) (f : Field) :
    (Write.applyAll g.saveConfiguration ns).str f.key = some (g.text f).cstr := by
  cases f <;> simp [saveConfiguration, Setting.all, write, Write.applyAll, Field.key]

theorem saved_int (g : Globals) (ns : Namespace) :
    (Write.applyAll g.saveConfiguration ns).int "mqtt_port" = some g.mqttPort := by
  simp [saveConfiguration, Setting.all, write, Write.applyAll]

end Globals

/-- The configuration that booting from a namespace loads: a default for every missing
key, and every string cut to 31 bytes. -/
def effective (defaults : Config) (ns : Namespace) : Config
  | .text f => ((ns.str f.key).getD (defaults (.text f))).take 31
  | .mqttPort => (ns.int "mqtt_port").getD (defaults .mqttPort)

/-- On an empty namespace that is the defaults, if every one of them fits its buffer. -/
theorem effective_empty_eq {d : Config} (h : ∀ f : Field, (d (.text f)).length ≤ 31) :
    effective d Namespace.empty = d := by
  funext s
  cases s with
  | text f => exact CString.take_of_length_le (h f)
  | mqttPort => rfl

/-- One `put` call replaces its own setting of the configuration loaded next. -/
theorem effective_write (d : Config) (g : Globals) (s : Setting) (ns : Namespace) :
    effective d ((g.write s).apply ns) = Function.update (effective d ns) s (g.config s) := by
  funext s'
  cases s with
  | text f =>
    have hlen : (g.text f).cstr.length ≤ 31 := Nat.le_of_lt_succ (g.text f).cstr_length_lt
    cases s' with
    | text f' =>
      by_cases h : f' = f
      · subst h
        simp [effective, Globals.write, Write.apply, Namespace.setStr,
          CString.take_of_length_le hlen]
      · have hk : f'.key ≠ f.key := fun he => h (Field.key_injective he)
        simp [effective, Globals.write, Write.apply, Namespace.setStr, h, hk]
    | mqttPort => simp [effective, Globals.write, Write.apply, Namespace.setStr]
  | mqttPort =>
    cases s' with
    | text f' => simp [effective, Globals.write, Write.apply, Namespace.setInt]
    | mqttPort => simp [effective, Globals.write, Write.apply, Namespace.setInt]

/-- After some of the settings have been saved, the configuration loaded next is the
new one at these settings and the old one elsewhere. -/
theorem effective_applyAll (d : Config) (g : Globals) (ss : List Setting) (ns : Namespace) :
    effective d (Write.applyAll (ss.map g.write) ns) = mix (· ∈ ss) (effective d ns) g.config := by
  induction ss using List.reverseRecOn with
  | nil => funext s; simp [Write.applyAll, mix]
  | append_singleton ss s ih =>
    have hstep : Write.applyAll ((ss ++ [s]).map g.write) ns =
        (g.write s).apply (Write.applyAll (ss.map g.write) ns) := by
      simp [Write.applyAll]
    rw [hstep, effective_write, ih, update_mix]
    funext t
    simp [mix]

/-- A complete save makes the configuration in RAM the one loaded next. -/
theorem effective_saveConfiguration (d : Config) (g : Globals) (ns : Namespace) :
    effective d (Write.applyAll g.saveConfiguration ns) = g.config := by
  rw [Globals.saveConfiguration, effective_applyAll, mix_eq_new_iff]
  exact fun s _ => Setting.mem_all s

section Load
open Preferences
variable {P : Type} [Preferences P]

/-- `strncpy(f, preferences.getString(key, default).c_str(), sizeof(f) - 1)`. -/
def Globals.loadText (p : P) (d : Config) (f : Field) (g : Globals) : Globals :=
  g.strncpy f (getString f.key (d (.text f)) p)

/-- `mqtt_port = preferences.getInt("mqtt_port", default)`. -/
def Globals.loadPort (p : P) (d : Config) (g : Globals) : Globals :=
  { g with mqttPort := getInt "mqtt_port" (d .mqttPort) p }

/-- Loading every setting gives what the open namespace holds. -/
theorem Globals.config_load {p : P} {ns : Namespace} (h : contents p = some ns) (d : Config)
    (g : Globals) :
    ((((((g.loadText p d .ssid).loadText p d .password).loadText p d .mqttServer).loadText p d
      .mqttUsername).loadText p d .mqttPassword).loadPort p d).config = effective d ns := by
  funext s
  cases s with
  | text f =>
    have hstr : getString f.key (d (.text f)) p = (ns.str f.key).getD (d (.text f)) := by
      rw [getString_eq, h]
      rfl
    cases f <;> simp [loadText, loadPort, effective, ← hstr]
  | mqttPort =>
    have hint : getInt "mqtt_port" (d .mqttPort) p = (ns.int "mqtt_port").getD (d .mqttPort) := by
      rw [getInt_eq, h]
      rfl
    simp [loadText, loadPort, effective, ← hint]

end Load

namespace Globals

/-- `if (jsonDoc.containsKey(key)) strncpy(f, jsonDoc[key], sizeof(f) - 1);` where
`none` is a copy from a null pointer. -/
def copyMember (doc : Json) (f : Field) (g : Globals) : Option Globals :=
  if doc.containsKey f.key then (doc.charPtr f.key).map fun src => g.strncpy f src else some g

/-- `if (jsonDoc.containsKey("mqtt_port")) mqtt_port = jsonDoc["mqtt_port"];` -/
def copyPort (doc : Json) (g : Globals) : Globals :=
  if doc.containsKey "mqtt_port" then { g with mqttPort := doc.int "mqtt_port" } else g

/-- The statement of `handleConfigurationUpdate` for one setting. -/
def copySetting (doc : Json) : Setting → Globals → Option Globals
  | .text f, g => g.copyMember doc f
  | .mqttPort, g => some (g.copyPort doc)

/-- These statements for several settings, in order. -/
def copySettings (doc : Json) (ss : List Setting) (g : Globals) : Option Globals :=
  ss.foldlM (fun g s => g.copySetting doc s) g

end Globals

/-- If the document names the setting, it holds a JSON string there; the port may hold
anything. -/
def HoldsString (doc : Json) : Setting → Prop
  | .text f => ∀ v ∈ doc.getMember (ascii f.key), v.isString
  | .mqttPort => True

instance (doc : Json) : DecidablePred (HoldsString doc)
  | .text f => inferInstanceAs (Decidable (∀ v ∈ doc.getMember (ascii f.key), v.isString))
  | .mqttPort => inferInstanceAs (Decidable True)

theorem holdsString_of_charPtr {doc : Json} {f : Field} {src : CString}
    (h : doc.charPtr f.key = some src) : HoldsString doc (.text f) := by
  intro value hm
  rw [← value.asCharPtr_isSome]
  have hp : value.asCharPtr = some src := by simpa [Json.charPtr, Option.mem_def.mp hm] using h
  rw [hp]
  rfl

/-- What a document says about each setting: the first 31 bytes of the C string, and
the port converted to `int`. -/
def update (doc : Json) : ∀ s : Setting, Option s.Val
  | .text f => (doc.charPtr f.key).map (CString.take 31)
  | .mqttPort => if doc.containsKey "mqtt_port" then some (doc.int "mqtt_port") else none

/-- One statement has a source to copy from exactly when the document holds a string
there. -/
theorem Globals.copySetting_isSome (doc : Json) (s : Setting) (g : Globals) :
    (g.copySetting doc s).isSome ↔ HoldsString doc s := by
  cases s with
  | text f =>
    cases hm : doc.getMember (ascii f.key) with
    | none => simp [copySetting, copyMember, HoldsString, Json.containsKey, hm]
    | some v =>
      simp [copySetting, copyMember, HoldsString, Json.containsKey, Json.charPtr, hm,
        ← v.asCharPtr_isSome]
  | mqttPort => simp [copySetting, HoldsString]

/-- It applies what the document says about its own setting. -/
theorem Globals.copySetting_config {doc : Json} {s : Setting} {g g' : Globals}
    (h : g.copySetting doc s = some g') :
    g'.config = Function.update g.config s (overlay (update doc) g.config s) := by
  cases s with
  | text f =>
    simp only [copySetting, copyMember] at h
    by_cases hc : doc.containsKey f.key
    · simp only [hc, if_true, Option.map_eq_some_iff] at h
      obtain ⟨src, hsrc, rfl⟩ := h
      simp [config_strncpy, overlay, update, hsrc]
    · have hnone : doc.charPtr f.key = none := by
        simp only [Json.containsKey, Option.not_isSome_iff_eq_none] at hc
        simp [Json.charPtr, hc]
      simp only [hc] at h
      obtain rfl := Option.some.inj h
      simp [overlay, update, hnone]
  | mqttPort =>
    obtain rfl := Option.some.inj h
    by_cases hc : doc.containsKey "mqtt_port"
    · simp [copyPort, hc, config_port, overlay, update]
    · simp [copyPort, hc, overlay, update]

/-- A handler that runs through some of the settings finds a source for every copy
exactly when the document holds strings at all of them. -/
theorem Globals.copySettings_isSome (doc : Json) (ss : List Setting) (g : Globals) :
    (g.copySettings doc ss).isSome ↔ ∀ s ∈ ss, HoldsString doc s := by
  induction ss generalizing g with
  | nil => simp [copySettings]
  | cons s ss ih =>
    have hs := g.copySetting_isSome doc s
    have hcons : g.copySettings doc (s :: ss) =
        (g.copySetting doc s).bind fun g => g.copySettings doc ss := rfl
    cases hg : g.copySetting doc s with
    | none => simp_all
    | some g₁ =>
      have hh : HoldsString doc s := hs.mp (by rw [hg]; rfl)
      simp [hcons, hg, ih, hh]

/-- It leaves what the document says about these settings, and the old configuration
at the others. -/
theorem Globals.copySettings_config {doc : Json} {ss : List Setting} {g g' : Globals}
    (h : g.copySettings doc ss = some g') :
    g'.config = mix (· ∈ ss) g.config (overlay (update doc) g.config) := by
  induction ss generalizing g with
  | nil =>
    obtain rfl := Option.some.inj h
    funext s
    simp [mix]
  | cons s ss ih =>
    obtain ⟨g₁, hg₁, hrest⟩ := Option.bind_eq_some_iff.mp h
    have hc := copySetting_config hg₁
    rw [ih hrest, hc]
    funext t
    by_cases ht : t = s
    · subst ht
      simp [mix, overlay]
      cases update doc t <;> simp
    · simp [mix, overlay, ht]

/-- The arguments that `GET /config` asks for. -/
def requiredFields : List String :=
  ["ssid", "password", "mqtt_server", "mqtt_port", "mqtt_username", "mqtt_password"]

/-- The document made from the query parameters. -/
def configDocument (args : Args) : Json :=
  let jsonDoc := Json.null
  let jsonDoc := jsonDoc.setMember "ssid" (.ofString (args.arg "ssid"))
  let jsonDoc := jsonDoc.setMember "password" (.ofString (args.arg "password"))
  let jsonDoc := jsonDoc.setMember "mqtt_server" (.ofString (args.arg "mqtt_server"))
  let jsonDoc := jsonDoc.setMember "mqtt_port" (.integer (toInt (args.arg "mqtt_port")))
  let jsonDoc := jsonDoc.setMember "mqtt_username" (.ofString (args.arg "mqtt_username"))
  jsonDoc.setMember "mqtt_password" (.ofString (args.arg "mqtt_password"))

theorem configDocument_getMember (args : Args) (f : Field) :
    (configDocument args).getMember (ascii f.key) = some (.ofString (args.arg f.key)) := by
  cases f <;> rfl

/-- A parameter that becomes a string at all is read back as it was sent. -/
theorem configDocument_charPtr {args : Args} {f : Field}
    (h : HoldsString (configDocument args) (.text f)) :
    (configDocument args).charPtr f.key = some (.ofBytes (args.arg f.key)) := by
  have hm := configDocument_getMember args f
  have hstr : (Json.ofString (args.arg f.key)).isString := h _ hm
  by_cases hl : (args.arg f.key).length ≤ Json.maxLength
  · simp [Json.charPtr, hm, Json.ofString, hl, Json.asCharPtr]
  · simp [Json.ofString, hl, Json.isString] at hstr

/-- The port is the number that the parameter starts with. -/
theorem configDocument_int (args : Args) :
    (configDocument args).int "mqtt_port" = toInt (args.arg "mqtt_port") := by
  have hm : (configDocument args).getMember (ascii "mqtt_port") =
      some (.integer (toInt (args.arg "mqtt_port"))) := rfl
  rw [Json.int, hm]
  exact Json.convertNumber_of_range (toInt_range _)

end Esp32Automation
