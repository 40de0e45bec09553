import Esp32Automation.WifiServerRuns

/-!
# What `GET /current_config` reports

The sketch has two routes that report the configuration. The former one reports RAM, the newer
one reads flash with defaults of its own for missing keys, and does not cut a value to the
length of its buffer. Between two events RAM is what the next boot loads, so both routes have
one thing to report.
-/
namespace Esp32Automation.WifiServer
open Overlay Preferences Run

variable {P : Type} [Preferences P]

/-- The defaults of `GET /current_config`. -/
def reportedDefaults : Config
  | .text .ssid => .lit "default_ssid"
  | .text .password => .lit "default_password"
  | .text .mqttServer => .lit "default_server"
  | .text .mqttUsername => .lit "default_user"
  | .text .mqttPassword => .lit ""
  | .mqttPort => 1883

/-- The reply with the values of a configuration. -/
def configurationReply (c : Config) : HttpReply :=
  ⟨200, configurationResponse (c (.text .ssid)) (c (.text .password)) (c (.text .mqttServer))
    (c .mqttPort) (c (.text .mqttUsername))⟩

/-- What the namespace holds, with given defaults, as it is: nothing is cut. -/
def stored (defaults : Config) (ns : Namespace) : Config
  | .text f => (ns.str f.key).getD (defaults (.text f))
  | .mqttPort => (ns.int "mqtt_port").getD (defaults .mqttPort)

/-- `GET /current_config` reports what the next boot loads, and says the same as
`GET /current_config_former`. -/
structure Reports (d : Device P) : Prop where
  next_boot : (getCurrentConfig d).reply =
    some (configurationReply (boot (nvs d.preferences) : Device P).globals.config)
  former : (getCurrentConfig d).reply = (getCurrentConfigFormer d).reply

/-- The four strings that are reported are in flash and fit their buffers. -/
def Listed (f : Nvs) : Prop :=
  ∀ field : Field, field ≠ .mqttPassword →
    ∃ v ∈ ((f "config").getD Namespace.empty).str field.key, v.length ≤ 31

omit [Preferences P] in
theorem getCurrentConfigFormer_reply (d : Device P) :
    (getCurrentConfigFormer d).reply = some (configurationReply d.globals.config) := rfl

/-- However the handle is left, the route reads the namespace `config`. -/
theorem contents_begin_config {d : Device P} {ns : Namespace} (h : Synced d ns) :
    contents (begin_ "config" true d.preferences).2 = some ns := by
  obtain ho | hc := h.handle_cases
  · have hstarted : (handle d.preferences).isSome := by rw [ho]; rfl
    have hw : Writable d.preferences "config" ns := ⟨ho, h.nvs_eq⟩
    rw [contents_begin_read_started "config" hstarted, hw.contents_eq]
  · rw [contents_begin_read_closed "config" hc, h.nvs_eq]

theorem getCurrentConfig_reply {d : Device P} {ns : Namespace} (h : Synced d ns) :
    (getCurrentConfig d).reply = some (configurationReply (stored reportedDefaults ns)) := by
  have hcont := contents_begin_config h
  simp only [getCurrentConfig, getString_eq, getInt_eq, hcont]
  rfl

/-- What the next boot loads is what is in RAM. -/
theorem boot_config {d : Device P} {ns : Namespace} (h : Synced d ns) :
    (boot (nvs d.preferences) : Device P).globals.config = d.globals.config := by
  have hb := boot_synced (P := P) (nvs d.preferences)
  rw [h.nvs_eq, Option.getD_some] at hb
  rw [hb.config_eq, h.config_eq]

/-- A string that fits a buffer is told apart from every other. -/
theorem ofString_eq_iff {s t : CString} (h : t.length ≤ 31) :
    Json.ofString s.bytes = Json.ofString t.bytes ↔ s = t := by
  have ht : t.bytes.length ≤ Json.maxLength := by
    rw [Json.maxLength]
    exact h.trans (by omega)
  constructor
  · intro he
    rw [Json.ofString, Json.ofString, if_pos ht] at he
    split_ifs at he
    exact CString.ext (Json.string.inj he)
  · rintro rfl
    rfl

/-- The members of the reply, one for each argument. -/
theorem configurationResponse_inj {ssid password server username ssid' password' server'
    username' : CString} {port port' : ℤ}
    (h : configurationResponse ssid password server port username =
      configurationResponse ssid' password' server' port' username') :
    Json.ofString ssid.bytes = Json.ofString ssid'.bytes ∧
      Json.ofString password.bytes = Json.ofString password'.bytes ∧
      Json.ofString server.bytes = Json.ofString server'.bytes ∧ port = port' ∧
      Json.ofString username.bytes = Json.ofString username'.bytes := by
  have hm : ∀ key, (configurationResponse ssid password server port username).getMember key =
      (configurationResponse ssid' password' server' port' username').getMember key := by
    intro key
    rw [h]
  have hssid := Option.some.inj (hm (ascii "ssid"))
  have hpassword := Option.some.inj (hm (ascii "password"))
  have hserver := Option.some.inj (hm (ascii "mqtt_server"))
  have hport := Json.integer.inj (Option.some.inj (hm (ascii "mqtt_port")))
  have husername := Option.some.inj (hm (ascii "mqtt_username"))
  exact ⟨hssid, hpassword, hserver, hport, husername⟩

/-- Two replies are equal exactly when the five values are. -/
theorem configurationReply_eq_iff {c c' : Config} (h : ∀ f, (c' (.text f)).length ≤ 31) :
    configurationReply c = configurationReply c' ↔ ∀ s, s ≠ .text .mqttPassword → c s = c' s := by
  constructor
  · intro he
    have hresp := Body.json.inj (HttpReply.mk.inj he).2
    obtain ⟨hssid, hpassword, hserver, hport, husername⟩ := configurationResponse_inj hresp
    intro s hs
    cases s with
    | mqttPort => exact hport
    | text f =>
      cases f with
      | ssid => exact (ofString_eq_iff (h _)).mp hssid
      | password => exact (ofString_eq_iff (h _)).mp hpassword
      | mqttServer => exact (ofString_eq_iff (h _)).mp hserver
      | mqttUsername => exact (ofString_eq_iff (h _)).mp husername
      | mqttPassword => exact absurd rfl hs
  · intro he
    have htext : ∀ f : Field, f ≠ .mqttPassword → c (.text f) = c' (.text f) := by
      intro f hf
      exact he _ (fun hc => hf (Setting.text.inj hc))
    simp only [configurationReply]
    rw [htext .ssid (by decide), htext .password (by decide), htext .mqttServer (by decide),
      htext .mqttUsername (by decide), he .mqttPort (by decide)]

/-- The route and the loader have no default in common for a string, and only the loader
cuts. -/
theorem stored_text_iff {ns : Namespace} {f : Field} (hf : f ≠ .mqttPassword) :
    stored reportedDefaults ns (.text f) = effective defaults ns (.text f) ↔
      ∃ v ∈ ns.str f.key, v.length ≤ 31 := by
  simp only [stored, effective]
  cases hv : ns.str f.key with
  | none =>
    have hne : reportedDefaults (.text f) ≠ (defaults (.text f)).take 31 := by
      cases f with
      | mqttPassword => exact absurd rfl hf
      | _ => decide
    simp [hne]
  | some v =>
    simp only [Option.getD_some, Option.mem_def, Option.some.injEq, exists_eq_left']
    rw [eq_comm]
    exact CString.take_eq_self_iff

theorem stored_eq_effective_iff {ns : Namespace} :
    (∀ s, s ≠ .text .mqttPassword → stored reportedDefaults ns s = effective defaults ns s) ↔
      ∀ f : Field, f ≠ .mqttPassword → ∃ v ∈ ns.str f.key, v.length ≤ 31 := by
  constructor
  · intro h f hf
    have hs : Setting.text f ≠ .text .mqttPassword := fun hc => hf (Setting.text.inj hc)
    exact (stored_text_iff hf).mp (h _ hs)
  · intro h s hs
    cases s with
    | mqttPort => rfl
    | text f =>
      have hf : f ≠ .mqttPassword := fun hc => hs (congrArg Setting.text hc)
      exact (stored_text_iff hf).mpr (h f hf)

theorem reports_iff {d : Device P} {ns : Namespace} (h : Synced d ns) :
    Reports d ↔ Listed (nvs d.preferences) := by
  have hlen : ∀ f, (d.globals.config (.text f)).length ≤ 31 := fun f =>
    Nat.le_of_lt_succ (d.globals.text f).cstr_length_lt
  have hboth : Reports d ↔ (getCurrentConfig d).reply =
      some (configurationReply d.globals.config) := by
    constructor
    · intro hr
      rw [hr.former, getCurrentConfigFormer_reply]
    · intro hr
      refine ⟨?_, ?_⟩
      · rw [hr, boot_config h]
      · rw [hr, getCurrentConfigFormer_reply]
  rw [hboth, getCurrentConfig_reply h, Option.some_inj, configurationReply_eq_iff hlen,
    h.config_eq, stored_eq_effective_iff, Listed, h.nvs_eq, Option.getD_some]

/-- Once the strings are in flash they stay there. -/
theorem listed_step (d : Device P) (e : Event)
    (h : (∃ ns, Synced d ns) ∧ Listed (nvs d.preferences)) :
    (∃ ns, Synced (step d e) ns) ∧ Listed (nvs (step d e).preferences) := by
  obtain ⟨⟨ns, hs⟩, hl⟩ := h
  obtain hs' | ⟨g, ns₀, hs'⟩ := step_cases hs e
  · refine ⟨⟨_, hs'⟩, ?_⟩
    rw [Listed, hs'.nvs_eq, ← hs.nvs_eq]
    exact hl
  · refine ⟨⟨_, hs'⟩, fun f _ => ?_⟩
    rw [hs'.nvs_eq, Option.getD_some, g.saved_str]
    exact ⟨_, rfl, Nat.le_of_lt_succ (g.text f).cstr_length_lt⟩

theorem listed_boot (f : Nvs) : Listed (nvs (boot f : Device P).preferences) ↔ Listed f := by
  rw [Listed, (boot_synced f).nvs_eq, Option.getD_some]
  rfl

/-- In every state that a run from any flash reaches, the route reports what the next boot
loads and agrees with the former route exactly when the four strings are in flash and fit their
buffers. It does so in every state of the run exactly when they were there at the first
boot. -/
theorem run_reports_iff (f : Nvs) (es : List Event) :
    (Reports (run step (boot f : Device P) es) ↔
        Listed (nvs (run step (boot f : Device P) es).preferences)) ∧
      (Always step Reports (boot f : Device P) es ↔ Listed f) := by
  have hpoint : ∀ es, Reports (run step (boot f : Device P) es) ↔
      Listed (nvs (run step (boot f : Device P) es).preferences) := by
    intro es
    obtain ⟨ns, hs⟩ := run_synced (P := P) f es
    exact reports_iff hs
  refine ⟨hpoint es, ?_⟩
  constructor
  · intro halways
    exact (listed_boot f).mp ((hpoint []).mp (halways [] es rfl))
  · intro hl fs gs _
    have hboot : (∃ ns, Synced (boot f : Device P) ns) ∧
        Listed (nvs (boot f : Device P).preferences) :=
      ⟨⟨_, boot_synced f⟩, (listed_boot f).mpr hl⟩
    exact (hpoint fs).mpr (run_preserves listed_step hboot fs).2

/-- On blank flash the route reports an SSID that no boot loads. -/
theorem blank_flash_misreported :
    ¬ ∀ (f : Nvs) (es : List Event), Reports (run step (boot f : Device FlashObject) es) := by
  intro h
  have hboth := Option.some.inj ((h (fun _ => none) []).next_boot)
  have hresp := Body.json.inj (HttpReply.mk.inj hboth).2
  have hssid := Json.string.inj (configurationResponse_inj hresp).1
  exact absurd hssid (by decide +kernel)

end Esp32Automation.WifiServer
