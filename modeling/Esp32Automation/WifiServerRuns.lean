import Esp32Automation.WifiServer

/-!
# Runs of esp32_wifi_server_with_mqtt_remote_on_off

`reconnectMQTT` and `GET /current_config` close the handle that `setup` opened, and
nothing opens it again before the next boot. Until then an update is answered with
success and lost, and so is a reset. The same handle decides what `reconnectMQTT`
reads.
-/
namespace Esp32Automation.WifiServer
open Overlay Preferences Run

variable {P : Type} [Preferences P]

/-- A session that only reads changes no contents and leaves the handle closed. -/
theorem read_session (name : String) (p : P) :
    handle (end_ (begin_ name true p).2) = none ∧ nvs (end_ (begin_ name true p).2) = nvs p :=
  ⟨handle_end _, (nvs_end _).trans (nvs_begin_read name p)⟩

/-- After a restart the board runs on what the flash holds, with the handle open. -/
theorem settle_restarted {r : Reaction (Device P)} {ns : Namespace}
    (hn : nvs r.device.preferences "config" = some ns) (hx : r.exit ≠ .returned) :
    Synced (settle r) ns ∧ IsOpen (settle r).preferences := by
  have hb := boot_synced (P := P) (nvs r.device.preferences)
  have hw := boot_writable (P := P) (nvs r.device.preferences)
  rw [hn, Option.getD_some] at hb
  rw [settle, if_neg hx]
  exact ⟨hb, hw.handle_eq⟩

/-- The events after which the handle is closed. -/
def Event.Closes (d : Device P) (e : Event) : Prop :=
  e = .getCurrentConfig ∨ e = .loopHead ∧ d.Reconnects

/-- An event without an accepted document, other than a reset, leaves RAM and flash
alone. -/
theorem react_quiet {e : Event} (hd : e.document = none) (hr : e ≠ .resetPin true)
    (d : Device P) :
    (react e d).device.globals = d.globals ∧
      nvs (react e d).device.preferences = nvs d.preferences ∧
      (e.Closes d ∧ handle (react e d).device.preferences = none ∨
        ¬ e.Closes d ∧ (react e d).device.preferences = d.preferences) := by
  cases e with
  | getCurrentConfig =>
    obtain ⟨hh, hn⟩ := read_session "config" d.preferences
    exact ⟨rfl, hn, .inl ⟨.inl rfl, hh⟩⟩
  | loopHead =>
    by_cases hc : d.Reconnects
    · obtain ⟨hh, hn⟩ := read_session "mqtt" d.preferences
      simp only [react, if_pos hc]
      exact ⟨rfl, hn, .inl ⟨.inr ⟨rfl, hc⟩, hh⟩⟩
    · simp only [react, if_neg hc]
      exact ⟨rfl, rfl, .inr ⟨by simp [Event.Closes, hc], rfl⟩⟩
  | getConfig args =>
    by_cases ha : requiredFields.all args.hasArg
    · simp [Event.document, ha] at hd
    · simp only [react, getConfig, ha]
      exact ⟨rfl, rfl, .inr ⟨by simp [Event.Closes], rfl⟩⟩
  | postConfigWithPayload args =>
    have hsame : (react (.postConfigWithPayload args) d).device = d := by
      by_cases ha : args.hasArg "plain"
      · cases hp : deserializeJson (args.arg "plain") with
        | error err => simp [react, postConfigWithPayload, ha, hp, Reaction.replying]
        | ok jsonDoc => simp [Event.document, ha, hp, Except.toOption] at hd
      · simp [react, postConfigWithPayload, ha, Reaction.replying]
    rw [hsame]
    exact ⟨rfl, rfl, .inr ⟨by simp [Event.Closes], rfl⟩⟩
  | resetPin low =>
    cases low with
    | true => exact absurd rfl hr
    | false => exact ⟨rfl, rfl, .inr ⟨by simp [Event.Closes], rfl⟩⟩
  | _ => exact ⟨rfl, rfl, .inr ⟨by simp [Event.Closes], rfl⟩⟩

theorem step_quiet {d : Device P} {ns : Namespace} (h : Synced d ns) {e : Event}
    (hd : e.document = none) (hr : e ≠ .resetPin true) : Synced (step d e) ns := by
  obtain ⟨hg, hn, hh⟩ := react_quiet hd hr d
  have hns : nvs (react e d).device.preferences "config" = some ns := by rw [hn, h.nvs_eq]
  by_cases hx : (react e d).exit = .returned
  · have hs : step d e = (react e d).device := by rw [step, settle, if_pos hx]
    rw [hs]
    refine ⟨hns, by rw [hg, h.config_eq], ?_⟩
    obtain ⟨-, hnone⟩ | ⟨-, hsame⟩ := hh
    · exact .inr hnone
    · rw [hsame]
      exact h.handle_cases
  · exact (settle_restarted hns hx).1

/-- Every accepted document takes the same path. -/
theorem react_document {e : Event} {doc : Json} (h : doc ∈ e.document) (d : Device P) :
    react e d = updateAndRestart doc d := by
  cases e with
  | getConfig args =>
    by_cases ha : requiredFields.all args.hasArg
    · simp only [Event.document, ha, if_true, Option.mem_def, Option.some.injEq] at h
      simp only [react, getConfig, ha, if_true, h]
    · simp [Event.document, ha] at h
  | postConfigWithPayload args =>
    by_cases ha : args.hasArg "plain"
    · simp only [Event.document, ha, if_true] at h
      have hp := mem_deserializeJson.mp h
      simp only [react, postConfigWithPayload, ha, if_true, hp]
    · simp [Event.document, ha] at h
  | _ => simp [Event.document] at h

/-- A copy from null ends the program before anything is saved. -/
theorem step_crashed {d : Device P} {ns : Namespace} (h : Synced d ns) {e : Event} {doc : Json}
    (hd : doc ∈ e.document) (hu : handleConfigurationUpdate doc d = none) :
    Synced (step d e) ns := by
  have hr : react e d = ⟨d, .crashed, none, []⟩ := by
    rw [react_document hd, updateAndRestart, hu]
  have hx : (react e d).exit ≠ .returned := by simp [hr]
  have hn : nvs (react e d).device.preferences "config" = some ns := by rw [hr, h.nvs_eq]
  exact (settle_restarted hn hx).1

/-- Through an open handle an update is saved, through a closed one it is not. -/
theorem step_updated {d d' : Device P} {ns : Namespace} (h : Synced d ns) {e : Event} {doc : Json}
    (hd : doc ∈ e.document) (hu : handleConfigurationUpdate doc d = some d') :
    react e d = ⟨d', .restarted, some .updated, []⟩ ∧
      d'.globals.config = overlay (updatePaired doc) d.globals.config ∧
      (IsOpen d.preferences → Synced (step d e) (Write.applyAll d'.globals.saveConfiguration ns)) ∧
      (handle d.preferences = none → Synced (step d e) ns) := by
  have hr : react e d = ⟨d', .restarted, some .updated, []⟩ := by
    rw [react_document hd, updateAndRestart, hu]
  have hx : (react e d).exit ≠ .returned := by simp [hr]
  obtain ⟨g, hg, rfl⟩ := Option.map_eq_some_iff.mp hu
  refine ⟨hr, copyDocument_config hg, fun ho => ?_, fun hc => ?_⟩
  · have hw := Write.execAll_writable g.saveConfiguration ⟨ho, h.nvs_eq⟩
    have hn : nvs (react e d).device.preferences "config" =
        some (Write.applyAll g.saveConfiguration ns) := by
      rw [hr]
      exact hw.nvs_eq
    exact (settle_restarted hn hx).1
  · have hsame : Write.execAll g.saveConfiguration d.preferences = d.preferences :=
      Write.execAll_refused _ (by simp [hc])
    have hn : nvs (react e d).device.preferences "config" = some ns := by
      rw [hr]
      simp only [hsame, h.nvs_eq]
    exact (settle_restarted hn hx).1

/-- The same for a reset, which saves the defaults. -/
theorem step_reset {d : Device P} {ns : Namespace} (h : Synced d ns) :
    (IsOpen d.preferences → ∃ g : Globals, g.config = defaults ∧
      Synced (step d (.resetPin true)) (Write.applyAll g.saveConfiguration Namespace.empty)) ∧
    (handle d.preferences = none → Synced (step d (.resetPin true)) ns) := by
  have hx : (react (.resetPin true) d).exit ≠ .returned := by simp [react, handleReset]
  have hg : (react (.resetPin true) d).device.globals.config = defaults := by
    rw [← effective_empty]
    funext s
    cases s with
    | text f => cases f <;> simp [react, handleReset, effective, Namespace.empty]
    | mqttPort => simp [react, handleReset, effective, Namespace.empty]
  constructor
  · intro ho
    obtain ⟨-, hh, hn⟩ := clear_ok ho
    have hw : Writable (clear true d.preferences).2 "config" Namespace.empty :=
      ⟨hh.trans ho, by simp [hn, h.nvs_eq]⟩
    have hsaved := Write.execAll_writable
      (react (.resetPin true) d).device.globals.saveConfiguration hw
    exact ⟨_, hg, (settle_restarted hsaved.nvs_eq hx).1⟩
  · intro hc
    have hclear : clear true d.preferences = (false, d.preferences) :=
      clear_refused true (by simp [hc])
    have hsame : (react (.resetPin true) d).device.preferences = d.preferences := by
      simp only [react, handleReset, if_true, hclear]
      exact Write.execAll_refused _ (by simp [hc])
    have hn : nvs (react (.resetPin true) d).device.preferences "config" = some ns := by
      rw [hsame, h.nvs_eq]
    exact (settle_restarted hn hx).1

/-- What a step can do to the flash: nothing, or a complete save. -/
theorem step_cases {d : Device P} {ns : Namespace} (h : Synced d ns) (e : Event) :
    Synced (step d e) ns ∨
      ∃ (g : Globals) (ns₀ : Namespace),
        Synced (step d e) (Write.applyAll g.saveConfiguration ns₀) := by
  cases hd : e.document with
  | some doc =>
    cases hu : handleConfigurationUpdate doc d with
    | none => exact .inl (step_crashed h hd hu)
    | some d' =>
      obtain ⟨-, -, hopen, hclosed⟩ := step_updated h hd hu
      obtain ho | hc := h.handle_cases
      · exact .inr ⟨_, _, hopen ho⟩
      · exact .inl (hclosed hc)
  | none =>
    by_cases hr : e = .resetPin true
    · subst hr
      obtain ⟨hopen, hclosed⟩ := step_reset h
      obtain ho | hc := h.handle_cases
      · obtain ⟨g, -, hs⟩ := hopen ho
        exact .inr ⟨g, _, hs⟩
      · exact .inl (hclosed hc)
    · exact .inl (step_quiet h hd hr)

theorem step_synced (d : Device P) (e : Event) (h : ∃ ns, Synced d ns) :
    ∃ ns, Synced (step d e) ns := by
  obtain ⟨ns, hs⟩ := h
  obtain hs' | ⟨g, ns₀, hs'⟩ := step_cases hs e
  · exact ⟨_, hs'⟩
  · exact ⟨_, hs'⟩

theorem run_synced (f : Nvs) (es : List Event) :
    ∃ ns, Synced (run step (boot f : Device P) es) ns :=
  run_preserves step_synced ⟨_, boot_synced f⟩ es

/-- The handle is open after a boot, and stays open until an event closes it. -/
theorem isOpen_step (d : Device P) (e : Event) :
    IsOpen (step d e).preferences ↔
      (react e d).exit ≠ .returned ∨ IsOpen d.preferences ∧ ¬ e.Closes d := by
  by_cases hx : (react e d).exit = .returned
  · have hs : step d e = (react e d).device := by rw [step, settle, if_pos hx]
    have hd : e.document = none := by
      cases hd : e.document with
      | none => rfl
      | some doc =>
        rw [react_document hd, updateAndRestart] at hx
        cases hu : handleConfigurationUpdate doc d <;> simp [hu] at hx
    have hr : e ≠ .resetPin true := by
      rintro rfl
      simp [react, handleReset] at hx
    rw [hs]
    obtain ⟨-, -, ⟨hcl, hnone⟩ | ⟨hcl, hsame⟩⟩ := react_quiet hd hr d
    · simp [hx, hcl, IsOpen, hnone]
    · simp [hx, hcl, hsame]
  · have hs : step d e = boot (nvs (react e d).device.preferences) := by
      rw [step, settle, if_neg hx]
    have ho : IsOpen (step d e).preferences := hs ▸ (boot_writable _).handle_eq
    exact ⟨fun _ => .inl hx, fun _ => ho⟩

/-- An operation that is to change the configuration takes effect across its restart. -/
def TakesEffect (d : Device P) (e : Event) : Prop :=
  ((∃ r ∈ (react e d).reply, r.isUpdated) →
    (step d e).globals.config = (react e d).device.globals.config) ∧
  (e = .resetPin true → (step d e).globals.config = defaults)

/-- The handle is still open, or there is nothing to change: the values a well-typed
document sets are in RAM already, and before a reset the defaults are. -/
def Permitted (d : Device P) (e : Event) : Prop :=
  IsOpen d.preferences ∨
    (∀ doc ∈ e.document, (∀ s ∈ copied doc, HoldsString doc s) →
      ∀ s, ∀ v ∈ updatePaired doc s, v = d.globals.config s) ∧
    (e = .resetPin true → d.globals.config = defaults)

theorem configurationResponse_status (ssid password server : CString) (port : ℤ)
    (username : CString) :
    (configurationResponse ssid password server port username).charPtr "status" = none := rfl

/-- Only an accepted document is answered as updated. -/
theorem reply_quiet {e : Event} (hd : e.document = none) {d : Device P} {r : HttpReply}
    (hr : r ∈ (react e d).reply) : r.isUpdated = false := by
  have herror : ∀ (code : ℕ) (message : String),
      (HttpReply.mk code (createErrorResponse .null message)).isUpdated = false := by
    intro code message
    simp [HttpReply.isUpdated, HttpReply.error_not_isSuccess]
  cases e with
  | getRoot =>
    obtain rfl := Option.some.inj hr
    decide
  | getConfig args =>
    by_cases ha : requiredFields.all args.hasArg
    · simp [Event.document, ha] at hd
    · simp only [react, getConfig, ha] at hr
      obtain rfl := Option.some.inj hr
      exact herror _ _
  | postConfigWithPayload args =>
    by_cases ha : args.hasArg "plain"
    · cases hp : deserializeJson (args.arg "plain") with
      | error err =>
        simp only [react, postConfigWithPayload, ha, hp] at hr
        obtain rfl := Option.some.inj hr
        exact herror _ _
      | ok jsonDoc => simp [Event.document, ha, hp, Except.toOption] at hd
    · simp only [react, postConfigWithPayload, ha] at hr
      obtain rfl := Option.some.inj hr
      exact herror _ _
  | getCurrentConfig =>
    obtain rfl := Option.some.inj hr
    simp [HttpReply.isUpdated, HttpReply.isSuccess, configurationResponse_status]
  | getCurrentConfigFormer =>
    obtain rfl := Option.some.inj hr
    simp [HttpReply.isUpdated, HttpReply.isSuccess, configurationResponse_status]
  | loopHead =>
    simp only [react] at hr
    split_ifs at hr <;> simp [Reaction.idle] at hr
  | resetPin low => cases low <;> simp [react, handleReset, Reaction.idle] at hr
  | _ => simp [react, Reaction.idle] at hr

/-- A reply that says so belongs to a document that was carried out. -/
theorem reply_isUpdated_iff (e : Event) (d : Device P) :
    (∃ r ∈ (react e d).reply, r.isUpdated) ↔
      ∃ doc ∈ e.document, (handleConfigurationUpdate doc d).isSome := by
  constructor
  · rintro ⟨r, hr, hup⟩
    cases hd : e.document with
    | none => simp [reply_quiet hd hr] at hup
    | some doc =>
      refine ⟨doc, rfl, ?_⟩
      cases hu : handleConfigurationUpdate doc d with
      | none => simp [react_document hd, updateAndRestart, hu] at hr
      | some d' => rfl
  · rintro ⟨doc, hd, hsome⟩
    obtain ⟨d', hu⟩ := Option.isSome_iff_exists.mp hsome
    refine ⟨.updated, ?_, HttpReply.updated_isUpdated⟩
    rw [react_document hd, updateAndRestart, hu]
    rfl

/-- What a closed handle keeps of an update that is carried out. -/
theorem update_closed_iff {d : Device P} {ns : Namespace} (h : Synced d ns)
    (hc : handle d.preferences = none) {e : Event} {doc : Json} (hd : doc ∈ e.document)
    (hsome : (handleConfigurationUpdate doc d).isSome) :
    (step d e).globals.config = (react e d).device.globals.config ↔
      ∀ s, ∀ v ∈ updatePaired doc s, v = d.globals.config s := by
  obtain ⟨d', hu⟩ := Option.isSome_iff_exists.mp hsome
  obtain ⟨hreact, hcfg, -, hclosed⟩ := step_updated h hd hu
  have hloaded : (step d e).globals.config = d.globals.config := by
    rw [(hclosed hc).config_eq, h.config_eq]
  rw [hreact, hloaded, hcfg, eq_comm]
  exact overlay_eq_self_iff

/-- A closed handle loses an update unless there is nothing to change. -/
theorem takesEffect_closed {d : Device P} {ns : Namespace} (h : Synced d ns)
    (hc : handle d.preferences = none) (e : Event) : TakesEffect d e ↔
      (∀ doc ∈ e.document, (∀ s ∈ copied doc, HoldsString doc s) →
        ∀ s, ∀ v ∈ updatePaired doc s, v = d.globals.config s) ∧
      (e = .resetPin true → d.globals.config = defaults) := by
  refine and_congr ?_ ?_
  · rw [reply_isUpdated_iff]
    constructor
    · intro hkeep doc hd htyped
      have hsome := (handleConfigurationUpdate_isSome doc d).mpr htyped
      exact (update_closed_iff h hc hd hsome).mp (hkeep ⟨doc, hd, hsome⟩)
    · rintro hsame ⟨doc, hd, hsome⟩
      have htyped := (handleConfigurationUpdate_isSome doc d).mp hsome
      exact (update_closed_iff h hc hd hsome).mpr (hsame doc hd htyped)
  · refine imp_congr_right fun he => ?_
    subst he
    have hs := (step_reset h).2 hc
    rw [hs.config_eq, h.config_eq]

/-- Through an open handle every update and every reset takes effect. -/
theorem takesEffect_open {d : Device P} {ns : Namespace} (h : Synced d ns)
    (ho : IsOpen d.preferences) (e : Event) : TakesEffect d e := by
  constructor
  · rw [reply_isUpdated_iff]
    rintro ⟨doc, hd, hsome⟩
    obtain ⟨d', hu⟩ := Option.isSome_iff_exists.mp hsome
    obtain ⟨hreact, -, hopen, -⟩ := step_updated h hd hu
    rw [(hopen ho).config_eq, effective_saveConfiguration, hreact]
  · rintro rfl
    obtain ⟨g, hg, hs⟩ := (step_reset h).1 ho
    rw [hs.config_eq, effective_saveConfiguration, hg]

/-- A step has the effect it is to have exactly when it is permitted. -/
theorem permitted_iff_takesEffect (d : Device P) (e : Event) (h : ∃ ns, Synced d ns) :
    Permitted d e ↔ TakesEffect d e := by
  obtain ⟨ns, hs⟩ := h
  obtain ho | hc := hs.handle_cases
  · exact ⟨fun _ => takesEffect_open hs ho e, fun _ => .inl ho⟩
  · have hclosed : ¬ IsOpen d.preferences := by simp [IsOpen, hc]
    rw [takesEffect_closed hs hc e]
    exact ⟨fun hp => hp.resolve_left hclosed, fun hp => .inr hp⟩

/-- In every run from boot, every operation that is to change the configuration
takes effect across its restart exactly when every step is permitted. -/
theorem run_takesEffect_iff (f : Nvs) (es : List Event) :
    Along step Permitted (boot f : Device P) es ↔ Along step TakesEffect (boot f : Device P) es :=
  along_congr step_synced permitted_iff_takesEffect ⟨_, boot_synced f⟩ es

/-- The values of an ordinary network. -/
def homeArgs : Args
  | "ssid" => some (ascii "home")
  | "password" => some (ascii "correct horse")
  | "mqtt_server" => some (ascii "broker.local")
  | "mqtt_port" => some (ascii "1883")
  | "mqtt_username" => some (ascii "board")
  | "mqtt_password" => some (ascii "secret")
  | _ => none

/-- On a fresh board, looking at the configuration first makes the update that follows
be answered as updated and lost. -/
theorem update_lost_after_current_config :
    ¬ ∀ (f : Nvs) (es : List Event), Along step TakesEffect (boot f : Device FlashObject) es := by
  intro h
  obtain ⟨-, hlost, -⟩ := h (fun _ => none) [.getCurrentConfig, .getConfig homeArgs]
  have hreply : ∃ r ∈ (react (.getConfig homeArgs)
      (step (boot fun _ => none : Device FlashObject) .getCurrentConfig)).reply, r.isUpdated := by
    decide +kernel
  exact absurd (congrFun (hlost.1 hreply) (.text .ssid)) (by decide +kernel)

/-- All six keys are there. -/
structure Complete (ns : Namespace) : Prop where
  str : ∀ f : Field, (ns.str f.key).isSome
  int : (ns.int "mqtt_port").isSome

/-- A complete save leaves all six keys. -/
theorem complete_applyAll (g : Globals) (ns : Namespace) :
    Complete (Write.applyAll g.saveConfiguration ns) where
  str f := by rw [g.saved_str ns f]; rfl
  int := by rw [g.saved_int ns]; rfl

/-- The connection attempt uses exactly what the namespace holds. -/
structure Uses (call : ConnectCall) (ns : Namespace) : Prop where
  server : ns.str "mqtt_server" = some call.server
  port : ns.int "mqtt_port" = some (call.port : ℤ)
  username : ns.str "mqtt_username" = some call.username
  password : ns.str "mqtt_password" = some call.password

/-- Every attempt made on the event uses what is persisted in `config`. -/
def AttemptsExact (d : Device P) (e : Event) : Prop :=
  e = .loopHead → d.Reconnects → ∀ ns ∈ nvs d.preferences "config",
    Uses (reconnectMQTT d.preferences).1 ns

/-- What the namespace `mqtt` holds, with the defaults of `reconnectMQTT` for missing
keys, agrees with the namespace `config`; the port is compared as a `uint16_t`. -/
structure MqttAgrees (f : Nvs) (ns : Namespace) : Prop where
  server : ns.str "mqtt_server" =
    some ((((f "mqtt").getD Namespace.empty).str "mqtt_server").getD (.lit ""))
  port : ns.int "mqtt_port" =
    some (toPort ((((f "mqtt").getD Namespace.empty).int "mqtt_port").getD 1883) : ℤ)
  username : ns.str "mqtt_username" =
    some ((((f "mqtt").getD Namespace.empty).str "mqtt_username").getD (.lit ""))
  password : ns.str "mqtt_password" =
    some ((((f "mqtt").getD Namespace.empty).str "mqtt_password").getD (.lit ""))

/-- When an attempt is made with the handle open, the persisted port is a TCP port; when it
is made with the handle closed, the namespace `mqtt` and the defaults happen to agree with
what is persisted. -/
def AttemptPermitted (d : Device P) (e : Event) : Prop :=
  e = .loopHead → d.Reconnects → ∀ ns ∈ nvs d.preferences "config",
    (IsOpen d.preferences → ∀ n ∈ ns.int "mqtt_port", 0 ≤ n ∧ n ≤ 65535) ∧
    (¬ IsOpen d.preferences → MqttAgrees (nvs d.preferences) ns)

/-- The attempt reads the namespace that is open after `begin("mqtt", true)`. -/
theorem reconnectMQTT_call (p : P) {o : Option Namespace}
    (ho : contents (begin_ "mqtt" true p).2 = o) :
    (reconnectMQTT p).1 =
      ⟨((o.getD Namespace.empty).str "mqtt_server").getD (.lit ""),
        toPort (((o.getD Namespace.empty).int "mqtt_port").getD 1883),
        ((o.getD Namespace.empty).str "mqtt_username").getD (.lit ""),
        ((o.getD Namespace.empty).str "mqtt_password").getD (.lit "")⟩ := by
  simp only [reconnectMQTT, getString_eq, getInt_eq, ho]
  cases o <;> rfl

/-- An attempt through the open handle reads `config`, and only the port can be wrong. -/
theorem uses_open {p : P} {ns : Namespace} (hn : nvs p "config" = some ns) (hc : Complete ns)
    (ho : IsOpen p) :
    Uses (reconnectMQTT p).1 ns ↔ ∀ n ∈ ns.int "mqtt_port", 0 ≤ n ∧ n ≤ 65535 := by
  have hcont : contents (begin_ "mqtt" true p).2 = some ns := by
    rw [contents_begin_read_started "mqtt" (by rw [ho]; rfl), contents, ho]
    exact hn
  have hstr : ∀ f : Field, ∃ v, ns.str f.key = some v := fun f =>
    Option.isSome_iff_exists.mp (hc.str f)
  obtain ⟨server, hserver⟩ := hstr .mqttServer
  obtain ⟨username, husername⟩ := hstr .mqttUsername
  obtain ⟨password, hpassword⟩ := hstr .mqttPassword
  obtain ⟨port, hport⟩ := Option.isSome_iff_exists.mp hc.int
  simp only [Field.key] at hserver husername hpassword
  rw [reconnectMQTT_call p hcont]
  simp only [Option.getD_some, hserver, husername, hpassword, hport, Option.mem_def,
    Option.some.injEq, forall_eq']
  rw [← toPort_eq_iff]
  constructor
  · intro hu
    have hp := hu.port
    rw [hport] at hp
    exact (Option.some.inj hp).symm
  · intro hp
    exact ⟨hserver, by rw [hport, hp], husername, hpassword⟩

theorem attemptPermitted_iff (d : Device P) (e : Event)
    (h : ∃ ns, Synced d ns ∧ Complete ns) : AttemptPermitted d e ↔ AttemptsExact d e := by
  obtain ⟨ns, hs, hc⟩ := h
  refine imp_congr_right fun _ => imp_congr_right fun _ => ?_
  simp only [hs.nvs_eq, Option.mem_def, Option.some.injEq, forall_eq']
  obtain ho | hclosed := hs.handle_cases
  · rw [uses_open hs.nvs_eq hc ho]
    simp [ho]
  · have hnot : ¬ IsOpen d.preferences := by simp [IsOpen, hclosed]
    rw [reconnectMQTT_call _ (contents_begin_read_closed "mqtt" hclosed)]
    simp only [hnot, false_implies, true_and, not_false_eq_true, true_implies]
    exact ⟨fun h => ⟨h.server, h.port, h.username, h.password⟩,
      fun h => ⟨h.server, h.port, h.username, h.password⟩⟩

theorem step_complete (d : Device P) (e : Event) (h : ∃ ns, Synced d ns ∧ Complete ns) :
    ∃ ns, Synced (step d e) ns ∧ Complete ns := by
  obtain ⟨ns, hs, hc⟩ := h
  obtain hs' | ⟨g, ns₀, hs'⟩ := step_cases hs e
  · exact ⟨ns, hs', hc⟩
  · exact ⟨_, hs', complete_applyAll g ns₀⟩

/-- In every run from boot on a flash that holds all six keys, every connection attempt
uses exactly the persisted broker, port, user and password exactly when every attempt is
permitted. -/
theorem run_attemptsExact_iff (f : Nvs) (ns : Namespace) (hf : f "config" = some ns)
    (hc : Complete ns) (es : List Event) :
    Along step AttemptPermitted (boot f : Device P) es ↔
      Along step AttemptsExact (boot f : Device P) es := by
  have hboot := boot_synced (P := P) f
  rw [hf, Option.getD_some] at hboot
  exact along_congr step_complete attemptPermitted_iff ⟨ns, hboot, hc⟩ es

/-- What a fresh board would save. -/
def savedDefaults : Namespace :=
  Write.applyAll (boot fun _ => none : Device FlashObject).globals.saveConfiguration Namespace.empty

/-- A flash with these six keys and nothing else. -/
def savedFlash : Nvs := fun name => if name = "config" then some savedDefaults else none

theorem run_attemptsExact_iff_saved :
    Along step AttemptPermitted (boot savedFlash : Device FlashObject)
        [.wifiStatus true, .loopHead, .mqttLost, .loopHead] ↔
      Along step AttemptsExact (boot savedFlash : Device FlashObject)
        [.wifiStatus true, .loopHead, .mqttLost, .loopHead] :=
  run_attemptsExact_iff savedFlash savedDefaults rfl (complete_applyAll _ _) _

/-- The second connection does not use the persisted broker. -/
theorem second_attempt_wrong :
    ¬ ∀ (f : Nvs) (ns : Namespace), f "config" = some ns → Complete ns →
      ∀ es, Along step AttemptsExact (boot f : Device FlashObject) es := by
  intro h
  obtain ⟨-, -, -, hsecond, -⟩ := h savedFlash savedDefaults rfl (complete_applyAll _ _)
    [.wifiStatus true, .loopHead, .mqttLost, .loopHead]
  have hsome : (nvs (run step (boot savedFlash : Device FlashObject)
      [.wifiStatus true, .loopHead, .mqttLost]).preferences "config").isSome := by
    decide +kernel
  have hwrong : ∀ ns ∈ nvs (run step (boot savedFlash : Device FlashObject)
      [.wifiStatus true, .loopHead, .mqttLost]).preferences "config",
      ns.str "mqtt_server" ≠ some (reconnectMQTT (run step (boot savedFlash : Device FlashObject)
        [.wifiStatus true, .loopHead, .mqttLost]).preferences).1.server := by
    decide +kernel
  obtain ⟨ns, hns⟩ := Option.isSome_iff_exists.mp hsome
  exact hwrong ns hns (hsecond rfl (by decide +kernel) ns hns).server

end Esp32Automation.WifiServer
