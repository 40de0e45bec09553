import Esp32Automation.ApWifi

/-!
# Runs of ap_wifi_plus_mqtt_connection_after_config

The abstract machine keeps a `Config` and knows two changes: back to the defaults, and
an update by the settings a document names. Every step of the sketch follows it, and
between two steps the configuration in RAM is the one the next boot would load.
-/
namespace Esp32Automation.ApWifi
open Overlay Preferences Run

variable {P : Type} [Preferences P]

/-- The document an event delivers, when the sketch accepts it. -/
def Event.document : Event → Option Json
  | .getConfig args =>
    if requiredFields.all args.hasArg then some (configDocument args) else none
  | .postUpdateConfig args =>
    if args.hasArg "plain" then (deserializeJson (args.arg "plain")).toOption else none
  | .mqtt topic payload =>
    if topic = .lit "esp32/config" then (deserializeJson payload).toOption else none
  | .getRoot | .resetPin _ | .powerCycle => none

/-- A change of the abstract machine. -/
inductive Change where
  | reset
  | replace (u : ∀ s : Setting, Option s.Val)

def Change.apply : Config → Change → Config
  | _, .reset => defaults
  | c, .replace u => overlay u c

/-- A step of the abstract machine, which may be idle. -/
def Change.step (c : Config) (o : Option Change) : Config := o.elim c (Change.apply c)

/-- The change an event asks for; rejected events ask for none. -/
def Event.change : Event → Option Change
  | .resetPin true => some .reset
  | e => e.document.map fun doc => .replace (update doc)

/-- The string settings an accepted document names hold JSON strings. -/
def Event.WellTyped (e : Event) : Prop :=
  ∀ doc ∈ e.document, ∀ s ∈ Setting.all, HoldsString doc s

instance : DecidablePred Event.WellTyped := fun e =>
  inferInstanceAs (Decidable (∀ doc ∈ e.document, ∀ s ∈ Setting.all, HoldsString doc s))

/-- The reply to an accepted document. -/
def Event.reply : Event → Option HttpReply
  | .mqtt _ _ => none
  | _ => some .updated

/-- Every accepted document takes the same path. -/
theorem react_document {e : Event} {doc : Json} (h : doc ∈ e.document) (d : Device P) :
    react e d = updateAndRestart doc e.reply d := by
  cases e with
  | getRoot => simp [Event.document] at h
  | getConfig args =>
    by_cases ha : requiredFields.all args.hasArg
    · simp only [Event.document, ha, if_true, Option.mem_def, Option.some.injEq] at h
      simp only [react, getConfig, ha, if_true, h, Event.reply]
    · simp [Event.document, ha] at h
  | postUpdateConfig args =>
    by_cases ha : args.hasArg "plain"
    · simp only [Event.document, ha, if_true] at h
      have hp := mem_deserializeJson.mp h
      simp only [react, postUpdateConfig, ha, if_true, hp, Event.reply]
    · simp [Event.document, ha] at h
  | mqtt topic payload =>
    by_cases ht : topic = .lit "esp32/config"
    · simp only [Event.document, ht, if_true] at h
      have hp := mem_deserializeJson.mp h
      simp only [react, mqttCallback, ht, if_true, hp, Event.reply]
    · simp [Event.document, ht] at h
  | resetPin low => simp [Event.document] at h
  | powerCycle => simp [Event.document] at h

omit [Preferences P] in
/-- The command branch touches the output pin only. -/
theorem handleCommand_frame (doc : Json) (d : Device P) :
    ∃ level, (handleCommand doc d).device = { d with outputPin := level } := by
  unfold handleCommand
  split
  · split_ifs <;> exact ⟨_, rfl⟩
  · exact ⟨_, rfl⟩

/-- An event that asks for no change touches the output pin at most. -/
theorem react_rejected {e : Event} (h : e.change = none) (d : Device P) :
    ∃ level, (react e d).device = { d with outputPin := level } := by
  cases e with
  | getRoot => exact ⟨_, rfl⟩
  | getConfig args =>
    by_cases ha : requiredFields.all args.hasArg
    · simp [Event.change, Event.document, ha] at h
    · refine ⟨d.outputPin, ?_⟩
      simp [react, getConfig, ha, Reaction.replying]
  | postUpdateConfig args =>
    refine ⟨d.outputPin, ?_⟩
    by_cases ha : args.hasArg "plain"
    · cases hp : deserializeJson (args.arg "plain") with
      | error err => simp [react, postUpdateConfig, ha, hp, Reaction.replying]
      | ok jsonDoc => simp [Event.change, Event.document, ha, hp, Except.toOption] at h
    · simp [react, postUpdateConfig, ha, Reaction.replying]
  | mqtt topic payload =>
    cases hp : deserializeJson payload with
    | error err => exact ⟨d.outputPin, by simp [react, mqttCallback, hp, Reaction.idle]⟩
    | ok jsonDoc =>
      by_cases ht : topic = .lit "esp32/config"
      · simp [Event.change, Event.document, ht, hp, Except.toOption] at h
      · by_cases hc : topic = .lit "esp32/command"
        · obtain ⟨level, hf⟩ := handleCommand_frame jsonDoc d
          exact ⟨level, by simp only [react, mqttCallback, hp, if_neg ht, if_pos hc, hf]⟩
        · exact ⟨d.outputPin, by simp [react, mqttCallback, hp, ht, hc, Reaction.idle]⟩
  | resetPin low =>
    cases low with
    | true => simp [Event.change] at h
    | false => exact ⟨_, rfl⟩
  | powerCycle => exact ⟨_, rfl⟩

theorem copyDocument_eq (doc : Json) (g : Globals) :
    copyDocument doc g = g.copySettings doc Setting.all := rfl

/-- The handler finds a source for every copy exactly when the document is well typed. -/
theorem handleConfigurationUpdate_isSome (doc : Json) (d : Device P) :
    (handleConfigurationUpdate doc d).isSome ↔ ∀ s ∈ Setting.all, HoldsString doc s := by
  rw [handleConfigurationUpdate, Option.isSome_map, copyDocument_eq]
  exact Globals.copySettings_isSome doc Setting.all d.globals

/-- It overlays the configuration in RAM and saves all of it. -/
theorem handleConfigurationUpdate_spec {doc : Json} {d d' : Device P} {ns : Namespace}
    (h : handleConfigurationUpdate doc d = some d') (hw : Writable d.preferences "config" ns) :
    d'.globals.config = overlay (update doc) d.globals.config ∧
      Writable d'.preferences "config" (Write.applyAll d'.globals.saveConfiguration ns) ∧
      nvs d'.preferences =
        (nvs d.preferences).modify "config" (Write.applyAll d'.globals.saveConfiguration) := by
  obtain ⟨g, hg, rfl⟩ := Option.map_eq_some_iff.mp h
  rw [copyDocument_eq] at hg
  have hc := Globals.copySettings_config hg
  have hmix : mix (· ∈ Setting.all) d.globals.config (overlay (update doc) d.globals.config) =
      overlay (update doc) d.globals.config := mix_eq_new_iff.mpr fun s _ => Setting.mem_all s
  refine ⟨hc.trans hmix, Write.execAll_writable _ hw, ?_⟩
  exact Write.execAll_nvs _ hw.handle_eq

/-- After a restart the board runs on what the flash holds. -/
theorem settle_restarted {r : Reaction (Device P)} {ns : Namespace}
    (hw : Writable r.device.preferences "config" ns) (he : r.exit ≠ .returned) :
    Synced (settle r) ns := by
  have hb := boot_synced (P := P) (nvs r.device.preferences)
  rw [hw.nvs_eq, Option.getD_some] at hb
  rw [settle, if_neg he]
  exact hb

/-- A rejected event changes neither side. -/
theorem step_rejected {d : Device P} {ns : Namespace} (h : Synced d ns) {e : Event}
    (hc : e.change = none) : Synced (step d e) ns := by
  obtain ⟨level, hl⟩ := react_rejected hc d
  have hw : Writable (react e d).device.preferences "config" ns := by
    rw [hl]
    exact h.writable
  by_cases hx : (react e d).exit = .returned
  · have hs : step d e = { d with outputPin := level } := by rw [step, settle, if_pos hx, hl]
    rw [hs]
    exact ⟨h.writable, h.config_eq, h.wifi_eq, h.port_eq⟩
  · exact settle_restarted hw hx

/-- The reset pin empties the namespace. -/
theorem step_reset {d : Device P} {ns : Namespace} (h : Synced d ns) :
    Synced (step d (.resetPin true)) Namespace.empty := by
  obtain ⟨-, hh, hn⟩ := clear_ok h.writable.handle_eq
  have hw : Writable (clear true d.preferences).2 "config" Namespace.empty :=
    ⟨hh.trans h.writable.handle_eq, by simp [hn, h.writable.nvs_eq]⟩
  have hx : (handleReset true d).exit ≠ .returned := by simp [handleReset]
  exact settle_restarted (r := handleReset true d) hw hx

/-- A copy from null ends the program before anything is saved. -/
theorem step_crashed {d : Device P} {ns : Namespace} (h : Synced d ns) {e : Event} {doc : Json}
    (hd : doc ∈ e.document) (hu : handleConfigurationUpdate doc d = none) :
    Synced (step d e) ns := by
  have hr : react e d = ⟨d, .crashed, none, []⟩ := by
    rw [react_document hd, updateAndRestart, hu]
  have hx : (react e d).exit ≠ .returned := by simp [hr]
  have hw : Writable (react e d).device.preferences "config" ns := by rw [hr]; exact h.writable
  exact settle_restarted hw hx

/-- After an update the board runs on the configuration the handler left in RAM. -/
theorem step_updated {d d' : Device P} {ns : Namespace} (h : Synced d ns) {e : Event} {doc : Json}
    (hd : doc ∈ e.document) (hu : handleConfigurationUpdate doc d = some d') :
    Synced (step d e) (Write.applyAll d'.globals.saveConfiguration ns) := by
  obtain ⟨-, hw, -⟩ := handleConfigurationUpdate_spec hu h.writable
  have hr : react e d = ⟨d', .restarted, e.reply, []⟩ := by
    rw [react_document hd, updateAndRestart, hu]
  have hx : (react e d).exit ≠ .returned := by simp [hr]
  have hd' : (react e d).device = d' := by rw [hr]
  exact settle_restarted (hd'.symm ▸ hw) hx

theorem change_cases (e : Event) :
    e.change = none ∧ e.document = none ∨ e = .resetPin true ∧ e.change = some .reset ∨
      ∃ doc, e.document = some doc ∧ e.change = some (.replace (update doc)) := by
  cases hd : e.document with
  | some doc =>
    refine .inr (.inr ⟨doc, rfl, ?_⟩)
    cases e <;> simp_all [Event.change, Event.document]
  | none =>
    cases e with
    | resetPin low =>
      cases low with
      | true => exact .inr (.inl ⟨rfl, rfl⟩)
      | false => exact .inl ⟨rfl, rfl⟩
    | _ => exact .inl ⟨by simp [Event.change, hd], rfl⟩

/-- Whatever happens, RAM and flash agree again at the head of the next `loop()`. -/
theorem step_synced {d : Device P} {ns : Namespace} (h : Synced d ns) (e : Event) :
    ∃ ns', Synced (step d e) ns' := by
  obtain ⟨hc, -⟩ | ⟨rfl, -⟩ | ⟨doc, hd, -⟩ := change_cases e
  · exact ⟨ns, step_rejected h hc⟩
  · exact ⟨_, step_reset h⟩
  · cases hu : handleConfigurationUpdate doc d with
    | none => exact ⟨ns, step_crashed h hd hu⟩
    | some d' => exact ⟨_, step_updated h hd hu⟩

/-- A well-typed step follows the abstract machine. -/
theorem step_config {d : Device P} {ns : Namespace} (h : Synced d ns) {e : Event}
    (he : e.WellTyped) :
    (step d e).globals.config = Change.step d.globals.config e.change := by
  obtain ⟨hc, -⟩ | ⟨rfl, hc⟩ | ⟨doc, hd, hc⟩ := change_cases e
  · rw [hc, (step_rejected h hc).config_eq, ← h.config_eq]
    rfl
  · rw [hc, (step_reset h).config_eq, effective_empty]
    rfl
  · have hsome := (handleConfigurationUpdate_isSome doc d).mpr (he doc hd)
    obtain ⟨d', hu⟩ := Option.isSome_iff_exists.mp hsome
    obtain ⟨hcfg, -⟩ := handleConfigurationUpdate_spec hu h.writable
    rw [hc, (step_updated h hd hu).config_eq, effective_saveConfiguration, hcfg]
    rfl

/-- RAM and flash agree after every run from boot. -/
theorem run_synced (f : Nvs) (es : List Event) :
    ∃ ns, Synced (run step (boot f : Device P) es) ns := by
  have hstep : ∀ (d : Device P) e, (∃ ns, Synced d ns) → ∃ ns, Synced (step d e) ns := by
    rintro d e ⟨ns, h⟩
    exact step_synced h e
  exact run_preserves hstep ⟨_, boot_synced f⟩ es

/-- The abstract machine over the accepted events of a sequence. -/
def accepted (c : Config) (es : List Event) : Config :=
  (es.filterMap Event.change).foldl Change.apply c

theorem run_change (c : Config) (es : List Event) :
    run Change.step c (es.map Event.change) = accepted c es := by
  induction es generalizing c with
  | nil => rfl
  | cons e es ih =>
    rw [List.map_cons, run_cons, ih]
    cases h : e.change with
    | none => simp [accepted, h, Change.step]
    | some ch => simp [accepted, h, Change.step]

/-- The device follows the abstract machine. -/
def Follows (d : Device P) (c : Config) : Prop := (∃ ns, Synced d ns) ∧ d.globals.config = c

theorem step_follows (d : Device P) (c : Config) (e : Event) (h : Follows d c)
    (he : e.WellTyped) : Follows (step d e) (Change.step c e.change) := by
  obtain ⟨⟨ns, hs⟩, rfl⟩ := h
  exact ⟨step_synced hs e, step_config hs he⟩

/-- The configuration after any sequence of events, in RAM and as the next boot would
load it, is the fold of the accepted changes over the configuration loaded first. -/
theorem run_config_eq_accepted (f : Nvs) (es : List Event) (h : ∀ e ∈ es, e.WellTyped) :
    (run step (boot f : Device P) es).globals.config =
        accepted (boot f : Device P).globals.config es ∧
      (boot (nvs (run step (boot f : Device P) es).preferences) : Device P).globals.config =
        accepted (boot f : Device P).globals.config es := by
  have hram : (run step (boot f : Device P) es).globals.config =
      accepted (boot f : Device P).globals.config es := by
    have hboot : Follows (boot f : Device P) (boot f : Device P).globals.config :=
      ⟨⟨_, boot_synced f⟩, rfl⟩
    have hrun := run_simulation step_follows hboot ((along_event_iff _ _).mpr h)
    rw [← run_change]
    exact hrun.2
  obtain ⟨ns, hs⟩ := run_synced (P := P) f es
  have hb := boot_synced (P := P) (nvs (run step (boot f : Device P) es).preferences)
  rw [hs.writable.nvs_eq, Option.getD_some] at hb
  exact ⟨hram, by rw [hb.config_eq, ← hs.config_eq, hram]⟩

/-- A fresh board is configured, power-cycled, sent an unusable message and then a new
port. -/
theorem run_config_eq_accepted_fresh :
    let es : List Event :=
      [.postUpdateConfig fun name => if name = "plain" then
          some (ascii "\x7b\"ssid\":\"home\",\"password\":\"12345678\"\x7d") else none,
        .powerCycle, .mqtt (.lit "esp32/config") (ascii "\x7b"),
        .mqtt (.lit "esp32/config") (ascii "\x7b\"mqtt_port\":8883\x7d")]
    (run step (boot (fun _ => none) : Device FlashObject) es).globals.config =
        accepted (boot (fun _ => none) : Device FlashObject).globals.config es ∧
      (boot (nvs (run step (boot fun _ => none : Device FlashObject) es).preferences) :
          Device FlashObject).globals.config =
        accepted (boot (fun _ => none) : Device FlashObject).globals.config es :=
  run_config_eq_accepted _ _ (by decide +kernel)

/-- A message on `esp32/config`. -/
def Event.configMessage (m : List UInt8) : Event := .mqtt (.lit "esp32/config") m

/-- How often the board starts again during a run. -/
def restarts (d : Device P) : List Event → ℕ
  | [] => 0
  | e :: es => (if (react e d).exit = .returned then 0 else 1) + restarts (step d e) es

/-- Flash contents after a boot: the namespace exists from then on. -/
theorem nvs_boot (f : Nvs) : nvs (boot f : Device P).preferences = f.ensure "config" :=
  (begin_write "config" (handle_powerUp f)).2.2.trans (by rw [nvs_powerUp])

/-- Same RAM configuration and same flash contents. -/
structure Same (d d' : Device P) : Prop where
  globals_eq : d.globals = d'.globals
  nvs_eq : nvs d.preferences = nvs d'.preferences

theorem Same.of_eq {d d' : Device P} (h : d = d') : Same d d' := h ▸ ⟨rfl, rfl⟩

theorem Same.trans {d d' d'' : Device P} (h : Same d d') (h' : Same d' d'') : Same d d'' :=
  ⟨h.globals_eq.trans h'.globals_eq, h.nvs_eq.trans h'.nvs_eq⟩

theorem Same.singleton (d : Device P) (e : Event) :
    Same (run step d [e]) (step (run step d []) e) := .of_eq rfl

/-- Starting again without a change of flash leads back to the same configuration. -/
theorem settle_same {r : Reaction (Device P)} {d : Device P} {ns : Namespace} (h : Synced d ns)
    (hn : nvs r.device.preferences = nvs d.preferences) (hx : r.exit ≠ .returned) :
    Same (settle r) d := by
  have hns : nvs d.preferences "config" = some ns := h.writable.nvs_eq
  have hb := boot_synced (P := P) (nvs d.preferences)
  rw [hns, Option.getD_some] at hb
  rw [settle, if_neg hx, hn]
  refine ⟨Globals.ext_config (hb.config_eq.trans h.config_eq.symm), ?_⟩
  rw [nvs_boot, Nvs.ensure_of_isSome (by simp [hns])]

/-- A message is turned away exactly when it does not parse. -/
theorem configMessage_exit (m : List UInt8) (d : Device P) :
    (react (.configMessage m) d).exit = .returned ↔ (deserializeJson m).isOk = false := by
  simp only [react, Event.configMessage, mqttCallback]
  cases hp : deserializeJson m with
  | error err => simp [Reaction.idle, Except.isOk, Except.toBool]
  | ok doc =>
    simp only [if_true, updateAndRestart]
    cases handleConfigurationUpdate doc d <;> simp [Except.isOk, Except.toBool]

/-- A document that meets what it has left itself leaves the same again. -/
theorem handleConfigurationUpdate_again {doc : Json} {d₀ d₀' d d' : Device P} {ns₀ ns : Namespace}
    (hw₀ : Writable d₀.preferences "config" ns₀) (hw : Writable d.preferences "config" ns)
    (hu₀ : handleConfigurationUpdate doc d₀ = some d₀')
    (hu : handleConfigurationUpdate doc d = some d') (hd : d.globals = d₀'.globals) :
    d'.globals = d₀'.globals := by
  obtain ⟨hc₀, -⟩ := handleConfigurationUpdate_spec hu₀ hw₀
  obtain ⟨hc, -⟩ := handleConfigurationUpdate_spec hu hw
  refine Globals.ext_config ?_
  rw [hc, hd, hc₀, overlay_overlay_self]

/-- Where a message has been applied, applying it again changes nothing. -/
theorem step_redelivered {d₀ d : Device P} {ns₀ ns : Namespace} (h₀ : Synced d₀ ns₀)
    (h : Synced d ns) {m : List UInt8} (hs : Same d (step d₀ (.configMessage m))) :
    Same (step d (.configMessage m)) d := by
  cases hp : deserializeJson m with
  | error err =>
    have hr : step d (.configMessage m) = d := by
      simp [step, react, Event.configMessage, mqttCallback, hp, settle, Reaction.idle]
    exact .of_eq hr
  | ok doc =>
    have hd : doc ∈ (Event.configMessage m).document := by
      simpa [Event.configMessage, Event.document] using mem_deserializeJson.mpr hp
    have hreact := react_document hd d
    have hx : (react (.configMessage m) d).exit ≠ .returned := by
      rw [Ne, configMessage_exit, hp]
      simp [Except.isOk, Except.toBool]
    refine settle_same h ?_ hx
    rw [hreact, updateAndRestart]
    cases hu : handleConfigurationUpdate doc d with
    | none => rfl
    | some d' =>
      have htyped := (handleConfigurationUpdate_isSome doc d).mp (by rw [hu]; rfl)
      have hsome := (handleConfigurationUpdate_isSome doc d₀).mpr htyped
      obtain ⟨d₀', hu₀⟩ := Option.isSome_iff_exists.mp hsome
      have hs₀ := step_updated h₀ hd hu₀
      obtain ⟨-, -, hn⟩ := handleConfigurationUpdate_spec hu h.writable
      -- both times the handler leaves the configuration that is in RAM already
      have hd₀ : d.globals = d₀'.globals := by
        refine Globals.ext_config ?_
        rw [hs.globals_eq, hs₀.config_eq, effective_saveConfiguration]
      have hns : nvs d.preferences "config" =
          some (Write.applyAll d₀'.globals.saveConfiguration ns₀) := by
        rw [hs.nvs_eq, hs₀.writable.nvs_eq]
      rw [hn, handleConfigurationUpdate_again h₀.writable h.writable hu₀ hu hd₀]
      exact Nvs.modify_eq_self hns (Write.applyAll_applyAll _ _)

/-- In any state where a message has been applied, delivering it again any number of
times leaves RAM and flash as they are, and the board starts again each time the
message parses. -/
theorem run_redelivered (f f₀ : Nvs) (es es₀ : List Event) (m : List UInt8)
    (h : Same (run step (boot f : Device P) es)
      (step (run step (boot f₀ : Device P) es₀) (.configMessage m))) (n : ℕ) :
    let d := run step (boot f : Device P) es
    let es' := List.replicate n (Event.configMessage m)
    Same (run step d es') d ∧ restarts d es' = if (deserializeJson m).isOk then n else 0 := by
  obtain ⟨ns₀, h₀⟩ := run_synced (P := P) f₀ es₀
  have hd := run_synced (P := P) f es
  revert h hd
  generalize run step (boot f : Device P) es = d
  intro h hd
  induction n generalizing d with
  | zero => exact ⟨.of_eq rfl, by simp [restarts]⟩
  | succ n ih =>
    obtain ⟨ns, hns⟩ := hd
    have hstep := step_redelivered h₀ hns h
    obtain ⟨hsame, hcount⟩ := ih (step d (.configMessage m)) (hstep.trans h) (step_synced hns _)
    have hx := configMessage_exit m d
    refine ⟨hsame.trans hstep, ?_⟩
    simp only [List.replicate_succ, restarts, hcount]
    by_cases hp : (deserializeJson m).isOk
    · have hne : (react (.configMessage m) d).exit ≠ .returned := by simp [hx, hp]
      rw [if_neg hne, if_pos hp, if_pos hp]
      omega
    · have heq : (react (.configMessage m) d).exit = .returned := by simp [hx, hp]
      rw [if_pos heq, if_neg hp, if_neg hp]

/-- A retained message that names an SSID, delivered after each of three boots. -/
theorem run_redelivered_retained :
    let d := run step (boot fun _ => none : Device FlashObject)
      [.configMessage (ascii "\x7b\"ssid\":\"home\"\x7d")]
    let es' := List.replicate 3 (Event.configMessage (ascii "\x7b\"ssid\":\"home\"\x7d"))
    Same (run step d es') d ∧
      restarts d es' =
        if (deserializeJson (ascii "\x7b\"ssid\":\"home\"\x7d")).isOk then 3 else 0 :=
  run_redelivered _ (fun _ => none) _ [] _ (.singleton _ _) 3

/-- The board does restart on a message that has been applied already. -/
theorem redelivery_not_silent :
    ¬ ∀ (f f₀ : Nvs) (es es₀ : List Event) (m : List UInt8),
      Same (run step (boot f : Device FlashObject) es)
        (step (run step (boot f₀ : Device FlashObject) es₀) (.configMessage m)) →
      Same (step (run step (boot f) es) (.configMessage m))
          (run step (boot f : Device FlashObject) es) ∧
        (react (.configMessage m) (run step (boot f : Device FlashObject) es)).exit =
          .returned := by
  intro h
  have hd := h (fun _ => none) (fun _ => none) [.configMessage (ascii "\x7b\"ssid\":\"home\"\x7d")]
    [] (ascii "\x7b\"ssid\":\"home\"\x7d") (.singleton _ _)
  exact absurd hd.2 (by decide +kernel)

end Esp32Automation.ApWifi
