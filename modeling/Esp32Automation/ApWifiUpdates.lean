import Esp32Automation.ApWifiRuns

/-!
# What becomes of an update in ap_wifi_plus_mqtt_connection_after_config

An accepted update reaches Wi-Fi and broker only after it has been saved and loaded
again. Two things can happen on the way: a value that is too long is cut, and a save
that is interrupted leaves a mixture of the old and the new configuration.
-/
namespace Esp32Automation.ApWifi
open Overlay Preferences Run

variable {P : Type} [Preferences P]

/-- `WiFi.begin` and `mqttClient.connect` are called with exactly these values. -/
structure Connects (d : Device P) (v : Field → CString) : Prop where
  wifi : d.wifiBegin = some (v .ssid, v .password)
  server : (reconnectMQTT d).server = v .mqttServer
  username : (reconnectMQTT d).username = v .mqttUsername
  password : (reconnectMQTT d).password = v .mqttPassword

/-- The event delivers these values for the string settings. -/
def Event.Carries (v : Field → CString) : Event → Prop
  | .getConfig args => ∀ f : Field, args f.key = some (v f).bytes
  | .postUpdateConfig args => ∃ doc, deserializeJson (args.arg "plain") = .ok doc ∧
      ∀ f : Field, doc.charPtr f.key = some (v f)
  | .mqtt topic payload => topic = .lit "esp32/config" ∧ ∃ doc, deserializeJson payload = .ok doc ∧
      ∀ f : Field, doc.charPtr f.key = some (v f)
  | .getRoot | .resetPin _ | .powerCycle => False

/-- The request is answered with success; a message on MQTT gets no answer. -/
def Event.Taken (d : Device P) : Event → Prop
  | .mqtt _ _ => True
  | e => ∃ r ∈ (react e d).reply, r.isSuccess

/-- An accepted document is answered only when the update was carried out. -/
theorem exists_update {e : Event} {doc : Json} {d : Device P} {r : HttpReply}
    (hd : doc ∈ e.document) (hr : r ∈ (react e d).reply) :
    ∃ d', handleConfigurationUpdate doc d = some d' := by
  rw [react_document hd] at hr
  cases hu : handleConfigurationUpdate doc d with
  | none => simp [updateAndRestart, hu] at hr
  | some d' => exact ⟨d', rfl⟩

/-- An update that is taken has reached the handler with its values intact. -/
theorem taken_document {v : Field → CString} {e : Event} {d : Device P} (hv : e.Carries v)
    (ht : e.Taken d) : ∃ doc d', doc ∈ e.document ∧ handleConfigurationUpdate doc d = some d' ∧
      ∀ f : Field, doc.charPtr f.key = some (v f) := by
  cases e with
  | getConfig args =>
    obtain ⟨r, hr, hok⟩ := ht
    by_cases ha : requiredFields.all args.hasArg
    · have hd : configDocument args ∈ (Event.getConfig args).document := by
        simp [Event.document, ha]
      obtain ⟨d', hu⟩ := exists_update hd hr
      refine ⟨_, d', hd, hu, fun f => ?_⟩
      have hheld := (handleConfigurationUpdate_isSome _ d).mp (by rw [hu]; rfl) (.text f)
        (Setting.mem_all _)
      rw [configDocument_charPtr hheld, Args.arg, hv f]
      simp
    · simp only [react, getConfig, ha, Reaction.replying, Option.mem_def] at hr
      obtain rfl := Option.some.inj hr
      simp [HttpReply.error_not_isSuccess] at hok
  | postUpdateConfig args =>
    obtain ⟨r, hr, hok⟩ := ht
    obtain ⟨doc, hp, hdoc⟩ := hv
    by_cases ha : args.hasArg "plain"
    · have hd : doc ∈ (Event.postUpdateConfig args).document := by
        simpa [Event.document, ha] using mem_deserializeJson.mpr hp
      obtain ⟨d', hu⟩ := exists_update hd hr
      exact ⟨doc, d', hd, hu, hdoc⟩
    · simp only [react, postUpdateConfig, ha, Reaction.replying, Option.mem_def] at hr
      obtain rfl := Option.some.inj hr
      simp [HttpReply.error_not_isSuccess] at hok
  | mqtt topic payload =>
    obtain ⟨rfl, doc, hp, hdoc⟩ := hv
    have hd : doc ∈ (Event.mqtt (.lit "esp32/config") payload).document := by
      simpa [Event.document] using mem_deserializeJson.mpr hp
    have hsome : (handleConfigurationUpdate doc d).isSome := by
      refine (handleConfigurationUpdate_isSome doc d).mpr fun s _ => ?_
      cases s with
      | text f => exact holdsString_of_charPtr (hdoc f)
      | mqttPort => trivial
    obtain ⟨d', hu⟩ := Option.isSome_iff_exists.mp hsome
    exact ⟨doc, d', hd, hu, hdoc⟩
  | getRoot => exact hv.elim
  | resetPin low => exact hv.elim
  | powerCycle => exact hv.elim

/-- After the restart the board runs on the first 31 bytes of each value. -/
theorem taken_text {v : Field → CString} {e : Event} {d : Device P} {ns : Namespace}
    (hs : Synced d ns) (hv : e.Carries v) (ht : e.Taken d) :
    (∃ ns', Synced (step d e) ns') ∧
      ∀ f, ((step d e).globals.text f).cstr = (v f).take 31 := by
  obtain ⟨doc, d', hd, hu, hdoc⟩ := taken_document hv ht
  have hs' := step_updated hs hd hu
  obtain ⟨hc, -⟩ := handleConfigurationUpdate_spec hu hs.writable
  refine ⟨⟨_, hs'⟩, fun f => ?_⟩
  have hu : update doc (.text f) = some ((v f).take 31) := by simp [update, hdoc f]
  calc ((step d e).globals.text f).cstr
      = (step d e).globals.config (.text f) := rfl
    _ = d'.globals.config (.text f) := by rw [hs'.config_eq, effective_saveConfiguration]
    _ = (v f).take 31 := by rw [hc, overlay_of_some hu]

/-- A board that runs on cut values connects with the values themselves exactly when
nothing was cut off. -/
theorem connects_iff {d : Device P} {ns : Namespace} {v : Field → CString} (hs : Synced d ns)
    (htext : ∀ f, (d.globals.text f).cstr = (v f).take 31) (hssid : 1 ≤ (v .ssid).length)
    (hpass : 1 ≤ (v .password).length) : Connects d v ↔ ∀ f, (v f).length ≤ 31 := by
  have hlen : ∀ f, ((d.globals.text f).cstr).length = min 31 (v f).length := by
    intro f
    rw [htext f, CString.length_take]
  have hne : ∀ f, 1 ≤ (v f).length → (d.globals.text f).isEmpty = false := by
    intro f hf
    have hl := hlen f
    by_contra he
    have hz := (Buffer.isEmpty_iff _).mp (by simpa using he)
    omega
  have hwifi : d.wifiBegin = some ((v .ssid).take 31, (v .password).take 31) := by
    rw [hs.wifi_eq, Globals.wifiArguments, hne _ hssid, hne _ hpass, htext, htext]
    rfl
  constructor
  · intro hconn f
    rw [← CString.take_eq_self_iff]
    have hw := hwifi.symm.trans hconn.wifi
    simp only [Option.some.injEq, Prod.mk.injEq] at hw
    cases f with
    | ssid => exact hw.1
    | password => exact hw.2
    | mqttServer => exact (htext _).symm.trans hconn.server
    | mqttUsername => exact (htext _).symm.trans hconn.username
    | mqttPassword => exact (htext _).symm.trans hconn.password
  · intro hfit
    have hexact : ∀ f, (v f).take 31 = v f := fun f => CString.take_of_length_le (hfit f)
    simp only [hexact] at hwifi htext
    exact ⟨hwifi, htext _, htext _, htext _⟩

/-- A successful update of a network with an SSID of 1 to 32 bytes and a passphrase of 8
to 63 bytes reaches Wi-Fi and broker unaltered exactly when all five values have at most
31 bytes. -/
theorem taken_connects_iff (f₀ : Nvs) (es : List Event) (e : Event) (v : Field → CString)
    (hssid : 1 ≤ (v .ssid).length ∧ (v .ssid).length ≤ 32)
    (hpass : 8 ≤ (v .password).length ∧ (v .password).length ≤ 63)
    (hv : e.Carries v) (ht : e.Taken (run step (boot f₀ : Device P) es)) :
    Connects (step (run step (boot f₀ : Device P) es) e) v ↔ ∀ f, (v f).length ≤ 31 := by
  obtain ⟨ns, hs⟩ := run_synced (P := P) f₀ es
  obtain ⟨⟨ns', hs'⟩, htext⟩ := taken_text hs hv ht
  have hpass' : 1 ≤ (v .password).length := by omega
  exact connects_iff hs' htext hssid.1 hpass'

/-- The query string of `GET /config` with given values. -/
def queryArgs (v : Field → CString) (port : String) : Args
  | "ssid" => some (v .ssid).bytes
  | "password" => some (v .password).bytes
  | "mqtt_server" => some (v .mqttServer).bytes
  | "mqtt_port" => some (ascii port)
  | "mqtt_username" => some (v .mqttUsername).bytes
  | "mqtt_password" => some (v .mqttPassword).bytes
  | _ => none

theorem queryArgs_carries (v : Field → CString) (port : String) :
    (Event.getConfig (queryArgs v port)).Carries v := by
  intro f
  cases f <;> rfl

/-- A well-typed query is answered with success. -/
theorem queryArgs_taken {v : Field → CString} {port : String} (d : Device P)
    (h : (Event.getConfig (queryArgs v port)).WellTyped) :
    (Event.getConfig (queryArgs v port)).Taken d := by
  have hd : configDocument (queryArgs v port) ∈ (Event.getConfig (queryArgs v port)).document := by
    have ha : requiredFields.all (queryArgs v port).hasArg := rfl
    simp [Event.document, ha]
  have hsome := (handleConfigurationUpdate_isSome _ d).mpr (h _ hd)
  obtain ⟨d', hu⟩ := Option.isSome_iff_exists.mp hsome
  refine ⟨.updated, ?_, HttpReply.updated_isSuccess⟩
  rw [react_document hd, updateAndRestart, hu]
  rfl

/-- The values of an ordinary network. -/
def homeNetwork : Field → CString
  | .ssid => .lit "home"
  | .password => .lit "correct horse"
  | .mqttServer => .lit "broker.local"
  | .mqttUsername => .lit "board"
  | .mqttPassword => .lit "secret"

theorem taken_connects_iff_home :
    Connects (step (run step (boot fun _ => none : Device FlashObject) [])
      (.getConfig (queryArgs homeNetwork "1883"))) homeNetwork ↔
        ∀ f, (homeNetwork f).length ≤ 31 :=
  taken_connects_iff _ _ _ _ (by decide) (by decide) (queryArgs_carries _ _)
    (queryArgs_taken _ (by decide +kernel))

/-- A passphrase of 32 characters is answered with success and not used. -/
theorem long_passphrase_altered :
    ¬ ∀ (f₀ : Nvs) (es : List Event) (e : Event) (v : Field → CString),
      1 ≤ (v .ssid).length ∧ (v .ssid).length ≤ 32 →
      8 ≤ (v .password).length ∧ (v .password).length ≤ 63 →
      e.Carries v → e.Taken (run step (boot f₀ : Device FlashObject) es) →
      Connects (step (run step (boot f₀ : Device FlashObject) es) e) v := by
  intro h
  let v := Function.update homeNetwork .password (.lit "0123456789abcdef0123456789abcdef")
  have hc := h (fun _ => none) [] (.getConfig (queryArgs v "1883")) v (by decide +kernel)
    (by decide +kernel) (queryArgs_carries _ _) (queryArgs_taken _ (by decide +kernel))
  exact absurd hc.wifi (by decide +kernel)

/-- `saveConfiguration` when the board stops before the write number `stop`, and the
flash takes the write of a setting only if `ok` says so. -/
def saveInterrupted (stop : ℕ) (ok : Setting → Bool) (g : Globals) (p : P) : P :=
  (Setting.all.take stop).foldl (fun p s => (g.write s).exec (ok s) p) p

/-- `handleConfigurationUpdate` up to that point. -/
def updateInterrupted (stop : ℕ) (ok : Setting → Bool) (doc : Json) (d : Device P) : Option P :=
  (copyDocument doc d.globals).map fun g => saveInterrupted stop ok g d.preferences

/-- The settings whose writes went through. -/
def Committed (stop : ℕ) (ok : Setting → Bool) (s : Setting) : Prop :=
  s ∈ Setting.all.take stop ∧ ok s

instance (stop : ℕ) (ok : Setting → Bool) : DecidablePred (Committed stop ok) := fun s =>
  inferInstanceAs (Decidable (s ∈ Setting.all.take stop ∧ ok s))

/-- A failed write is no write. -/
theorem foldl_exec_eq_execAll (ok : Setting → Bool) (g : Globals) (ss : List Setting) (p : P) :
    ss.foldl (fun p s => (g.write s).exec (ok s) p) p =
      Write.execAll ((ss.filter ok).map g.write) p := by
  induction ss generalizing p with
  | nil => rfl
  | cons s ss ih =>
    rw [List.foldl_cons, ih]
    cases h : ok s with
    | false => simp [h, Write.exec_failed]
    | true => simp [h, Write.execAll]

/-- Without an interruption this is `saveConfiguration`. -/
theorem saveInterrupted_none (g : Globals) (p : P) :
    saveInterrupted 6 (fun _ => true) g p = Write.execAll g.saveConfiguration p := by
  rw [saveInterrupted, foldl_exec_eq_execAll]
  rfl

/-- What the next boot loads after an interrupted update: the new values of the settings
that were committed and the old values of the others. So it is the old configuration
exactly when no committed setting was to change, and the new one exactly when every
setting that was to change was committed. -/
theorem updateInterrupted_config (f₀ : Nvs) (es : List Event) (doc : Json) (stop : ℕ)
    (ok : Setting → Bool) (p : P)
    (h : updateInterrupted stop ok doc (run step (boot f₀ : Device P) es) = some p) :
    let old := (run step (boot f₀ : Device P) es).globals.config
    let new := overlay (update doc) old
    let next := (boot (nvs p) : Device P).globals.config
    next = mix (Committed stop ok) old new ∧
      (next = old ↔ ∀ s, Committed stop ok s → new s = old s) ∧
      (next = new ↔ ∀ s, new s ≠ old s → Committed stop ok s) := by
  intro old new next
  obtain ⟨ns, hs⟩ := run_synced (P := P) f₀ es
  obtain ⟨g, hg, rfl⟩ := Option.map_eq_some_iff.mp h
  have hnew : g.config = new := by
    rw [copyDocument_eq] at hg
    rw [Globals.copySettings_config hg]
    exact mix_eq_new_iff.mpr fun s _ => Setting.mem_all s
  have hw := Write.execAll_writable (((Setting.all.take stop).filter ok).map g.write) hs.writable
  rw [← foldl_exec_eq_execAll, ← saveInterrupted] at hw
  have hb := boot_synced (P := P) (nvs (saveInterrupted stop ok g
    (run step (boot f₀ : Device P) es).preferences))
  rw [hw.nvs_eq, Option.getD_some] at hb
  have hnext : next = mix (Committed stop ok) old new := by
    have hold : effective defaults ns = old := hs.config_eq.symm
    rw [show next = _ from hb.config_eq, effective_applyAll, hold, hnew]
    exact mix_congr fun s => List.mem_filter
  refine ⟨hnext, ?_, ?_⟩
  · rw [hnext]
    exact mix_eq_old_iff
  · rw [hnext]
    exact mix_eq_new_iff

/-- The names of a network and its broker, on a board with the defaults in use. -/
def homeDocument : Json := configDocument (queryArgs homeNetwork "1883")

theorem updateInterrupted_config_home :
    ∃ p, updateInterrupted 2 (fun _ => true) homeDocument
        (run step (boot fun _ => none : Device FlashObject) []) = some p ∧
      let old := (run step (boot fun _ => none : Device FlashObject) []).globals.config
      let new := overlay (update homeDocument) old
      let next := (boot (nvs p) : Device FlashObject).globals.config
      next = mix (Committed 2 fun _ => true) old new ∧
        (next = old ↔ ∀ s, Committed 2 (fun _ => true) s → new s = old s) ∧
        (next = new ↔ ∀ s, new s ≠ old s → Committed 2 (fun _ => true) s) := by
  have hsome : (updateInterrupted 2 (fun _ => true) homeDocument
      (run step (boot fun _ => none : Device FlashObject) [])).isSome := by decide +kernel
  obtain ⟨p, hp⟩ := Option.isSome_iff_exists.mp hsome
  exact ⟨p, hp, updateInterrupted_config _ [] _ _ _ p hp⟩

/-- Power lost after the first write leaves the new SSID with the old passphrase. -/
theorem update_not_atomic :
    ¬ ∀ (f₀ : Nvs) (es : List Event) (doc : Json) (stop : ℕ) (ok : Setting → Bool)
      (p : FlashObject), updateInterrupted stop ok doc (run step (boot f₀) es) = some p →
      (boot (nvs p) : Device FlashObject).globals.config =
          (run step (boot f₀ : Device FlashObject) es).globals.config ∨
        (boot (nvs p) : Device FlashObject).globals.config =
          overlay (update doc) (run step (boot f₀ : Device FlashObject) es).globals.config := by
  intro h
  have hsome : (updateInterrupted 1 (fun _ => true) homeDocument
      (run step (boot fun _ => none : Device FlashObject) [])).isSome := by decide +kernel
  obtain ⟨p, hp⟩ := Option.isSome_iff_exists.mp hsome
  have hmixed : ∀ p ∈ updateInterrupted 1 (fun _ => true) homeDocument
        (run step (boot fun _ => none : Device FlashObject) []),
      (boot (nvs p) : Device FlashObject).globals.config (.text .ssid) ≠
          (run step (boot fun _ => none : Device FlashObject) []).globals.config (.text .ssid) ∧
        (boot (nvs p) : Device FlashObject).globals.config (.text .password) ≠
          overlay (update homeDocument)
            (run step (boot fun _ => none : Device FlashObject) []).globals.config
            (.text .password) := by
    decide +kernel
  obtain ⟨hssid, hpass⟩ := hmixed p hp
  obtain hold | hnew := h _ _ _ _ _ _ hp
  · exact hssid (congrFun hold _)
  · exact hpass (congrFun hnew _)

end Esp32Automation.ApWifi
