import Esp32Automation.ApWifiUpdates
import Esp32Automation.Decimal

/-!
# The port on its way in ap_wifi_plus_mqtt_connection_after_config

A port comes as text in a query or as any JSON value in a document, becomes an `int`, is saved
and loaded as one, and is narrowed for the client. No value is refused on the way. A TCP port
that is written in decimal digits or as a JSON integer comes through.
-/
namespace Esp32Automation

/-- The number that a text spells in decimal digits, with or without a sign. -/
def numeral (text : List UInt8) : Option ℤ :=
  let (negative, digits) := match text with
    | 45 :: s => (true, s)
    | 43 :: s => (false, s)
    | s => (false, s)
  if digits ≠ [] ∧ digits.all Number.isDigit then
    some (if negative then -(decimalFrom 0 digits : ℤ) else decimalFrom 0 digits)
  else none

/-- A positive number is spelled by its digits, or by them behind a plus sign. -/
theorem numeral_pos {text : List UInt8} {n : ℤ} (h : numeral text = some n) (hn : 1 ≤ n) :
    ∃ digits, digits ≠ [] ∧ digits.all Number.isDigit ∧ (decimalFrom 0 digits : ℤ) = n ∧
      (text = digits ∨ text = 43 :: digits) := by
  unfold numeral at h
  split at h
  next negative digits hsplit =>
    split_ifs at h with hdigits hneg
    · have heq := Option.some.inj h
      omega
    · refine ⟨digits, hdigits.1, hdigits.2, Option.some.inj h, ?_⟩
      split at hsplit
      · simp only [Prod.mk.injEq] at hsplit
        exact absurd hsplit.1.symm hneg
      · simp only [Prod.mk.injEq] at hsplit
        exact .inr (by rw [hsplit.2])
      · simp only [Prod.mk.injEq] at hsplit
        exact .inl hsplit.2

/-- A digit is no blank, no sign and no terminator. -/
theorem ne_of_isDigit {c : UInt8} (h : Number.isDigit c) :
    isSpace c = false ∧ c ≠ 45 ∧ c ≠ 43 ∧ c ≠ 0 := by
  have hrange := (isDigit_iff c).mp h
  refine ⟨?_, ?_, ?_, ?_⟩
  · simp only [isSpace, UInt8.le_iff_toNat_le, Bool.or_eq_false_iff, Bool.and_eq_false_iff,
      decide_eq_false_iff_not]
    refine ⟨?_, .inr ?_⟩
    · rintro rfl
      exact absurd hrange.1 (by decide)
    · have h13 : (13 : UInt8).toNat = 13 := rfl
      omega
  all_goals
    rintro rfl
    exact absurd hrange.1 (by decide)

/-- A text of digits ends at its end. -/
theorem ofBytes_digits {text digits : List UInt8} (hd : digits.all Number.isDigit)
    (ht : text = digits ∨ text = 43 :: digits) : (CString.ofBytes text).bytes = text := by
  have hnul : (0 : UInt8) ∉ digits := fun h =>
    (ne_of_isDigit (List.all_eq_true.mp hd 0 h)).2.2.2 rfl
  have hfree : (0 : UInt8) ∉ text := by
    obtain rfl | rfl := ht
    · exact hnul
    · simp [hnul]
  rw [CString.ofBytes_of_nul_free hfree]

/-- `atol` reads a positive number of 32 bits as it is spelled. -/
theorem atol_digits {text digits : List UInt8} (hne : digits ≠ []) (hd : digits.all Number.isDigit)
    (ht : text = digits ∨ text = 43 :: digits) (hn : (decimalFrom 0 digits : ℤ) ≤ 2 ^ 31 - 1) :
    atol text = decimalFrom 0 digits := by
  have htake : digits.takeWhile Number.isDigit = digits :=
    List.takeWhile_eq_self_iff.mpr (List.all_eq_true.mp hd)
  have hmin : min (2 ^ 31 - 1) (decimalFrom 0 digits : ℤ) = decimalFrom 0 digits :=
    Int.min_eq_right hn
  obtain rfl | rfl := ht
  · cases text with
    | nil => exact absurd rfl hne
    | cons c text =>
      obtain ⟨hspace, hminus, hplus, -⟩ :=
        ne_of_isDigit (List.all_eq_true.mp hd c List.mem_cons_self)
      have hdrop : (c :: text).dropWhile isSpace = c :: text := by simp [hspace]
      unfold atol
      simp only [hdrop]
      split
      · next heq => exact absurd (List.cons.inj heq).1 hminus
      · next heq => exact absurd (List.cons.inj heq).1 hplus
      · simp only [htake]
        exact hmin
  · have hdrop : ((43 : UInt8) :: digits).dropWhile isSpace = 43 :: digits := rfl
    unfold atol
    simp only [hdrop, htake]
    exact hmin

theorem parseNumber_digits {text digits : List UInt8} (hne : digits ≠ [])
    (hd : digits.all Number.isDigit) (ht : text = digits ∨ text = 43 :: digits)
    (hn : decimalFrom 0 digits ≤ Number.maxUint) :
    Number.parseNumber text = .integer (decimalFrom 0 digits) := by
  have hread := readMantissa_decimal hd 0 hn
  cases digits with
  | nil => exact absurd rfl hne
  | cons c digits =>
    have hc := List.all_eq_true.mp hd c List.mem_cons_self
    obtain ⟨-, hminus, hplus, -⟩ := ne_of_isDigit hc
    unfold Number.parseNumber
    obtain rfl | rfl := ht
    · split
      next negative rest hsplit =>
        split at hsplit
        · next heq => exact absurd (List.cons.inj heq).1 hminus
        · next heq => exact absurd (List.cons.inj heq).1 hplus
        · simp only [Prod.mk.injEq] at hsplit
          obtain ⟨rfl, rfl⟩ := hsplit
          simp [hc, hread]
    · simp [hc, hread]

/-- The whole number that a JSON value names, as an integer or as a text of decimal digits. -/
def Json.wholeNumber : Json → Option ℤ
  | .integer n => some n
  | .string s => numeral s
  | .null | .boolean _ | .float _ | .double _ | .array _ | .object _ => none

/-- The conversion to `int` keeps a positive whole number of 32 bits. -/
theorem Json.asInt_of_wholeNumber {value : Json} {n : ℤ} (h : value.wholeNumber = some n)
    (hn : 1 ≤ n ∧ n ≤ 2 ^ 31 - 1) : value.asInt = n := by
  have hint : convertNumber n = n := convertNumber_of_range ⟨by omega, hn.2⟩
  cases value with
  | integer m =>
    obtain rfl := Option.some.inj h
    exact hint
  | string s =>
    obtain ⟨digits, hne, hd, rfl, ht⟩ := numeral_pos h hn.1
    have hfits : decimalFrom 0 digits ≤ Number.maxUint := by
      rw [Number.maxUint]
      omega
    rw [asInt, ofBytes_digits hd ht, parseNumber_digits hne hd ht hfits]
    exact hint
  | null | boolean b | float x | double x | array elements | object members => cases h

/-- `String::toInt` keeps it too. -/
theorem toInt_of_numeral {text : List UInt8} {n : ℤ} (h : numeral text = some n)
    (hn : 1 ≤ n ∧ n ≤ 2 ^ 31 - 1) : toInt text = n := by
  obtain ⟨digits, hne, hd, rfl, ht⟩ := numeral_pos h hn.1
  rw [toInt, ofBytes_digits hd ht]
  exact atol_digits hne hd ht hn.2

namespace ApWifi
open Overlay Preferences Run

variable {P : Type} [Preferences P]

/-- The event brings a document with a port. -/
def Event.NamesPort (e : Event) : Prop := ∃ doc ∈ e.document, doc.containsKey "mqtt_port"

/-- The whole number that the event names as the port, in the text of a query or in the value of
a document. -/
def Event.namedPort : Event → Option ℤ
  | .getConfig args => numeral (args.arg "mqtt_port")
  | e => e.document.bind fun doc => (doc.getMember (ascii "mqtt_port")).bind Json.wholeNumber

/-- What it is converted to: `toInt` of the query text, and the conversion of the value. -/
def Event.convertedPort : Event → ℤ
  | .getConfig args => toInt (args.arg "mqtt_port")
  | e => (e.document.map fun doc => doc.int "mqtt_port").getD 0

/-- The update is carried out. -/
def Accepted (d : Device P) (e : Event) : Prop :=
  ∃ doc ∈ e.document, (handleConfigurationUpdate doc d).isSome

/-- The port that the device dials. -/
def dialed (d : Device P) : ℕ := (reconnectMQTT d).port

/-- The port in flash. -/
def storedPort (d : Device P) : Option ℤ :=
  (nvs d.preferences "config").bind fun ns => ns.int "mqtt_port"

/-- What was asked for is a TCP port. -/
def IsTcpPort (n : ℤ) : Prop := 1 ≤ n ∧ n ≤ 65535

/-- An update that is accepted dials the TCP port that it names, and one that names none is
refused and leaves the port as it was. -/
structure PortValidated (d : Device P) (e : Event) : Prop where
  dialed : Accepted d e → ∃ n ∈ e.namedPort, IsTcpPort n ∧ (dialed (step d e) : ℤ) = n
  refused : (∀ n ∈ e.namedPort, ¬ IsTcpPort n) →
    ¬ Accepted d e ∧ storedPort (step d e) = storedPort d

/-- Every update is carried out that holds strings for the string settings it names. What is
stored is the port it was converted to. If that is a TCP port it is the one dialed, and it is the
one named if one is. -/
structure PortConverted (d : Device P) (e : Event) : Prop where
  accepted_iff : Accepted d e ↔ ∀ doc ∈ e.document, ∀ f : Field, HoldsString doc (.text f)
  stored : Accepted d e → storedPort (step d e) = some e.convertedPort
  loaded : Accepted d e → (step d e).globals.mqttPort = e.convertedPort
  dialed : Accepted d e → IsTcpPort e.convertedPort → (dialed (step d e) : ℤ) = e.convertedPort
  named : ∀ n ∈ e.namedPort, IsTcpPort n → e.convertedPort = n

/-- The conversion is the one that the handler makes. -/
theorem convertedPort_eq {e : Event} {doc : Json} (hd : doc ∈ e.document) :
    e.convertedPort = doc.int "mqtt_port" := by
  cases e with
  | getConfig args =>
    by_cases ha : requiredFields.all args.hasArg
    · simp only [Event.document, ha, if_true, Option.mem_def, Option.some.injEq] at hd
      rw [← hd, configDocument_int]
      rfl
    · simp [Event.document, ha] at hd
  | _ =>
    rw [Option.mem_def] at hd
    simp only [Event.convertedPort, hd]
    rfl

/-- The number is in the text of a query or in a document. -/
theorem namedPort_cases {e : Event} {n : ℤ} (h : n ∈ e.namedPort) :
    (∃ args, e = .getConfig args ∧ numeral (args.arg "mqtt_port") = some n) ∨
      ∃ doc ∈ e.document, ∃ value,
        doc.getMember (ascii "mqtt_port") = some value ∧ value.wholeNumber = some n := by
  have hdocument : ∀ document : Option Json,
      (document.bind fun doc => (doc.getMember (ascii "mqtt_port")).bind Json.wholeNumber) =
        some n → ∃ doc ∈ document, ∃ value,
          doc.getMember (ascii "mqtt_port") = some value ∧ value.wholeNumber = some n := by
    intro document hn
    obtain ⟨doc, hdoc, hmember⟩ := Option.bind_eq_some_iff.mp hn
    obtain ⟨value, hvalue, hwhole⟩ := Option.bind_eq_some_iff.mp hmember
    exact ⟨doc, hdoc, value, hvalue, hwhole⟩
  cases e with
  | getConfig args => exact .inl ⟨args, rfl, h⟩
  | _ => exact .inr (hdocument _ h)

/-- A TCP port that is named comes through the conversion. -/
theorem convertedPort_named {e : Event} {n : ℤ} (h : n ∈ e.namedPort) (hn : IsTcpPort n) :
    e.convertedPort = n := by
  have hrange : 1 ≤ n ∧ n ≤ 2 ^ 31 - 1 := ⟨hn.1, hn.2.trans (by decide)⟩
  obtain ⟨args, rfl, htext⟩ | ⟨doc, hdoc, value, hvalue, hwhole⟩ := namedPort_cases h
  · exact toInt_of_numeral htext hrange
  · rw [convertedPort_eq hdoc, Json.int, hvalue]
    exact Json.asInt_of_wholeNumber hwhole hrange

/-- After an update with a port the board has it in flash, in RAM and in the client. -/
theorem step_port {d d' : Device P} {ns : Namespace} (h : Synced d ns) {e : Event} {doc : Json}
    (hd : doc ∈ e.document) (hport : doc.containsKey "mqtt_port")
    (hu : handleConfigurationUpdate doc d = some d') :
    storedPort (step d e) = some e.convertedPort ∧
      (step d e).globals.mqttPort = e.convertedPort ∧
      dialed (step d e) = toPort e.convertedPort := by
  have hs := step_updated h hd hu
  obtain ⟨hc, -⟩ := handleConfigurationUpdate_spec hu h.writable
  have hupdate : update doc .mqttPort = some (doc.int "mqtt_port") := if_pos hport
  have hram : d'.globals.mqttPort = e.convertedPort := by
    rw [convertedPort_eq hd, ← Globals.config_mqttPort, hc, overlay_of_some hupdate]
  have hloaded : (step d e).globals.mqttPort = e.convertedPort := by
    rw [← hram, ← Globals.config_mqttPort, hs.config_eq, effective_saveConfiguration]
    rfl
  refine ⟨?_, hloaded, ?_⟩
  · rw [storedPort, hs.writable.nvs_eq, Option.bind_some, Globals.saved_int, hram]
  · have hdial : dialed (step d e) = toPort (step d e).globals.mqttPort := hs.port_eq
    rw [hdial, hloaded]

theorem portConverted {d : Device P} {ns : Namespace} (h : Synced d ns) {e : Event}
    (he : e.NamesPort) : PortConverted d e := by
  obtain ⟨doc, hd, hport⟩ := he
  have hunique : ∀ doc' ∈ e.document, doc' = doc := fun doc' hd' =>
    Option.some.inj (hd'.symm.trans hd)
  have hport_of : Accepted d e → storedPort (step d e) = some e.convertedPort ∧
      (step d e).globals.mqttPort = e.convertedPort ∧
      dialed (step d e) = toPort e.convertedPort := by
    rintro ⟨doc', hd', hsome⟩
    obtain rfl := hunique doc' hd'
    obtain ⟨d', hu⟩ := Option.isSome_iff_exists.mp hsome
    exact step_port h hd hport hu
  refine ⟨?_, fun ha => (hport_of ha).1, fun ha => (hport_of ha).2.1, fun ha htcp => ?_,
    fun n hn htcp => convertedPort_named hn htcp⟩
  · constructor
    · rintro ⟨doc', hd', hsome⟩ doc'' hd'' f
      obtain rfl := hunique doc' hd'
      obtain rfl := hunique doc'' hd''
      exact (handleConfigurationUpdate_isSome _ d).mp hsome (.text f) (Setting.mem_all _)
    · intro htext
      refine ⟨doc, hd, (handleConfigurationUpdate_isSome doc d).mpr fun s _ => ?_⟩
      cases s with
      | text f => exact htext doc hd f
      | mqttPort => trivial
  · rw [(hport_of ha).2.2, toPort_eq_iff]
    exact ⟨Int.le_of_lt htcp.1, htcp.2⟩

/-- In every reachable state, for every event that brings a document with a port. -/
theorem run_portConverted (f : Nvs) (es : List Event) (e : Event) (he : e.NamesPort) :
    PortConverted (run step (boot f : Device P) es) e := by
  obtain ⟨ns, hs⟩ := run_synced (P := P) f es
  exact portConverted hs he

theorem homeQuery_namesPort (port : String) :
    (Event.getConfig (queryArgs homeNetwork port)).NamesPort := ⟨_, rfl, rfl⟩

theorem run_portConverted_home :
    PortConverted (run step (boot fun _ => none : Device FlashObject) [])
      (.getConfig (queryArgs homeNetwork "8883")) :=
  run_portConverted _ _ _ (homeQuery_namesPort "8883")

/-- Port 70000 is no TCP port, and the update that asks for it is carried out. -/
theorem port_not_validated :
    ¬ ∀ (f : Nvs) (es : List Event) (e : Event), e.NamesPort →
      PortValidated (run step (boot f : Device FlashObject) es) e := by
  intro h
  have hvalid := h (fun _ => none) [] (.getConfig (queryArgs homeNetwork "70000"))
    (homeQuery_namesPort "70000")
  have hnamed : ∀ n ∈ (Event.getConfig (queryArgs homeNetwork "70000")).namedPort, n = 70000 := by
    decide +kernel
  have hnone : ∀ n ∈ (Event.getConfig (queryArgs homeNetwork "70000")).namedPort,
      ¬ IsTcpPort n := by
    intro n hn htcp
    rw [hnamed n hn] at htcp
    exact absurd htcp.2 (by decide)
  have haccepted : Accepted (run step (boot fun _ => none : Device FlashObject) [])
      (.getConfig (queryArgs homeNetwork "70000")) := by
    refine ⟨configDocument (queryArgs homeNetwork "70000"), rfl, ?_⟩
    decide +kernel
  exact (hvalid.refused hnone).1 haccepted

end ApWifi
end Esp32Automation
