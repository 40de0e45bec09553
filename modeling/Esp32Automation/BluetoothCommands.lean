import Esp32Automation.ConfigFromBlth

/-!
# Configurations over Bluetooth in remote_on_off_with_config_from_blth

The commands come as lines, and `handleBluetoothConfig` reads one in each iteration of
`loop()`, with room for 255 bytes. It sees the lines of the stream as long as they fit; a
longer one is split, and its end can be taken for a command.
-/
namespace Esp32Automation.ConfigFromBlth
open LineReader

variable {P : Type} [ArrayPreferences P]

/-- The text is a JSON text. -/
def accepted (text : List UInt8) : Bool := (deserializeJson text).toOption.isSome

/-- What `deserializeJson` reads of a command. -/
def commandText (command : List UInt8) : List UInt8 := (CString.ofBytes command).bytes

/-- The Bluetooth side of `k` iterations of `loop()`, up to the restart: the texts that are
parsed, and how it ends. -/
def serve : ℕ → List UInt8 → Device P → List (List UInt8) × Reaction (Device P)
  | 0, _, d => ([], .idle d)
  | k + 1, received, d =>
    let r := handleBluetoothConfig received d
    match readCommand received with
    | none => ([], r.1)
    | some (command, _) =>
      if r.1.exit = .returned then
        let next := serve k r.2 r.1.device
        (command.bytes :: next.1, next.2)
      else ([command.bytes], r.1)

/-- A rejected text changes nothing. -/
theorem handleCommandText_rejected {command : CString} (h : accepted command.bytes = false)
    (d : Device P) : handleCommandText command d = .idle d := by
  unfold accepted at h
  cases hp : deserializeJson command.bytes with
  | error err => simp only [handleCommandText, hp]
  | ok doc => simp [hp, Except.toOption] at h

/-- An accepted one is saved, and the board restarts. -/
theorem handleCommandText_accepted {command : CString} (h : accepted command.bytes)
    (d : Device P) : ∃ doc, handleCommandText command d = saveAndRestart doc d := by
  unfold accepted at h
  obtain ⟨doc, hdoc⟩ := Option.isSome_iff_exists.mp h
  have hp := mem_deserializeJson.mp hdoc
  exact ⟨doc, by simp only [handleCommandText, hp]⟩

/-- The texts do not depend on the state of the board, and it restarts exactly when one of
them is accepted. -/
theorem serve_spec (k : ℕ) (received : List UInt8) (d : Device P) :
    (serve k received d).1 = texts 10 255 commandText accepted k received ∧
      ((serve k received d).2.exit = .restarted ↔
        ∃ text ∈ (serve k received d).1, accepted text) := by
  induction k generalizing received d with
  | zero => simp [serve, texts, Reaction.idle]
  | succ k ih =>
    rw [serve, texts]
    cases hr : readUntil 10 255 received with
    | none =>
      have hread : readCommand received = none := by simp [readCommand, readBytesUntil, hr]
      simp [handleBluetoothConfig, hread, Reaction.idle]
    | some r =>
      obtain ⟨command, rest⟩ := r
      have hread : readCommand received = some (.ofBytes command, rest) := by
        simp [readCommand, readBytesUntil, hr]
      have htext : (CString.ofBytes command).bytes = commandText command := rfl
      have hcall : handleBluetoothConfig received d =
          (handleCommandText (.ofBytes command) d, rest) := by
        rw [handleBluetoothConfig, hread]
      simp only [hread, hcall]
      cases ha : accepted (commandText command) with
      | true =>
        obtain ⟨doc, hd⟩ := handleCommandText_accepted (htext ▸ ha) d
        simp [hd, saveAndRestart, htext, ha]
      | false =>
        obtain ⟨htexts, hexit⟩ := ih rest d
        have hd := handleCommandText_rejected (htext ▸ ha) d
        simp [hd, Reaction.idle, htext, ha, htexts, hexit]

/-- `handleBluetoothConfig` parses the lines of the stream, whole and in order, up to the
first one that is accepted, and only because of that one is a configuration saved and the
board restarted. -/
structure ParsesLines (received : List UInt8) (d : Device P) : Prop where
  texts_eq : ∀ k, (serve k received d).1 = (upTo accepted (lines 10 received)).take k
  restarted : ∀ k, (serve k received d).2.exit = .restarted →
    ∃ line ∈ lines 10 received, accepted line

/-- Every line that comes before the first accepted one has at most 254 bytes and no NUL, the
accepted one at most 255 and no NUL, and when there is none, at most 254 bytes follow the last
line. -/
structure LinesFit (received : List UInt8) : Prop where
  nul_free : ∀ line ∈ upTo accepted (lines 10 received), (0 : UInt8) ∉ line
  length_le : ∀ line ∈ upTo accepted (lines 10 received),
    line.length ≤ 254 ∨ line.length = 255 ∧ accepted line
  tail_le : (∀ line ∈ lines 10 received, accepted line = false) →
    (LineReader.tail 10 received).length ≤ 254

theorem commandText_eq_iff (line : List UInt8) : commandText line = line ↔ (0 : UInt8) ∉ line := by
  constructor
  · intro h
    rw [← h]
    exact CString.nul_free _
  · intro h
    rw [commandText, CString.ofBytes_of_nul_free h]

theorem fits_iff_linesFit (received : List UInt8) :
    Fits 10 255 commandText accepted received ↔ LinesFit received := by
  constructor
  · rintro ⟨hview, hlen, htail⟩
    refine ⟨fun line hl => (commandText_eq_iff line).mp (hview line hl), fun line hl => ?_, ?_⟩
    · rcases hlen line hl with hlt | hfull
      · exact .inl (Nat.le_of_lt_succ hlt)
      · exact .inr hfull
    · exact fun hnone => Nat.le_of_lt_succ (htail hnone)
  · rintro ⟨hnul, hlen, htail⟩
    refine ⟨fun line hl => (commandText_eq_iff line).mpr (hnul line hl), fun line hl => ?_, ?_⟩
    · rcases hlen line hl with hle | hfull
      · exact .inl (Nat.lt_succ_of_le hle)
      · exact .inr hfull
    · exact fun hnone => Nat.lt_succ_of_le (htail hnone)

/-- On any board, the texts that are parsed are the lines of the stream exactly when the
lines fit. -/
theorem parsesLines_iff (received : List UInt8) (d : Device P) :
    ParsesLines received d ↔ LinesFit received := by
  have hview : ∀ l, (commandText l).length ≤ l.length := fun l =>
    (List.takeWhile_prefix _).length_le
  have hempty : accepted [] = false := by decide +kernel
  have hreads : ReadsLines 10 255 commandText accepted received ↔
      Fits 10 255 commandText accepted received := readsLines_iff hview hempty (by omega) received
  rw [fits_iff_linesFit] at hreads
  rw [← hreads]
  constructor
  · intro h k
    rw [← h.texts_eq k, (serve_spec k received d).1]
  · intro h
    have htexts : ∀ k, (serve k received d).1 = (upTo accepted (lines 10 received)).take k :=
      fun k => (serve_spec k received d).1.trans (h k)
    refine ⟨htexts, fun k hx => ?_⟩
    obtain ⟨text, ht, ha⟩ := (serve_spec k received d).2.mp hx
    rw [htexts k] at ht
    exact ⟨text, mem_of_mem_upTo (List.mem_of_mem_take ht), ha⟩

/-- A line of 255 other bytes and an empty JSON object. -/
def longLine : List UInt8 := List.replicate 255 120 ++ ascii "\x7b\x7d\n"

/-- The end of the line is taken for a configuration: the board saves it and restarts. -/
theorem longLine_restarts :
    (serve 2 longLine (boot fun _ => none : Device FlashObject)).2.exit = .restarted ∧
      ∀ line ∈ lines 10 longLine, accepted line = false := by
  refine ⟨?_, by decide +kernel⟩
  rw [(serve_spec 2 longLine _).2, (serve_spec 2 longLine _).1]
  decide +kernel

theorem lines_not_parsed :
    ¬ ∀ (received : List UInt8) (d : Device FlashObject), ParsesLines received d := by
  intro h
  obtain ⟨hx, hnone⟩ := longLine_restarts
  obtain ⟨line, hl, ha⟩ := (h longLine (boot fun _ => none)).restarted 2 hx
  rw [hnone line hl] at ha
  cases ha

end Esp32Automation.ConfigFromBlth
