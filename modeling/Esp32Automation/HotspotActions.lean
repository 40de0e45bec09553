import Esp32Automation.CommandVariants

/-!
# What `POST /action` answers

In esp32_hotspot_mqtt_remote_on_off one function serves the commands of both transports. It
publishes what became of a command and returns nothing, and the HTTP handler answers without
knowing it: every body that is JSON is answered with success.
-/
namespace Esp32Automation.Hotspot
open CommandVariants

variable {P : Type}

/-- What the broker gets: `publish` sends nothing when the client is not connected. -/
def sent (connected : Bool) (r : Reaction (Device P)) : List Publication :=
  if connected then r.published else []

/-- The request drove the pin to the level that its action names. -/
def Drives (body : List UInt8) (r : Reaction (Device P)) : Prop :=
  ∃ c ∈ Command.ofPayload body, ∃ level, c.level = some level ∧ r.device.pin32 = level

/-- The reply, the published status and the pin of one request tell the same story. -/
structure OutcomesAgree (connected : Bool) (body : List UInt8) (d : Device P)
    (r : Reaction (Device P)) (reply : HttpReply) : Prop where
  success_iff : reply.isSuccess ↔ Drives body r
  status_eq : ∀ p ∈ sent connected r, p.topic = "esp32/status" →
    p.payload.charPtr "status" = reply.body.charPtr "status"
  error_unchanged : reply.body.charPtr "status" = some (.lit "error") →
    r.device.pin32 = d.pin32

/-- The request is answered, and its outcomes agree. -/
def ActionAgrees (connected : Bool) (args : Args) (d : Device P) : Prop :=
  ∃ reply ∈ (postAction args d).reply,
    OutcomesAgree connected (args.arg "plain") d (postAction args d) reply

def actionError : HttpReply := ⟨400, Json.object [(ascii "status", .lit "error")]⟩

def actionSuccess : HttpReply := ⟨200, Json.object [(ascii "status", .lit "success")]⟩

theorem actionSuccess_status :
    actionSuccess.body.charPtr "status" = some (.lit "success") := by decide

/-- A body that is no JSON text is answered with an error, and nothing else happens. -/
theorem postAction_error {args : Args} {err : JsonDeserializer.Error}
    (h : deserializeJson (args.arg "plain") = .error err) (d : Device P) :
    postAction args d = .replying d actionError := by
  rw [postAction, h]
  rfl

/-- Any other body gets the reply for success, whatever becomes of its command. -/
theorem postAction_ok {args : Args} {doc : Json}
    (h : deserializeJson (args.arg "plain") = .ok doc) (d : Device P) :
    postAction args d = commandReaction doc (some actionSuccess) d := by
  rw [postAction, h]
  rfl

/-- A command that names a level drives the pin to it, and the status says success. -/
theorem handleActionCommand_level {action : Option CString} {level : Bool}
    (h : (Command.ofAction action).level = some level) (d : Device P) :
    (handleActionCommand action d).1.pin32 = level ∧
      (handleActionCommand action d).2.charPtr "status" = some (.lit "success") := by
  cases action with
  | none => cases h
  | some action =>
    simp only [handleActionCommand, Command.ofAction] at h ⊢
    split_ifs at h ⊢
    · obtain rfl := Option.some.inj h
      exact ⟨rfl, rfl⟩
    · obtain rfl := Option.some.inj h
      exact ⟨rfl, rfl⟩
    · cases h

/-- A command names a level exactly when its action is `ON` or `OFF`. -/
theorem level_isSome_iff (c : Command) : c.level.isSome ↔ c = .on ∨ c = .off := by
  cases c <;> decide

/-- A body that asks for nothing is refused in every respect. -/
theorem agrees_of_error {args : Args} {err : JsonDeserializer.Error}
    (h : deserializeJson (args.arg "plain") = .error err) (connected : Bool) (d : Device P) :
    ActionAgrees connected args d := by
  have hnone : Command.ofPayload (args.arg "plain") = none := ofPayload_error h
  have hfail : actionError.isSuccess = false := by decide
  rw [ActionAgrees, postAction_error h]
  refine ⟨actionError, rfl, ?_, ?_, fun _ => rfl⟩
  · simp [hfail, Drives, hnone]
  · intro p hp
    unfold sent at hp
    split_ifs at hp <;> cases hp

/-- For a body that is JSON everything depends on whether its action names a level. -/
theorem agrees_iff_of_ok {args : Args} {doc : Json}
    (h : deserializeJson (args.arg "plain") = .ok doc) (connected : Bool) (d : Device P) :
    ActionAgrees connected args d ↔ (Command.ofAction (doc.charPtr "action")).level.isSome := by
  have hsome : Command.ofPayload (args.arg "plain") =
      some (.ofAction (doc.charPtr "action")) := ofPayload_ok h
  have hsuccess : actionSuccess.isSuccess = true := by decide
  rw [ActionAgrees, postAction_ok h]
  constructor
  · rintro ⟨reply, hreply, hagree⟩
    obtain rfl := Option.some.inj hreply
    obtain ⟨c, hc, level, hlevel, -⟩ := hagree.success_iff.mp hsuccess
    rw [hsome] at hc
    obtain rfl := Option.some.inj hc
    simp [hlevel]
  · intro hl
    obtain ⟨level, hlevel⟩ := Option.isSome_iff_exists.mp hl
    obtain ⟨hpin, hstatus⟩ := handleActionCommand_level hlevel d
    refine ⟨actionSuccess, rfl, ?_, ?_, ?_⟩
    · exact ⟨fun _ => ⟨_, hsome, level, hlevel, hpin⟩, fun _ => hsuccess⟩
    · intro p hp _
      unfold sent at hp
      split_ifs at hp
      · obtain rfl := List.mem_singleton.mp hp
        rw [actionSuccess_status]
        exact hstatus
      · cases hp
    · intro herror
      rw [actionSuccess_status] at herror
      exact absurd herror (by decide)

/-- For every body and every device, connected to the broker or not: reply, published status
and pin agree exactly when the body is no JSON text or its action is `ON` or `OFF`. -/
theorem action_agrees_iff (connected : Bool) (args : Args) (d : Device P) :
    ActionAgrees connected args d ↔ Plain (args.arg "plain") := by
  cases h : deserializeJson (args.arg "plain") with
  | error err =>
    have hplain : Plain (args.arg "plain") := by
      rw [Plain, ofPayload_error h]
      simp
    exact ⟨fun _ => hplain, fun _ => agrees_of_error h connected d⟩
  | ok doc =>
    rw [agrees_iff_of_ok h, level_isSome_iff, Plain, ofPayload_ok h]
    simp

/-- An unknown action is answered with success and moves nothing. -/
theorem unknown_action_succeeds :
    ¬ ∀ (connected : Bool) (args : Args) (d : Device FlashObject),
      ActionAgrees connected args d := by
  intro h
  obtain ⟨reply, hreply, hagree⟩ := h true
    (fun _ => some (ascii "\x7b\"action\":\"TOGGLE\"\x7d")) (boot fun _ => none)
  have hok : ∀ reply ∈ (postAction (fun _ => some (ascii "\x7b\"action\":\"TOGGLE\"\x7d"))
      (boot fun _ => none : Device FlashObject)).reply, reply.isSuccess = true := by
    decide +kernel
  obtain ⟨c, hc, level, hlevel, -⟩ := hagree.success_iff.mp (hok reply hreply)
  have hnot : ∀ c ∈ Command.ofPayload (ascii "\x7b\"action\":\"TOGGLE\"\x7d"),
      c.level = none := by
    decide +kernel
  rw [hnot c hc] at hlevel
  cases hlevel

end Esp32Automation.Hotspot
