import Esp32Automation.Json

/-!
# Requests, replies and restarts

What the sketches see of `WebServer`, of `String` and of the processor. The arguments
of a request are whatever the server presents under a name; the body of a POST is the
argument `plain`. A handler returns, restarts the board with `ESP.restart()`, or stops
it by passing a null pointer to the C library, after which the board starts again too.
-/
namespace Esp32Automation

/-- The arguments of a request. -/
abbrev Args := String → Option (List UInt8)

namespace Args

def hasArg (args : Args) (name : String) : Bool := (args name).isSome

/-- A missing argument reads as the empty string. -/
def arg (args : Args) (name : String) : List UInt8 := (args name).getD []

end Args

/-- `isspace` in the C locale. -/
def isSpace (c : UInt8) : Bool := c = 32 || (9 ≤ c && c ≤ 13)

/-- `atol` for a 32-bit `long`, which saturates. -/
def atol (s : List UInt8) : ℤ :=
  let s := s.dropWhile isSpace
  let (negative, s) := match s with
    | 45 :: s => (true, s)
    | 43 :: s => (false, s)
    | s => (false, s)
  let n : ℕ := (s.takeWhile Number.isDigit).foldl (fun n c => n * 10 + Number.digit c) 0
  if negative then max (-2 ^ 31) (-n) else min (2 ^ 31 - 1) n

/-- `String::toInt`. -/
def toInt (s : List UInt8) : ℤ := atol (CString.ofBytes s).bytes

theorem toInt_range (s : List UInt8) : -2 ^ 31 ≤ toInt s ∧ toInt s ≤ 2 ^ 31 - 1 := by
  unfold toInt atol
  dsimp only
  split_ifs
  · exact ⟨Int.le_max_left _ _, Int.max_le.mpr ⟨by decide, by omega⟩⟩
  · exact ⟨Int.le_min.mpr ⟨by decide, by omega⟩, Int.min_le_left _ _⟩

/-- The body of an HTTP reply: a text, or a document serialized by the handler. -/
inductive Body where
  | text (s : String)
  | json (document : Json)

instance : Coe Json Body := ⟨.json⟩

/-- What a client that parses the body finds under a key. -/
def Body.charPtr : Body → String → Option CString
  | .text _, _ => none
  | .json document, key => document.charPtr key

@[simp] theorem Body.json_charPtr (document : Json) (key : String) :
    (Body.json document).charPtr key = document.charPtr key := rfl

structure HttpReply where
  code : ℕ
  body : Body

/-- A literal of the source as a JSON string. -/
def Json.lit (s : String) : Json := .string (ascii s)

def createErrorResponse (responseJson : Json) (message : String) : Json :=
  (responseJson.setMember "status" (.lit "error")).setMember "message" (.lit message)

def createSuccessResponse (responseJson : Json) (state message : String) : Json :=
  ((responseJson.setMember "status" (.lit "success")).setMember "state" (.lit state)).setMember
    "message" (.lit message)

namespace HttpReply

/-- The reply of an update that has been carried out. -/
def updated : HttpReply :=
  ⟨200, createSuccessResponse .null "updated" "Configuration updated. Rebooting..."⟩

/-- The reply says `"status": "success"`. -/
def isSuccess (r : HttpReply) : Bool := r.body.charPtr "status" = some (CString.lit "success")

/-- The reply says `"state": "updated"` as well. -/
def isUpdated (r : HttpReply) : Bool :=
  r.isSuccess && r.body.charPtr "state" = some (CString.lit "updated")

theorem updated_isSuccess : updated.isSuccess = true := by decide

theorem updated_isUpdated : updated.isUpdated = true := by decide

theorem error_not_isSuccess (code : ℕ) (message : String) :
    (HttpReply.mk code (createErrorResponse .null message)).isSuccess = false := by
  have hm : (createErrorResponse .null message).getMember (ascii "status") =
      some (.lit "error") := by
    have hset := Json.getMember_setMember "message" (.lit message)
      [(ascii "status", .lit "error")] (ascii "status")
    rw [if_neg (by decide)] at hset
    exact hset
  have hs : (createErrorResponse .null message).charPtr "status" = some (CString.lit "error") := by
    rw [Json.charPtr, hm]
    rfl
  simp only [isSuccess, Body.json_charPtr, hs]
  decide

end HttpReply

/-- How the processor is left: a handler returns, restarts the board or crashes, or the
power goes. -/
inductive Exit where
  | returned
  | restarted
  | crashed
  | poweredOff
  deriving DecidableEq

/-- The narrowing of an `int` to the `uint16_t` of `setServer`. -/
def toPort (n : ℤ) : ℕ := (n % 65536).toNat

theorem toPort_eq_iff (n : ℤ) : (toPort n : ℤ) = n ↔ 0 ≤ n ∧ n ≤ 65535 := by
  unfold toPort
  omega

/-- What `reconnectMQTT` dials and logs in with. -/
structure ConnectCall where
  server : CString
  port : ℕ
  username : CString
  password : CString
  deriving DecidableEq

/-- A document published on a topic. -/
structure Publication where
  topic : String
  payload : Json

/-- What a handler does: the device it leaves, how it ends, the reply it sent and what
it published. -/
structure Reaction (D : Type) where
  device : D
  exit : Exit
  reply : Option HttpReply
  published : List Publication

namespace Reaction
variable {D : Type}

/-- Nothing happens. -/
def idle (d : D) : Reaction D := ⟨d, .returned, none, []⟩

/-- A reply and nothing else. -/
def replying (d : D) (r : HttpReply) : Reaction D := ⟨d, .returned, some r, []⟩

end Reaction
end Esp32Automation
