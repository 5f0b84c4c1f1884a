import CasePlan.Json.Writer
import CasePlan.Text.Utf8

/-!
# Requests and responses of the service

A request has a method, a path and a body; a response has a status and a body, which is JSON or
text.  A JSON body has to be written in UTF-8 with finite numbers; a response whose body cannot be
is replaced by a server error (`Response.settle`).
-/

namespace CasePlan.Service

/-- A request to the service. -/
structure Request where
  /-- The method, in upper case. -/
  method : Text
  /-- The path, percent-encoded. -/
  path : Text
  /-- The body. -/
  body : Text := []
  deriving DecidableEq, Repr

/-- The body of a response. -/
inductive Body where
  /-- JSON. -/
  | json (value : Json)
  /-- Plain text. -/
  | text (text : Text)

/-- A response of the service. -/
structure Response where
  /-- The status. -/
  status : Nat
  /-- The body. -/
  body : Body

mutual

/-- Whether a value can be sent: its numbers are finite and its texts have no surrogates. -/
def isSendable : Json → Bool
  | .float x => x.isFinite
  | .str t => !t.any Utf8.isSurrogate
  | .arr items => areSendable items
  | .obj members => areMembersSendable members
  | _ => true

/-- Whether all values can be sent. -/
def areSendable : List Json → Bool
  | [] => true
  | x :: rest => isSendable x && areSendable rest

/-- Whether all members can be sent. -/
def areMembersSendable : List (Text × Json) → Bool
  | [] => true
  | (name, x) :: rest => !name.any Utf8.isSurrogate && isSendable x && areMembersSendable rest

end

namespace Response

/-- A response with a JSON body. -/
def json (status : Nat) (value : Json) : Response := ⟨status, .json value⟩

/-- A response that tells what is wrong. -/
def detail (status : Nat) (value : Json) : Response := json status (.obj [("detail", value)])

/-- The response to a request that cannot be answered. -/
def serverError : Response := ⟨500, .text "Internal Server Error"⟩

/-- The response itself if its body can be sent, otherwise a server error. -/
def settle (r : Response) : Response :=
  match r.body with
  | .json value => if isSendable value then r else serverError
  | .text _ => r

end Response

end CasePlan.Service
