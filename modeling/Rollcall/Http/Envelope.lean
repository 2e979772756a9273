import Rollcall.Json

/-!
Responses and their envelope.

Every answer of the service in JSON is an envelope: a code, a message and, if there is any, data.
-/

namespace Rollcall.Http

structure Response where
  status : Nat
  /-- Names in lower case, with their values. -/
  headers : List (String × String)
  body : String
deriving Repr, Inhabited

def jsonType : String := "application/json"

def Response.json (status : Nat) (body : Json) : Response :=
  ⟨status, [("content-type", jsonType)], body.text⟩

def isStatus (code : Nat) : Bool := 100 ≤ code && code ≤ 999

structure Envelope where
  code : Nat
  message : String
  data : Option Json

namespace Envelope

def success (data : Json) : Envelope := ⟨200, "Success", some data⟩

def failure (code : Nat) (message : String) : Envelope := ⟨code, message, none⟩

def toJson (e : Envelope) : Json :=
  .object ([("code", .nat e.code), ("message", .string e.message)] ++
    (e.data.map fun data => ("data", data)).toList)

/-- A code that is no status is answered with status 200. -/
def response (e : Envelope) : Response :=
  .json (if isStatus e.code then e.code else 200) e.toJson

end Envelope
end Rollcall.Http
