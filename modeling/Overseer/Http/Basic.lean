import Overseer.Json.Basic

/-! # Requests and responses -/

namespace Overseer.Http

structure Request where
  method : String
  /-- The path as it was sent, with the query if there is one. -/
  target : String
  contentType : Option String
  body : String
  deriving Repr, DecidableEq

inductive Body
  | empty
  | text (text : String)
  | json (value : Json)
  /-- The stream of events. -/
  | events
  deriving Repr

structure Response where
  status : Nat
  body : Body
  deriving Repr

namespace Response

def ok (value : Json) : Response := ⟨200, .json value⟩

def bare (status : Nat) : Response := ⟨status, .empty⟩

def notFound : Response := bare 404

end Response

end Overseer.Http
