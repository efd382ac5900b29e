import Overseer.Http.Endpoint
import Overseer.Http.MediaType
import Overseer.Http.Submission
import Overseer.System.Operation

/-! # Serving requests

Each endpoint is one operation on the system. An id that cannot be read is an id that nobody has. A task
that is submitted gets the id that is handed in.
-/

namespace Overseer.Http

variable {κ : Type}

def counts (fields : List (String × Nat)) : Json :=
  .object (fields.map fun (name, n) => (name, .nat n))

def submit (obs : Observer κ) (fresh : TaskId) (request : Request) (s : System κ) :
    Response × System κ :=
  if !request.contentType.any MediaType.isJson then (.bare 415, s)
  else match Submission.read request.body with
    | .error e => (.bare e.status, s)
    | .ok payload =>
        match s.submit obs fresh payload with
        | (.ok id, s) => (⟨202, .json (.object [("task_id", .string id.text)])⟩, s)
        | (.error _, s) => (.bare 503, s)

/-- The view of something that an id may or may not have. -/
def lookUp {α : Type} (raw : String) (find : TaskId → Option α) (view : α → Json) : Response :=
  match (TaskId.parse? raw).bind find with
  | some found => .ok (view found)
  | none => .notFound

def abort (obs : Observer κ) (raw : String) (s : System κ) : Response × System κ :=
  match TaskId.parse? raw with
  | none => (.notFound, s)
  | some id =>
      match s.abort obs id with
      | (.ok (), s) => (.ok (.object [("ok", .bool true)]), s)
      | (.error (.notFound _), s) => (.notFound, s)
      | (.error (.alreadyTerminal _ _), s) => (.bare 409, s)

def serve (obs : Observer κ) (stamp : Stamp) (fresh : TaskId) (request : Request)
    (s : System κ) : Endpoint → Response × System κ
  | .health => (⟨200, .text "ok"⟩, s)
  | .submit => submit obs fresh request s
  | .tasks => (.ok (.array (s.tasks.list.map (·.toJson stamp))), s)
  | .task raw => (lookUp raw s.tasks.get? (·.toJson stamp), s)
  | .trace raw => (lookUp raw s.tracer.get? (·.toJson stamp), s)
  | .abort raw => abort obs raw s
  | .queueStatus => (.ok s.queue.status.toJson, s)
  | .pause => let (status, s) := s.pause; (.ok status.toJson, s)
  | .resume => let (status, s) := s.resume; (.ok status.toJson, s)
  | .purge => let (purged, s) := s.purge obs; (.ok (counts [("removed", purged.length)]), s)
  | .emergencyStop =>
      let (stopped, s) := s.emergencyStop obs
      (.ok (counts [("cancelled", stopped.cancelled.length), ("purged", stopped.purged.length)]), s)
  | .events => (⟨200, .events⟩, s)

/-- For the head alone the body is left out of the response. -/
def headOnly (request : Request) (response : Response) : Response :=
  if request.method = "HEAD" then
    match response.body with
    | .events => response
    | _ => { response with body := .text "" }
  else response

def handle (obs : Observer κ) (stamp : Stamp) (fresh : TaskId) (request : Request)
    (s : System κ) : Response × System κ :=
  match route request with
  | .refused status => (.bare status, s)
  | .found endpoint =>
      let (response, s) := serve obs stamp fresh request s endpoint
      (headOnly request response, s)

end Overseer.Http
