import TaskDiagram.Decimal.Signed
import TaskDiagram.Service.Application
import TaskDiagram.Service.RequestTarget

/-!
# The service over HTTP

What comes in is matched with a route first, then understood piece by piece: the ids in the path,
the query, the body. A message that cannot be understood is turned away with a status and no
document; everything else is a request to the service.
-/

namespace TaskDiagram

/-- A message as it comes in. -/
structure HttpMessage where
  method : String
  target : String
  /-- Whether the body is said to be a document. -/
  saysDocument : Bool
  body : String
  deriving DecidableEq, Repr

structure HttpResponse where
  status : Nat
  body : Option Json

/-- Why a message is turned away. -/
inductive Rejection where
  | noRoute
  | wrongMethod
  /-- An id, the query or the text of the body is malformed. -/
  | malformed
  /-- The body is not said to be a document. -/
  | noDocument
  /-- The body is a document of the wrong shape. -/
  | wrongShape
  deriving DecidableEq, Repr

def Rejection.status : Rejection → Nat
  | noRoute => 404
  | wrongMethod => 405
  | malformed => 400
  | noDocument => 415
  | wrongShape => 422

/-- Where a path leads. -/
inductive Route where
  | tasks
  | task (id : String)
  | program (id : String)
  | diagram (id : String)
  | chats
  | turns (session : String)
  | grammar
  | health
  deriving DecidableEq, Repr

/-- The route of a path behind the name of the interface; an id is never empty. -/
def Route.ofPath? : List String → Option Route
  | ["tasks"] => some .tasks
  | ["tasks", id] => if id.isEmpty then none else some (.task id)
  | ["tasks", id, "program"] => if id.isEmpty then none else some (.program id)
  | ["tasks", id, "graph"] => if id.isEmpty then none else some (.diagram id)
  | ["chat", "sessions"] => some .chats
  | ["chat", "sessions", id, "turns"] => if id.isEmpty then none else some (.turns id)
  | ["grammar"] => some .grammar
  | ["health"] => some .health
  | _ => none

/-- The route of a target. -/
def RequestTarget.route? (t : RequestTarget) : Option Route :=
  match t.path with
  | "" :: "api" :: "v1" :: rest => Route.ofPath? rest
  | _ => none

/-- What a message asks a route for. -/
inductive Verb where
  | get
  | put
  | post
  | delete
  deriving DecidableEq, Repr

/-- A request for the head of an answer is answered like one for all of it. -/
def Verb.ofMethod? (method : String) : Option Verb :=
  match method with
  | "GET" | "HEAD" => some .get
  | "PUT" => some .put
  | "POST" => some .post
  | "DELETE" => some .delete
  | _ => none

namespace HttpMessage

/-- The id a piece of a path is. -/
def readId (piece : String) : Except Rejection Uuid :=
  match Uuid.ofText? (RequestTarget.pathPiece piece) with
  | some id => .ok id
  | none => .error .malformed

/-- The value of a query under a name, read as it has to be; a name may stand there once. -/
def queryValue {α : Type} (t : RequestTarget) (name : String) (read : String → Option α) :
    Except Rejection (Option α) :=
  match t.query.filter (·.1 == name) with
  | [] => .ok none
  | [(_, value)] =>
      match read value with
      | some a => .ok (some a)
      | none => .error .malformed
  | _ => .error .malformed

def readBool? (s : String) : Option Bool :=
  if s == "true" then some true else if s == "false" then some false else none

/-- The document value of the body, in the order of its text. -/
def document (m : HttpMessage) : Except Rejection Json :=
  if m.saysDocument then (Json.read m.body).mapError fun _ => .malformed
  else .error .noDocument

def ofMisfit : Json.Misfit → Rejection
  | .malformed => .malformed
  | .wrongShape => .wrongShape

/-- The body as a value of the domain, checked against its shape while it is read. What follows
the value is looked at last. -/
def decoded {α : Type} (m : HttpMessage) (shape : Json.Shape) (decode : Decoder α) :
    Except Rejection α := do
  if m.saysDocument then
    let (value, rest) ← (shape.readFront m.body).mapError ofMisfit
    let a ← (decode value).mapError fun _ => .wrongShape
    if (Json.skipSpace rest).isEmpty then pure a else throw .malformed
  else throw .noDocument

def chatShape : Json.Shape := .record [(["name"], .nullable .text)]

/-- The name a new conversation gives its task. -/
def chatName : Decoder (Option String) :=
  Fields.read "CreateChatRequest" (.optional "name" Decode.text)

/-- A diagram is read to its end before it is judged. -/
def diagramShape : Json.Shape := .whole fun value => (Payload.decode value).toBool

/-- What a message to a route asks for. -/
def understand (m : HttpMessage) (t : RequestTarget) (route : Route) (verb : Verb) :
    Except Rejection Request :=
  match route, verb with
  | .tasks, .get => do
      let sharedOnly ← queryValue t "shared" readBool?
      let order ← queryValue t "order" some
      let limit ← queryValue t "limit" Decimal.readInt64?
      return .listTasks (sharedOnly.getD false) order limit
  | .task id, .delete => return .deleteTask (← readId id)
  | .program id, .get => do
      let id ← readId id
      return .readProgram id (← queryValue t "form" some)
  | .program id, .put => do
      let id ← readId id
      let name ← queryValue t "name" some
      return .writeProgram id name (← m.document).canonical
  | .diagram id, .get => return .readDiagram (← readId id)
  | .diagram id, .put => do
      let id ← readId id
      let name ← queryValue t "name" some
      let payload ← m.decoded diagramShape Payload.decode
      return .writeDiagram id name payload.toWorkspace
  | .chats, .post => return .openChat (← m.decoded chatShape chatName)
  | .turns session, .post => do
      let session ← readId session
      return .takeTurn session (← m.decoded Turn.shape Turn.decode)
  | .grammar, .get => return .grammar
  | .health, .get => return .health
  | _, _ => throw .wrongMethod

/-- The request a message stands for. -/
def request (m : HttpMessage) : Except Rejection Request := do
  let t := RequestTarget.ofText m.target
  match t.route? with
  | none => throw .noRoute
  | some route =>
      match Verb.ofMethod? m.method with
      | none => throw .wrongMethod
      | some verb => m.understand t route verb

end HttpMessage

/-- A response to a request. -/
def HttpResponse.ofAnswer : Except ServiceError Reply → HttpResponse
  | .ok reply => ⟨200, some reply.toJson⟩
  | .error e => ⟨e.status, some e.toJson⟩

/-- Takes in a message. A question about what is allowed is granted whatever it is; a request for
the head of an answer gets no document. -/
def Application.serve (app : Application) (stamp : Stamp) (m : HttpMessage) :
    HttpResponse × Application :=
  if m.method == "OPTIONS" then (⟨200, none⟩, app)
  else
    match m.request with
    | .error rejection => (⟨rejection.status, none⟩, app)
    | .ok request =>
        let response := HttpResponse.ofAnswer ((app.answer stamp request).map (·.1))
        (if m.method == "HEAD" then { response with body := none } else response,
          app.after stamp request)

end TaskDiagram
