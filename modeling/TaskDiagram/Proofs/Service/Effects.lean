import TaskDiagram.Proofs.Graph.Resaving
import TaskDiagram.Proofs.Program.Readable
import TaskDiagram.Proofs.Store.Rows
import TaskDiagram.Service.Http

/-! # What requests do to the service

An accepted request leaves the service as it was, writes or removes one task, or opens, goes on with
or ends one conversation. A refused request, and a message that is no request, does nothing. What
holds of the service in all its runs is derived from these cases.
-/

namespace TaskDiagram

namespace Request

/-- Requests that are questions. -/
def Asks : Request → Prop
  | listTasks .. | readProgram .. | readDiagram .. | grammar | health => True
  | _ => False

/-- The id and the program that a request to write a task brings, given how diagrams are laid out;
none when its document is not one of a program. -/
def put? (layout : Layout) : Request → Option (Uuid × Program)
  | writeProgram id _ document => (Program.ofDocument document).toOption.map (id, ·)
  | writeDiagram id _ workspace =>
      some (id, (Graph.ofWorkspace .standard layout workspace).toProgram)
  | _ => none

theorem put?_of_asks {layout : Layout} {request : Request} (h : request.Asks) :
    request.put? layout = none := by
  cases request <;> first | rfl | cases h

/-- The types in a program that a request brings keep their meaning when they are written. -/
theorem readable_of_put? {layout : Layout} {request : Request} {id : Uuid} {p : Program}
    (h : request.put? layout = some (id, p)) : ∀ c ∈ p.controls, c.Readable := by
  cases request with
  | writeProgram written name document =>
      obtain ⟨read, hread, heq⟩ := Option.map_eq_some_iff.mp h
      cases heq
      cases hdocument : Program.ofDocument document with
      | error e =>
          rw [hdocument] at hread
          cases hread
      | ok q =>
          rw [hdocument] at hread
          cases hread
          exact Program.readable_of_ofDocument hdocument
  | writeDiagram written name workspace =>
      cases h
      exact Graph.readable_toProgram _
  | _ => cases h

end Request

namespace Application

variable {app next : Application} {stamp : Stamp} {request : Request} {reply : Reply}

/-- What an accepted request makes of the service. -/
inductive Effect (app : Application) (stamp : Stamp) : Request → Application → Prop
  | ask {request : Request} (h : request.Asks) : Effect app stamp request app
  | write {request : Request} {id : Uuid} {p : Program} (info : TaskInfo) (hid : info.id = id)
      (h : request.put? app.config.layout = some (id, p)) :
      Effect app stamp request { app with tasks := app.tasks.put ⟨info, p⟩ }
  | delete {tasks : TaskStore} (id : Uuid) (h : app.tasks.erase? id = some tasks) :
      Effect app stamp (.deleteTask id) { app with tasks }
  | openChat (name : Option String) (taskName : String) :
      Effect app stamp (.openChat name) (app.putChat stamp.fresh ⟨.new, taskName⟩)
  | continueChat {chat : PendingChat} {conversation : Conversation} (session : Uuid) (turn : Turn)
      (hchat : app.chat? session = some chat)
      (hturn : chat.conversation.apply turn = .ok (.inProgress, conversation)) :
      Effect app stamp (.takeTurn session turn) (app.putChat session { chat with conversation })
  | finishChat {chat : PendingChat} {conversation : Conversation} {program : Program}
      (session : Uuid) (turn : Turn) (hchat : app.chat? session = some chat)
      (hturn : chat.conversation.apply turn = .ok (.finished program, conversation)) :
      Effect app stamp (.takeTurn session turn)
        { app.eraseChat session with
          tasks := app.tasks.put
            ⟨(StoredTask.new stamp.fresh chat.taskName stamp.now).info,
              program.resolve app.library⟩ }

/-- A task is found or made under the id that was asked for. -/
theorem info_id_of_findOrNew {id : Uuid} {name : Option String} {task : StoredTask}
    (h : app.findOrNew stamp id name = .ok task) : task.info.id = id := by
  obtain ⟨stored, hstored, htask⟩ := Except.of_bind_eq_ok h
  cases htask
  cases stored with
  | none => rfl
  | some kept =>
      change kept.info.id = id
      exact TaskStore.info_id_of_get? (Except.of_mapError_eq_ok hstored)

/-- What an accepted request makes of the service is one of these effects. -/
theorem effect_of_answer (h : app.answer stamp request = .ok (reply, next)) :
    app.Effect stamp request next := by
  cases request with
  | listTasks sharedOnly order limit =>
      obtain ⟨order, -, h⟩ := Except.of_bind_eq_ok h
      obtain ⟨tasks, -, h⟩ := Except.of_bind_eq_ok h
      cases h
      exact .ask trivial
  | deleteTask id =>
      simp only [answer, deleteTask] at h
      split at h
      next tasks herase =>
        cases h
        exact .delete id herase
      next => cases h
  | readProgram id form =>
      obtain ⟨task, -, h⟩ := Except.of_bind_eq_ok h
      obtain ⟨document, -, h⟩ := Except.of_bind_eq_ok h
      cases h
      exact .ask trivial
  | writeProgram id name document =>
      obtain ⟨program, hprogram, h⟩ := Except.of_bind_eq_ok h
      obtain ⟨task, htask, h⟩ := Except.of_bind_eq_ok h
      cases h
      refine .write task.info (info_id_of_findOrNew htask) ?_
      rw [Request.put?, Except.of_mapError_eq_ok hprogram]
      rfl
  | readDiagram id =>
      obtain ⟨task, -, h⟩ := Except.of_bind_eq_ok h
      cases h
      exact .ask trivial
  | writeDiagram id name workspace =>
      obtain ⟨task, htask, h⟩ := Except.of_bind_eq_ok h
      cases h
      exact .write task.info (info_id_of_findOrNew htask) rfl
  | openChat name =>
      cases h
      exact .openChat name _
  | takeTurn session turn =>
      simp only [answer, takeTurn] at h
      split at h
      next => cases h
      next chat hchat =>
        split at h
        next => cases h
        next conversation hturn =>
          cases h
          exact .continueChat session turn hchat hturn
        next program conversation hturn =>
          cases h
          exact @Effect.finishChat app stamp chat _ _ session turn hchat hturn
  | grammar =>
      cases h
      exact .ask trivial
  | health =>
      cases h
      exact .ask trivial

/-- A request that brings a program writes it. -/
theorem Effect.of_put? {id : Uuid} {p : Program} (h : app.Effect stamp request next)
    (hput : request.put? app.config.layout = some (id, p)) :
    ∃ info : TaskInfo, info.id = id ∧ next = { app with tasks := app.tasks.put ⟨info, p⟩ } := by
  cases h with
  | write info hid hput' =>
      obtain ⟨rfl, rfl⟩ := Prod.mk.inj (Option.some.inj (hput.symm.trans hput'))
      exact ⟨info, hid, rfl⟩
  | ask hasks =>
      rw [Request.put?_of_asks hasks] at hput
      cases hput
  | _ => cases hput

/-! ## Messages -/

theorem status_ne_ok (e : ServiceError) : e.status ≠ 200 := by
  cases e with
  | storage e => cases e <;> simp [ServiceError.status]
  | _ => simp [ServiceError.status]

/-- What is understood as a request is no question about what is allowed. -/
theorem method_ne_options {m : HttpMessage} (h : m.request = .ok request) :
    (m.method == "OPTIONS") = false := by
  by_contra hmethod
  have hoptions : m.method = "OPTIONS" := by simpa using hmethod
  simp only [HttpMessage.request, hoptions] at h
  split at h <;> cases h

variable {m : HttpMessage}

/-- A message that is no request is turned away, and the service stays as it was. -/
theorem serve_of_rejection {rejection : Rejection} (hm : m.request = .error rejection)
    (hmethod : (m.method == "OPTIONS") = false) :
    app.serve stamp m = (⟨rejection.status, none⟩, app) := by
  simp only [serve, hmethod, hm, Bool.false_eq_true, if_false]

/-- The answer to an accepted request comes with the service after it. -/
theorem serve_of_answer (hm : m.request = .ok request)
    (hanswer : app.answer stamp request = .ok (reply, next)) :
    app.serve stamp m = (⟨200, if m.method == "HEAD" then none else some reply.toJson⟩, next) := by
  rw [serve, method_ne_options hm]
  simp only [Bool.false_eq_true, if_false, hm, hanswer, after, Except.map, HttpResponse.ofAnswer]
  split <;> rfl

/-- A request that is refused leaves the service as it was. -/
theorem serve_of_refusal {e : ServiceError} (hm : m.request = .ok request)
    (hanswer : app.answer stamp request = .error e) :
    app.serve stamp m =
      (⟨e.status, if m.method == "HEAD" then none else some e.toJson⟩, app) := by
  rw [serve, method_ne_options hm]
  simp only [Bool.false_eq_true, if_false, hm, hanswer, after, Except.map, HttpResponse.ofAnswer]
  split <;> rfl

/-- The status of a response tells whether the request was accepted. -/
theorem status_serve (hm : m.request = .ok request) :
    (app.serve stamp m).1.status =
      match app.answer stamp request with
      | .ok _ => 200
      | .error e => e.status := by
  cases hanswer : app.answer stamp request with
  | error e => rw [serve_of_refusal hm hanswer]
  | ok result => rw [serve_of_answer hm hanswer]

/-- A message either is an accepted request and has its effect, or leaves the service alone. -/
theorem serve_effect (app : Application) (stamp : Stamp) (m : HttpMessage) :
    (∃ request, m.request = .ok request ∧ (app.serve stamp m).1.status = 200 ∧
      app.Effect stamp request (app.serve stamp m).2) ∨
    (app.serve stamp m).2 = app ∧
      ∀ request, m.request = .ok request → (app.serve stamp m).1.status ≠ 200 := by
  cases hm : m.request with
  | error rejection =>
      refine .inr ⟨?_, nofun⟩
      rw [serve, hm]
      split <;> rfl
  | ok request =>
      cases hanswer : app.answer stamp request with
      | error e =>
          rw [serve_of_refusal hm hanswer]
          exact .inr ⟨rfl, fun _ _ => status_ne_ok e⟩
      | ok result =>
          rw [serve_of_answer hm hanswer]
          exact .inl ⟨request, rfl, rfl, effect_of_answer hanswer⟩

end Application

/-! ## Runs -/

/-- What a service may meet: a message, or a change of its library. -/
inductive Encounter where
  | message (stamp : Stamp) (m : HttpMessage)
  | putItem (kind : LibraryKind) (item : LibraryItem)
  | dropItem (kind : LibraryKind) (id : Int64)

namespace Application

/-- The service after an encounter. -/
def meet (app : Application) : Encounter → Application
  | .message stamp m => (app.serve stamp m).2
  | .putItem kind item => { app with library := app.library.put kind item }
  | .dropItem kind id => { app with library := (app.library.erase? kind id).getD app.library }

/-- The service after encounters in sequence. -/
def run (app : Application) (traffic : List Encounter) : Application := traffic.foldl meet app

theorem run_concat (app : Application) (traffic : List Encounter) (e : Encounter) :
    app.run (traffic ++ [e]) = (app.run traffic).meet e := by
  rw [run, List.foldl_append]
  rfl

/-- The request of a message that is accepted. -/
def accepted? (app : Application) : Encounter → Option Request
  | .message stamp m => if (app.serve stamp m).1.status = 200 then m.request.toOption else none
  | _ => none

/-- The accepted requests of a run. -/
def accepted (app : Application) : List Encounter → List Request
  | [] => []
  | e :: rest => (app.accepted? e).toList ++ (app.meet e).accepted rest

/-- A message about the program of the task `1`. -/
def aboutTask (method body : String) : HttpMessage :=
  ⟨method, "/api/v1/tasks/00000000-0000-0000-0000-000000000001/program", true, body⟩

theorem request_aboutTask_get :
    (aboutTask "GET" "").request = .ok (.readProgram ⟨1⟩ none) := by with_unfolding_all rfl

theorem request_aboutTask_put {body : String} {document : Json}
    (h : Json.read body = .ok document) :
    (aboutTask "PUT" body).request = .ok (.writeProgram ⟨1⟩ none document.canonical) := by
  have htarget : RequestTarget.ofText (aboutTask "PUT" body).target =
      ⟨["", "api", "v1", "tasks", "00000000-0000-0000-0000-000000000001", "program"], []⟩ := by
    change RequestTarget.ofText
      "/api/v1/tasks/00000000-0000-0000-0000-000000000001/program" = _
    decide +kernel
  have hid : HttpMessage.readId "00000000-0000-0000-0000-000000000001" = .ok ⟨1⟩ := by
    with_unfolding_all rfl
  have hdocument : (aboutTask "PUT" body).document = .ok document := by
    simp only [HttpMessage.document, aboutTask, h, if_true]
    rfl
  simp only [HttpMessage.request, htarget]
  change (aboutTask "PUT" body).understand _ (.program _) .put = _
  simp only [HttpMessage.understand, hid, hdocument]
  rfl

end Application

end TaskDiagram
