import TaskDiagram.Proofs.Program.StoredForm
import TaskDiagram.Proofs.Service.Effects

/-! # Tasks as a map

What a service answers to one who asks for the program of a task is a matter of the accepted
requests since the task was last removed: it is the program that the last of them to write the task
brought, and there is no such task if none did. Programs nested too deeply to be read back are left
out of this, and so are conversations that are stored under the very id.
-/

namespace TaskDiagram

open Json (maxDepth)

namespace Request

variable {layout : Layout} {id : Uuid} {request : Request} {p : Program}

/-- The task a request is about. -/
def task? : Request → Option Uuid
  | deleteTask id | readProgram id _ | writeProgram id _ _ | readDiagram id
  | writeDiagram id _ _ => some id
  | _ => none

def deletes (id : Uuid) : Request → Bool
  | deleteTask gone => gone = id
  | _ => false

/-- The program that a request brings for a task. -/
def programFor? (layout : Layout) (id : Uuid) (request : Request) : Option Program :=
  (request.put? layout).bind fun (written, p) => if written = id then some p else none

/-- The program of a task after accepted requests: of those since its last removal, the last one to
bring one decides. -/
def lastProgram? (layout : Layout) (id : Uuid) (requests : List Request) : Option Program :=
  (requests.reverse.takeWhile (!·.deletes id)).findSome? (·.programFor? layout id)

/-- The program of a task after one more request. -/
def settle (layout : Layout) (id : Uuid) (request : Request) (kept : Option Program) :
    Option Program :=
  if request.deletes id then none else (request.programFor? layout id).or kept

/-- One more request settles what the requests before have left. -/
theorem lastProgram?_concat (layout : Layout) (id : Uuid) (requests : List Request)
    (request : Request) : lastProgram? layout id (requests ++ [request]) =
      request.settle layout id (lastProgram? layout id requests) := by
  rw [lastProgram?, settle, List.reverse_append, List.reverse_singleton, List.singleton_append,
    List.takeWhile_cons]
  cases request.deletes id with
  | true => rfl
  | false =>
      simp only [Bool.not_false, if_true, Bool.false_eq_true, if_false, List.findSome?_cons]
      cases request.programFor? layout id <;> rfl

/-- A program for a task is one that the request writes under its id. -/
theorem put?_of_programFor? (h : request.programFor? layout id = some p) :
    request.put? layout = some (id, p) := by
  obtain ⟨⟨written, q⟩, hput, hwritten⟩ := Option.bind_eq_some_iff.mp h
  dsimp only at hwritten
  split at hwritten
  next hid =>
    cases hwritten
    rw [hput, hid]
  next => cases hwritten

theorem task?_of_put? (h : request.put? layout = some (id, p)) : request.task? = some id := by
  cases request with
  | writeProgram written name document =>
      obtain ⟨q, -, heq⟩ := Option.map_eq_some_iff.mp h
      exact congrArg some (Prod.mk.inj heq).1
  | writeDiagram written name workspace =>
      cases h
      rfl
  | _ => cases h

theorem task?_of_deletes (h : request.deletes id = true) : request.task? = some id := by
  cases request with
  | deleteTask gone => exact congrArg some (of_decide_eq_true h)
  | _ => cases h

theorem settle_of_asks (h : request.Asks) (kept : Option Program) :
    request.settle layout id kept = kept := by
  cases request <;> first | rfl | cases h

/-- A request about another task leaves the program of this one as it was. -/
theorem settle_of_other (h : request.task? ≠ some id) (kept : Option Program) :
    request.settle layout id kept = kept := by
  have hdeletes : request.deletes id = false :=
    Bool.eq_false_iff.mpr fun hdeletes => h (task?_of_deletes hdeletes)
  have hprogram : request.programFor? layout id = none :=
    Option.eq_none_iff_forall_ne_some.mpr fun p hp => h (task?_of_put? (put?_of_programFor? hp))
  simp [settle, hdeletes, hprogram]

end Request

/-- The answer to one who asks for the program of a task. -/
def HttpResponse.ofKept (id : Uuid) : Option Program → HttpResponse
  | none => ⟨404, some (ServiceError.notFound ("task " ++ id.text)).toJson⟩
  | some p => ⟨200, some (Reply.linked p.graphicDocument
      [("graph", Link.diagram id), ("self", Link.program id)]).toJson⟩

namespace Application

variable {app next : Application} {stamp : Stamp} {request : Request} {id : Uuid}
  {kept : Option Program}

/-- No conversation that ends by this request is stored under the id. -/
def StoresElsewhere (id : Uuid) (stamp : Stamp) (request : Request) : Prop :=
  ∀ session turn, request = .takeTurn session turn → stamp.fresh ≠ id

/-- What is kept under an id is this program, and it can be read. -/
structure Keeps (app : Application) (id : Uuid) (kept : Option Program) : Prop where
  document : app.tasks.document? id = kept.map Program.graphicDocument
  readable : ∀ p ∈ kept, ∀ c ∈ p.controls, c.Readable
  fits : ∀ p ∈ kept, p.graphicDocument.height ≤ maxDepth

/-- No request changes how the service is set up. -/
theorem Effect.config_eq (h : app.Effect stamp request next) : next.config = app.config := by
  cases h <;> rfl

/-- The document under an id is that of the program which the request settles there. -/
theorem Effect.document?_eq (h : app.Effect stamp request next)
    (helsewhere : StoresElsewhere id stamp request)
    (hkept : app.tasks.document? id = kept.map Program.graphicDocument) :
    next.tasks.document? id =
      (request.settle app.config.layout id kept).map Program.graphicDocument := by
  cases h with
  | ask hasks => rw [Request.settle_of_asks hasks, hkept]
  | @write _ written p info hid hput =>
      have hdeletes : request.deletes id = false := by cases request <;> first | rfl | cases hput
      simp only [Request.settle, hdeletes, Request.programFor?, hput, Option.bind_some]
      rw [TaskStore.document?_put, hid, hkept]
      by_cases hwritten : written = id <;> simp [hwritten]
  | delete gone herase =>
      rw [TaskStore.document?_erase? herase, hkept]
      by_cases hgone : gone = id <;>
        simp [Request.settle, Request.deletes, Request.programFor?, Request.put?, hgone]
  | openChat => exact hkept
  | continueChat => exact hkept
  | finishChat session turn =>
      rw [TaskStore.document?_put]
      exact (if_neg (helsewhere session turn rfl)).trans hkept

namespace Keeps

/-- A new service keeps no program under any id. -/
theorem new (config : Config) (id : Uuid) : (new config).Keeps id none := ⟨rfl, nofun, nofun⟩

/-- A request leaves under an id what it settles. -/
theorem effect (h : app.Keeps id kept) (he : app.Effect stamp request next)
    (helsewhere : StoresElsewhere id stamp request)
    (hfits : ∀ p, request.put? app.config.layout = some (id, p) →
      p.graphicDocument.height ≤ maxDepth) :
    next.Keeps id (request.settle app.config.layout id kept) := by
  refine ⟨he.document?_eq helsewhere h.document, fun p hp => ?_, fun p hp => ?_⟩ <;>
    rw [Request.settle] at hp <;> split at hp
  · cases hp
  · obtain hnew | ⟨-, hold⟩ := Option.or_eq_some_iff.mp hp
    · exact Request.readable_of_put? (Request.put?_of_programFor? hnew)
    · exact h.readable p hold
  · cases hp
  · obtain hnew | ⟨-, hold⟩ := Option.or_eq_some_iff.mp hp
    · exact hfits p (Request.put?_of_programFor? hnew)
    · exact h.fits p hold

/-- One who asks for a program that is kept is answered with its document, and else that there is no
such task. -/
theorem answer_readProgram (h : app.Keeps id kept) (stamp : Stamp) :
    app.answer stamp (.readProgram id none) =
      match kept with
      | none => .error (.notFound ("task " ++ id.text))
      | some p => .ok (.linked p.graphicDocument
          [("graph", Link.diagram id), ("self", Link.program id)], app) := by
  cases kept with
  | none =>
      simp only [answer, readProgram, find, TaskStore.get?_of_none h.document, Except.mapError]
      rfl
  | some p =>
      obtain ⟨info, -, hget⟩ :=
        TaskStore.get?_of_fits h.document (h.readable p rfl) (h.fits p rfl)
      simp only [answer, readProgram, find, hget]
      exact congrArg (fun d => Except.ok (Reply.linked d _, app)) p.graphicDocument_stored

/-- What one who asks for the program is answered. -/
theorem serve_readProgram (h : app.Keeps id kept) {reader : HttpMessage}
    (hreader : reader.request = .ok (.readProgram id none)) (hget : reader.method = "GET")
    (stamp : Stamp) : app.serve stamp reader = (.ofKept id kept, app) := by
  have hanswer := h.answer_readProgram stamp
  have hhead : (reader.method == "HEAD") = false := by
    rw [hget]
    rfl
  cases kept with
  | none =>
      rw [serve_of_refusal hreader hanswer, hhead]
      rfl
  | some p =>
      rw [serve_of_answer hreader hanswer, hhead]
      rfl

end Keeps

/-! ## Runs -/

/-- An encounter adds its own request, if that is accepted, to those of the run before it. -/
theorem accepted_concat (app : Application) (traffic : List Encounter) (e : Encounter) :
    app.accepted (traffic ++ [e]) = app.accepted traffic ++ ((app.run traffic).accepted? e).toList := by
  induction traffic generalizing app with
  | nil => simp [accepted, run]
  | cons first rest ih =>
      rw [List.cons_append, accepted, accepted, ih, List.append_assoc]
      rfl

theorem config_meet (app : Application) (e : Encounter) : (app.meet e).config = app.config := by
  cases e with
  | message stamp m =>
      obtain ⟨request, -, -, heffect⟩ | ⟨hsame, -⟩ := app.serve_effect stamp m
      · exact heffect.config_eq
      · exact congrArg config hsame
  | _ => rfl

theorem config_run (app : Application) (traffic : List Encounter) :
    (app.run traffic).config = app.config := by
  induction traffic generalizing app with
  | nil => rfl
  | cons e rest ih => exact (ih (app.meet e)).trans (app.config_meet e)

/-- No conversation that ends in a run is stored under the id. -/
def TurnsElsewhere (id : Uuid) (traffic : List Encounter) : Prop :=
  ∀ stamp m, .message stamp m ∈ traffic →
    ∀ request, m.request = .ok request → StoresElsewhere id stamp request

/-- An encounter leaves under an id what its request settles there, if it is accepted. -/
theorem Keeps.meet (h : app.Keeps id kept) {e : Encounter} (helsewhere : TurnsElsewhere id [e])
    (hfits : ∀ request ∈ app.accepted? e, ∀ p, request.put? app.config.layout = some (id, p) →
      p.graphicDocument.height ≤ maxDepth) :
    (app.meet e).Keeps id
      ((app.accepted? e).elim kept (·.settle app.config.layout id kept)) := by
  cases e with
  | message stamp m =>
      obtain ⟨request, hrequest, hstatus, heffect⟩ | ⟨hsame, hrefused⟩ := app.serve_effect stamp m
      · have haccepted : app.accepted? (.message stamp m) = some request := by
          rw [accepted?, if_pos hstatus, hrequest]
          rfl
        rw [haccepted]
        exact h.effect heffect (helsewhere stamp m List.mem_cons_self request hrequest)
          (hfits request haccepted)
      · have haccepted : app.accepted? (.message stamp m) = none := by
          cases hrequest : m.request with
          | error rejection => simp [accepted?, hrequest, Except.toOption]
          | ok request => rw [accepted?, if_neg (hrefused request hrequest)]
        rw [haccepted]
        change (app.serve stamp m).2.Keeps id kept
        rw [hsame]
        exact h
  | putItem kind item => exact ⟨h.document, h.readable, h.fits⟩
  | dropItem kind gone => exact ⟨h.document, h.readable, h.fits⟩

/-- After a run from nothing there is under an id what the accepted requests about it settled. -/
theorem keeps_run {config : Config} {traffic : List Encounter}
    (helsewhere : TurnsElsewhere id traffic)
    (hfits : ∀ request ∈ (new config).accepted traffic, ∀ p,
      request.put? config.layout = some (id, p) → p.graphicDocument.height ≤ maxDepth) :
    ((new config).run traffic).Keeps id
      (Request.lastProgram? config.layout id ((new config).accepted traffic)) := by
  induction traffic using List.reverseRecOn with
  | nil => exact .new config id
  | append_singleton earlier e ih =>
      -- What is met last is accepted and kept according to what the run before has left.
      rw [accepted_concat] at hfits ⊢
      rw [run_concat]
      have hearlier := ih (fun stamp m hm => helsewhere stamp m (List.mem_append_left _ hm))
        fun request hrequest => hfits request (List.mem_append_left _ hrequest)
      have hlayout : ((new config).run earlier).config.layout = config.layout := by
        rw [config_run]
        rfl
      have hmeet := hearlier.meet
        (fun stamp m hm => helsewhere stamp m (List.mem_append_right _ hm))
        (by
          rw [hlayout]
          exact fun request hrequest =>
            hfits request (List.mem_append_right _ (Option.mem_toList.mpr hrequest)))
      rw [hlayout] at hmeet
      cases haccepted : ((new config).run earlier).accepted? e with
      | none =>
          rw [haccepted] at hmeet
          simpa using hmeet
      | some request =>
          rw [haccepted] at hmeet
          rw [Option.toList_some, Request.lastProgram?_concat]
          exact hmeet

/-- A message that asks, that is refused, or that is about something other than the task. -/
def Spares (app : Application) (id : Uuid) (stamp : Stamp) (m : HttpMessage) : Prop :=
  (app.serve stamp m).1.status ≠ 200 ∨ m.method = "GET" ∨
    ∀ request, m.request = .ok request → request.task? ≠ some id ∧ StoresElsewhere id stamp request

/-- What is asked for with `GET` is a question. -/
theorem asks_of_get {m : HttpMessage} (hget : m.method = "GET") (h : m.request = .ok request) :
    request.Asks := by
  simp only [HttpMessage.request, hget] at h
  split at h
  next => cases h
  next route _ =>
    change m.understand _ route .get = .ok request at h
    cases route with
    | tasks =>
        obtain ⟨sharedOnly, -, h⟩ := Except.of_bind_eq_ok h
        obtain ⟨order, -, h⟩ := Except.of_bind_eq_ok h
        obtain ⟨limit, -, h⟩ := Except.of_bind_eq_ok h
        cases h
        trivial
    | program piece =>
        obtain ⟨id, -, h⟩ := Except.of_bind_eq_ok h
        obtain ⟨form, -, h⟩ := Except.of_bind_eq_ok h
        cases h
        trivial
    | diagram piece =>
        obtain ⟨id, -, h⟩ := Except.of_bind_eq_ok h
        cases h
        trivial
    | grammar =>
        cases h
        trivial
    | health =>
        cases h
        trivial
    | _ => cases h

/-- A message that does not write or remove a task leaves its program as it is. -/
theorem Keeps.spared (h : app.Keeps id kept) {m : HttpMessage} (hspares : app.Spares id stamp m) :
    (app.serve stamp m).2.Keeps id kept := by
  obtain ⟨request, hrequest, hstatus, heffect⟩ | ⟨hsame, -⟩ := app.serve_effect stamp m
  · obtain hrefused | hget | hother := hspares
    · exact absurd hstatus hrefused
    · have hasks := asks_of_get hget hrequest
      have helsewhere : StoresElsewhere id stamp request := by
        rintro session turn rfl
        cases hasks
      have hdocument := heffect.document?_eq helsewhere h.document
      rw [Request.settle_of_asks hasks] at hdocument
      exact ⟨hdocument, h.readable, h.fits⟩
    · obtain ⟨htask, helsewhere⟩ := hother request hrequest
      have hdocument := heffect.document?_eq helsewhere h.document
      rw [Request.settle_of_other htask] at hdocument
      exact ⟨hdocument, h.readable, h.fits⟩
  · rw [hsame]
    exact h

/-- After any run, one who asks for the program of a task is answered that there is no such task if
no accepted request wrote it since it was last removed, and otherwise with the program that the last
of them brought. A message that is refused, that asks, or that is about something other than the
task leaves this answer as it is. -/
theorem task_programs_refine_a_map (config : Config) (id : Uuid) {traffic : List Encounter}
    (helsewhere : TurnsElsewhere id traffic)
    (hfits : ∀ request ∈ (new config).accepted traffic, ∀ p,
      request.put? config.layout = some (id, p) → p.graphicDocument.height ≤ maxDepth)
    {reader : HttpMessage} (hreader : reader.request = .ok (.readProgram id none))
    (hget : reader.method = "GET") (stamp : Stamp) :
    let now := (new config).run traffic
    let kept := Request.lastProgram? config.layout id ((new config).accepted traffic)
    now.serve stamp reader = (.ofKept id kept, now) ∧
      ∀ other m, now.Spares id other m →
        ((now.serve other m).2.serve stamp reader).1 = .ofKept id kept := by
  intro now kept
  have hnow : now.Keeps id kept := keeps_run helsewhere hfits
  refine ⟨hnow.serve_readProgram hreader hget stamp, fun other m hspares => ?_⟩
  rw [(hnow.spared hspares).serve_readProgram hreader hget stamp]

/-- A task is written, removed and written once more. -/
def rewriting : List Encounter :=
  [aboutTask "PUT" "\x7b\"pick\":\x7b\"object\":\"cup\"\x7d\x7d",
    ⟨"DELETE", "/api/v1/tasks/00000000-0000-0000-0000-000000000001", false, ""⟩,
    aboutTask "PUT" "\x7b\"place\":\x7b\"location\":\"tray\"\x7d\x7d"].map
      (.message ⟨⟨0⟩, ⟨2⟩⟩)

/-- After the second writing its program is answered, and nothing of the first. -/
theorem last_write_is_answered :
    TurnsElsewhere ⟨1⟩ rewriting ∧
      (∀ request ∈ (new .standard).accepted rewriting, ∀ p,
        request.put? Config.standard.layout = some (⟨1⟩, p) →
          p.graphicDocument.height ≤ maxDepth) ∧
      (aboutTask "GET" "").request = .ok (.readProgram ⟨1⟩ none) ∧
      (((new .standard).run rewriting).serve ⟨⟨0⟩, ⟨2⟩⟩ (aboutTask "GET" "")).1 =
        .ofKept ⟨1⟩ (some ⟨⟨none, none, some ⟨some "tray", none⟩⟩, []⟩) := by
  have helsewhere : TurnsElsewhere ⟨1⟩ rewriting := by
    intro stamp m hm request _ session turn _
    obtain ⟨m, -, heq⟩ := List.mem_map.mp hm
    obtain ⟨rfl, -⟩ := Encounter.message.inj heq
    decide
  have hall : ((new .standard).accepted rewriting).all (fun request =>
      (request.put? Config.standard.layout).all fun put =>
        put.2.graphicDocument.height ≤ maxDepth) = true := by decide +kernel
  have hfits : ∀ request ∈ (new .standard).accepted rewriting, ∀ p,
      request.put? Config.standard.layout = some (⟨1⟩, p) →
        p.graphicDocument.height ≤ maxDepth := by
    intro request hrequest p hput
    have hput' := List.all_eq_true.mp hall request hrequest
    rw [hput] at hput'
    exact of_decide_eq_true hput'
  have hkept : Request.lastProgram? Config.standard.layout ⟨1⟩
      ((new .standard).accepted rewriting) =
        some ⟨⟨none, none, some ⟨some "tray", none⟩⟩, []⟩ := by decide +kernel
  have hserve :=
    (task_programs_refine_a_map .standard ⟨1⟩ helsewhere hfits request_aboutTask_get rfl ⟨⟨0⟩, ⟨2⟩⟩).1
  rw [hkept] at hserve
  exact ⟨helsewhere, hfits, request_aboutTask_get, congrArg Prod.fst hserve⟩

end Application

end TaskDiagram
