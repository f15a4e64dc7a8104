import TaskDiagram.Proofs.Service.Effects
import TaskDiagram.Proofs.Session.Conversation

/-! # Conversations among other traffic

A conversation is kept from the message that opens it to its first finished turn, which stores one
task. Whatever else the service meets in between, the draft is made of the turns of this
conversation only; after the end its turns are refused.
-/

namespace TaskDiagram

/-- The turns among some encounters that are well-formed and sent to a session. -/
def Encounter.turnTo? (s : Uuid) : Encounter → Option Turn
  | .message _ m =>
      match m.request with
      | .ok (.takeTurn session turn) => if session = s then some turn else none
      | _ => none
  | _ => none

/-- A message sends a turn when it is a request to take one. -/
theorem Encounter.turnTo?_message {s : Uuid} {stamp : Stamp} {m : HttpMessage} {turn : Turn} :
    (message stamp m).turnTo? s = some turn ↔ m.request = .ok (.takeTurn s turn) := by
  simp only [turnTo?]
  split
  next session taken hm =>
    rw [hm]
    split
    next hs => simp [hs]
    next hs => simp [hs]
  next hother => simpa using hother s turn

def turnsTo (s : Uuid) (traffic : List Encounter) : List Turn := traffic.filterMap (·.turnTo? s)

/-- A message sends a turn to a session, well-formed or not. -/
def HttpMessage.PostsTurnTo (m : HttpMessage) (s : Uuid) : Prop :=
  m.method = "POST" ∧ ∃ piece, (RequestTarget.ofText m.target).route? = some (.turns piece) ∧
    readId piece = .ok s

theorem HttpMessage.PostsTurnTo.request_eq {m : HttpMessage} {s : Uuid} (h : m.PostsTurnTo s) :
    m.request = (m.decoded Turn.shape Turn.decode).map (.takeTurn s ·) := by
  obtain ⟨hmethod, piece, hroute, hid⟩ := h
  simp only [request, hroute, hmethod]
  change m.understand _ (.turns piece) .post = _
  simp only [understand, hid]
  cases m.decoded Turn.shape Turn.decode <;> rfl

theorem HttpMessage.PostsTurnTo.request_of_decoded {m : HttpMessage} {s : Uuid} {turn : Turn}
    (h : m.PostsTurnTo s) (hdecoded : m.decoded Turn.shape Turn.decode = .ok turn) :
    m.request = .ok (.takeTurn s turn) := by
  rw [h.request_eq, hdecoded]
  rfl

namespace Conversation

/-- As long as no turn is marked as finished, all are accepted. -/
theorem accepted_of_open {turns : List Turn} (h : turns.any (·.finished) = false) :
    Turn.accepted turns = turns := by
  induction turns with
  | nil => rfl
  | cons turn rest ih =>
      obtain ⟨hturn, hrest⟩ := Bool.or_eq_false_iff.mp h
      change turn.finished = false at hturn
      rw [Turn.accepted, hturn, if_neg Bool.false_ne_true, ih hrest]

/-- As long as no turn is marked as finished, a conversation holds all of them. -/
theorem holds_of_open {turns : List Turn} (h : turns.any (·.finished) = false) :
    (new.after turns).Holds turns := by
  have hholds := holds_after turns
  rwa [accepted_of_open h] at hholds

end Conversation

/-- The conversation that has taken some turns. -/
def PendingChat.ofTurns (title : String) (turns : List Turn) : PendingChat :=
  ⟨Conversation.new.after turns, title⟩

theorem PendingChat.ofTurns_concat (title : String) (turns : List Turn) (turn : Turn) :
    ofTurns title (turns ++ [turn]) = ⟨(ofTurns title turns).conversation.next turn, title⟩ := by
  rw [ofTurns, Conversation.after, List.foldl_append]
  rfl

/-- The draft that turns make up. -/
def Turn.draftOf (turns : List Turn) : Program :=
  (turns.map (·.draft)).foldl Program.merge .placeholder

/-- An unfinished conversation is its draft and its answers, in the order of the turns. -/
theorem PendingChat.ofTurns_of_open {turns : List Turn} (h : turns.any (·.finished) = false)
    (title : String) :
    ofTurns title turns = ⟨⟨Turn.draftOf turns, turns.map (·.answer), false⟩, title⟩ := by
  have hholds := Conversation.holds_of_open h
  have hconversation : Conversation.new.after turns =
      ⟨Turn.draftOf turns, turns.map (·.answer), false⟩ := by
    obtain ⟨hdraft, htranscript, hfinished⟩ := hholds
    rw [h] at hfinished
    generalize Conversation.new.after turns = c at *
    obtain ⟨draft, transcript, finished⟩ := c
    simp_all [Turn.draftOf]
  rw [ofTurns, hconversation]

theorem PendingChat.draft_ofTurns_concat {turns : List Turn}
    (h : turns.any (·.finished) = false) (title : String) (turn : Turn) :
    (ofTurns title (turns ++ [turn])).conversation.draft = Turn.draftOf (turns ++ [turn]) := by
  have hholds := Conversation.holds_of_open h
  rw [ofTurns_concat]
  exact (hholds.next (hholds.finished.trans h) turn).draft

namespace Application

variable {app next : Application} {stamp : Stamp} {request : Request} {s session : Uuid}

/-! ## The conversations in progress -/

/-- Only the conversation that is written changes. -/
theorem chat?_putChat (app : Application) (session : Uuid) (chat : PendingChat) (s : Uuid) :
    (app.putChat session chat).chat? s = if session = s then some chat else app.chat? s := by
  have hkey : ∀ entry : Uuid × PendingChat,
      (if entry.1 = session then (session, chat) else entry).1 = entry.1 := by
    intro entry
    split <;> simp [*]
  unfold chat? putChat
  dsimp only
  split
  next hany =>
    -- A chat that is there is overwritten in its place.
    rw [List.find?_map]
    simp only [Function.comp_def, hkey, Option.map_map]
    cases hfound : app.chats.find? (·.1 = s) with
    | none =>
        rw [if_neg]
        · rfl
        · rintro rfl
          obtain ⟨entry, hentry, hid⟩ := List.any_eq_true.mp hany
          exact List.find?_eq_none.mp hfound entry hentry hid
    | some entry =>
        have hid : entry.1 = s := by simpa using List.find?_some hfound
        by_cases hs : session = s
        · simp [hs, hid]
        · simp [hs, hid, Ne.symm hs]
  next hnone =>
    -- A new one is put behind the others.
    rw [List.find?_append]
    by_cases hs : session = s
    · subst hs
      have hfound : app.chats.find? (·.1 = session) = none :=
        List.find?_eq_none.mpr fun entry hentry hid =>
          hnone (List.any_eq_true.mpr ⟨entry, hentry, hid⟩)
      simp [hfound]
    · simp [hs]

theorem chat?_eraseChat (app : Application) (session s : Uuid) :
    (app.eraseChat session).chat? s = if session = s then none else app.chat? s := by
  rw [chat?, eraseChat, find?_filter_ne]
  split <;> rfl

/-- Conversations other than the one a request is about stay as they are. -/
theorem Effect.chat?_eq (h : app.Effect stamp request next)
    (hopen : ∀ name, request = .openChat name → stamp.fresh ≠ s)
    (hturn : ∀ session turn, request = .takeTurn session turn → session ≠ s) :
    next.chat? s = app.chat? s := by
  cases h with
  | openChat name taskName => exact (chat?_putChat ..).trans (if_neg (hopen name rfl))
  | continueChat session turn => exact (chat?_putChat ..).trans (if_neg (hturn session turn rfl))
  | finishChat session turn => exact (chat?_eraseChat ..).trans (if_neg (hturn session turn rfl))
  | _ => rfl

/-! ## Turns -/

theorem answer_takeTurn_of_none (h : app.chat? s = none) (stamp : Stamp) (turn : Turn) :
    app.answer stamp (.takeTurn s turn) = .error (.notFound ("chat session " ++ s.text)) := by
  simp only [answer, takeTurn, h]

/-- A turn is taken by a conversation in progress, and it ends the conversation when it is marked as
finished. -/
theorem answer_takeTurn_of_open {chat : PendingChat} (h : app.chat? s = some chat)
    (hopen : chat.conversation.finished = false) (stamp : Stamp) (turn : Turn) :
    app.answer stamp (.takeTurn s turn) =
      .ok (if turn.finished then
          app.finishChat stamp s ⟨chat.conversation.next turn, chat.taskName⟩
            (chat.conversation.next turn).draft.normalize
        else app.continueChat s ⟨chat.conversation.next turn, chat.taskName⟩) := by
  simp only [answer, takeTurn, h, Conversation.apply_of_open hopen]
  cases turn.finished <;> rfl

/-- A conversation has taken these turns: it is in progress, or it has ended with one of them. -/
def Converses (app : Application) (s : Uuid) (title : String) (turns : List Turn) : Prop :=
  app.chat? s = if turns.any (·.finished) then none else some (.ofTurns title turns)

namespace Converses

variable {title : String} {turns : List Turn}

/-- A conversation in which a turn was marked as finished is not found any more. -/
theorem answer_of_finished (h : app.Converses s title turns)
    (hfinished : turns.any (·.finished) = true) (stamp : Stamp) (turn : Turn) :
    app.answer stamp (.takeTurn s turn) = .error (.notFound ("chat session " ++ s.text)) := by
  rw [Converses, if_pos hfinished] at h
  exact answer_takeTurn_of_none h stamp turn

/-- A conversation in which no turn was marked as finished takes one more. -/
theorem answer_of_open (h : app.Converses s title turns)
    (hopen : turns.any (·.finished) = false) (stamp : Stamp) (turn : Turn) :
    app.answer stamp (.takeTurn s turn) =
      .ok (if turn.finished then
          app.finishChat stamp s (.ofTurns title (turns ++ [turn]))
            (PendingChat.ofTurns title (turns ++ [turn])).conversation.draft.normalize
        else app.continueChat s (.ofTurns title (turns ++ [turn]))) := by
  rw [Converses, hopen, if_neg Bool.false_ne_true] at h
  have hunfinished : (PendingChat.ofTurns title turns).conversation.finished = false :=
    (Conversation.holds_of_open hopen).finished.trans hopen
  rw [PendingChat.ofTurns_concat]
  exact answer_takeTurn_of_open h hunfinished stamp turn

/-- A turn is taken, unless the conversation has ended. -/
theorem takeTurn (h : app.Converses s title turns) {m : HttpMessage} {turn : Turn}
    (hm : m.request = .ok (.takeTurn s turn)) (stamp : Stamp) :
    (app.serve stamp m).2.Converses s title (turns ++ [turn]) := by
  rw [Converses, List.any_append, List.any_cons, List.any_nil, Bool.or_false]
  cases hfinished : turns.any (·.finished) with
  | true =>
      rw [serve_of_refusal hm (h.answer_of_finished hfinished stamp turn)]
      simpa [Converses, hfinished] using h
  | false =>
      have hanswer := h.answer_of_open hfinished stamp turn
      cases hturn : turn.finished with
      | true =>
          rw [hturn, if_pos rfl] at hanswer
          rw [serve_of_answer hm hanswer]
          exact (chat?_eraseChat ..).trans (if_pos rfl)
      | false =>
          rw [hturn, if_neg Bool.false_ne_true] at hanswer
          rw [serve_of_answer hm hanswer]
          exact (chat?_putChat ..).trans (if_pos rfl)

/-- Whatever else a service meets leaves the conversation as it is. -/
theorem meet (h : app.Converses s title turns) {e : Encounter}
    (hopen : ∀ stamp m name, e = .message stamp m → m.request = .ok (.openChat name) →
      stamp.fresh ≠ s) :
    (app.meet e).Converses s title (turns ++ (e.turnTo? s).toList) := by
  cases e with
  | putItem kind item =>
      change Converses _ s title (turns ++ [])
      rwa [List.append_nil]
  | dropItem kind id =>
      change Converses _ s title (turns ++ [])
      rwa [List.append_nil]
  | message stamp m =>
      cases hturn : (Encounter.message stamp m).turnTo? s with
      | some turn =>
          exact h.takeTurn (Encounter.turnTo?_message.mp hturn) stamp
      | none =>
          rw [Option.toList_none, List.append_nil]
          obtain ⟨request, hrequest, -, heffect⟩ | ⟨hsame, -⟩ := app.serve_effect stamp m
          · have hother : ∀ session turn, request = .takeTurn session turn → session ≠ s := by
              rintro session turn rfl rfl
              cases hturn.symm.trans (Encounter.turnTo?_message.mpr hrequest)
            have hchat := heffect.chat?_eq
              (fun name heq => hopen stamp m name rfl (heq ▸ hrequest)) hother
            exact hchat.trans h
          · change (app.serve stamp m).2.Converses s title turns
            rw [hsame]
            exact h

end Converses

/-- No message among some encounters opens a conversation under this id. -/
def NotReopened (s : Uuid) (traffic : List Encounter) : Prop :=
  ∀ stamp m, .message stamp m ∈ traffic →
    ∀ name, m.request = .ok (.openChat name) → stamp.fresh ≠ s

/-- Along a run a conversation takes the turns that are sent to it, and nothing else. -/
theorem Converses.run {title : String} {turns : List Turn} (h : app.Converses s title turns)
    {traffic : List Encounter} (hopen : NotReopened s traffic) :
    (app.run traffic).Converses s title (turns ++ turnsTo s traffic) := by
  induction traffic generalizing app turns with
  | nil => simpa [turnsTo, Application.run] using h
  | cons e rest ih =>
      have hmeet : (app.meet e).Converses s title (turns ++ (e.turnTo? s).toList) :=
        h.meet fun stamp m name heq => hopen stamp m (heq ▸ List.mem_cons_self) name
      have hrest := ih hmeet fun stamp m hm => hopen stamp m (List.mem_cons_of_mem _ hm)
      have hturns : turnsTo s (e :: rest) = (e.turnTo? s).toList ++ turnsTo s rest := by
        cases hturn : e.turnTo? s <;> simp [turnsTo, hturn]
      rw [hturns, ← List.append_assoc]
      exact hrest

/-- A conversation that is opened has taken no turns, and its task gets a name that is not blank. -/
theorem converses_opened {m : HttpMessage} {name : Option String}
    (hm : m.request = .ok (.openChat name)) (app : Application) (stamp : Stamp) :
    (app.serve stamp m).2.Converses stamp.fresh
      ((nonblank name).getD ("chat task " ++ stamp.now.minuteText)) [] := by
  have hanswer : ∃ reply, app.answer stamp (.openChat name) = .ok (reply, app.putChat stamp.fresh
      (.ofTurns ((nonblank name).getD ("chat task " ++ stamp.now.minuteText)) [])) := ⟨_, rfl⟩
  obtain ⟨reply, hanswer⟩ := hanswer
  rw [serve_of_answer hm hanswer]
  exact (chat?_putChat ..).trans (if_pos rfl)

/-- What a service makes of a message with a turn for a conversation that has taken some turns. -/
structure Handles (app : Application) (s : Uuid) (title : String) (turns : List Turn)
    (stamp : Stamp) (post : HttpMessage) (outcome : HttpResponse × Application) : Prop where
  /-- A malformed turn is turned away and does nothing. -/
  malformed : ∀ rejection, post.decoded Turn.shape Turn.decode = .error rejection →
    outcome = (⟨rejection.status, none⟩, app)
  /-- So is a turn after the end. -/
  late : ∀ turn, post.decoded Turn.shape Turn.decode = .ok turn →
    turns.any (·.finished) = true → outcome.1.status = 404 ∧ outcome.2 = app
  /-- Another turn leaves the library and other conversations alone. If it is marked as finished,
  the draft becomes a new task, normalized and with its references resolved in the library. -/
  taken : ∀ turn, post.decoded Turn.shape Turn.decode = .ok turn →
    turns.any (·.finished) = false →
      outcome.1.status = 200 ∧ outcome.2.library = app.library ∧
      (∀ other, other ≠ s → outcome.2.chat? other = app.chat? other) ∧
      outcome.2.tasks =
        if turn.finished then
          app.tasks.put ⟨⟨stamp.fresh, title, none, false, stamp.now, stamp.now⟩,
            (Turn.draftOf (turns ++ [turn])).normalize.resolve app.library⟩
        else app.tasks

variable {title : String} {turns : List Turn} {post : HttpMessage}

/-- A message with a turn is handled as the turns so far and the new one decide. -/
theorem Converses.handles (h : app.Converses s title turns) (hpost : post.PostsTurnTo s)
    (stamp : Stamp) : app.Handles s title turns stamp post (app.serve stamp post) := by
  constructor
  case malformed =>
    intro rejection hdecoded
    have hmethod : (post.method == "OPTIONS") = false := by
      rw [hpost.1]
      rfl
    refine serve_of_rejection ?_ hmethod
    rw [hpost.request_eq, hdecoded]
    rfl
  case late =>
    intro turn hdecoded hfinished
    have hanswer := h.answer_of_finished hfinished stamp turn
    rw [serve_of_refusal (hpost.request_of_decoded hdecoded) hanswer]
    exact ⟨rfl, rfl⟩
  case taken =>
    intro turn hdecoded hopen
    have hrequest := hpost.request_of_decoded hdecoded
    have hanswer := h.answer_of_open hopen stamp turn
    rw [PendingChat.draft_ofTurns_concat hopen] at hanswer
    cases hturn : turn.finished with
    | true =>
        rw [hturn, if_pos rfl] at hanswer
        rw [serve_of_answer hrequest hanswer]
        exact ⟨rfl, rfl, fun other hother => (chat?_eraseChat ..).trans (if_neg (Ne.symm hother)),
          rfl⟩
    | false =>
        rw [hturn, if_neg Bool.false_ne_true] at hanswer
        rw [serve_of_answer hrequest hanswer]
        exact ⟨rfl, rfl, fun other hother => (chat?_putChat ..).trans (if_neg (Ne.symm hother)),
          rfl⟩

namespace Handles

variable {outcome : HttpResponse × Application}

/-- No tasks change with a turn for a conversation that has ended. -/
theorem tasks_eq_of_finished (h : app.Handles s title turns stamp post outcome)
    (hfinished : turns.any (·.finished) = true) : outcome.2.tasks = app.tasks := by
  cases hdecoded : post.decoded Turn.shape Turn.decode with
  | error rejection => rw [h.malformed rejection hdecoded]
  | ok turn => rw [(h.late turn hdecoded hfinished).2]

/-- A turn with which tasks change is marked as finished. -/
theorem finished_of_tasks_ne (h : app.Handles s title turns stamp post outcome)
    (hne : outcome.2.tasks ≠ app.tasks) :
    ∃ turn, post.decoded Turn.shape Turn.decode = .ok turn ∧ turn.finished = true := by
  have hopen : turns.any (·.finished) = false :=
    Bool.eq_false_iff.mpr fun hfinished => hne (h.tasks_eq_of_finished hfinished)
  cases hdecoded : post.decoded Turn.shape Turn.decode with
  | error rejection =>
      rw [h.malformed rejection hdecoded] at hne
      exact absurd rfl hne
  | ok turn =>
      refine ⟨turn, rfl, ?_⟩
      by_contra hturn
      obtain ⟨-, -, -, htasks⟩ := h.taken turn hdecoded hopen
      exact hne (htasks.trans (if_neg hturn))

end Handles

theorem run_take_succ (app : Application) {traffic : List Encounter} {n : Nat} {e : Encounter}
    (he : traffic[n]? = some e) :
    app.run (traffic.take (n + 1)) = (app.run (traffic.take n)).meet e := by
  rw [List.take_add_one, he, Option.toList_some, run_concat]

theorem mem_turnsTo_take {traffic : List Encounter} {i j : Nat} {e : Encounter} {turn : Turn}
    (he : traffic[i]? = some e) (hturn : e.turnTo? s = some turn) (hij : i < j) :
    turn ∈ turnsTo s (traffic.take j) := by
  refine List.mem_filterMap.mpr ⟨e, List.mem_of_getElem? (i := i) ?_, hturn⟩
  rw [List.getElem?_take_of_lt hij, he]

/-- A conversation that is opened, and under whose id no other is opened later, has at any time
taken the well-formed turns sent to it so far, whatever else the service has met: its draft is made
of those, until one of them is marked as finished and the conversation is over. Each of its turns
is handled according to the turns before it, and of two of its turns at most one changes tasks. -/
theorem conversations_store_once (app : Application) (opening : Stamp) {m : HttpMessage}
    {name : Option String} (hopen : m.request = .ok (.openChat name)) {later : List Encounter}
    (hfresh : NotReopened opening.fresh later) :
    let s := opening.fresh
    let title := (nonblank name).getD ("chat task " ++ opening.now.minuteText)
    let now := fun n => (app.serve opening m).2.run (later.take n)
    let turns := fun n => turnsTo s (later.take n)
    (∀ n, (now n).chat? s = if (turns n).any (·.finished) then none
      else some ⟨⟨Turn.draftOf (turns n), (turns n).map (·.answer), false⟩, title⟩) ∧
    (∀ n (stamp : Stamp) (post : HttpMessage), later[n]? = some (.message stamp post) →
      post.PostsTurnTo s →
        (now n).Handles s title (turns n) stamp post ((now n).serve stamp post) ∧
        now (n + 1) = ((now n).serve stamp post).2) ∧
    ∀ i j (stamp stamp' : Stamp) (post post' : HttpMessage), i < j →
      later[i]? = some (.message stamp post) → later[j]? = some (.message stamp' post') →
      post.PostsTurnTo s → post'.PostsTurnTo s →
        (now (i + 1)).tasks = (now i).tasks ∨ (now (j + 1)).tasks = (now j).tasks := by
  intro s title now turns
  have hconverses : ∀ n, (now n).Converses s title (turns n) := fun n =>
    (converses_opened hopen app opening).run fun stamp m hm =>
      hfresh stamp m (List.mem_of_mem_take hm)
  have hhandles : ∀ n (stamp : Stamp) (post : HttpMessage),
      later[n]? = some (.message stamp post) → post.PostsTurnTo s →
        (now n).Handles s title (turns n) stamp post ((now n).serve stamp post) ∧
        now (n + 1) = ((now n).serve stamp post).2 := fun n stamp post he hpost =>
    ⟨(hconverses n).handles hpost stamp, run_take_succ _ he⟩
  refine ⟨fun n => ?_, hhandles, fun i j stamp stamp' post post' hij hi hj hpost hpost' => ?_⟩
  · have hchat := hconverses n
    rw [Converses] at hchat
    rw [hchat]
    split
    next => rfl
    next hunfinished =>
      rw [PendingChat.ofTurns_of_open (Bool.eq_false_iff.mpr hunfinished)]
  · -- if the earlier turn changes tasks, it ends the conversation
    refine or_iff_not_imp_left.mpr fun hne => ?_
    obtain ⟨hhandled, hnext⟩ := hhandles i stamp post hi hpost
    obtain ⟨hhandled', hnext'⟩ := hhandles j stamp' post' hj hpost'
    rw [hnext] at hne
    obtain ⟨turn, hdecoded, hfinished⟩ := hhandled.finished_of_tasks_ne hne
    have hturn := hpost.request_of_decoded hdecoded
    have hmem : turn ∈ turns j := mem_turnsTo_take hi (Encounter.turnTo?_message.mpr hturn) hij
    rw [hnext']
    exact hhandled'.tasks_eq_of_finished (List.any_eq_true.mpr ⟨turn, hmem, hfinished⟩)

/-- A message with a turn for the conversation `7`. -/
def turnOfSeven (body : String) : HttpMessage :=
  ⟨"POST", "/api/v1/chat/sessions/00000000-0000-0000-0000-000000000007/turns", true, body⟩

theorem postsTurnTo_turnOfSeven (body : String) : (turnOfSeven body).PostsTurnTo ⟨7⟩ := by
  have htarget : RequestTarget.ofText (turnOfSeven body).target =
      ⟨["", "api", "v1", "chat", "sessions", "00000000-0000-0000-0000-000000000007", "turns"],
        []⟩ := by
    change RequestTarget.ofText
      "/api/v1/chat/sessions/00000000-0000-0000-0000-000000000007/turns" = _
    decide +kernel
  have hid : HttpMessage.readId "00000000-0000-0000-0000-000000000007" = .ok ⟨7⟩ := by
    with_unfolding_all rfl
  refine ⟨rfl, "00000000-0000-0000-0000-000000000007", ?_, hid⟩
  rw [htarget]
  rfl

/-- A conversation that ends with its second turn, and a turn after that. -/
def shortTalk : List Encounter :=
  [.message ⟨⟨0⟩, ⟨8⟩⟩ (turnOfSeven
      "\x7b\"task\":\x7b\"program\":\x7b\"pick\":\x7b\"object\":\"cup\"\x7d\x7d\x7d\x7d"),
    .message ⟨⟨0⟩, ⟨9⟩⟩ (turnOfSeven "\x7b\"finished\":true\x7d"),
    .message ⟨⟨0⟩, ⟨10⟩⟩ (turnOfSeven "\x7b\"finished\":true\x7d")]

/-- A new service after the first turns of this conversation. -/
def duringShortTalk (n : Nat) : Application :=
  ((new .standard).serve ⟨⟨0⟩, ⟨7⟩⟩ ⟨"POST", "/api/v1/chat/sessions", true, "\x7b\x7d"⟩).2.run
    (shortTalk.take n)

/-- The second turn of the short conversation stores its task, and the turn after it changes
nothing. -/
theorem short_talk_stores_once :
    HttpMessage.request ⟨"POST", "/api/v1/chat/sessions", true, "\x7b\x7d"⟩ = .ok (.openChat none) ∧
    NotReopened ⟨7⟩ shortTalk ∧
    (duringShortTalk 2).tasks = (duringShortTalk 1).tasks.put
      ⟨⟨⟨9⟩, "chat task 1970-01-01 00:00", none, false, ⟨0⟩, ⟨0⟩⟩,
        ⟨⟨some ⟨some "cup", none⟩, none, none⟩, []⟩⟩ ∧
    (duringShortTalk 3).tasks = (duringShortTalk 2).tasks := by
  have hopen : HttpMessage.request ⟨"POST", "/api/v1/chat/sessions", true, "\x7b\x7d"⟩ =
      .ok (.openChat none) := by with_unfolding_all rfl
  have hfresh : NotReopened ⟨7⟩ shortTalk := by
    have hall : ∀ e ∈ shortTalk, ∀ stamp m, e = .message stamp m → stamp.fresh ≠ ⟨7⟩ := by
      simp [shortTalk]
    exact fun stamp m hm name _ => hall _ hm stamp m rfl
  have hopened : (turnsTo ⟨7⟩ (shortTalk.take 1)).any (·.finished) = false := by decide +kernel
  have hdecoded : (turnOfSeven "\x7b\"finished\":true\x7d").decoded Turn.shape Turn.decode =
      .ok ⟨"", .empty, true⟩ := by decide +kernel
  have hended : (turnsTo ⟨7⟩ (shortTalk.take 2)).any (·.finished) = true := by decide +kernel
  obtain ⟨-, hhandles, -⟩ := conversations_store_once (new .standard) ⟨⟨0⟩, ⟨7⟩⟩ hopen hfresh
  refine ⟨hopen, hfresh, ?_, ?_⟩
  · have hprogram : (Turn.draftOf (turnsTo ⟨7⟩ (shortTalk.take 1) ++
        [⟨"", .empty, true⟩])).normalize.resolve (duringShortTalk 1).library =
          ⟨⟨some ⟨some "cup", none⟩, none, none⟩, []⟩ := by decide +kernel
    have htitle : "chat task " ++ Moment.minuteText ⟨0⟩ = "chat task 1970-01-01 00:00" := by
      decide +kernel
    rw [← hprogram, ← htitle]
    obtain ⟨hhandled, hnext⟩ := hhandles 1 _ _ rfl (postsTurnTo_turnOfSeven _)
    obtain ⟨-, -, -, htasks⟩ := hhandled.taken _ hdecoded hopened
    have hnow : duringShortTalk 2 = _ := hnext
    rw [hnow, htasks]
    rfl
  · obtain ⟨hhandled, hnext⟩ := hhandles 2 _ _ rfl (postsTurnTo_turnOfSeven _)
    have hnow : duringShortTalk 3 = _ := hnext
    rw [hnow]
    exact hhandled.tasks_eq_of_finished hended

end Application

end TaskDiagram
