import RecordClient.Wire.Socket
/-!
# Sessions over a socket

Every event is read once, in order, and a reply answers the request that was sent for it, whatever
earlier requests have left behind. `session_correlates` is the main statement.
-/
namespace RecordClient.Socket

/-! ### Frames -/

namespace Event

/-- The answer that a frame carries. -/
def answer? : Event → Option Rpc.Answer
  | text content => (Rpc.Answer.read content).toOption
  | binary content => (Utf8.decode content).toOption.bind fun t => (Rpc.Answer.read t).toOption
  | _ => none

def isControl : Event → Bool
  | ping | pong => true
  | _ => false

/-- What the request with an id passes over: control frames and answers to others. -/
def Skipped (id : String) (e : Event) : Prop :=
  e.isControl = true ∨ ∃ a, e.answer? = some a ∧ a.id ≠ some (.string id)

/-- A frame with an answer to the request with an id. -/
def Carries (id : String) (a : Rpc.Answer) (e : Event) : Prop :=
  e.answer? = some a ∧ a.id = some (.string id)

end Event

/-! ### Outcomes -/

theorem outcome_eq_ok_iff {a : Rpc.Answer} {v : Json} :
    a.outcome = .ok v ↔ a.failure = none ∧ a.result.getD .null = v := by
  unfold Rpc.Answer.outcome
  cases a.failure <;> simp

theorem outcome_eq_error_iff {a : Rpc.Answer} {e : QueryError} :
    a.outcome = .error e ↔ ∃ f, a.failure = some f ∧ e = .rpc f.code f.text := by
  unfold Rpc.Answer.outcome
  cases a.failure <;> simp [eq_comm]

/-- A value, or a failure that the other end reported. -/
def Answered (reply : Reply) : Prop :=
  (∃ v, reply = .ok v) ∨ ∃ code text, reply = .error (.query (.rpc code text))

theorem answered_outcome (a : Rpc.Answer) : Answered (a.outcome.mapError .query) := by
  cases h : a.outcome with
  | ok v => exact Or.inl ⟨v, rfl⟩
  | error e =>
    obtain ⟨f, -, rfl⟩ := outcome_eq_error_iff.mp h
    exact Or.inr ⟨_, _, rfl⟩

theorem not_answered_wire (e : WireError) : ¬ Answered (.error (.wire e)) := by
  rintro (⟨v, same⟩ | ⟨code, text, same⟩) <;> cases same

namespace Event

theorem heard_cases (id content : String) :
    (∃ a, (Rpc.Answer.read content).toOption = some a ∧ heard id content =
      if a.id = some (.string id) then some (a.outcome.mapError .query) else none) ∨
    ∃ cause, (Rpc.Answer.read content).toOption = none ∧
      heard id content = some (.error (.wire cause)) := by
  unfold heard Rpc.Answer.answers
  cases Rpc.Answer.read content with
  | error e => exact Or.inr ⟨_, rfl, rfl⟩
  | ok a => exact Or.inl ⟨a, rfl, by simp only [decide_eq_true_eq]⟩

/-- An event is a control frame, carries an answer, or ends every wait with a failure. -/
theorem reply?_cases (id : String) (e : Event) :
    (e.isControl = true ∧ e.answer? = none ∧ e.reply? id = none) ∨
    (∃ a, e.isControl = false ∧ e.answer? = some a ∧ e.reply? id =
      if a.id = some (.string id) then some (a.outcome.mapError .query) else none) ∨
    ∃ cause, e.isControl = false ∧ e.answer? = none ∧
      e.reply? id = some (.error (.wire cause)) := by
  cases e with
  | text content =>
    rcases heard_cases id content with ⟨a, carried, heard⟩ | ⟨cause, nothing, failed⟩
    · exact Or.inr (Or.inl ⟨a, rfl, carried, heard⟩)
    · exact Or.inr (Or.inr ⟨cause, rfl, nothing, failed⟩)
  | binary content =>
    dsimp only [answer?, reply?]
    cases Utf8.decode content with
    | error fault => exact Or.inr (Or.inr ⟨_, rfl, rfl, rfl⟩)
    | ok content =>
      rcases heard_cases id content with ⟨a, carried, heard⟩ | ⟨cause, nothing, failed⟩
      · exact Or.inr (Or.inl ⟨a, rfl, carried, heard⟩)
      · exact Or.inr (Or.inr ⟨cause, rfl, nothing, failed⟩)
  | ping | pong => exact Or.inl ⟨rfl, rfl, rfl⟩
  | close | silence | damage | hangUp => exact Or.inr (Or.inr ⟨_, rfl, rfl, rfl⟩)

theorem reply?_eq_none_iff {id : String} {e : Event} : e.reply? id = none ↔ e.Skipped id := by
  unfold Skipped
  rcases reply?_cases id e with
    ⟨control, -, waits⟩ | ⟨a, plain, carried, reply⟩ | ⟨c, plain, none, ends⟩
  · exact iff_of_true waits (Or.inl control)
  · rw [reply, carried, plain]
    by_cases own : a.id = some (.string id) <;> simp [own]
  · rw [ends, plain, none]
    simp

theorem reply?_of_carries {id : String} {a : Rpc.Answer} {e : Event} (h : e.Carries id a) :
    e.reply? id = some (a.outcome.mapError .query) := by
  obtain ⟨carried, own⟩ := h
  rcases reply?_cases id e with ⟨-, nothing, -⟩ | ⟨b, -, same, reply⟩ | ⟨_, -, nothing, -⟩
  · rw [carried] at nothing
    cases nothing
  · cases carried.symm.trans same
    rw [reply, if_pos own]
  · rw [carried] at nothing
    cases nothing

theorem carries_of_answered {id : String} {e : Event} {reply : Reply} (h : e.reply? id = some reply)
    (answered : Answered reply) : ∃ a, e.Carries id a := by
  rcases reply?_cases id e with ⟨-, -, waits⟩ | ⟨a, -, carried, heard⟩ | ⟨cause, -, -, ends⟩
  · rw [waits] at h
    cases h
  · rw [heard] at h
    split at h
    · next own => exact ⟨a, carried, own⟩
    · cases h
  · rw [ends] at h
    cases h
    exact absurd answered (not_answered_wire cause)

end Event

/-! ### Reading -/

theorem await_cases (id : String) (events : List Event) :
    ((∀ e ∈ events, e.Skipped id) ∧
      await id events = (.error (.wire Fault.silence.error), .open, [])) ∨
    ∃ skipped e rest reply, events = skipped ++ e :: rest ∧ (∀ s ∈ skipped, s.Skipped id) ∧
      e.reply? id = some reply ∧ await id events = (reply, e.phase, rest) := by
  induction events with
  | nil => exact Or.inl ⟨by simp, rfl⟩
  | cons e rest ih =>
    cases h : e.reply? id with
    | some reply =>
      refine Or.inr ⟨[], e, rest, reply, rfl, by simp, h, ?_⟩
      rw [await, h]
    | none =>
      have skips := Event.reply?_eq_none_iff.mp h
      have on : await id (e :: rest) = await id rest := by rw [await, h]
      rw [on]
      rcases ih with ⟨all, silent⟩ | ⟨skipped, last, later, reply, split, before, ends, result⟩
      · exact Or.inl ⟨List.forall_mem_cons.mpr ⟨skips, all⟩, silent⟩
      · refine Or.inr ⟨e :: skipped, last, later, reply, ?_, ?_, ends, result⟩
        · rw [split, List.cons_append]
        · exact List.forall_mem_cons.mpr ⟨skips, before⟩

theorem await_skipped {id : String} {skipped : List Event} (before : ∀ s ∈ skipped, s.Skipped id)
    (events : List Event) : await id (skipped ++ events) = await id events := by
  induction skipped with
  | nil => rfl
  | cons s skipped ih =>
    obtain ⟨skips, later⟩ := List.forall_mem_cons.mp before
    rw [List.cons_append, await, Event.reply?_eq_none_iff.mpr skips]
    exact ih later

theorem await_answered {id : String} {skipped rest : List Event} {e : Event} {a : Rpc.Answer}
    (before : ∀ s ∈ skipped, s.Skipped id) (carries : e.Carries id a) :
    await id (skipped ++ e :: rest) = (a.outcome.mapError .query, e.phase, rest) := by
  rw [await_skipped before, await, Event.reply?_of_carries carries]

theorem await_suffix (id : String) (events : List Event) : (await id events).2.2 <:+ events := by
  rcases await_cases id events with ⟨-, silent⟩ | ⟨skipped, e, rest, reply, split, -, -, result⟩
  · rw [silent]
    exact List.nil_suffix
  · rw [result, split]
    exact ⟨skipped ++ [e], by simp⟩

theorem drain_suffix (phase : Phase) (events : List Event) :
    (drain phase events).2.2 <:+ events := by
  fun_induction drain phase events with
  | case1 => exact List.suffix_rfl
  | case5 _ ih | case6 _ _ _ _ _ _ ih => exact ih.trans (List.suffix_cons _ _)
  | _ => exact List.suffix_cons _ _

namespace Wire

def nextId (w : Wire) : String := w.ids w.made

/-- What a message with an id brings in; nothing if the peer has gone. -/
def incoming (w : Wire) (response : Response → List Event) : List Event :=
  if w.isCut then [] else response (w.peer.headD emptyReply)

/-- What the next request has to read once it is written. -/
def waiting (w : Wire) : List Event := w.inbox ++ w.incoming (· w.nextId)

theorem inbox_deliver (w : Wire) (m : Message) (response : Response → List Event) :
    (w.deliver m response).inbox = w.inbox ++ w.incoming response := by
  have same : isCut { w with sent := w.sent ++ [m] } = w.isCut := rfl
  unfold deliver incoming
  dsimp only
  rw [same]
  split
  · exact (List.append_nil _).symm
  · rfl

theorem sent_deliver (w : Wire) (m : Message) (response : Response → List Event) :
    (w.deliver m response).sent = w.sent ++ [m] := by
  unfold deliver
  dsimp only
  split <;> rfl

theorem call_blocked {w : Wire} {fault : Fault} (stop : w.obstacle? = some fault)
    (method : Rpc.Method) (params : List Json) :
    w.call method params = (.error (.wire fault.error), { w with made := w.made + 1 }) := by
  have same : obstacle? { w with made := w.made + 1 } = some fault := stop
  unfold call
  dsimp only
  rw [same]

theorem call_written {w : Wire} (free : w.obstacle? = none) (method : Rpc.Method)
    (params : List Json) :
    (w.call method params).1 = (await w.nextId w.waiting).1 ∧
      (w.call method params).2.inbox = (await w.nextId w.waiting).2.2 ∧
      (w.call method params).2.sent = w.sent ++ [.request ⟨w.nextId, method, params⟩] := by
  have same : obstacle? { w with made := w.made + 1 } = none := free
  have all := inbox_deliver { w with made := w.made + 1 } (.request ⟨w.nextId, method, params⟩)
    (· w.nextId)
  unfold call
  dsimp only
  rw [same]
  dsimp only
  rw [← nextId, all]
  exact ⟨rfl, rfl, sent_deliver _ _ _⟩

end Wire

/-! ### Turns -/

inductive Action where
  | call (method : Rpc.Method) (params : List Json)
  | close

def Wire.act (w : Wire) : Action → Reply × Wire
  | .call method params => w.call method params
  | .close => w.close

/-- One action of a session, on the wire as it was left before. -/
structure Turn where
  wire : Wire
  action : Action

namespace Turn

def reply (t : Turn) : Reply := (t.wire.act t.action).1

def after (t : Turn) : Wire := (t.wire.act t.action).2

def request? (t : Turn) : Option Rpc.Request :=
  match t.action with
  | .call method params => some ⟨t.wire.nextId, method, params⟩
  | .close => none

/-- The events that come in after what was unread before. -/
def arrivals (t : Turn) : List Event :=
  match t.action, t.wire.phase with
  | .call _ _, _ =>
    if t.wire.obstacle?.isSome then [] else t.wire.incoming (· t.wire.nextId)
  | .close, .open => if t.wire.refusesWrites then [] else t.wire.incoming Wire.farewell
  | .close, .closedByPeer => [.hangUp]
  | .close, _ => []

def unread (t : Turn) : List Event := t.wire.inbox ++ t.arrivals

/-- The events that the action takes away. -/
def read (t : Turn) : List Event := t.unread.take (t.unread.length - t.after.inbox.length)

/-- A request cannot be written and nothing is read, or it is written and waits for its answer. -/
theorem call_cases {t : Turn} {r : Rpc.Request} (made : t.request? = some r) :
    (∃ fault : Fault, t.reply = .error (.wire fault.error) ∧ t.after.inbox = t.unread ∧
      t.after.sent = t.wire.sent) ∨
    (t.reply = (await r.id t.unread).1 ∧ t.after.inbox = (await r.id t.unread).2.2 ∧
      t.after.sent = t.wire.sent ++ [.request r]) := by
  obtain ⟨w, ⟨method, params⟩ | _⟩ := t
  case close => cases made
  cases made
  cases h : w.obstacle? with
  | some fault =>
    have nothing : unread ⟨w, .call method params⟩ = w.inbox := by simp [unread, arrivals, h]
    refine Or.inl ⟨fault, ?_⟩
    rw [nothing, reply, after, Wire.act, Wire.call_blocked h]
    exact ⟨rfl, rfl, rfl⟩
  | none =>
    have all : unread ⟨w, .call method params⟩ = w.waiting := by
      simp [unread, arrivals, h, Wire.waiting]
    refine Or.inr ?_
    rw [all]
    exact Wire.call_written h method params

theorem drained_suffix (w : Wire) : w.drained.2.inbox <:+ w.inbox := drain_suffix w.phase w.inbox

theorem close_suffix (w : Wire) : w.close.2.inbox <:+ unread ⟨w, .close⟩ := by
  have refuses : Wire.refusesWrites { w with phase := .closedByUs } = w.refusesWrites := rfl
  have all := Wire.inbox_deliver { w with phase := .closedByUs } .close Wire.farewell
  unfold Wire.close unread arrivals
  cases w.phase with
  | «open» =>
    dsimp only
    rw [refuses]
    split
    · exact ⟨[], (List.append_nil _).symm⟩
    · exact all ▸ drained_suffix _
  | closedByPeer =>
    dsimp only
    exact drained_suffix _
  | ended =>
    dsimp only
    exact ⟨[], (List.append_nil _).symm⟩
  | closedByUs | acknowledged =>
    dsimp only
    rw [List.append_nil]
    exact drained_suffix w

theorem inbox_suffix (t : Turn) : t.after.inbox <:+ t.unread := by
  obtain ⟨w, action⟩ := t
  cases action with
  | call method params =>
    rcases call_cases (t := ⟨w, .call method params⟩) rfl with ⟨_, -, same, -⟩ | ⟨-, left, -⟩
    · exact ⟨[], same⟩
    · rw [left]
      exact await_suffix _ _
  | close => exact close_suffix w

/-- The request was written, and among the unread events a frame with the answer to it
stands behind events that the request passes over. -/
def AnsweredBy (t : Turn) (skipped : List Event) (e : Event) (a : Rpc.Answer) : Prop :=
  ∃ r rest, t.request? = some r ∧ t.after.sent = t.wire.sent ++ [.request r] ∧
    t.unread = skipped ++ e :: rest ∧ (∀ s ∈ skipped, s.Skipped r.id) ∧ e.Carries r.id a

theorem unread_eq (t : Turn) : t.unread = t.read ++ t.after.inbox := by
  obtain ⟨front, split⟩ := t.inbox_suffix
  have length : t.unread.length - t.after.inbox.length = front.length := by
    rw [← split, List.length_append, Nat.add_sub_cancel]
  rw [read, length, ← split, List.take_left]

theorem read_eq {t : Turn} {front : List Event} (h : t.unread = front ++ t.after.inbox) :
    t.read = front :=
  List.append_cancel_right (t.unread_eq.symm.trans h)

theorem AnsweredBy.result {t : Turn} {skipped : List Event} {e : Event} {a : Rpc.Answer}
    (h : t.AnsweredBy skipped e a) :
    t.reply = a.outcome.mapError .query ∧ t.read = skipped ++ [e] := by
  obtain ⟨r, rest, made, written, split, before, carries⟩ := h
  rcases call_cases made with ⟨-, -, -, same⟩ | ⟨reply, left, -⟩
  · rw [same] at written
    simp at written
  rw [split, await_answered before carries] at reply left
  refine ⟨reply, read_eq ?_⟩
  rw [left, split, List.append_assoc]
  rfl

theorem answered_iff {t : Turn} {r : Rpc.Request} (made : t.request? = some r) :
    Answered t.reply ↔ ∃ skipped e a, t.AnsweredBy skipped e a := by
  constructor
  · intro answered
    rcases call_cases made with ⟨fault, blocked, -, -⟩ | ⟨reply, -, written⟩
    · rw [blocked] at answered
      exact absurd answered (not_answered_wire _)
    rcases await_cases r.id t.unread with
      ⟨-, silent⟩ | ⟨skipped, e, rest, v, split, before, ends, own⟩
    · rw [reply, silent] at answered
      exact absurd answered (not_answered_wire _)
    · rw [reply, own] at answered
      obtain ⟨a, carries⟩ := Event.carries_of_answered ends answered
      exact ⟨skipped, e, a, r, rest, made, written, split, before, carries⟩
  · rintro ⟨skipped, e, a, h⟩
    rw [h.result.1]
    exact answered_outcome a

end Turn

/-! ### Sessions -/

def turns (w : Wire) : List Action → List Turn
  | [] => []
  | action :: rest => ⟨w, action⟩ :: turns (w.act action).2 rest

def left (w : Wire) (actions : List Action) : Wire :=
  actions.foldl (fun w action => (w.act action).2) w

/-- What came in is what was read, turn after turn, and what is still unread. -/
theorem arrivals_eq (w : Wire) (actions : List Action) :
    w.inbox ++ (turns w actions).flatMap Turn.arrivals =
      (turns w actions).flatMap Turn.read ++ (left w actions).inbox := by
  induction actions generalizing w with
  | nil => simp [turns, left]
  | cons action rest ih =>
    -- What one turn leaves unread is what the next turn starts from.
    have step := Turn.unread_eq ⟨w, action⟩
    calc w.inbox ++ (turns w (action :: rest)).flatMap Turn.arrivals
        = Turn.unread ⟨w, action⟩ ++ (turns (w.act action).2 rest).flatMap Turn.arrivals := by
          rw [turns, List.flatMap_cons, ← List.append_assoc]
          rfl
      _ = Turn.read ⟨w, action⟩ ++ ((w.act action).2.inbox ++
            (turns (w.act action).2 rest).flatMap Turn.arrivals) := by
          rw [step, List.append_assoc]
          rfl
      _ = (turns w (action :: rest)).flatMap Turn.read ++ (left w (action :: rest)).inbox := by
          rw [ih, turns, List.flatMap_cons, List.append_assoc]
          rfl

def requestIds (w : Wire) (actions : List Action) : List String :=
  (turns w actions).filterMap fun t => t.request?.map Rpc.Request.id

/-- Over a whole session every event is read once and in order. A request is answered exactly when
it was written and the first frame that it does not pass over has the answer to it; it reads up to
that frame, and the reply is that answer. If no two requests have the same id, no answer to an
earlier request is taken for one to a later request. -/
theorem session_correlates (w : Wire) (actions : List Action)
    (distinct : (requestIds w actions).Nodup) :
    w.inbox ++ (turns w actions).flatMap Turn.arrivals =
      (turns w actions).flatMap Turn.read ++ (left w actions).inbox ∧
    (∀ t ∈ turns w actions, ∀ r, t.request? = some r →
      (Answered t.reply ↔ ∃ skipped e a, t.AnsweredBy skipped e a)) ∧
    (∀ t ∈ turns w actions, ∀ skipped e a, t.AnsweredBy skipped e a →
      t.reply = a.outcome.mapError .query ∧ t.read = skipped ++ [e]) ∧
    (turns w actions).Pairwise fun t u => ∀ r, t.request? = some r →
      ∀ skipped e a, u.AnsweredBy skipped e a → ¬ ∃ b, e.Carries r.id b := by
  refine ⟨arrivals_eq w actions, fun t _ r made => Turn.answered_iff made,
    fun t _ skipped e a h => h.result, ?_⟩
  refine (List.pairwise_filterMap.mp distinct).imp ?_
  rintro t u apart r made skipped e a ⟨s, rest, own, -, -, -, carried, answers⟩ ⟨b, other, late⟩
  -- A frame has one answer, and that has one id.
  cases carried.symm.trans other
  refine apart r.id (by rw [made]; rfl) s.id (by rw [own]; rfl) ?_
  exact Json.string.inj (Option.some.inj (late.symm.trans answers))

def lateFrame : Event := .text "\x7b\"id\":\"0\",\"result\":1\x7d"

def ownFrame : Event := .text "\x7b\"id\":\"1\",\"result\":2\x7d"

def errorFrame : Event :=
  .text "\x7b\"id\":\"2\",\"error\":\x7b\"code\":-1,\"message\":\"no\"\x7d\x7d"

/-- The first request is not answered in time, and its answer comes in before that to the second.
The third request fails at the other end. -/
def sampleSocket : Wire :=
  { peer := [fun _ => [.pong, .silence], fun _ => [lateFrame, ownFrame], fun _ => [errorFrame]]
    ids := Nat.repr }

def samplePing : Action := .call .ping []

def samplePings : List Action := [samplePing, samplePing, samplePing]

def secondPing : Turn := ⟨left sampleSocket [samplePing], samplePing⟩

def thirdPing : Turn := ⟨left sampleSocket [samplePing, samplePing], samplePing⟩

def ownAnswer : Rpc.Answer := { id := some (.string "1"), result := some (.ofNat 2) }

def errorAnswer : Rpc.Answer := { id := some (.string "2"), failure := some ⟨-1, "no"⟩ }

theorem secondPing_answered : secondPing.AnsweredBy [lateFrame] ownFrame ownAnswer := by
  have late : lateFrame.Skipped "1" :=
    Or.inr ⟨{ id := some (.string "0"), result := some (.ofNat 1) }, by decide +kernel, by decide⟩
  refine ⟨⟨"1", .ping, []⟩, [], rfl, rfl, rfl, ?_, by decide +kernel, rfl⟩
  exact List.forall_mem_singleton.mpr late

theorem thirdPing_answered : thirdPing.AnsweredBy [] errorFrame errorAnswer := by
  have unread : thirdPing.unread = [errorFrame] := by decide +kernel
  have sent : thirdPing.after.sent = thirdPing.wire.sent ++ [.request ⟨"2", .ping, []⟩] := by
    decide +kernel
  exact ⟨⟨"2", .ping, []⟩, [], rfl, sent, unread, by simp, by decide +kernel, rfl⟩

theorem samplePings_correlate :
    (requestIds sampleSocket samplePings).Nodup ∧
      (secondPing.reply = .ok (.ofNat 2) ∧ secondPing.read = [lateFrame, ownFrame]) ∧
      thirdPing.reply = .error (.query (.rpc (-1) "no")) ∧ thirdPing.read = [errorFrame] := by
  have distinct : (requestIds sampleSocket samplePings).Nodup := by decide
  obtain ⟨-, -, results, -⟩ := session_correlates sampleSocket samplePings distinct
  have second : secondPing ∈ turns sampleSocket samplePings := .tail _ (.head _)
  have third : thirdPing ∈ turns sampleSocket samplePings := .tail _ (.tail _ (.head _))
  exact ⟨distinct, results secondPing second _ _ _ secondPing_answered,
    results thirdPing third _ _ _ thirdPing_answered⟩

end RecordClient.Socket
