import RecordClient.Connection.Wire
import RecordClient.Proofs.Connection.Target
import RecordClient.Proofs.Shell.Command
import RecordClient.Shell.Session
/-!
# Dropping tables

A connection hands the table to drop on as it was given. `drop_spares_others_iff` tells over which
wire that names the table and nothing else, and what the other tokens name.
-/
namespace RecordClient

open Plan

/-! ### What a message deletes -/

def Http.Route.deleted? (r : Route) : Option RecordId :=
  match r.method, r.segments with
  | .delete, ["key", table] => some { table := some table }
  | .delete, ["key", table, id] => some { table := some table, id := some id }
  | _, _ => none

def Socket.Message.deleted? : Message → Option RecordId
  | .request ⟨_, .delete, [.string token]⟩ => (RecordId.parse (some token) none).toOption
  | _ => none

/-- The table or record that the other end is asked to delete: by the segments of a request, or by
its token. -/
def Received.deleted? : Received → Option RecordId
  | .http r => r.route.deleted?
  | .socket m => m.deleted?
  | .upgrade _ => none

namespace Wire

/-- Whether what is sent reaches the other end. -/
def carries : Wire → Bool
  | .http w => w.reaches
  | .socket w => w.obstacle?.isNone

def afterDrop (w : Wire) (token : String) : Wire :=
  ((Connection.drop token).run perform w).state

/-- Whatever is sent to drop a table names that table and no record of it. -/
def DropsOnly (w : Wire) (token : String) : Prop :=
  ∃ sent, (w.afterDrop token).received = w.received ++ sent ∧
    ∀ m ∈ sent, token ≠ "" ∧ m.deleted? = some { table := some token }

/-- What the message that drops a table names. -/
def dropped (w : Wire) (token : String) : RecordId :=
  match w.protocol with
  | .http => { table := some token }
  | .webSocket => RecordId.ofTableToken token

theorem afterDrop_received (w : Wire) (token : String) :
    (w.carries = false ∧ (w.afterDrop token).received = w.received) ∨
    ∃ m, w.carries = true ∧ (w.afterDrop token).received = w.received ++ [m] ∧
      m.deleted? = some (w.dropped token) := by
  cases w with
  | http w =>
    let route : Http.Route := ⟨.delete, ["key", token], .empty⟩
    have made : ((Wire.http w).afterDrop token).received =
        (w.exchange route).2.received.map .http := rfl
    rw [made, Http.Wire.received_exchange_eq]
    cases reaches : w.reaches with
    | false => exact Or.inl ⟨reaches, by simp [received]⟩
    | true => exact Or.inr ⟨.http (w.client.request route), reaches, by simp [received], rfl⟩
  | socket w =>
    let request : Rpc.Request := ⟨w.nextId, .delete, [.string token]⟩
    have made : ((Wire.socket w).afterDrop token).received =
        (w.call .delete [.string token]).2.sent.map .socket := rfl
    rw [made, Socket.Wire.sent_call]
    cases free : w.obstacle?.isNone with
    | false => exact Or.inl ⟨free, by simp [received]⟩
    | true =>
      refine Or.inr ⟨.socket (.request request), free, by simp [received, request], ?_⟩
      show (RecordId.parse (some token) none).toOption = _
      rw [RecordId.parse_alone]
      rfl

end Wire

/-! ### Tokens of tables -/

theorem RecordId.ofTableToken_eq_table_iff {token : String} :
    ofTableToken token = { table := some token } ↔ token ≠ "" ∧ separator ∉ token.toList := by
  constructor
  · intro same
    have well := ofTableToken_wellFormed token
    rw [same] at well
    exact well.1 token rfl
  · rintro ⟨some_text, plain⟩
    rw [ofTableToken, cut_of_plain plain]
    simp [nonEmpty?, some_text]

theorem Wire.dropsOnly_iff {w : Wire} (carries : w.carries = true) (token : String) :
    w.DropsOnly token ↔
      token ≠ "" ∧ (w.protocol = .webSocket → RecordId.separator ∉ token.toList) := by
  rcases w.afterDrop_received token with ⟨silent, -⟩ | ⟨m, -, sent, named⟩
  · cases carries.symm.trans silent
  have only : w.DropsOnly token ↔
      token ≠ "" ∧ w.dropped token = { table := some token } := by
    constructor
    · rintro ⟨messages, same, all⟩
      rw [sent, List.append_cancel_left_eq] at same
      have own := all m (same ▸ List.mem_singleton_self m)
      rw [named] at own
      exact ⟨own.1, Option.some.inj own.2⟩
    · rintro ⟨some_text, whole⟩
      refine ⟨[m], sent, fun other member => ?_⟩
      rw [List.mem_singleton.mp member, named, whole]
      exact ⟨some_text, rfl⟩
  rw [only, dropped]
  cases w.protocol with
  | http => simp
  | webSocket =>
    rw [RecordId.ofTableToken_eq_table_iff]
    simp

/-! ### Tables typed into the shell -/

theorem Shell.Command.token_of_ofLine_drop {line token : String}
    (h : ofLine line = .ok (.drop token)) :
    token ≠ "" ∧ ∀ c ∈ token.toList, Text.isBlank c = false := by
  obtain ⟨⟨some_text, visible⟩, -⟩ := typedAs_of_ofLine h
  exact ⟨by simpa using some_text, visible⟩

/-- Over HTTP a delete that drops a table names that table unless the token is empty; over a socket
it does so exactly when the token is neither empty nor holds a colon. What is sent otherwise names
an empty table, or what the token reads as: nothing, another table, or one record. A token that is
typed into the shell is never empty, so only a colon counts there. -/
theorem drop_spares_others_iff (token : String) :
    (∀ w : Wire, w.carries = true →
      (w.DropsOnly token ↔
        token ≠ "" ∧ (w.protocol = .webSocket → RecordId.separator ∉ token.toList)) ∧
      ∃ m, (w.afterDrop token).received = w.received ++ [m] ∧
        m.deleted? = some (w.dropped token)) ∧
    (∀ w : Wire, w.carries = false → (w.afterDrop token).received = w.received) ∧
    (∀ line, Shell.Command.ofLine line = .ok (.drop token) →
      token ≠ "" ∧ (∀ c ∈ token.toList, Text.isBlank c = false) ∧ ∀ w : Wire,
        ((Shell.Command.drop token).plan.run Wire.perform w).state = w.afterDrop token) := by
  refine ⟨fun w carries => ⟨Wire.dropsOnly_iff carries token, ?_⟩, fun w lost => ?_,
    fun line typed => ?_⟩
  · rcases w.afterDrop_received token with ⟨silent, -⟩ | ⟨m, -, sent, named⟩
    · cases carries.symm.trans silent
    · exact ⟨m, sent, named⟩
  · rcases w.afterDrop_received token with ⟨-, same⟩ | ⟨_, carries, -⟩
    · exact same
    · cases lost.symm.trans carries
  · obtain ⟨some_text, visible⟩ := Shell.Command.token_of_ofLine_drop typed
    refine ⟨some_text, visible, fun w => ?_⟩
    have shown : (Shell.Command.drop token).plan = some <$> Connection.drop token := rfl
    rw [shown, run_map]
    rfl

def sampleSocket : Socket.Wire := { peer := [], ids := Nat.repr }

theorem drop_person_spares_others :
    Wire.DropsOnly (.http Http.sampleWire) "person:1" ∧
      Wire.DropsOnly (.socket sampleSocket) "person" ∧
      ¬ Wire.DropsOnly (.socket sampleSocket) "person:1" ∧ (("person" : String) ≠ "") ∧
      ((Wire.socket { sampleSocket with phase := .ended }).afterDrop "person").received = [] := by
  have plain := drop_spares_others_iff "person"
  have marked := drop_spares_others_iff "person:1"
  refine ⟨((marked.1 (.http Http.sampleWire) rfl).1).mpr (by decide),
    ((plain.1 (.socket sampleSocket) rfl).1).mpr (by decide), fun only => ?_,
    (plain.2.2 ".drop person" (by decide)).1, plain.2.1 (.socket _) rfl⟩
  exact absurd (((marked.1 (.socket sampleSocket) rfl).1).mp only) (by decide)

/-- Without a name, both wires are asked to delete what is in no table; with the token of a record,
a socket is asked to delete that record. -/
theorem drop_reaches_beyond_table :
    ¬ Wire.DropsOnly (.http Http.sampleWire) "" ∧ ¬ Wire.DropsOnly (.socket sampleSocket) "" ∧
      ∃ m, ((Wire.socket sampleSocket).afterDrop "t:1").received = [m] ∧
        m.deleted? = some { table := some "t", id := some "1" } := by
  refine ⟨?_, ?_, ?_⟩
  · rw [Wire.dropsOnly_iff rfl]
    decide
  · rw [Wire.dropsOnly_iff rfl]
    decide
  · rcases (Wire.socket sampleSocket).afterDrop_received "t:1" with
      ⟨silent, -⟩ | ⟨m, -, sent, named⟩
    · cases silent
    · exact ⟨m, sent, named.trans (by decide)⟩

end RecordClient
