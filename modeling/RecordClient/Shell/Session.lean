import RecordClient.Connection.Operation
import RecordClient.Json.Printer
import RecordClient.Shell.Command
import RecordClient.Shell.Prompt
/-!
# Sessions of the shell

A session reads lines, carries out the commands among them and reports what fails. It goes on after
every failure, and ends with `.exit`, with the input, or at a line that is not text. At the end of
the input the connection is closed.
-/
namespace RecordClient.Shell

/-- The plan of a command. Only some commands have a value to show. -/
def Command.plan : Command → Plan (Option Json)
  | .exit => do let _ ← Plan.request .close; return none
  | .ping => do let _ ← Plan.request .ping; return none
  | .use ns database => do let _ ← Plan.request (.use ns database); return none
  | .get target => do return some (← Connection.get target none)
  | .delete target => do return some (← Connection.delete target none)
  | .drop table => do return some (← Connection.drop table)
  | .query text => do return some (← Plan.request (.query text))

inductive Event where
  | prompt
  | rejected (e : CommandError)
  | ran (c : Command) (result : Except Error (Option Json))

namespace Event

def errorText (message : String) : String := "error: " ++ message ++ "\n"

def output : Event → String
  | prompt => Shell.prompt
  | ran _ (.ok (some v)) => v.pretty ++ "\n"
  | rejected _ | ran _ _ => ""

def errors : Event → String
  | rejected e => errorText e.message
  | ran _ (.error e) => errorText e.message
  | prompt | ran _ (.ok _) => ""

end Event

inductive Ending where
  | exit
  /-- The input ended, and the connection was closed. -/
  | endOfInput (closing : Except Error Json)
  | notText

namespace Session

variable {σ : Type}

/-- What one line does: its events, the calls made for it, whether it ends the session, and the
state of the wire. -/
structure Turn (σ : Type) where
  events : List Event
  exchanges : List (Call × Reply)
  ending : Option Ending
  state : σ

def turn (perform : Perform σ) (line : List UInt8) (s : σ) : Turn σ :=
  match lineText line with
  | none => ⟨[], [], some .notText, s⟩
  | some text =>
    match Command.ofLine text with
    | .error .empty => ⟨[], [], none, s⟩
    | .error e => ⟨[.rejected e], [], none, s⟩
    | .ok c =>
      let o := c.plan.run perform s
      ⟨[.ran c o.result], o.exchanges, if c = .exit then some .exit else none, o.state⟩

structure Outcome (σ : Type) where
  events : List Event
  exchanges : List (Call × Reply)
  ending : Ending
  state : σ

def finish (perform : Perform σ) (s : σ) : Outcome σ :=
  let o := (Plan.request .close).run perform s
  ⟨[], o.exchanges, .endOfInput o.result, o.state⟩

def run (perform : Perform σ) : List (List UInt8) → σ → Outcome σ
  | [], s =>
    let o := finish perform s
    { o with events := .prompt :: o.events }
  | line :: rest, s =>
    let t := turn perform line s
    match t.ending with
    | some ending => ⟨.prompt :: t.events, t.exchanges, ending, t.state⟩
    | none =>
      let o := run perform rest t.state
      { o with
        events := .prompt :: t.events ++ o.events
        exchanges := t.exchanges ++ o.exchanges }

end Session

end RecordClient.Shell
