import RecordClient.Connection.Plan
/-!
# Canned replies

A wire that answers from a list. Choosing a scope, pinging and closing always succeed and use no
reply up; once the list is used up, the answer is the empty list.
-/
namespace RecordClient

structure Recorder where
  replies : List Reply
  deriving Repr

def Recorder.perform : Perform Recorder
  | .use _ _, r | .ping, r | .close, r => (.ok .null, r)
  | _, ⟨[]⟩ => (.ok (.array []), ⟨[]⟩)
  | _, ⟨reply :: rest⟩ => (reply, ⟨rest⟩)

end RecordClient
