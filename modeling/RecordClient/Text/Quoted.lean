import RecordClient.Text.Hex
import RecordClient.Text.Visible
/-!
# Quoted text in messages

Messages show a text of the user between double quotes, with every character that would not be
seen as itself written as an escape.
-/
namespace RecordClient.Text

def shownChar (c : Char) : List Char :=
  match c with
  | '\x00' => ['\\', '0']
  | '\t' => ['\\', 't']
  | '\n' => ['\\', 'n']
  | '\r' => ['\\', 'r']
  | '"' => ['\\', '"']
  | '\\' => ['\\', '\\']
  | c =>
    if isVisible c then [c]
    else "\\u\x7b".toList ++ Hex.significant c.toNat ++ ['\x7d']

def shown (t : String) : String :=
  "\"" ++ String.ofList (t.toList.flatMap shownChar) ++ "\""

def shownList (ts : List String) : String :=
  "[" ++ ", ".intercalate (ts.map shown) ++ "]"

end RecordClient.Text
