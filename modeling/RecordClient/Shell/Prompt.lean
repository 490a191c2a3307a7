import RecordClient.Text.Utf8
/-!
# Lines of input

Input is read a line at a time; a line ends with its line feed, or with the input. The lines of an
input put together are the input.
-/
namespace RecordClient.Shell

def lineFeed : UInt8 := 0x0a

/-- The lines of an input, each with its line feed; only the last one may lack it. -/
def lines : List UInt8 → List (List UInt8)
  | [] => []
  | b :: rest =>
    if b = lineFeed then [b] :: lines rest
    else match lines rest with
      | [] => [[b]]
      | line :: more => (b :: line) :: more

def prompt : String := "> "

def lineText (line : List UInt8) : Option String := (Utf8.decode line).toOption

/-- What reading a whole input line by line yields. -/
structure Transcript where
  lines : List String
  /-- Whether reading stopped at a line that is not text. -/
  stopped : Bool
  prompts : Nat
  deriving DecidableEq, Repr

/-- Reads lines up to the end of the input or the first that is not text. -/
def transcript : List (List UInt8) → Transcript
  | [] => ⟨[], false, 1⟩
  | line :: rest =>
    match lineText line with
    | none => ⟨[], true, 1⟩
    | some text =>
      let t := transcript rest
      { t with lines := text :: t.lines, prompts := t.prompts + 1 }

def Transcript.output (t : Transcript) : String :=
  String.join (List.replicate t.prompts prompt)

end RecordClient.Shell
