import RecordClient.Text.Hex
/-!
# Paths of addresses

The path of a request, put together from segments that may hold any text. A segment is
percent-encoded, so that no character of it can end it; dot segments keep the meaning they have in
addresses.
-/
namespace RecordClient.Path

def isReserved (c : Char) : Bool :=
  c = '"' || c = '#' || c = '<' || c = '>' || c = '?' || c = '`' || c = '\x7b' || c = '\x7d'
    || c = '/' || c = '%' || c = '\\'

/-- Characters that stand for themselves. -/
def isRaw (c : Char) : Bool := '!' ≤ c && c ≤ '~' && !isReserved c

/-- Characters that addresses leave out. -/
def isDropped (c : Char) : Bool := c = '\t' || c = '\n' || c = '\r'

def isSlash (c : Char) : Bool := c = '/' || c = '\\'

def encodeByte (b : UInt8) : List Char := '%' :: Hex.upperByte b

def encodeBytes (c : Char) : List Char := (String.utf8EncodeChar c).flatMap encodeByte

/-- One character of a segment: itself, nothing, or its bytes by number. -/
def encodeChar (c : Char) : List Char :=
  if isRaw c then [c]
  else if isDropped c then []
  else encodeBytes c

def encode (segment : String) : String := String.ofList (segment.toList.flatMap encodeChar)

/-- A letter and a colon or bar, which is a drive and is not left by a dot segment. -/
def isDrive (segment : String) : Bool :=
  match segment.toList with
  | [c, d] => c.isAlpha && (d = ':' || d = '|')
  | _ => false

def root : List String := [""]

/-- Adds a segment. The dot segments are left out. A segment that only becomes one when its dropped
characters are gone acts on the path: one dot leaves an empty segment, two take the segment before
away as well. -/
def push (path : List String) (segment : String) : List String :=
  if segment = "." ∨ segment = ".." then path else
  let before := if path = root then [] else path
  let encoded := encode segment
  if encoded = "." then before ++ [""]
  else if encoded = ".." then
    if path.getLast?.any isDrive then before ++ [""] else path.dropLast ++ [""]
  else before ++ [encoded]

/-- Adds segments behind a path, in the place of an empty piece at its end. -/
def extend (path segments : List String) : List String :=
  let path := if path ≠ root ∧ path.getLast? = some "" then path.dropLast else path
  segments.foldl push path

def ofSegments (segments : List String) : List String := segments.foldl push root

def text (path : List String) : String := "/" ++ "/".intercalate path

/-! ### Given paths -/

/-- A piece as it is given: what is escaped by number in it stays so. -/
def encodePiece (cs : List Char) : String :=
  String.ofList (cs.flatMap fun c => if c = '%' then [c] else encodeChar c)

def isDot (piece : String) : Bool :=
  [".", "%2e"].contains (piece.map Char.toLower)

def isDots (piece : String) : Bool :=
  ["..", ".%2e", "%2e.", "%2e%2e"].contains (piece.map Char.toLower)

/-- Goes on to a piece: a dot stays where it is, and two dots go back by one. -/
def goTo (path : List String) (piece : String) : List String :=
  if isDot piece then path
  else if isDots piece then if path.getLast?.any isDrive then path else path.dropLast
  else path ++ [piece]

/-- The path that a text gives, without the slash at its front. Dots at the end leave an empty
piece. -/
def ofText (cs : List Char) : List String :=
  let pieces := (cs.splitOnP isSlash).map encodePiece
  let path := pieces.foldl goTo []
  if pieces.getLast?.any fun last => isDot last || isDots last then path ++ [""] else path

def isRawInQuery (c : Char) : Bool :=
  '!' ≤ c && c ≤ '~' && !(c = '"' || c = '#' || c = '<' || c = '>' || c = '\'')

def encodeQuery (cs : List Char) : String :=
  String.ofList (cs.flatMap fun c => if isRawInQuery c then [c] else encodeBytes c)

end RecordClient.Path
