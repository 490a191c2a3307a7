/-!
# Blank characters

The characters of the Unicode property `White_Space`, and the two ways a line is cut at them:
`trimmed` takes them off both ends, `words` keeps what stands between them.
-/
namespace RecordClient.Text

/-- Members of `White_Space`. The file separators U+001C to U+001F, the zero-width space and the
byte order mark are not among them. -/
def isBlank (c : Char) : Bool :=
  let n := c.toNat
  (0x09 ≤ n && n ≤ 0x0D) || n == 0x20 || n == 0x85 || n == 0xA0 || n == 0x1680
    || (0x2000 ≤ n && n ≤ 0x200A) || n == 0x2028 || n == 0x2029 || n == 0x202F
    || n == 0x205F || n == 0x3000

/-- The characters between the first and the last without a property. -/
def stripped (p : Char → Bool) (cs : List Char) : List Char :=
  ((cs.dropWhile p).reverse.dropWhile p).reverse

def trimmed (cs : List Char) : List Char := stripped isBlank cs

def words (cs : List Char) : List (List Char) :=
  (cs.splitOnP isBlank).filter (· ≠ [])

end RecordClient.Text
