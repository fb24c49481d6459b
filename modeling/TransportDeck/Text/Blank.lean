namespace TransportDeck.Text

/-- The characters with the Unicode property White_Space; zero width spaces and byte order marks
are not among them. -/
def isBlank (c : Char) : Bool :=
  let n := c.toNat
  (0x9 ≤ n && n ≤ 0xD) || n == 0x20 || n == 0x85 || n == 0xA0 || n == 0x1680 ||
    (0x2000 ≤ n && n ≤ 0x200A) || n == 0x2028 || n == 0x2029 || n == 0x202F || n == 0x205F ||
    n == 0x3000

def isBlankText (cs : List Char) : Bool :=
  cs.all isBlank

def trimStart (cs : List Char) : List Char :=
  cs.dropWhile isBlank

def trimEnd (cs : List Char) : List Char :=
  (cs.reverse.dropWhile isBlank).reverse

def trim (cs : List Char) : List Char :=
  trimEnd (trimStart cs)

def words (cs : List Char) : List (List Char) :=
  (cs.splitOnP isBlank).filter fun w => !w.isEmpty

def lower (cs : List Char) : List Char :=
  cs.map Char.toLower

def spaced (delimiters : List Char) (cs : List Char) : List Char :=
  cs.flatMap fun c => if delimiters.contains c then [' ', c, ' '] else [c]

def tokens (delimiters : List Char) (cs : List Char) : List String :=
  (words (spaced delimiters cs)).map fun w => String.ofList (lower w)

def splitTokens (delimiters : List Char) (ts : List String) : List String :=
  ts.flatMap fun t => tokens delimiters t.toList

def joined (separator : String) (texts : List String) : String :=
  separator.intercalate texts

def cut (mark : Char) (cs : List Char) : List Char × Option (List Char) :=
  (cs.takeWhile (· != mark), (cs.dropWhile (· != mark)).tail?)

end TransportDeck.Text
