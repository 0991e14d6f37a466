/-!
White space as Unicode defines it, and trimming by it. A text is trimmed at
both ends; the characters in between are never touched.
-/

namespace ModuleOutputs.Text

/-- The characters with the Unicode property White_Space. -/
def isBlank (c : Char) : Bool :=
  let n := c.toNat
  (9 ≤ n && n ≤ 13) || n == 0x20 || n == 0x85 || n == 0xA0 || n == 0x1680 ||
    (0x2000 ≤ n && n ≤ 0x200A) || n == 0x2028 || n == 0x2029 || n == 0x202F ||
    n == 0x205F || n == 0x3000

def dropEndWhile (p : Char → Bool) (cs : List Char) : List Char :=
  (cs.reverse.dropWhile p).reverse

/-- Drops the characters at both ends that satisfy `p`. -/
def stripWhile (p : Char → Bool) (cs : List Char) : List Char :=
  dropEndWhile p (cs.dropWhile p)

/-- The text without the white space at its ends. -/
def trim (s : String) : String :=
  String.ofList (stripWhile isBlank s.toList)

def dropEndSlashes (s : String) : String :=
  String.ofList (dropEndWhile (· == '/') s.toList)

/-- The text without the slashes at both ends. -/
def stripSlashes (s : String) : String :=
  String.ofList (stripWhile (· == '/') s.toList)

/-- Whether the text holds nothing but white space. -/
def isAllBlank (s : String) : Bool :=
  s.toList.all isBlank

/-- Whether `part` occurs in the text as a run of consecutive characters. -/
def containsRun (part : List Char) : List Char → Bool
  | [] => part.isEmpty
  | c :: rest => part.isPrefixOf (c :: rest) || containsRun part rest

end ModuleOutputs.Text
