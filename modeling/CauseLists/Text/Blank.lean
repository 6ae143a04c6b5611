-- White space, control characters and trimming, as the Unicode Character Database draws the two
-- classes. Everything that trims an envelope field, a path or a setting trims by this table.

namespace CauseLists.Text

/-- White space: the characters with the property White_Space. -/
def isBlank (c : Char) : Bool :=
  (0x09 ≤ c.toNat && c.toNat ≤ 0x0d) || c.toNat == 0x20 || c.toNat == 0x85 || c.toNat == 0xa0 ||
  c.toNat == 0x1680 || (0x2000 ≤ c.toNat && c.toNat ≤ 0x200a) || c.toNat == 0x2028 ||
  c.toNat == 0x2029 || c.toNat == 0x202f || c.toNat == 0x205f || c.toNat == 0x3000

/-- A control character: general category Cc. -/
def isControl (c : Char) : Bool :=
  c.toNat < 0x20 || (0x7f ≤ c.toNat && c.toNat < 0xa0)

/-- The characters without the white space at either end. -/
def trimChars (cs : List Char) : List Char :=
  ((cs.dropWhile isBlank).reverse.dropWhile isBlank).reverse

/-- The text without the white space at either end. -/
def trim (s : String) : String := String.ofList (trimChars s.toList)

/-- Nothing but white space. -/
def isBlankText (s : String) : Bool := s.toList.all isBlank

/-- The text without its control characters. -/
def withoutControls (s : String) : String :=
  String.ofList (s.toList.filter (fun c => !isControl c))

/-- The text in ASCII upper case: the letters a to z are raised, every other character stays. -/
def upperAscii (s : String) : String := String.ofList (s.toList.map Char.toUpper)

/-- The text in ASCII lower case: the letters A to Z are lowered, every other character stays. -/
def lowerAscii (s : String) : String := String.ofList (s.toList.map Char.toLower)

/-- The same text up to the case of ASCII letters. -/
def sameIgnoringCase (s t : String) : Bool := upperAscii s == upperAscii t

/-- The text followed by as many spaces as bring it to `width` characters. -/
def padRight (width : Nat) (s : String) : String :=
  s ++ String.ofList (List.replicate (width - s.length) ' ')

end CauseLists.Text
