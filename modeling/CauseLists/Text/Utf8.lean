-- Text as bytes. A body arrives as bytes, and whether it is text is judged one character at a
-- time: no overlong form, no surrogate, nothing past the last code point.

namespace CauseLists

/-- The bytes of a body or a file. -/
abbrev Bytes := List UInt8

namespace Text

/-- A byte that continues a character. -/
def isContinuation (b : UInt8) : Bool := 0x80 ≤ b && b ≤ 0xbf

/-- The low six bits of a continuation byte. -/
def sixBits (b : UInt8) : Nat := b.toNat - 0x80

/-- The first character of a row of bytes and the bytes after it; `none` if no character of
well-formed text starts there. -/
def firstChar? : Bytes → Option (Char × Bytes)
  | [] => none
  | a :: rest =>
    if a < 0x80 then some (Char.ofNat a.toNat, rest)
    else if 0xc2 ≤ a && a ≤ 0xdf then
      match rest with
      | b :: rest =>
        if isContinuation b then
          some (Char.ofNat ((a.toNat - 0xc0) * 64 + sixBits b), rest)
        else none
      | [] => none
    else if 0xe0 ≤ a && a ≤ 0xef then
      match rest with
      | b :: c :: rest =>
        let n := (a.toNat - 0xe0) * 4096 + sixBits b * 64 + sixBits c
        if isContinuation b && isContinuation c && 0x800 ≤ n && !(0xd800 ≤ n && n ≤ 0xdfff) then
          some (Char.ofNat n, rest)
        else none
      | _ => none
    else if 0xf0 ≤ a && a ≤ 0xf4 then
      match rest with
      | b :: c :: d :: rest =>
        let n := (a.toNat - 0xf0) * 262144 + sixBits b * 4096 + sixBits c * 64 + sixBits d
        if isContinuation b && isContinuation c && isContinuation d &&
            0x10000 ≤ n && n ≤ 0x10ffff then
          some (Char.ofNat n, rest)
        else none
      | _ => none
    else none

/-- The bytes of one character. -/
def encodeChar (c : Char) : Bytes :=
  let n := c.toNat
  if n < 0x80 then [UInt8.ofNat n]
  else if n < 0x800 then [UInt8.ofNat (0xc0 + n / 64), UInt8.ofNat (0x80 + n % 64)]
  else if n < 0x10000 then
    [UInt8.ofNat (0xe0 + n / 4096), UInt8.ofNat (0x80 + n / 64 % 64), UInt8.ofNat (0x80 + n % 64)]
  else
    [UInt8.ofNat (0xf0 + n / 262144), UInt8.ofNat (0x80 + n / 4096 % 64),
      UInt8.ofNat (0x80 + n / 64 % 64), UInt8.ofNat (0x80 + n % 64)]

/-- The bytes of a text. -/
def encode (s : String) : Bytes := s.toList.flatMap encodeChar

/-- Reads characters while there are bytes; each one takes at least one byte, so as many rounds
as there are bytes are enough. -/
def decodeChars : (rounds : Nat) → Bytes → List Char → Option (List Char)
  | _, [], done => some done.reverse
  | 0, _ :: _, _ => none
  | rounds + 1, bytes, done =>
    match firstChar? bytes with
    | some (c, rest) => decodeChars rounds rest (c :: done)
    | none => none

/-- The text that bytes write; `none` if they are not well-formed text. -/
def decode? (bytes : Bytes) : Option String :=
  (decodeChars bytes.length bytes []).map String.ofList

end Text

end CauseLists
