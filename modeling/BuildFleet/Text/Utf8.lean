/-!
# Reading bytes as UTF-8

Bytes are read in units: a character, an ill-formed part, or a character that the end cuts off. An
ill-formed part is as long as the longest beginning of a well-formed character that the bytes show,
and at least one byte. Strict reading names the first unit that is not a character and where it
stands; lenient reading puts U+FFFD in the place of each.
-/

namespace BuildFleet.Text.Utf8

/-- What stands at the start of a list of bytes. -/
inductive Unit where
  /-- A character, written in so many bytes. -/
  | char (c : Char) (width : Nat)
  /-- So many bytes that begin no character. -/
  | illFormed (width : Nat)
  /-- The beginning of a character whose end is missing. -/
  | cutOff
  deriving DecidableEq, Repr

/-- Whether a byte lies between two others. -/
def within (low high : Nat) (b : UInt8) : Bool :=
  low ≤ b.toNat && b.toNat ≤ high

/-- The six value bits of a continuation byte. -/
def payload (b : UInt8) : Nat := b.toNat % 64

/-- Reads the continuation bytes of a character: `ranges` says what each may be, `width` counts the
bytes read so far and `code` holds their value. -/
def continued (width code : Nat) : List (Nat × Nat) → List UInt8 → Unit
  | [], _ => .char (Char.ofNat code) width
  | _ :: _, [] => .cutOff
  | (low, high) :: ranges, b :: bs =>
    if within low high b then continued (width + 1) (code * 64 + payload b) ranges bs
    else .illFormed width

/-- The unit that starts with a byte and goes on in the bytes after it. The second byte's range is
what keeps overlong forms, surrogates and codes above U+10FFFF out. -/
def unit (b : UInt8) (rest : List UInt8) : Unit :=
  let n := b.toNat
  let any := (0x80, 0xBF)
  if n < 0x80 then .char (Char.ofNat n) 1
  else if n < 0xC2 then .illFormed 1
  else if n < 0xE0 then continued 1 (n - 0xC0) [any] rest
  else if n = 0xE0 then continued 1 0 [(0xA0, 0xBF), any] rest
  else if n = 0xED then continued 1 0xD [(0x80, 0x9F), any] rest
  else if n < 0xF0 then continued 1 (n - 0xE0) [any, any] rest
  else if n = 0xF0 then continued 1 0 [(0x90, 0xBF), any, any] rest
  else if n < 0xF4 then continued 1 (n - 0xF0) [any, any, any] rest
  else if n = 0xF4 then continued 1 4 [(0x80, 0x8F), any, any] rest
  else .illFormed 1

/-- Why bytes are not UTF-8, and at which byte this shows first. -/
inductive Fault where
  /-- So many bytes at an index begin no character. -/
  | illFormed (width index : Nat)
  /-- The character at an index lacks its end. -/
  | cutOff (index : Nat)
  deriving DecidableEq, Repr

/-- The wording of a fault. -/
def Fault.message : Fault → String
  | .illFormed width index =>
    "invalid utf-8 sequence of " ++ toString width ++ " bytes from index " ++ toString index
  | .cutOff index => "incomplete utf-8 byte sequence from index " ++ toString index

/-- Strict reading from a byte index on; `skip` bytes belong to the character read last. -/
def decodeFrom (index skip : Nat) : List UInt8 → Except Fault (List Char)
  | [] => .ok []
  | b :: bs =>
    match skip with
    | k + 1 => decodeFrom (index + 1) k bs
    | 0 =>
      match unit b bs with
      | .char c width => (decodeFrom (index + 1) (width - 1) bs).map (c :: ·)
      | .illFormed width => .error (.illFormed width index)
      | .cutOff => .error (.cutOff index)

/-- The text that bytes spell, or the first fault in them. -/
def decode (bytes : List UInt8) : Except Fault String :=
  (decodeFrom 0 0 bytes).map String.ofList

/-- Lenient reading; `skip` bytes belong to the unit read last. -/
def lenientFrom (skip : Nat) : List UInt8 → List Char
  | [] => []
  | b :: bs =>
    match skip with
    | k + 1 => lenientFrom k bs
    | 0 =>
      match unit b bs with
      | .char c width => c :: lenientFrom (width - 1) bs
      | .illFormed width => '\uFFFD' :: lenientFrom (width - 1) bs
      | .cutOff => ['\uFFFD']

/-- The text that bytes spell, with U+FFFD for each unit that is not a character. -/
def decodeLenient (bytes : List UInt8) : String :=
  String.ofList (lenientFrom 0 bytes)

end BuildFleet.Text.Utf8
