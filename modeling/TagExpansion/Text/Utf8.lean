import TagExpansion.Text.Quoted

/-
This file reads and writes the bytes of a text.

A sequence of bytes is a text in at most one way. Where it is none, the first
place that cannot be read is told by its position, by how many bytes belong to
it, and by what is wrong there: a byte that starts no character, a byte that
does not continue the character it stands in, or an end in the middle of one.
-/

namespace TagExpansion.Text

/-- What is wrong with the bytes of a text. -/
inductive Utf8Fault where
  | invalidStart
  | invalidContinuation
  | unexpectedEnd
  deriving DecidableEq, Repr

/-- The first place at which bytes cannot be read as a text. -/
structure Utf8Error where
  /-- The position of the first byte of that place. -/
  position : Nat
  /-- The bytes that belong to it; there is at least one. -/
  bytes : List UInt8
  fault : Utf8Fault
  deriving DecidableEq, Repr

/-- What is wrong, in words. -/
def Utf8Fault.message : Utf8Fault → Text
  | .invalidStart => "invalid start byte".toList
  | .invalidContinuation => "invalid continuation byte".toList
  | .unexpectedEnd => "unexpected end of data".toList

/-- The error in words: a single byte is shown, several are given by their positions. -/
def Utf8Error.message (error : Utf8Error) : Text :=
  let place := match error.bytes with
    | [byte] => "byte 0x".toList ++ hexadecimal 2 byte.toNat ++ " in position ".toList ++
        ofNat error.position
    | bytes => "bytes in position ".toList ++ ofNat error.position ++ ['-'] ++
        ofNat (error.position + bytes.length - 1)
  "'utf-8' codec can't decode ".toList ++ place ++ ": ".toList ++ error.fault.message

/-- Whether a byte can stand inside a character. -/
def isContinuation (byte : UInt8) : Bool := 0x80 ≤ byte && byte < 0xc0

/-- Whether `second` may follow the first byte of a character of three or four bytes: the
overlong forms, the surrogates and the numbers beyond the last code point are excluded. -/
def mayFollow (first second : UInt8) : Bool :=
  isContinuation second &&
    (if first = 0xe0 then 0xa0 ≤ second
    else if first = 0xed then second < 0xa0
    else if first = 0xf0 then 0x90 ≤ second
    else if first = 0xf4 then second < 0x90
    else true)

/-- The character made of the given value bits of a first byte and of continuation bytes. -/
def assemble (first : Nat) (others : List UInt8) : Char :=
  Char.ofNat (others.foldl (fun code byte => code * 64 + (byte.toNat - 0x80)) first)

/-- Reads bytes as a text; `position` is that of the first byte. -/
def decodeFrom (position : Nat) : List UInt8 → Except Utf8Error Text
  | [] => .ok []
  | first :: rest =>
    if first < 0x80 then
      (Char.ofNat first.toNat :: ·) <$> decodeFrom (position + 1) rest
    else if first < 0xc2 || 0xf4 < first then
      .error ⟨position, [first], .invalidStart⟩
    else if first < 0xe0 then
      match rest with
      | [] => .error ⟨position, [first], .unexpectedEnd⟩
      | second :: rest =>
        if isContinuation second then
          (assemble (first.toNat - 0xc0) [second] :: ·) <$> decodeFrom (position + 2) rest
        else .error ⟨position, [first], .invalidContinuation⟩
    else
      match rest with
      | [] => .error ⟨position, [first], .unexpectedEnd⟩
      | second :: rest =>
        if !mayFollow first second then .error ⟨position, [first], .invalidContinuation⟩
        else match rest with
          | [] => .error ⟨position, [first, second], .unexpectedEnd⟩
          | third :: rest =>
            if !isContinuation third then
              .error ⟨position, [first, second], .invalidContinuation⟩
            else if first < 0xf0 then
              (assemble (first.toNat - 0xe0) [second, third] :: ·) <$>
                decodeFrom (position + 3) rest
            else match rest with
              | [] => .error ⟨position, [first, second, third], .unexpectedEnd⟩
              | fourth :: rest =>
                if isContinuation fourth then
                  (assemble (first.toNat - 0xf0) [second, third, fourth] :: ·) <$>
                    decodeFrom (position + 4) rest
                else .error ⟨position, [first, second, third], .invalidContinuation⟩

/-- Reads bytes as a text. -/
def decode (bytes : List UInt8) : Except Utf8Error Text := decodeFrom 0 bytes

/-- The bytes of a text. -/
def encode (text : Text) : List UInt8 := text.flatMap String.utf8EncodeChar

end TagExpansion.Text
