import DavGateway.Bytes
import DavGateway.Text.Number

/-!
# Percent-encoded paths

`encode` writes a text so that it can stand in the path of a reference: unreserved characters and
the slash stand for themselves, every other byte of the UTF-8 form becomes `%XX`. `decode?` takes
any escape back, and fails on a broken escape or a result that is not UTF-8.
-/

namespace DavGateway.Percent

/-- The percent sign as a byte. -/
def percent : UInt8 := 0x25

/-- Does the byte stand for itself in a path? -/
def isPlain (b : UInt8) : Bool :=
  let c := Char.ofNat b.toNat
  b < 0x80 && (c.isAlphanum || ['-', '_', '.', '~', '/'].contains c)

/-- The upper-case hexadecimal digit of a number below 16. -/
def hexDigit (n : Nat) : Char := if n < 10 then Char.ofNat (48 + n) else Char.ofNat (55 + n)

/-- One byte of a path, as characters. -/
def encodeByte (b : UInt8) : List Char :=
  if isPlain b then [Char.ofNat b.toNat]
  else ['%', hexDigit (b.toNat / 16), hexDigit (b.toNat % 16)]

/-- The bytes of a path, as characters. -/
def encodeBytes (bytes : Bytes) : List Char := bytes.flatMap encodeByte

/-- Writes a text as a path. -/
def encode (s : String) : String := String.ofList (encodeBytes (Bytes.ofText s))

/-- The value of a byte that is a hexadecimal digit. -/
def digit? (b : UInt8) : Option Nat := Text.hexValue? (Char.ofNat b.toNat)

/-- The bytes that a path stands for. -/
def decodeBytes : Bytes → Option Bytes
  | [] => some []
  | b :: rest =>
    if b = percent then
      match rest with
      | high :: low :: rest => do
        let high ← digit? high
        let low ← digit? low
        let decoded ← decodeBytes rest
        some (UInt8.ofNat (high * 16 + low) :: decoded)
      | _ => none
    else do
      let decoded ← decodeBytes rest
      some (b :: decoded)

/-- Reads a path back. -/
def decode? (raw : String) : Option String := (decodeBytes (Bytes.ofText raw)).bind Bytes.toText?

end DavGateway.Percent
