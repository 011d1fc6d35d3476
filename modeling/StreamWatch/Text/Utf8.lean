/-!
# Text from bytes

An input is bytes; its lines are text. Bytes are decoded as UTF-8, and where they are none the fault
says at which byte of the line it lies: either a sequence that can never become a character, with
its length, or a sequence that merely ends too early.
-/

namespace StreamWatch.Utf8

/-- Where and why bytes are not UTF-8. -/
inductive Fault where
  | invalid (length index : Nat)
  | incomplete (index : Nat)
deriving DecidableEq

/-- The fault in words. -/
def Fault.message : Fault → String
  | invalid length index => s!"invalid utf-8 sequence of {length} bytes from index {index}"
  | incomplete index => s!"incomplete utf-8 byte sequence from index {index}"

/-! ## Characters -/

/-- Whether a byte can only continue a sequence. -/
def isTail (b : UInt8) : Bool := 0x80 ≤ b && b ≤ 0xbf

/-- Whether a byte can follow the first one of a sequence. The first bytes of the longer sequences
leave out overlong forms, surrogates and numbers beyond the last character. -/
def follows (first second : UInt8) : Bool :=
  if first = 0xe0 then 0xa0 ≤ second && second ≤ 0xbf
  else if first = 0xed then 0x80 ≤ second && second ≤ 0x9f
  else if first = 0xf0 then 0x90 ≤ second && second ≤ 0xbf
  else if first = 0xf4 then 0x80 ≤ second && second ≤ 0x8f
  else isTail second

/-- The bits that a continuing byte carries. -/
def tailBits (b : UInt8) : Nat := b.toNat % 64

/-- Decodes bytes; `index` counts those in front of them. -/
def decodeFrom (index : Nat) : List UInt8 → Except Fault (List Char)
  | [] => .ok []
  | a :: rest =>
    if a < 0x80 then (decodeFrom (index + 1) rest).map (Char.ofNat a.toNat :: ·)
    else if a < 0xc2 || 0xf4 < a then .error (.invalid 1 index)
    else
      match rest with
      | [] => .error (.incomplete index)
      | b :: rest =>
        if !follows a b then .error (.invalid 1 index)
        else if a < 0xe0 then
          (decodeFrom (index + 2) rest).map (Char.ofNat (a.toNat % 32 * 64 + tailBits b) :: ·)
        else
          match rest with
          | [] => .error (.incomplete index)
          | c :: rest =>
            if !isTail c then .error (.invalid 2 index)
            else if a < 0xf0 then
              (decodeFrom (index + 3) rest).map
                (Char.ofNat (a.toNat % 16 * 4096 + tailBits b * 64 + tailBits c) :: ·)
            else
              match rest with
              | [] => .error (.incomplete index)
              | d :: rest =>
                if !isTail d then .error (.invalid 3 index)
                else
                  (decodeFrom (index + 4) rest).map
                    (Char.ofNat (a.toNat % 8 * 262144 + tailBits b * 4096 + tailBits c * 64 +
                      tailBits d) :: ·)

/-- Decodes bytes. -/
def decode (bytes : List UInt8) : Except Fault (List Char) := decodeFrom 0 bytes

/-- The bytes of characters. -/
def encode (cs : List Char) : List UInt8 := cs.flatMap String.utf8EncodeChar

/-! ## Lines -/

/-- The byte that ends a line. -/
def newline : UInt8 := 10

/-- Cuts bytes into lines, each with the newline that ends it; the last may lack one. The first
argument holds the bytes of the line so far, last byte first. -/
def cutLines (line : List UInt8) : List UInt8 → List (List UInt8)
  | [] => if line.isEmpty then [] else [line.reverse]
  | b :: rest =>
    if b = newline then (b :: line).reverse :: cutLines [] rest else cutLines (b :: line) rest

/-- A line without the newline that ends it and one carriage return before that. -/
def dropEnding (line : List Char) : List Char :=
  match line.reverse with
  | '\n' :: '\r' :: rest => rest.reverse
  | '\n' :: rest => rest.reverse
  | _ => line

/-- The lines of an input, each as text or with the fault in it. -/
def lines (bytes : List UInt8) : List (Except Fault (List Char)) :=
  (cutLines [] bytes).map fun line => (decode line).map dropEnding

end StreamWatch.Utf8
