/-
# Texts as bytes

A file or the output of a program is a sequence of bytes.  Read as UTF-8 it falls into characters
and malformed pieces, and it is a text when there are no malformed pieces.  A malformed piece is
as long as it can be while it could still have become a character, and is never empty.
-/
namespace CoverageEstimate.Text

/-- A piece of a byte sequence read as UTF-8. -/
inductive Piece where
  /-- The encoding of a character. -/
  | char (c : Char)
  /-- Bytes that encode no character. -/
  | malformed (bytes : List UInt8)
  deriving DecidableEq, Repr, Inhabited

namespace Piece

/-- The number of bytes of the piece. -/
def byteSize : Piece → Nat
  | char c => c.utf8Size
  | malformed bytes => bytes.length

/-- The character to show for the piece: a malformed one shows as the replacement character. -/
def shown : Piece → Char
  | char c => c
  | malformed _ => '\uFFFD'

/-- The character that the piece encodes, if it encodes one. -/
def char? : Piece → Option Char
  | char c => some c
  | malformed _ => none

end Piece

/-- The six bits that a continuation byte carries. -/
def tailBits (b : UInt8) : Nat := b.toNat % 64

/-- Whether the byte continues a character. -/
def isTail (b : UInt8) : Bool := 0x80 ≤ b && b ≤ 0xBF

/-- Whether `c` may be the second byte of a character of three bytes that starts with `b`: the
long forms of shorter characters and the surrogates are left out. -/
def isSecondOfThree (b c : UInt8) : Bool :=
  if b == 0xE0 then 0xA0 ≤ c && c ≤ 0xBF
  else if b == 0xED then 0x80 ≤ c && c ≤ 0x9F
  else isTail c

/-- Whether `c` may be the second byte of a character of four bytes that starts with `b`: the long
forms of shorter characters and the numbers beyond the last character are left out. -/
def isSecondOfFour (b c : UInt8) : Bool :=
  if b == 0xF0 then 0x90 ≤ c && c ≤ 0xBF
  else if b == 0xF4 then 0x80 ≤ c && c ≤ 0x8F
  else isTail c

/-- The piece that starts with the byte `b`, and how many of the bytes after it belong to it. -/
def firstPiece (b : UInt8) (bs : List UInt8) : Piece × Nat :=
  if b < 0x80 then (.char (Char.ofNat b.toNat), 0)
  else if 0xC2 ≤ b && b ≤ 0xDF then
    match bs with
    | c :: _ =>
      if isTail c then (.char (Char.ofNat (b.toNat % 32 * 64 + tailBits c)), 1)
      else (.malformed [b], 0)
    | [] => (.malformed [b], 0)
  else if 0xE0 ≤ b && b ≤ 0xEF then
    match bs with
    | c :: d :: _ =>
      if !isSecondOfThree b c then (.malformed [b], 0)
      else if isTail d then
        (.char (Char.ofNat ((b.toNat % 16 * 64 + tailBits c) * 64 + tailBits d)), 2)
      else (.malformed [b, c], 1)
    | [c] => if isSecondOfThree b c then (.malformed [b, c], 1) else (.malformed [b], 0)
    | [] => (.malformed [b], 0)
  else if 0xF0 ≤ b && b ≤ 0xF4 then
    match bs with
    | c :: d :: e :: _ =>
      if !isSecondOfFour b c then (.malformed [b], 0)
      else if !isTail d then (.malformed [b, c], 1)
      else if isTail e then
        (.char (Char.ofNat
          (((b.toNat % 8 * 64 + tailBits c) * 64 + tailBits d) * 64 + tailBits e)), 3)
      else (.malformed [b, c, d], 2)
    | [c, d] =>
      if !isSecondOfFour b c then (.malformed [b], 0)
      else if isTail d then (.malformed [b, c, d], 2)
      else (.malformed [b, c], 1)
    | [c] => if isSecondOfFour b c then (.malformed [b, c], 1) else (.malformed [b], 0)
    | [] => (.malformed [b], 0)
  else (.malformed [b], 0)

/-- The pieces of a byte sequence whose first `skip` bytes belong to a piece before it. -/
def piecesFrom : (skip : Nat) → List UInt8 → List Piece
  | _, [] => []
  | skip + 1, _ :: bs => piecesFrom skip bs
  | 0, b :: bs =>
    let (piece, more) := firstPiece b bs
    piece :: piecesFrom more bs

/-- The pieces of a byte sequence read as UTF-8. -/
def pieces (bytes : List UInt8) : List Piece := piecesFrom 0 bytes

/-- The bytes of a text in UTF-8. -/
def bytesOf (s : String) : List UInt8 := s.toList.flatMap String.utf8EncodeChar

/-- The text that the bytes encode, if all of them encode characters. -/
def ofBytes? (bytes : List UInt8) : Option String :=
  ((pieces bytes).mapM Piece.char?).map String.ofList

/-- The text to show for the bytes, with replacement characters for malformed pieces. -/
def shownBytes (bytes : List UInt8) : String := String.ofList ((pieces bytes).map Piece.shown)

/-- The pieces of a text, all of which are characters. -/
def piecesOf (s : String) : List Piece := s.toList.map Piece.char

end CoverageEstimate.Text
