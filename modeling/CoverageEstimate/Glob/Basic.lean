/-
# Globs

A glob is a pattern for paths.  It is a sequence of tokens, and it matches a path when each token
takes up a piece of it, in their order and without a gap.  Matching goes by bytes: the token for
any one byte does not take up a character that is encoded by several.  A star takes up slashes as
well; the double star is told apart from it only by the slashes that go with it.  Among
alternatives those without content do not count, unless all of them are without content.
-/
import CoverageEstimate.Text.Bytes

namespace CoverageEstimate

/-- A part of a glob. -/
inductive GlobToken where
  /-- The character itself. -/
  | literal (c : Char)
  /-- Any one byte. -/
  | anyByte
  /-- Any bytes, or none. -/
  | anyBytes
  /-- Directories at the start of a path: nothing, or anything that ends in a slash. -/
  | leadingDirectories
  /-- A slash and anything behind it. -/
  | trailingPath
  /-- A slash, with directories and another slash behind it or not. -/
  | innerDirectories
  /-- One byte that belongs to one of the ranges of characters, or to none if `negated`. -/
  | byteIn (negated : Bool) (ranges : List (Char × Char))
  /-- One of several sequences of tokens. -/
  | alternates (branches : List (List GlobToken))
  deriving Inhabited

/-- A glob: its tokens in their order. -/
abbrev Glob := List GlobToken

namespace GlobToken

/-- The ranges of bytes for a range of characters.  For a range between two characters these are
the bytes of its ends, except that the last byte of the one and the first byte of the other are the
ends of a range. -/
def byteRanges (range : Char × Char) : List (UInt8 × UInt8) :=
  let single (b : UInt8) := (b, b)
  let low := String.utf8EncodeChar range.1
  let high := String.utf8EncodeChar range.2
  if range.1 = range.2 then low.map single
  else
    match low.getLast?, high with
    | some a, b :: rest => low.dropLast.map single ++ (a, b) :: rest.map single
    | _, _ => []

/-- Whether a byte belongs to one of the ranges. -/
def isInRanges (ranges : List (Char × Char)) (b : UInt8) : Bool :=
  (ranges.flatMap byteRanges).any fun r => r.1 ≤ b && b ≤ r.2

/-- All ends of a text, from the text itself to the empty one. -/
def endsOf : List UInt8 → List (List UInt8)
  | [] => [[]]
  | b :: rest => (b :: rest) :: endsOf rest

/-- What may be left of a text behind one of its slashes. -/
def behindSlashes : List UInt8 → List (List UInt8)
  | [] => []
  | b :: rest => if b == 0x2F then rest :: behindSlashes rest else behindSlashes rest

/-- The different ones among some ends of a text, which differ only if their lengths do. -/
def differentEnds (ends : List (List UInt8)) : List (List UInt8) :=
  ends.foldl (fun kept e => if kept.any fun k => k.length == e.length then kept else kept ++ [e]) []

mutual

/-- Whether a token is made of nothing but alternatives without content. -/
def isBlank : GlobToken → Bool
  | alternates branches => areBlank branches
  | _ => false

/-- Whether all tokens are made of nothing but alternatives without content. -/
def isBlankSequence : List GlobToken → Bool
  | [] => true
  | token :: others => isBlank token && isBlankSequence others

/-- Whether all branches are without content. -/
def areBlank : List (List GlobToken) → Bool
  | [] => true
  | branch :: others => isBlankSequence branch && areBlank others

end

mutual

/-- What may be left of a text when the token has taken up a piece at its start. -/
def rests : GlobToken → List UInt8 → List (List UInt8)
  | literal c, bytes =>
    let own := String.utf8EncodeChar c
    if own.isPrefixOf bytes then [bytes.drop own.length] else []
  | anyByte, bytes => bytes.tail?.toList
  | anyBytes, bytes => endsOf bytes
  | leadingDirectories, bytes => bytes :: behindSlashes bytes
  | trailingPath, bytes =>
    match bytes with
    | b :: rest => if b == 0x2F then endsOf rest else []
    | [] => []
  | innerDirectories, bytes =>
    match bytes with
    | b :: rest => if b == 0x2F then rest :: behindSlashes rest else []
    | [] => []
  | byteIn negated ranges, bytes =>
    match bytes with
    | b :: rest => if isInRanges ranges b != negated then [rest] else []
    | [] => []
  | alternates branches, bytes =>
    if areBlank branches then [bytes] else restsOfAny branches bytes

/-- What may be left of a text when all tokens have taken up pieces at its start. -/
def restsOfAll : List GlobToken → List UInt8 → List (List UInt8)
  | [], bytes => [bytes]
  | token :: others, bytes =>
    differentEnds ((differentEnds (rests token bytes)).flatMap (restsOfAll others))

/-- What may be left of a text when one of some sequences, each with some content, has taken up a piece
at its start. -/
def restsOfAny : List (List GlobToken) → List UInt8 → List (List UInt8)
  | [], _ => []
  | branch :: others, bytes =>
    (if isBlankSequence branch then [] else restsOfAll branch bytes) ++ restsOfAny others bytes

end

end GlobToken

namespace Glob

/-- Whether a glob matches a path.  A glob of nothing but leading directories matches every path. -/
def isMatch (glob : Glob) (path : String) : Bool :=
  match glob with
  | [.leadingDirectories] => true
  | _ => (GlobToken.restsOfAll glob (Text.bytesOf path)).any List.isEmpty

end Glob

end CoverageEstimate
