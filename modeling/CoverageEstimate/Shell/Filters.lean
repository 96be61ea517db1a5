/-
# Programs that filter bytes

What becomes of a sequence of bytes when a program takes the beginning of it, replaces or deletes
some of them, counts them or selects lines.
-/
import CoverageEstimate.Shell.Programs

namespace CoverageEstimate.Shell

/-- The lines of some bytes, each with its end. -/
def byteLines (bytes : List UInt8) : List (List UInt8) :=
  let step (b : UInt8) (lines : List (List UInt8)) : List (List UInt8) :=
    match b == 10, lines with
    | true, _ => [b] :: lines
    | false, [] => [[b]]
    | false, l :: rest => (b :: l) :: rest
  bytes.foldr step []

/-- The lines of some bytes are all of them, in order. -/
theorem flatten_byteLines (bytes : List UInt8) : (byteLines bytes).flatten = bytes := by
  unfold byteLines
  induction bytes with
  | nil => rfl
  | cons b bytes ih =>
    rw [List.foldr_cons]
    split
    · rw [List.flatten_cons, ih]; rfl
    · next h => rw [h] at ih; rw [List.flatten_cons, ← ih]; rfl
    · next h => rw [h] at ih; rw [List.flatten_cons, ← ih]; rfl

/-- The bytes that a set stands for: escape sequences have been replaced, and a sign between two
bytes stands for those between them. -/
def bytesOfSet : (fuel : Nat) → List Char → List UInt8
  | 0, _ => []
  | _, [] => []
  | fuel + 1, c :: rest =>
    let (bytes, behind) := if c = '\\' then escapeSequence false rest else (charBytes c, rest)
    match bytes, behind with
    | [low], '-' :: high :: others =>
      let between := (List.range 256).map UInt8.ofNat |>.filter fun b =>
        low ≤ b && b.toNat ≤ high.toNat
      between ++ bytesOfSet fuel others
    | _, _ => bytes ++ bytesOfSet fuel behind

/-- The bytes after each one of the first set has been replaced by its counterpart in the second,
whose last byte stands for those it lacks. -/
def replaceBytes (source target : String) (bytes : List UInt8) : List UInt8 :=
  let source := bytesOfSet (source.length + 1) source.toList
  let target := bytesOfSet (target.length + 1) target.toList
  let last := target.getLast?.getD 0
  bytes.map fun b =>
    match source.idxOf? b with
    | some k => target.getD k last
    | none => b

/-- The bytes without those of a set. -/
def deleteBytes (set : String) (bytes : List UInt8) : List UInt8 :=
  let set := bytesOfSet (set.length + 1) set.toList
  bytes.filter fun b => !(set.contains b)

/-- Whether some bytes stand somewhere in a line. -/
def standIn (wanted : List UInt8) : List UInt8 → Bool
  | [] => wanted.isEmpty
  | b :: rest => wanted.isPrefixOf (b :: rest) || standIn wanted rest

/-- Whether a line, without its end, has a text in it.  Signs for the beginning and the end of the
line at the ends of the text tie it to them. -/
def lineHas (text : String) (line : List UInt8) : Bool :=
  let cs := text.toList
  let isAtStart := cs.head? == some '^'
  let cs := if isAtStart then cs.tail else cs
  let isAtEnd := cs.getLast? == some '$'
  let cs := if isAtEnd then cs.dropLast else cs
  let wanted := cs.flatMap charBytes
  match isAtStart, isAtEnd with
  | true, true => line == wanted
  | true, false => wanted.isPrefixOf line
  | false, true => wanted.isSuffixOf line
  | false, false => standIn wanted line

/-- The lines that have a text in them, or those that do not if `inverted`. -/
def selectLines (inverted : Bool) (text : String) (bytes : List UInt8) : List (List UInt8) :=
  (byteLines bytes).filter fun l =>
    lineHas text (if l.getLast? = some 10 then l.dropLast else l) != inverted

end CoverageEstimate.Shell
