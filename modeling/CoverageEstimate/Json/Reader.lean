/-
# Reading documents

Every function here reads one part of a document from the start of what is still to be read, and
answers with what the part says and with the rest.  It reads from left to right and stops at the
first fault.
-/
import CoverageEstimate.Json.Failure

namespace CoverageEstimate.Json

/-- A reader of one part of a document. -/
abbrev Reader (α : Type) := Input → Except Failure (α × Input)

/-- The failure whose place is before the rest. -/
def failAt {α : Type} (cause : Cause) (rest : Input) : Except Failure α := .error ⟨cause, rest, 0⟩

/-- The failure whose place is behind the next byte, if there is one. -/
def failBehind {α : Type} (cause : Cause) (rest : Input) : Except Failure α :=
  .error ⟨cause, rest, if rest.isEmpty then 0 else 1⟩

/-- Whether the piece is one of the four characters that may stand between the parts. -/
def isSpace : Text.Piece → Bool
  | .char c => c == ' ' || c == '\n' || c == '\t' || c == '\r'
  | .malformed _ => false

/-- The input from the next part on. -/
def skipSpace (input : Input) : Input := input.dropWhile isSpace

/-- Read the given characters. -/
def readWord : List Char → Reader Unit
  | [], input => .ok ((), input)
  | _ :: _, [] => failAt (.endWithin .value) []
  | c :: cs, p :: rest => if p == .char c then readWord cs rest else failBehind .expectedWord (p :: rest)

/-! ## Strings -/

/-- The value of a hexadecimal digit. -/
def hexValue? (c : Char) : Option Nat :=
  if '0' ≤ c && c ≤ '9' then some (c.toNat - '0'.toNat)
  else if 'a' ≤ c && c ≤ 'f' then some (c.toNat - 'a'.toNat + 10)
  else if 'A' ≤ c && c ≤ 'F' then some (c.toNat - 'A'.toNat + 10)
  else none

/-- The number of the four hexadecimal digits that the input starts with. -/
def readHex4 (input : Input) : Except Failure Nat :=
  if byteSize input < 4 then failAt (.endWithin .text) []
  else
    match input with
    | .char a :: .char b :: .char c :: .char d :: _ =>
      match hexValue? a, hexValue? b, hexValue? c, hexValue? d with
      | some a, some b, some c, some d => .ok (((a * 16 + b) * 16 + c) * 16 + d)
      | _, _, _, _ => .error ⟨.invalidEscape, input, 4⟩
    | _ => .error ⟨.invalidEscape, input, 4⟩

/-- The character of an escape by number, from behind its `u` on, and the number of pieces it takes
up.  A number of the high surrogates takes a second escape, of the low surrogates. -/
def readNumbered (input : Input) : Except Failure (Char × Nat) := do
  let high ← readHex4 input
  if high < 0xD800 || 0xDFFF < high then pure (Char.ofNat high, 4)
  else
    let rest := input.drop 4
    if 0xDC00 ≤ high then failAt .loneSurrogate rest
    else
      match rest with
      | [] => failAt (.endWithin .text) []
      | .char '\\' :: [] => failAt (.endWithin .text) []
      | .char '\\' :: .char 'u' :: more =>
        let low ← readHex4 more
        if low < 0xDC00 || 0xDFFF < low then failAt .loneSurrogate (more.drop 4)
        else pure (Char.ofNat ((high - 0xD800) * 0x400 + (low - 0xDC00) + 0x10000), 10)
      | .char '\\' :: more => .error ⟨.unfinishedSurrogates, more, 1⟩
      | _ => .error ⟨.unfinishedSurrogates, rest, 1⟩

/-- The character that a letter stands for behind a backslash. -/
def shortEscape? (c : Char) : Option Char :=
  if c == '"' || c == '\\' || c == '/' then some c
  else if c == 'b' then some '\x08'
  else if c == 'f' then some '\x0c'
  else if c == 'n' then some '\n'
  else if c == 'r' then some '\r'
  else if c == 't' then some '\t'
  else none

/-- The failure of an escape that is none: it is behind the first byte after the backslash. -/
def failEscape {α : Type} (input : Input) : Except Failure α := .error ⟨.invalidEscape, input, 1⟩

/-- The character of an escape, from behind the backslash on, and the number of pieces it takes
up. -/
def readEscape (input : Input) : Except Failure (Char × Nat) :=
  match input with
  | [] => failAt (.endWithin .text) []
  | .char 'u' :: rest => (readNumbered rest).map fun r => (r.1, r.2 + 1)
  | .char c :: _ =>
    match shortEscape? c with
    | some d => .ok (d, 1)
    | none => failEscape input
  | _ => failEscape input

/-- The number of pieces that an escape takes up in a string that nobody asks for. -/
def skipEscape (input : Input) : Except Failure Nat :=
  match input with
  | [] => failAt (.endWithin .text) []
  | .char 'u' :: rest => (readHex4 rest).map fun _ => 5
  | .char c :: _ => if (shortEscape? c).isSome then .ok 1 else failEscape input
  | _ => failEscape input

/-- Whether the piece is a control character, which a string holds only escaped. -/
def isControl : Text.Piece → Bool
  | .char c => c.toNat < 32
  | .malformed _ => false

/-- The pieces of a string from behind its opening quote to its closing one.  The first `skip`
pieces belong to an escape before them. -/
def readPieces : (skip : Nat) → Reader (List Text.Piece)
  | _, [] => failAt (.endWithin .text) []
  | skip + 1, _ :: rest => readPieces skip rest
  | 0, p :: rest =>
    if p == .char '"' then .ok ([], rest)
    else if p == .char '\\' then do
      let (c, len) ← readEscape rest
      let (ps, rest) ← readPieces len rest
      pure (.char c :: ps, rest)
    else if isControl p then failAt .controlCharacter rest
    else do
      let (ps, rest) ← readPieces 0 rest
      pure (p :: ps, rest)

/-- A string from behind its opening quote on. -/
def readText : Reader String := fun input => do
  let (ps, rest) ← readPieces 0 input
  match ps.mapM Text.Piece.char? with
  | some cs => pure (String.ofList cs, rest)
  | none => failAt .invalidCharacter rest

/-- The rest behind a string that nobody asks for, from behind its opening quote on. -/
def skipText : (skip : Nat) → Input → Except Failure Input
  | _, [] => failAt (.endWithin .text) []
  | skip + 1, _ :: rest => skipText skip rest
  | 0, p :: rest =>
    if p == .char '"' then .ok rest
    else if p == .char '\\' then do
      let len ← skipEscape rest
      skipText len rest
    else if isControl p then failAt .controlCharacter (p :: rest)
    else skipText 0 rest

/-! ## Numbers -/

/-- The value of a piece that is a decimal digit. -/
def digitValue? : Text.Piece → Option Nat
  | .char c => if c.isDigit then some (c.toNat - '0'.toNat) else none
  | .malformed _ => none

/-- The digits that the input starts with, and the rest behind them. -/
def takeDigits : Input → List Nat × Input
  | [] => ([], [])
  | p :: rest =>
    match digitValue? p with
    | some d =>
      let (ds, rest) := takeDigits rest
      (d :: ds, rest)
    | none => ([], p :: rest)

/-- The greatest natural number that a document holds exactly. -/
def greatestNatural : Nat := Nat.pow 2 64 - 1

/-- Digits appended to a number as long as it stays a natural number of a document: the number, and
how many digits are left over. -/
def appendDigits (n : Nat) : List Nat → Nat × Nat
  | [] => (n, 0)
  | d :: ds =>
    if greatestNatural < n * 10 + d then (n, ds.length + 1) else appendDigits (n * 10 + d) ds

/-- A power of ten, as a double. -/
def powerOfTen (exponent : Nat) : Float := Float.ofScientific 1 false exponent

/-- The double `x / 10 ^ exponent`.  The greatest power of ten among the doubles is divided by as
often as it takes, which leaves nothing of `x` after a few times. -/
def divideByPower : (fuel : Nat) → Float → (exponent : Nat) → Float
  | 0, x, _ => x
  | fuel + 1, x, exponent =>
    if exponent ≤ 308 then x / powerOfTen exponent
    else divideByPower fuel (x / powerOfTen 308) (exponent - 308)

/-- The double `significand · 10 ^ exponent`, computed in double arithmetic with one rounding for
the significand and one for the power, unless it is too large. -/
def assemble? (significand : Nat) (exponent : Int) : Option Float :=
  let x := significand.toUInt64.toFloat
  match exponent with
  | .ofNat e =>
    if e ≤ 308 then
      let y := x * powerOfTen e
      if y.isInf then none else some y
    else if x == 0 then some x
    else none
  | .negSucc e => some (divideByPower 5 x (e + 1))

/-- A double with its sign. -/
def withSign (negative : Bool) (x : Float) : Float := if negative then -x else x

/-- The number of a significand and an exponent, which must not be too large. -/
def finishReal (negative : Bool) (significand : Nat) (exponent : Int) : Reader Number :=
  fun rest =>
    match assemble? significand exponent with
    | some x => .ok (.real (withSign negative x), rest)
    | none => failAt .numberOutOfRange rest

/-- The greatest exponent that is added up; beyond it, only its sign matters. -/
def greatestExponent : Nat := Nat.pow 2 31 - 1

/-- The number that decimal digits write. -/
def digitsValue (ds : List Nat) : Nat := ds.foldl (fun n d => n * 10 + d) 0

/-- Whether the input starts with a minus sign, and the rest behind the sign it starts with, if it
starts with one. -/
def takeSign : Input → Bool × Input
  | .char '+' :: rest => (false, rest)
  | .char '-' :: rest => (true, rest)
  | input => (false, input)

/-- The exponent part of a number, from behind its `e` on. -/
def readExponent (negative : Bool) (significand : Nat) (start : Int) : Reader Number := fun input =>
  let (down, input) := takeSign input
  match input with
  | [] => failAt (.endWithin .value) []
  | p :: rest =>
    match takeDigits (p :: rest) with
    | ([], _) => failBehind .invalidNumber (p :: rest)
    | (ds, behind) =>
      let exponent := digitsValue ds
      if greatestExponent < exponent then
        if significand != 0 && !down then
          -- the fault is reported behind the digit with which the exponent grew too large
          let small := (List.range (ds.length + 1)).countP fun k =>
            digitsValue (ds.take k) ≤ greatestExponent
          failAt .numberOutOfRange ((p :: rest).drop small)
        else .ok (.real (withSign negative 0), behind)
      else
        finishReal negative significand (if down then start - exponent else start + exponent) behind

/-- The fraction part of a number, from behind its point on. -/
def readFraction (negative : Bool) (significand : Nat) (start : Int) : Reader Number := fun input =>
  let (ds, rest) := takeDigits input
  if ds.isEmpty then failBehind (if rest.isEmpty then .endWithin .value else .invalidNumber) rest
  else
    let (significand, left) := appendDigits significand ds
    let exponent := start - ((ds.length - left : Nat) : Int)
    match rest with
    | .char 'e' :: more => readExponent negative significand exponent more
    | .char 'E' :: more => readExponent negative significand exponent more
    | _ => finishReal negative significand exponent rest

/-- A whole number, as it is kept: exactly if it fits, and as a double otherwise.  Zero with a
minus sign is a double. -/
def wholeNumber (negative : Bool) (n : Nat) : Number :=
  if negative then
    if 0 < n && n ≤ Nat.pow 2 63 then .negative n else .real (-n.toUInt64.toFloat)
  else .natural n

/-- The number behind a minus sign, if `negative`, or from its first digit on. -/
def readNumber (negative : Bool) : Reader Number := fun input =>
  match input with
  | [] => failAt (.endWithin .value) []
  | p :: rest =>
    match takeDigits (p :: rest) with
    | ([], _) => failBehind .invalidNumber (p :: rest)
    | (0 :: _ :: _, _) => failBehind .invalidNumber rest
    | (ds, behind) =>
      let (significand, left) := appendDigits 0 ds
      match behind with
      | .char '.' :: more => readFraction negative significand left more
      | .char 'e' :: more => readExponent negative significand left more
      | .char 'E' :: more => readExponent negative significand left more
      | _ =>
        if left == 0 then .ok (wholeNumber negative significand, behind)
        else finishReal negative significand left behind

/-- The rest behind the exponent part of a number that nobody asks for. -/
def skipExponent (input : Input) : Except Failure Input :=
  let input := (takeSign input).2
  match takeDigits input with
  | ([], _) => failBehind .invalidNumber input
  | (_, behind) => .ok behind

/-- The rest behind a number that nobody asks for, from behind its sign on. -/
def skipNumber (input : Input) : Except Failure Input :=
  match takeDigits input with
  | ([], _) => failBehind .invalidNumber input
  | (0 :: _ :: _, _) => failBehind .invalidNumber input.tail
  | (_, .char '.' :: more) =>
    match takeDigits more with
    | ([], _) => failBehind .invalidNumber more
    | (_, .char 'e' :: rest) => skipExponent rest
    | (_, .char 'E' :: rest) => skipExponent rest
    | (_, behind) => .ok behind
  | (_, .char 'e' :: rest) => skipExponent rest
  | (_, .char 'E' :: rest) => skipExponent rest
  | (_, behind) => .ok behind

/-! ## Containers -/

/-- The colon between the name of a member and its value. -/
def readColon (input : Input) : Except Failure Input :=
  match skipSpace input with
  | [] => failBehind (.endWithin .object) []
  | .char ':' :: rest => .ok rest
  | rest => failBehind .expectedColon rest

/-- The start of the next item of a list, or `none` before the bracket that closes the list. -/
def nextItem (first : Bool) (input : Input) : Except Failure (Option Input) :=
  match skipSpace input with
  | [] => failBehind (.endWithin .list) []
  | .char ']' :: _ => .ok none
  | .char ',' :: rest =>
    if first then .ok (some (skipSpace input))
    else
      match skipSpace rest with
      | [] => failBehind (.endWithin .value) []
      | .char ']' :: more => failBehind .trailingComma (.char ']' :: more)
      | more => .ok (some more)
  | rest => if first then .ok (some rest) else failBehind .expectedItemOrEnd rest

/-- The next member of an object from behind the opening quote of its name on, or `none` before the
brace that closes the object. -/
def nextMember (first : Bool) (input : Input) : Except Failure (Option Input) :=
  match skipSpace input with
  | [] => failBehind (.endWithin .object) []
  | .char '\x7d' :: _ => .ok none
  | .char ',' :: rest =>
    if first then failBehind .memberWithoutName (skipSpace input)
    else
      match skipSpace rest with
      | [] => failBehind (.endWithin .value) []
      | .char '"' :: more => .ok (some more)
      | .char '\x7d' :: more => failBehind .trailingComma (.char '\x7d' :: more)
      | more => failBehind .memberWithoutName more
  | .char '"' :: rest =>
    if first then .ok (some rest) else failBehind .expectedMemberOrEnd (skipSpace input)
  | rest => failBehind (if first then .memberWithoutName else .expectedMemberOrEnd) rest

/-- The rest behind the bracket that closes a list after its last wanted item. -/
def closeList (input : Input) : Except Failure Input :=
  match skipSpace input with
  | [] => failBehind (.endWithin .list) []
  | .char ']' :: rest => .ok rest
  | .char ',' :: rest =>
    match skipSpace rest with
    | .char ']' :: more => failBehind .trailingComma (.char ']' :: more)
    | more => failBehind .trailingCharacters more
  | rest => failBehind .trailingCharacters rest

/-- The rest behind the brace that closes an object. -/
def closeObject (input : Input) : Except Failure Input :=
  match skipSpace input with
  | [] => failBehind (.endWithin .object) []
  | .char '\x7d' :: rest => .ok rest
  | .char ',' :: rest => failBehind .trailingComma (.char ',' :: rest)
  | rest => failBehind .expectedMemberOrEnd rest

/-- The place for a fault of the list as a whole: behind its end if that comes next. -/
def behindList (input : Input) : Input :=
  match skipSpace input with
  | .char ']' :: rest => rest
  | .char ',' :: rest => skipSpace rest
  | rest => rest

/-- The place for a fault of the object as a whole: behind its end if that comes next. -/
def behindObject (input : Input) : Input :=
  match skipSpace input with
  | .char '\x7d' :: rest => rest
  | rest => rest

/-- The items of a list, each read by the given reader, up to its closing bracket.  The fuel is more
than the number of items. -/
def readItems {α : Type} (item : Reader α) : (fuel : Nat) → (first : Bool) → Reader (List α)
  | 0, _, input => failAt (.endWithin .list) input
  | fuel + 1, first, input => do
    match ← nextItem first input with
    | none => pure ([], input)
    | some start =>
      let (v, rest) ← item start
      let (vs, rest) ← readItems item fuel false rest
      pure (v :: vs, rest)

/-- The members of an object, each read by the given reader, up to its closing brace.  The fuel is
more than the number of members. -/
def readMembers (value : Reader Value) :
    (fuel : Nat) → (first : Bool) → Reader (List (String × Value))
  | 0, _, input => failAt (.endWithin .object) input
  | fuel + 1, first, input => do
    match ← nextMember first input with
    | none => pure ([], input)
    | some start =>
      let (name, rest) ← readText start
      let rest ← readColon rest
      let (v, rest) ← value rest
      let (members, rest) ← readMembers value fuel false rest
      pure ((name, v) :: members, rest)

/-- How many containers may stand inside one another. -/
def greatestDepth : Nat := 127

/-- Any value, with so many containers allowed inside one another. -/
def readValue : (depth : Nat) → Reader Value
  | depth, input =>
    match skipSpace input with
    | [] => failBehind (.endWithin .value) []
    | .char 'n' :: rest => do
      let (_, rest) ← readWord ['u', 'l', 'l'] rest
      pure (.null, rest)
    | .char 't' :: rest => do
      let (_, rest) ← readWord ['r', 'u', 'e'] rest
      pure (.flag true, rest)
    | .char 'f' :: rest => do
      let (_, rest) ← readWord ['a', 'l', 's', 'e'] rest
      pure (.flag false, rest)
    | .char '"' :: rest => do
      let (s, rest) ← readText rest
      pure (.text s, rest)
    | .char '-' :: rest => do
      let (n, rest) ← readNumber true rest
      pure (.number n, rest)
    | .char '[' :: rest =>
      match depth with
      | 0 => failBehind .tooDeep (.char '[' :: rest)
      | depth + 1 => do
        let (items, rest) ← readItems (readValue depth) (rest.length + 1) true rest
        let rest ← closeList rest
        pure (.list items, rest)
    | .char '\x7b' :: rest =>
      match depth with
      | 0 => failBehind .tooDeep (.char '\x7b' :: rest)
      | depth + 1 => do
        let (members, rest) ← readMembers (readValue depth) (rest.length + 1) true rest
        let rest ← closeObject rest
        pure (.object members, rest)
    | p :: rest =>
      if (digitValue? p).isSome then do
        let (n, rest) ← readNumber false (p :: rest)
        pure (.number n, rest)
      else failBehind .expectedValue (p :: rest)

/-! ## Values that nobody asks for -/

/-- A container whose end has not been read. -/
inductive Open where
  | list
  | object
  deriving DecidableEq, Repr

/-- The name and the colon of a member that nobody asks for. -/
def skipName (input : Input) : Except Failure Input :=
  match skipSpace input with
  | [] => failBehind (.endWithin .object) []
  | .char '"' :: rest => do
    let rest ← skipText 0 rest
    readColon rest
  | rest => failBehind .memberWithoutName rest

/-- Behind a value or an opening bracket, with the open containers from the inside out: the start
of the next value to skip and the containers open around it, or `none` with the rest when all of
them are closed.  A comma may come next only behind a value. -/
def skipBetween : (fuel : Nat) → (behindValue : Bool) → List Open → Input →
    Except Failure (Option (List Open) × Input)
  | _, _, [], input => .ok (none, input)
  | 0, _, _ :: _, input => failAt (.endWithin .value) input
  | fuel + 1, behindValue, here :: around, input =>
    let closed (rest : Input) := skipBetween fuel true around rest
    let another (rest : Input) : Except Failure (Option (List Open) × Input) :=
      match here with
      | .list => .ok (some (here :: around), rest)
      | .object => (skipName rest).map fun r => (some (here :: around), r)
    match skipSpace input, here with
    | [], .list => failBehind (.endWithin .list) []
    | [], .object => failBehind (.endWithin .object) []
    | .char ',' :: rest, _ =>
      if behindValue then another rest else another (.char ',' :: rest)
    | .char ']' :: rest, .list => closed rest
    | .char '\x7d' :: rest, .object => closed rest
    | rest, .list => if behindValue then failBehind .expectedItemOrEnd rest else another rest
    | rest, .object => if behindValue then failBehind .expectedMemberOrEnd rest else another rest

/-- The rest behind a value that nobody asks for, with the open containers around it that belong to
it.  Its numbers may be too large, and it may be nested to any depth. -/
def skipValueIn : (fuel : Nat) → List Open → Input → Except Failure Input
  | 0, _, input => failAt (.endWithin .value) input
  | fuel + 1, around, input => do
    let opened (here : Open) (rest : Input) := skipBetween (rest.length + 2) false (here :: around) rest
    let behind (rest : Input) := skipBetween (rest.length + 2) true around rest
    let (next, rest) ←
      match skipSpace input with
      | [] => failBehind (.endWithin .value) []
      | .char 'n' :: rest => (readWord ['u', 'l', 'l'] rest).bind fun r => behind r.2
      | .char 't' :: rest => (readWord ['r', 'u', 'e'] rest).bind fun r => behind r.2
      | .char 'f' :: rest => (readWord ['a', 'l', 's', 'e'] rest).bind fun r => behind r.2
      | .char '"' :: rest => (skipText 0 rest).bind behind
      | .char '-' :: rest => (skipNumber rest).bind behind
      | .char '[' :: rest => opened .list rest
      | .char '\x7b' :: rest => opened .object rest
      | p :: rest =>
        if (digitValue? p).isSome then (skipNumber (p :: rest)).bind behind
        else failBehind .expectedValue (p :: rest)
    match next with
    | none => pure rest
    | some around => skipValueIn fuel around rest

/-- The rest behind a value that nobody asks for. -/
def skipValue (input : Input) : Except Failure Input := skipValueIn (input.length + 1) [] input

/-- What is left of a document behind its value must be space. -/
def readEnd (input : Input) : Except Failure Unit :=
  match skipSpace input with
  | [] => .ok ()
  | rest => failBehind .trailingCharacters rest

end CoverageEstimate.Json
