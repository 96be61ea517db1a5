/-
# Anchors, tags and directives of YAML

An anchor names a node, an alias repeats the node of a name, and a tag tells what a node is.  A tag
is given in full, or by a handle that a directive or the standard has given a beginning.
-/
import CoverageEstimate.Text.Bytes
import CoverageEstimate.Yaml.Scalar

namespace CoverageEstimate.Yaml

/-- Reads an anchor or an alias. -/
def readAnchor (isAlias : Bool) : Scan Unit := do
  saveKey
  allowKey false
  let start := (← get).mark
  advance 1
  let name ← takeWhile isNameChar
  let next ← peek?
  let isEnded := (← isBlankNext) || next.any fun c => "?:,]\x7d%@\x60".toList.contains c
  if name.isEmpty || !isEnded then
    fail .noAnchorName (some (if isAlias then .reference else .anchor, start))
  let name := String.ofList name
  enqueue ⟨if isAlias then .reference name else .anchor name, start, (← get).mark⟩

/-- Whether a character may stand in the text of a tag.  Some brackets may do so only in a tag that is
given in full. -/
def isUriChar (inFull : Bool) (c : Char) : Bool :=
  isNameChar c || ";/?:@&=+$.%!~*'()".toList.contains c || (inFull && ",[]".toList.contains c)

/-- Reads the escaped bytes of one character, the first of which tells how many there are. -/
def readEscapedOctets (context : Option (Context × Mark)) :
    (fuel : Nat) → (left : Nat) → List UInt8 → Scan (List UInt8)
  | 0, _, bytes => return bytes
  | fuel + 1, left, bytes => do
    match (← get).rest with
    | '%' :: a :: b :: _ =>
      match hexDigit? a, hexDigit? b with
      | some x, some y =>
        let octet := x * 16 + y
        let width :=
          if octet < 0x80 then 1 else if octet / 32 == 6 then 2 else if octet / 16 == 14 then 3
          else if octet / 8 == 30 then 4 else 0
        if bytes.isEmpty then
          if width == 0 then fail .badLeadingOctet context
        else if octet / 64 != 2 then fail .badTrailingOctet context
        advance 3
        let left := if bytes.isEmpty then width - 1 else left - 1
        let bytes := bytes ++ [UInt8.ofNat octet]
        if left == 0 then return bytes else readEscapedOctets context fuel left bytes
      | _, _ => fail .noEscapedOctet context
    | _ => fail .noEscapedOctet context

/-- Reads the text of a tag behind a part of it that has been read. -/
def readUriRest (inFull : Bool) (context : Option (Context × Mark)) :
    (fuel : Nat) → List Char → Scan (List Char)
  | 0, text => return text
  | fuel + 1, text => do
    match ← peek? with
    | some c =>
      if c == '%' then
        let bytes ← readEscapedOctets context 5 0 []
        readUriRest inFull context fuel (text ++ (Text.shownBytes bytes).toList)
      else if isUriChar inFull c then
        advance 1
        readUriRest inFull context fuel (text ++ [c])
      else return text
    | none => return text

/-- Reads the text of a tag whose first part is `head`, which may not be empty together with what
follows.  An exclamation mark in front of the first part is left out. -/
def readUri (inFull inDirective : Bool) (head : List Char) (start : Mark) : Scan String := do
  let context := some (if inDirective then Context.tagDirectiveUri else Context.tagUri, start)
  let text ← readUriRest inFull context ((← get).rest.length + 1) head.tail
  if head.isEmpty && text.isEmpty then fail .noTagUri context
  return String.ofList text

/-- Reads the handle of a tag. -/
def readHandle (inDirective : Bool) (start : Mark) : Scan (List Char) := do
  if !(← isNext '!') then
    fail .noExclamationMark (some (if inDirective then .tagDirective else .tag, start))
  advance 1
  let name ← takeWhile isNameChar
  if ← isNext '!' then
    advance 1
    return '!' :: name ++ ['!']
  else
    if inDirective && !name.isEmpty then
      fail .noExclamationMark (some (.tagDirectiveHandle, start))
    return '!' :: name

/-- Reads a tag. -/
def readTag : Scan Unit := do
  saveKey
  allowKey false
  let r ← get
  let start := r.mark
  let (handle, rest) ←
    if r.rest.drop 1 |>.head? |> (· == some '<') then do
      advance 2
      let uri ← readUri true false [] start
      if !(← isNext '>') then fail .noClosingAngle (some (.tag, start))
      advance 1
      pure ("", uri)
    else do
      let handle ← readHandle false start
      if handle.length ≥ 2 && handle.getLast? == some '!' then
        let uri ← readUri false false [] start
        pure (String.ofList handle, uri)
      else
        let uri ← readUri false false handle start
        pure (if uri == "" then ("", "!") else ("!", uri))
  let isEnded := (← isBlankNext) || (r.flowDepth != 0 && (← isNext ','))
  if !isEnded then fail .noBlankOrLineEnd (some (.tag, start))
  enqueue ⟨.tag handle rest, start, (← get).mark⟩

/-- Reads a number in a version. -/
def readVersionNumber (start : Mark) : Scan Nat := do
  let digits ← (return (← get).rest.takeWhile Char.isDigit)
  let context := some (Context.versionDirective, start)
  if 9 < digits.length then
    advance 9
    fail .longVersion context
  if digits.isEmpty then fail .noVersionNumber context
  advance digits.length
  return digits.foldl (fun n d => n * 10 + (d.toNat - '0'.toNat)) 0

/-- Reads a directive. -/
def readDirective : Scan Unit := do
  closeBlocks (-1)
  removeKey
  allowKey false
  let start := (← get).mark
  let context := some (Context.directive, start)
  advance 1
  let name ← takeWhile isNameChar
  if name.isEmpty then fail .noDirectiveName context
  if !(← isBlankNext) then fail .badDirectiveName context
  let kind ←
    if name == "YAML".toList then do
      let _ ← takeWhile isGap
      let major ← readVersionNumber start
      if !(← isNext '.') then fail .noVersionPoint (some (.versionDirective, start))
      advance 1
      pure (TokenKind.versionDirective major (← readVersionNumber start))
    else if name == "TAG".toList then do
      let context := some (Context.tagDirective, start)
      let _ ← takeWhile isGap
      let handle ← readHandle true start
      if !(((← peek?).map isGap).getD false) then fail .noBlank context
      let _ ← takeWhile isGap
      let beginning ← readUri true true [] start
      if !(← isBlankNext) then fail .noBlankOrLineEnd context
      pure (TokenKind.tagDirective (String.ofList handle) beginning)
    else fail .unknownDirective context
  let stop := (← get).mark
  enqueue ⟨kind, start, stop⟩
  skipComment
  if !(← isLineEndNext) then fail .noLineEnd context
  let _ ← takeBreak

end CoverageEstimate.Yaml
