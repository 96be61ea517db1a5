/-
# Styled text

A text for a terminal is made of spans, some of which have a style.  Where styles are shown, a span
is put between the sequence that turns its style on and the one that turns all styles off; where
they are not, the text is all there is.
-/
namespace CoverageEstimate.Text

/-- A colour of the terminal. -/
inductive Colour where
  | red
  | green
  | yellow
  | blue
  | cyan
  deriving DecidableEq, Repr, Inhabited

/-- The code that turns a colour on. -/
def Colour.code : Colour → String
  | red => "31"
  | green => "32"
  | yellow => "33"
  | blue => "34"
  | cyan => "36"

/-- A style: an emphasis, a colour or both. -/
inductive Style where
  | bold
  | dimmed
  | coloured (c : Colour)
  | boldColoured (c : Colour)
  deriving DecidableEq, Repr, Inhabited

namespace Style

/-- The sequence that turns a style on. -/
def onSequence (s : Style) : String :=
  let codes := match s with
    | bold => "1"
    | dimmed => "2"
    | coloured c => c.code
    | boldColoured c => "1;" ++ c.code
  "\x1b[" ++ codes ++ "m"

/-- The sequence that turns all styles off. -/
def offSequence : String := "\x1b[0m"

end Style

/-- A piece of text, which may have a style. -/
structure Span where
  style : Option Style
  text : String
  deriving DecidableEq, Repr, Inhabited

namespace Span

/-- A piece of text without a style. -/
def plain (text : String) : Span := ⟨none, text⟩

/-- A piece of text with a style. -/
def styled (style : Style) (text : String) : Span := ⟨some style, text⟩

/-- The text of a span.  A sequence in it that turns all styles off is followed by the one that turns
the style of the span on again. -/
def render (showsStyles : Bool) (s : Span) : String :=
  match s.style, showsStyles with
  | some style, true =>
    style.onSequence ++
      s.text.replace Style.offSequence (Style.offSequence ++ style.onSequence) ++
      Style.offSequence
  | _, _ => s.text

end Span

/-- The text of some spans. -/
def renderSpans (showsStyles : Bool) (spans : List Span) : String :=
  String.join (spans.map (Span.render showsStyles))

/-- A text with spaces behind it, up to a width. -/
def padRight (width : Nat) (text : String) : String :=
  text ++ String.ofList (List.replicate (width - text.length) ' ')

/-- A text with spaces before it, up to a width. -/
def padLeft (width : Nat) (text : String) : String :=
  String.ofList (List.replicate (width - text.length) ' ') ++ text

end CoverageEstimate.Text
