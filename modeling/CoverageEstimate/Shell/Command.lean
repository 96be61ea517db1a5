/-
# Shell commands

A parser program is often a short script for the command shell.  These are the commands of such
scripts: simple ones made of words, and those that join, repeat or choose among others.
-/
import CoverageEstimate.Shell.Arithmetic

namespace CoverageEstimate.Shell

/-- What is done to the value of a parameter before it is put into a word. -/
inductive Adjustment where
  /-- Nothing. -/
  | keep
  /-- A piece that matches a pattern is cut off the front, the longest or the shortest one. -/
  | cutFront (longest : Bool) (pattern : List Char)
  /-- A piece that matches a pattern is cut off the back, the longest or the shortest one. -/
  | cutBack (longest : Bool) (pattern : List Char)
  /-- An empty value is replaced by a text. -/
  | orElse (text : List Char)
  deriving DecidableEq, Repr, Inhabited

/-- A part of a word.  Parts in quotes are taken as they are; others may be split and may be
patterns. -/
inductive WordPart where
  /-- A character. -/
  | char (c : Char) (isQuoted : Bool)
  /-- A pair of quotes with nothing between them. -/
  | emptyQuotes
  /-- The value of a parameter. -/
  | parameter (name : String) (adjustment : Adjustment) (isQuoted : Bool)
  /-- What a script writes to its standard output. -/
  | outputOf (script : List Char) (isQuoted : Bool)
  /-- The number of an expression. -/
  | number (expression : Arithmetic)
  deriving DecidableEq, Repr, Inhabited

/-- A word of a command. -/
abbrev Word := List WordPart

/-- A change to the streams of a command. -/
inductive Redirection where
  /-- An output stream goes where another one goes. -/
  | toStream (stream target : Nat)
  /-- An output stream goes to a file. -/
  | toFile (stream : Nat) (file : Word)
  /-- The input comes from a file. -/
  | fromFile (file : Word)
  deriving DecidableEq, Repr, Inhabited

/-- A command. -/
inductive Command where
  /-- No command. -/
  | nothing
  /-- Assignments to variables, then the words of a program and its arguments. -/
  | simple (assignments : List (String × Word)) (words : List Word)
      (redirections : List Redirection)
  /-- The first command, then the second one. -/
  | sequence (first second : Command)
  /-- The second command if the first one succeeds. -/
  | ifSuccess (first second : Command)
  /-- The second command if the first one fails. -/
  | ifFailure (first second : Command)
  /-- The command, with success and failure exchanged. -/
  | negation (body : Command)
  /-- The second command with the output of the first one as its input. -/
  | pipe (first second : Command)
  /-- The command while the script goes on. -/
  | background (body : Command)
  /-- The command with changed streams, in a shell of its own if `isolated`. -/
  | group (isolated : Bool) (body : Command) (redirections : List Redirection)
  /-- One of two commands, as the condition succeeds or fails. -/
  | choice (condition yes no : Command)
  /-- The command again and again as long as the condition succeeds, or fails if `until`. -/
  | repetition (untilSuccess : Bool) (condition body : Command)
  /-- The command for each word. -/
  | forEach (name : String) (words : List Word) (body : Command)
  /-- The command of the first case that has a pattern for the word. -/
  | select (word : Word) (cases : List (List Word × Command))
  deriving Inhabited

end CoverageEstimate.Shell
