/-
# The analyzers of the supported languages

TypeScript files are parsed here.  Dart files are read line by line, or handed to an external
parser where there is one.
-/
import CoverageEstimate.Dart.Functions
import CoverageEstimate.Dart.Signals
import CoverageEstimate.ExternalParser.Run
import CoverageEstimate.TypeScript.Functions
import CoverageEstimate.TypeScript.Grammar
import CoverageEstimate.TypeScript.Signals

namespace CoverageEstimate.Analyzer

/-- The analyzer that reads Dart files line by line. -/
def dartLines (readText : String → Except FileError String) : Analyzer where
  language := .dart
  functions content path :=
    (sourceText readText content path).map fun text => Dart.functions text.toList
  signals content path :=
    (sourceText readText content path).map fun text => Dart.signals text.toList

/-- The analyzer that hands Dart files to an external parser, which reads them itself. -/
def dartParser (parse : String → Except AnalysisError ParserOutput) : Analyzer where
  language := .dart
  functions _ path := (parse path).map ParserOutput.validFunctions
  signals _ path := (parse path).map ParserOutput.signals

/-- Whether a path has the extension of files with markup in expressions, in any letter case. -/
def hasMarkup (path : String) : Bool :=
  (Path.extension? path).any fun extension => Language.lowered extension == "tsx".toList

/-- The analyzer of TypeScript files.  `parse` finds the parse tree of a source, with or without
markup. -/
def typeScript (parse : Bool → TypeScript.Source → TypeScript.Node)
    (readText : String → Except FileError String) : Analyzer where
  language := .typeScript
  functions content path :=
    (sourceText readText content path).map fun text =>
      let source := text.toList.toArray
      TypeScript.functions source (parse (hasMarkup path) source)
  signals content path :=
    (sourceText readText content path).map fun text =>
      let source := text.toList.toArray
      TypeScript.signals source (parse (hasMarkup path) source)

/-- The analyzers of the supported languages.  `answers` is what an external parser for Dart answers
on a path, if there is one. -/
def builtIn (readText : String → Except FileError String)
    (parse : Bool → TypeScript.Source → TypeScript.Node)
    (answers : Option (String → Except AnalysisError ParserOutput)) : List Analyzer :=
  let dart := match answers with
    | some answer => dartParser answer
    | none => dartLines readText
  [dart, typeScript parse readText]

/-- The analyzers for the files of a file system, with an external parser for Dart if one is
given. -/
def all (files : FileSystem) (isCancelled : Bool) (parser : Option ExternalParser) :
    List Analyzer :=
  builtIn files.readText TypeScript.parse (parser.map fun p => p.parseFile files isCancelled)

end CoverageEstimate.Analyzer
