/-
# Reading configurations

A configuration is a YAML document.  What it does not mention is left out, as is what it says to be
nothing; what is not known does not count.
-/
import CoverageEstimate.Config.Basic
import CoverageEstimate.Text.Blank
import CoverageEstimate.Yaml.Value

namespace CoverageEstimate

open Yaml (Value)

namespace Config

/-- Why a value is no configuration. -/
inductive Misfit where
  /-- Something else is asked for than a value of this type. -/
  | wrongType (found : Value) (expected : String)
  /-- Something else is asked for than this integer. -/
  | wrongInteger (found : Int) (expected : String)
  /-- A field is given twice. -/
  | repeatedField (name : String)
  deriving Inhabited

/-- How a message describes a value. -/
def describe : Value → String
  | .null => "unit value"
  | .flag b => "boolean `" ++ (if b then "true" else "false") ++ "`"
  | .integer n => "integer `" ++ toString n ++ "`"
  | .real x =>
    let text := Decimal.plainText x
    let text := if x.isFinite && !text.toList.contains '.' then text ++ ".0" else text
    "floating point `" ++ text ++ "`"
  | .text s => "string " ++ Text.quoted s
  | .sequence _ => "sequence"
  | .mapping _ => "map"
  | .tagged _ v => describe v

/-- The message for a value that is no configuration. -/
def Misfit.message : Misfit → String
  | wrongType found expected => "invalid type: " ++ describe found ++ ", expected " ++ expected
  | wrongInteger found expected =>
    "invalid value: integer `" ++ toString found ++ "`, expected " ++ expected
  | repeatedField name => "duplicate field `" ++ name ++ "`"

/-- The text that a value is. -/
def textOfValue (expected : String) (v : Value) : Except Misfit String :=
  match v.untagged with
  | .text s => .ok s
  | other => .error (.wrongType other expected)

/-- The items of a list, each read in the same way.  Nothing counts for an empty list. -/
def itemsOfValue (read : Value → Except Misfit α) (v : Value) : Except Misfit (List α) :=
  match v.untagged with
  | .sequence items => items.mapM read
  | .null => .ok []
  | other => .error (.wrongType other "a sequence")

/-- The natural number that a value is. -/
def naturalOfValue (expected : String) (v : Value) : Except Misfit Nat :=
  match v.untagged with
  | .integer n => if n < 0 then .error (.wrongInteger n expected) else .ok n.toNat
  | other => .error (.wrongType other expected)

/-- The number that a value is. -/
def realOfValue (v : Value) : Except Misfit Float :=
  match v.untagged with
  | .integer n => .ok (Float.ofInt n)
  | .real x => .ok x
  | other => .error (.wrongType other "f64")

/-- A value that may be nothing. -/
def optionOfValue (read : Value → Except Misfit α) : Value → Except Misfit (Option α)
  | .null => .ok none
  | v => (read v).map some

/-- Reads the members of a map into a record, one field after the other.  `fields` are the names of the
fields; other names do not count. -/
def readFields (fields : List String) (read : String → Value → α → Except Misfit α) :
    (seen : List String) → List (Value × Value) → α → Except Misfit α
  | _, [], record => .ok record
  | seen, (key, v) :: rest, record =>
    match key.untagged with
    | .text name =>
      if !fields.contains name then readFields fields read seen rest record
      else if seen.contains name then .error (.repeatedField name)
      else
        match read name v record with
        | .error e => .error e
        | .ok changed => readFields fields read (name :: seen) rest changed
    | other => .error (.wrongType other "field identifier")

/-- Reads a record from a map.  Nothing counts for an empty map. -/
def recordOfValue (name : String) (fields : List String)
    (read : String → Value → α → Except Misfit α) (empty : α) (v : Value) : Except Misfit α :=
  match v.untagged with
  | .mapping members => readFields fields read [] members empty
  | .null => .ok empty
  | other => .error (.wrongType other ("struct " ++ name))

/-- The part about Dart files that a value is. -/
def dartOfValue (v : Value) : Except Misfit DartConfig :=
  recordOfValue "DartConfig" ["parser", "args", "timeout_secs"]
    (fun name v c =>
      match name with
      | "parser" =>
        (optionOfValue (textOfValue "path string") v).map fun parser => { c with parser }
      | "args" =>
        (itemsOfValue (textOfValue "a string") v).map fun arguments => { c with arguments }
      | _ =>
        (optionOfValue (naturalOfValue "u64") v).map fun timeoutSeconds =>
          { c with timeoutSeconds })
    empty.dart v

/-- The configuration that a value is. -/
def ofValue (v : Value) : Except Misfit Config :=
  recordOfValue "Config" ["excluded_paths", "dart", "jobs", "min_coverage"]
    (fun name v c =>
      match name with
      | "excluded_paths" =>
        (itemsOfValue (textOfValue "a string") v).map fun excludedPaths =>
          { c with excludedPaths }
      | "dart" => (dartOfValue v).map fun dart => { c with dart }
      | "jobs" => (optionOfValue (naturalOfValue "usize") v).map fun jobs => { c with jobs }
      | _ =>
        (optionOfValue realOfValue v).map fun minimumCoverage => { c with minimumCoverage })
    empty v

/-- Why a text is no configuration. -/
inductive TextFault where
  /-- It is no YAML document. -/
  | noDocument (fault : Yaml.DocumentFault)
  /-- The document is no configuration. -/
  | misfit (m : Misfit)

/-- The message for a text that is no configuration. -/
def TextFault.message : TextFault → String
  | noDocument fault => fault.message
  | misfit m => m.message

/-- The configuration that a text is.  A text without content leaves everything out. -/
def ofText (text : String) : Except TextFault Config :=
  if (Text.trim text.toList).isEmpty then .ok empty
  else
    match Value.ofText text with
    | .error fault => .error (.noDocument fault)
    | .ok v => (ofValue v).mapError .misfit

/-! ## Files -/

/-- The names of the files that a project may have its configuration in, in the order in which they
are looked for. -/
def fileNames : List String := ["sentinel.yaml", ".sentinel.yaml"]

/-- Why a file gives no configuration. -/
inductive LoadFault where
  /-- It cannot be read. -/
  | unreadable (path : String) (error : FileError)
  /-- Its text is no configuration. -/
  | malformed (path : String) (fault : TextFault)

/-- The message for a file that gives no configuration. -/
def LoadFault.message : LoadFault → String
  | unreadable path error => "reading config " ++ path ++ ": " ++ error.message
  | malformed path fault => "parsing config " ++ path ++ ": " ++ fault.message

/-- The configuration in the file at a path. -/
def ofFile (files : FileSystem) (path : String) : Except LoadFault Config :=
  match files.readText path with
  | .error e => .error (.unreadable path e)
  | .ok text => (ofText text).mapError (.malformed path)

/-- The path of the configuration of a project: the first file there is among those of the project and
the one of the user. -/
def discover? (files : FileSystem) (user : Option String) (root : String) : Option String :=
  (fileNames.map (Path.join root) ++ user.toList).find? files.isFile

/-- The configuration of a project, with the path of its file: of the file that is given, or else of
the one that is found, or else the one that leaves everything out. -/
def load (files : FileSystem) (user explicit : Option String) (root : String) :
    Except LoadFault (Config × Option String) :=
  match explicit.or (discover? files user root) with
  | some path => (ofFile files path).map fun c => (c, some path)
  | none => .ok (empty, none)

end Config

end CoverageEstimate
