/-
# Running shell commands

A run has a state: what has been written so far, the time that has passed, variables and the
status of the last command.  Only sleeping takes time.  A run stops at its deadline; if the command
has not ended by then it is still running, and so is one that has used up its fuel.
-/
import CoverageEstimate.Shell.Pattern
import CoverageEstimate.Shell.Filters
import CoverageEstimate.Shell.Reader

namespace CoverageEstimate.Shell

/-- Where the output of a command goes. -/
inductive Sink where
  | output
  | errors
  | nowhere
  deriving DecidableEq, Repr, Inhabited

/-- What does not change while a command runs. -/
structure Setting where
  /-- The files it sees. -/
  files : FileSystem
  /-- The name that the script was started with. -/
  scriptName : String
  /-- The time at which the run stops, in milliseconds. -/
  deadline : Nat
  /-- Where its standard output goes. -/
  output : Sink
  /-- Where its standard error goes. -/
  errors : Sink
  /-- Its standard input. -/
  input : List UInt8
  /-- Whether the shell does not wait for it. -/
  isBackground : Bool

/-- The state of a run. -/
structure State where
  /-- The bytes written to standard output, the last one first. -/
  output : List UInt8
  /-- The bytes written to standard error, the last one first. -/
  errors : List UInt8
  /-- The time that has passed, in milliseconds. -/
  time : Nat
  /-- The time at which the last command in the background ends. -/
  backgroundEnd : Nat
  assigned : List (String × String)
  /-- The words behind the name of the script. -/
  parameters : List String
  /-- The status of the last command. -/
  status : Nat
  deriving Inhabited

/-- How a command leaves the run. -/
inductive Flow where
  /-- The next command follows. -/
  | next
  /-- The script exits. -/
  | exit (status : Nat)
  /-- The script is killed by a signal. -/
  | killed (signal : Nat)
  /-- The command has not ended when the run stops. -/
  | running
  /-- The command writes as long as its output is read. -/
  | writing
  deriving DecidableEq, Repr, Inhabited

namespace State

/-- The state after writing to a sink. -/
def write (s : State) (sink : Sink) (bytes : List UInt8) : State :=
  match sink with
  | .output => { s with output := bytes.reverse ++ s.output }
  | .errors => { s with errors := bytes.reverse ++ s.errors }
  | .nowhere => s

/-- The state with a status. -/
def withStatus (s : State) (status : Nat) : State := { s with status }

/-- The state with a variable set. -/
def assign (s : State) (name value : String) : State :=
  { s with assigned := (name, value) :: s.assigned.filter fun v => v.1 != name }

end State

/-- The number that a script sees as the one of its process. -/
def processNumber : String := "4242"

/-- The value of a parameter or variable. -/
def valueOf (setting : Setting) (s : State) (name : String) : String :=
  match name with
  | "#" => toString s.parameters.length
  | "?" => toString s.status
  | "$" => processNumber
  | "!" => processNumber ++ "1"
  | "0" => setting.scriptName
  | "PWD" => setting.files.workingDirectory
  | _ =>
    match name.toNat? with
    | some n => s.parameters.getD (n - 1) ""
    | none => ((s.assigned.find? fun v => v.1 == name).map (·.2)).getD ""

/-- The value after its adjustment. -/
def adjusted (value : List Char) : Adjustment → List Char
  | .keep => value
  | .cutFront longest pattern => withoutFront longest pattern value
  | .cutBack longest pattern => withoutBack longest pattern value
  | .orElse text => if value.isEmpty then text else value

/-- What a word has expanded to: finished words, and the one that is being put together. -/
structure Expansion where
  finished : List (List MarkedChar)
  current : Option (List MarkedChar)
  deriving Inhabited

namespace Expansion

/-- The expansion with some characters added to the current word. -/
def add (e : Expansion) (cs : List MarkedChar) : Expansion :=
  { e with current := some (e.current.getD [] ++ cs) }

/-- The expansion with the current word finished, if there is one. -/
def close (e : Expansion) : Expansion :=
  match e.current with
  | some w => ⟨e.finished ++ [w], none⟩
  | none => e

/-- The expansion with an unquoted text added, which blanks split into words. -/
def addSplit (e : Expansion) (text : List Char) : Expansion :=
  text.foldl (fun e c => if " \t\n".toList.contains c then e.close else e.add [(c, false)]) e

/-- The expansion with several texts added, each of which starts a new word. -/
def addSeparate (e : Expansion) : List String → Expansion
  | [] => e
  | [p] => e.add (p.toList.map fun c => (c, true))
  | p :: rest => addSeparate (e.add (p.toList.map fun c => (c, true))).close rest

end Expansion

/-- Adds the parts of a word to an expansion.  `outputOf` runs the scripts in it. -/
def expandParts (setting : Setting) (outputOf : List Char → State → List UInt8 × State) :
    Word → Expansion → State → Expansion × State
  | [], e, s => (e, s)
  | .char c isQuoted :: rest, e, s => expandParts setting outputOf rest (e.add [(c, isQuoted)]) s
  | .emptyQuotes :: rest, e, s => expandParts setting outputOf rest (e.add []) s
  | .parameter name adjustment isQuoted :: rest, e, s =>
    let e :=
      if name = "@" && isQuoted then e.addSeparate s.parameters
      else
        let value := if name = "@" || name = "*" then " ".intercalate s.parameters
          else valueOf setting s name
        let text := adjusted value.toList adjustment
        if isQuoted then e.add (text.map fun c => (c, true)) else e.addSplit text
    expandParts setting outputOf rest e s
  | .outputOf script isQuoted :: rest, e, s =>
    let (bytes, s) := outputOf script s
    let text := (Text.shownBytes bytes).toList
    let text := (text.reverse.dropWhile (· == '\n')).reverse
    let e := if isQuoted then e.add (text.map fun c => (c, true)) else e.addSplit text
    expandParts setting outputOf rest e s
  | .number expression :: rest, e, s =>
    let n := expression.value (valueOf setting s)
    expandParts setting outputOf rest (e.add ((toString n).toList.map fun c => (c, true))) s

/-- The words that some words expand to. -/
def expandWords (setting : Setting) (outputOf : List Char → State → List UInt8 × State) :
    List Word → State → List (List MarkedChar) × State
  | [], s => ([], s)
  | w :: rest, s =>
    let (e, s) := expandParts setting outputOf w ⟨[], none⟩ s
    let (others, s) := expandWords setting outputOf rest s
    (e.close.finished ++ others, s)

/-- The text of an expanded word. -/
def textOfMarked (w : List MarkedChar) : String := String.ofList (w.map (·.1))

/-- The one text that a word expands to. -/
def expandText (setting : Setting) (outputOf : List Char → State → List UInt8 × State) (w : Word)
    (s : State) : List MarkedChar × State :=
  let (e, s) := expandParts setting outputOf w ⟨[], none⟩ s
  ([(' ', true)].intercalate e.close.finished, s)

/-- The sink of an output stream. -/
def Setting.sink (setting : Setting) : Nat → Sink
  | 1 => setting.output
  | 2 => setting.errors
  | _ => .nowhere

/-- The setting with the sink of an output stream changed. -/
def Setting.withSink (setting : Setting) (stream : Nat) (sink : Sink) : Setting :=
  match stream with
  | 1 => { setting with output := sink }
  | 2 => { setting with errors := sink }
  | _ => setting

/-- A line of a message of the shell. -/
def complaint (setting : Setting) (text : String) : List UInt8 :=
  Text.bytesOf (setting.scriptName ++ ": 1: " ++ text ++ "\n")

/-- The setting after some redirections, or the state in which one of them has failed. -/
def redirectAll (setting : Setting) (outputOf : List Char → State → List UInt8 × State) :
    List Redirection → State → Except State (Setting × State)
  | [], s => .ok (setting, s)
  | .toStream stream target :: rest, s =>
    redirectAll (setting.withSink stream (setting.sink target)) outputOf rest s
  | .toFile stream file :: rest, s =>
    let (name, s) := expandText setting outputOf file s
    let sink := match textOfMarked name with
      | "/dev/stdout" => setting.output
      | "/dev/stderr" => setting.errors
      | _ => .nowhere
    redirectAll (setting.withSink stream sink) outputOf rest s
  | .fromFile file :: rest, s =>
    let (name, s) := expandText setting outputOf file s
    match setting.files.readBytes (textOfMarked name) with
    | .ok bytes => redirectAll { setting with input := bytes } outputOf rest s
    | .error _ =>
      if textOfMarked name = "/dev/null" then
        redirectAll { setting with input := [] } outputOf rest s
      else
        let text := "cannot open " ++ textOfMarked name ++ ": No such file"
        .error ((s.write setting.errors (complaint setting text)).withStatus 2)

/-- The signals that a script can send, with their numbers. -/
def signals : List (String × Nat) :=
  [("HUP", 1), ("INT", 2), ("QUIT", 3), ("ILL", 4), ("TRAP", 5), ("ABRT", 6), ("BUS", 7),
    ("FPE", 8), ("KILL", 9), ("USR1", 10), ("SEGV", 11), ("USR2", 12), ("PIPE", 13), ("ALRM", 14),
    ("TERM", 15), ("STKFLT", 16), ("CHLD", 17), ("CONT", 18), ("STOP", 19), ("TSTP", 20),
    ("TTIN", 21), ("TTOU", 22), ("URG", 23), ("XCPU", 24), ("XFSZ", 25), ("VTALRM", 26),
    ("PROF", 27), ("WINCH", 28), ("IO", 29), ("PWR", 30), ("SYS", 31)]

/-- The signals that end no process. -/
def harmlessSignals : List Nat := [0, 17, 18, 23, 28]

/-- The signals that stop a process without ending it. -/
def stoppingSignals : List Nat := [19, 20, 21, 22]

/-- The number of the signal that a word names, with or without the common beginning of names. -/
def signalNumber? (word : String) : Option Nat :=
  match word.toNat? with
  | some n => some n
  | none =>
    (signals.find? fun s => s.1 == word || "SIG" ++ s.1 == word).map (·.2)

/-- The signal that some words send, and to which processes. -/
def killTarget : List String → Option (Nat × List String)
  | "-s" :: name :: targets => (signalNumber? name).map fun n => (n, targets)
  | word :: targets =>
    match word.toList with
    | '-' :: name => (signalNumber? (String.ofList name)).map fun n => (n, targets)
    | _ => some (15, word :: targets)
  | [] => none

/-- The milliseconds that a word of seconds stands for, if it is one. -/
def milliseconds? (word : String) : Option Nat :=
  match word.toList.splitOn '.' with
  | [whole] => (String.ofList whole).toNat?.map (· * 1000)
  | [whole, part] =>
    let digits := (part ++ ['0', '0', '0']).take 3
    match (if whole.isEmpty then some 0 else (String.ofList whole).toNat?),
        (String.ofList digits).toNat? with
    | some s, some ms => some (s * 1000 + ms)
    | _, _ => none
  | _ => none

/-- The bytes of some files one after the other, or of the input if there are none, and the
complaints about those that cannot be read. -/
def filesRead (setting : Setting) (program : String) : List String → List UInt8 × List UInt8
  | [] => (setting.input, [])
  | names =>
    let results := names.map fun n =>
      if n = "-" then (setting.input, [])
      else
        match setting.files.readBytes n with
        | .ok bytes => (bytes, [])
        | .error e =>
          let reason := String.ofList (e.message.toList.takeWhile (· != '('))
          let reason := String.ofList (Text.trimEnd reason.toList)
          ([], Text.bytesOf (program ++ ": " ++ n ++ ": " ++ reason ++ "\n"))
    (results.flatMap (·.1), results.flatMap (·.2))

/-- The name of a program without the directories that programs are usually in. -/
def baseProgram (program : String) : String :=
  match program.toList.splitOn '/' with
  | [[], ['b', 'i', 'n'], name] => String.ofList name
  | [[], ['u', 's', 'r'], ['b', 'i', 'n'], name] => String.ofList name
  | _ => program

/-- The programs that can be started by themselves. -/
def startable : List String :=
  ["sh", "dash", "echo", "printf", "true", "false", "test", "[", "cat", "sleep", "pwd", "kill",
    "basename", "dirname", "head", "seq", "tr", "wc", "grep", "yes"]

/-- The programs that only a shell knows. -/
def shellOnly : List String :=
  [":", "exit", "wait", "shift", "set", "export", "unset", "trap"]

/-- How many bytes a program that writes without end writes before its reader goes away. -/
def endlessOutput : Nat := 1048576

/-- The command of a program that is part of the shell or usually found beside it.  `isBuiltin`
tells whether a shell runs it. -/
def runProgram (setting : Setting) (isBuiltin : Bool) (program : String) (words : List String)
    (s : State) : Flow × State :=
  let done (status : Nat) (s : State) : Flow × State := (.next, s.withStatus status)
  let say (bytes : List UInt8) (s : State) : State := s.write setting.output bytes
  let sayLine (text : String) : Flow × State := done 0 (say (Text.bytesOf (text ++ "\n")) s)
  match program with
  | ":" => done 0 s
  | "true" => done 0 s
  | "false" => done 1 s
  | "echo" => done 0 (say (echoOutput isBuiltin words) s)
  | "printf" =>
    match words with
    | format :: rest => done 0 (say (formatOutput format (rest.length + 1) rest) s)
    | [] =>
      done 2 (s.write setting.errors (complaint setting "printf: usage: printf format [arg ...]"))
  | "pwd" => sayLine setting.files.workingDirectory
  | "test" => done (if (answer? setting.files words).getD false then 0 else 1) s
  | "[" => done (if (answer? setting.files words.dropLast).getD false then 0 else 1) s
  | "cat" =>
    let (bytes, errors) := filesRead setting "cat" words
    done (if errors.isEmpty then 0 else 1) ((say bytes s).write setting.errors errors)
  | "head" =>
    let (option, names) := match words with
      | "-c" :: n :: rest => (some (true, n.toNat?.getD 0), rest)
      | "-n" :: n :: rest => (some (false, n.toNat?.getD 0), rest)
      | rest => (none, rest)
    let (bytes, errors) := filesRead setting "head" names
    let part := match option with
      | some (true, n) =>
        if names = ["/dev/zero"] then List.replicate n 0 else bytes.take n
      | some (false, n) => ((byteLines bytes).take n).flatten
      | none => ((byteLines bytes).take 10).flatten
    let errors := if names = ["/dev/zero"] then [] else errors
    done (if errors.isEmpty then 0 else 1) ((say part s).write setting.errors errors)
  | "yes" =>
    let line := Text.bytesOf ((if words.isEmpty then "y" else " ".intercalate words) ++ "\n")
    let lines := List.replicate (endlessOutput / line.length) line
    (.writing, say lines.flatten s)
  | "tr" =>
    match words with
    | ["-d", set] => done 0 (say (deleteBytes set setting.input) s)
    | [source, target] => done 0 (say (replaceBytes source target setting.input) s)
    | _ => done 1 s
  | "wc" =>
    match words with
    | option :: names =>
      let (bytes, errors) := filesRead setting "wc" names
      let count := if option = "-l" then bytes.count 10 else bytes.length
      let text := " ".intercalate (toString count :: names) ++ "\n"
      let s := if errors.isEmpty then say (Text.bytesOf text) s else s
      done (if errors.isEmpty then 0 else 1) (s.write setting.errors errors)
    | [] => done 1 s
  | "grep" =>
    let options := (words.takeWhile fun w => "-".isPrefixOf w && w != "-").flatMap String.toList
    match words.dropWhile fun w => "-".isPrefixOf w && w != "-" with
    | text :: names =>
      let (bytes, errors) := filesRead setting "grep" names
      let lines := selectLines (options.contains 'v') text bytes
      let s := if options.contains 'q' then s
        else if options.contains 'c' then
          say (Text.bytesOf (toString lines.length ++ "\n")) s
        else say (lines.flatMap fun l => if l.getLast? = some 10 then l else l ++ [10]) s
      let status := if !errors.isEmpty then 2 else if lines.isEmpty then 1 else 0
      done status (s.write setting.errors errors)
    | [] => done 2 s
  | "seq" =>
    let numbers := match words.map String.toNat? with
      | [some last] => (List.range last).map (· + 1)
      | [some first, some last] => (List.range (last + 1 - first)).map (· + first)
      | _ => []
    done 0 (say (numbers.flatMap fun n => Text.bytesOf (toString n ++ "\n")) s)
  | "basename" =>
    match words with
    | path :: rest =>
      let name := (Path.fileName? path).getD path
      let ending := rest.headD ""
      sayLine (if ending.toList.isSuffixOf name.toList && ending != name then
        String.ofList (name.toList.take (name.length - ending.length)) else name)
    | [] => done 1 s
  | "dirname" =>
    let parent := (words.head?.bind Path.parent?).getD "/"
    sayLine (if parent = "" then "." else parent)
  | "sleep" =>
    let duration := words.foldl (fun total w => total + (milliseconds? w).getD 0) 0
    let last := s.time + duration
    if setting.isBackground then (.running, { s with backgroundEnd := max s.backgroundEnd last })
    else if setting.deadline < last then (.running, { s with time := setting.deadline })
    else done 0 { s with time := last }
  | "wait" =>
    if setting.deadline < s.backgroundEnd then (.running, { s with time := setting.deadline })
    else done 0 { s with time := max s.time s.backgroundEnd }
  | "kill" =>
    match killTarget words with
    | some (signal, targets) =>
      if (targets.contains processNumber || targets.contains "0") &&
          !harmlessSignals.contains signal then
        if stoppingSignals.contains signal then (.running, s) else (.killed signal, s)
      else done 0 s
    | none => done 1 s
  | "exit" =>
    match words with
    | [] => (.exit s.status, s)
    | word :: _ =>
      match word.toNat? with
      | some n => (.exit (n % 256), s)
      | none =>
        (.exit 2, s.write setting.errors (complaint setting ("exit: Illegal number: " ++ word)))
  | "shift" =>
    let count := (words.head?.bind String.toNat?).getD 1
    done 0 { s with parameters := s.parameters.drop count }
  | "set" =>
    match words with
    | "--" :: rest => done 0 { s with parameters := rest }
    | _ => done 0 s
  | "export" =>
    let assign (s : State) (w : String) : State :=
      match w.toList.splitOn '=' with
      | name :: first :: rest =>
        s.assign (String.ofList name) (String.ofList (['='].intercalate (first :: rest)))
      | _ => s
    done 0 (words.foldl assign s)
  | "unset" => done 0 { s with assigned := s.assigned.filter fun v => !words.contains v.1 }
  | "trap" => done 0 s
  | _ => done 127 s

/-- The state after the search for a program has failed.  `who` names what has searched. -/
def notStarted (setting : Setting) (who program : String) (s : State) : State :=
  let isThere := program.toList.contains '/' && setting.files.exists? program
  let reason := if isThere then ": Permission denied" else ": not found"
  (s.write setting.errors (complaint setting (who ++ program ++ reason))).withStatus
    (if isThere then 126 else 127)

/-- The state after a script that cannot be read. -/
def notRead (setting : Setting) (script : List Char) (s : State) : State :=
  let s := s.withStatus 2
  if (tokens? script).isNone then
    s.write setting.errors (complaint setting "Syntax error: Unterminated quoted string")
  else s

/-- The flow of a command that runs in a shell of its own: its exit is not one of the script. -/
def leaveShell : Flow × State → Flow × State
  | (.exit status, s) => (.next, s.withStatus status)
  | result => result

/-- Runs a command. -/
def run : (fuel : Nat) → Setting → Command → State → Flow × State
  | 0, _, _, s => (.running, s)
  | fuel + 1, setting, command, s =>
    let captured (setting : Setting) (command : Command) (s : State) : Flow × List UInt8 × State :=
      let (flow, after) := leaveShell
        (run fuel { setting with output := .output } command { s with output := [] })
      (flow, after.output.reverse,
        { after with output := s.output, assigned := s.assigned, parameters := s.parameters })
    let outputOf (script : List Char) (s : State) : List UInt8 × State :=
      match readScript script with
      | some c => (captured setting c s).2
      | none => ([], s.withStatus 2)
    let andThen (result : Flow × State) (k : State → Flow × State) : Flow × State :=
      match result with
      | (.next, s) => k s
      | stopped => stopped
    match command with
    | .nothing => (.next, s)
    | .sequence a b => andThen (run fuel setting a s) (run fuel setting b)
    | .ifSuccess a b =>
      andThen (run fuel setting a s) fun s =>
        if s.status = 0 then run fuel setting b s else (.next, s)
    | .ifFailure a b =>
      andThen (run fuel setting a s) fun s =>
        if s.status = 0 then (.next, s) else run fuel setting b s
    | .negation body =>
      andThen (run fuel setting body s) fun s =>
        (.next, s.withStatus (if s.status = 0 then 1 else 0))
    | .pipe a b =>
      let (flow, bytes, s) := captured setting a s
      match flow with
      | .running | .killed _ | .exit _ => (flow, s)
      | .next | .writing =>
        let (flow, after) := leaveShell (run fuel { setting with input := bytes } b s)
        (flow, { after with assigned := s.assigned, parameters := s.parameters })
    | .background body =>
      let (_, after) := run fuel { setting with isBackground := true } body s
      (.next, { s with
        output := after.output, errors := after.errors
        backgroundEnd := max after.backgroundEnd after.time, status := 0 })
    | .group isolated body changes =>
      match redirectAll setting outputOf changes s with
      | .error s => (.next, s)
      | .ok (inner, s) =>
        if isolated then
          let (flow, after) := leaveShell (run fuel inner body s)
          (flow, { after with assigned := s.assigned, parameters := s.parameters })
        else run fuel inner body s
    | .choice condition yes no =>
      andThen (run fuel setting condition s) fun s =>
        if s.status = 0 then run fuel setting yes s else run fuel setting no (s.withStatus 0)
    | .repetition untilSuccess condition body =>
      andThen (run fuel setting condition s) fun s =>
        if (s.status == 0) != untilSuccess then
          andThen (run fuel setting body s) (run fuel setting command)
        else (.next, s.withStatus 0)
    | .forEach name words body =>
      let (values, s) := expandWords setting outputOf words s
      values.foldl (fun result w => andThen result fun s =>
        run fuel setting body (s.assign name (textOfMarked w))) (.next, s.withStatus 0)
    | .select word cases =>
      let (subject, s) := expandText setting outputOf word s
      let isChosen (patterns : List Word) : Bool :=
        patterns.any fun p =>
          patternMatches (expandText setting outputOf p s).1 (subject.map (·.1))
      match cases.find? fun c => isChosen c.1 with
      | some (_, body) => run fuel setting body (s.withStatus 0)
      | none => (.next, s.withStatus 0)
    | .simple assignments words changes =>
      let (expanded, s) := expandWords setting outputOf words s
      let assign (s : State) (a : String × Word) : State :=
        let (value, s) := expandText setting outputOf a.2 s
        s.assign a.1 (textOfMarked value)
      match redirectAll setting outputOf changes s with
      | .error s => (.next, s)
      | .ok (inner, s) =>
        let start (isBuiltin : Bool) (words : List String) (s : State) : Flow × State :=
          match words with
          | [] => (.next, s)
          | program :: arguments =>
            let name := baseProgram program
            if name = "sh" ∨ name = "dash" then
              match arguments with
              | "-c" :: script :: rest =>
                let own := { inner with scriptName := rest.headD program }
                match readScript script.toList with
                | some c =>
                  let (flow, after) := leaveShell
                    (run fuel own c { s with parameters := rest.tail, status := 0 })
                  (flow, { after with assigned := s.assigned, parameters := s.parameters })
                | none => (.next, notRead own script.toList s)
              | _ => (.next, s.withStatus 0)
            else if startable.contains name || isBuiltin && shellOnly.contains program then
              runProgram inner (isBuiltin && name == program) name arguments s
            else (.next, notStarted inner (if isBuiltin then "" else "exec: ") program s)
        match expanded.map textOfMarked with
        | [] => (.next, (assignments.foldl assign s))
        | "exec" :: rest =>
          if rest.isEmpty then (.next, s)
          else
            match start false rest s with
            | (.next, s) => (.exit s.status, s)
            | stopped => stopped
        | "eval" :: rest =>
          match readScript (" ".intercalate rest).toList with
          | some c => run fuel inner c s
          | none => (.next, s.withStatus 2)
        | words => start true words s

/-- The fuel that a run starts with. -/
def runFuel : Nat := 20000

end CoverageEstimate.Shell
