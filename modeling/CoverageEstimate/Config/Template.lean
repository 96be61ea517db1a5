/-
# The template of a configuration

A new configuration starts from this text, which says what can be configured and what holds where
nothing is.
-/
namespace CoverageEstimate.Config

/-- The lines of the template. -/
def templateLines : List String :=
  ["# sentinel configuration",
   "#",
   "# Place this file at the project root as sentinel.yaml (or .sentinel.yaml),",
   "# or pass it explicitly with `sentinel analyze --config <file>`.",
   "",
   "# Glob patterns, relative to the project root, left out of the scan.",
   "# Dependency, build output and platform directories (node_modules, build,",
   "# dist, ios, android, web, ...) and *.d.ts files are always skipped.",
   "excluded_paths:",
   "  - \"**/*.g.dart\"",
   "  - \"**/*.freezed.dart\"",
   "",
   "dart:",
   "  # External parser executable, run as `<parser> [args...] --file <path>`.",
   "  # It must print one JSON document with the extracted functions.",
   "  # When unset, Dart files are analyzed with the built-in line scanner.",
   "  # parser: tool/dart_parser",
   "  # args: []",
   "",
   "  # Seconds to wait for the external parser on one file.",
   "  timeout_secs: 30",
   "",
   "# Worker threads (default: one per CPU).",
   "# jobs: 4",
   "",
   "# Exit with status 1 when overall coverage is below this percentage.",
   "# min_coverage: 60"]

/-- The text of the template. -/
def template : String := String.join (templateLines.map (· ++ "\n"))

end CoverageEstimate.Config
