import ReturnAudit.Command.Options
import ReturnAudit.Detector

/-!
# Help

The texts that the command shows about itself.
-/

namespace ReturnAudit.Command

/-- The version of the program. -/
def programVersion : Bytes := "dev"

/-- What the version flag shows. -/
def versionText : Bytes :=
  "findbugs version " ++ programVersion ++ "\n  commit: unknown\n  built:  unknown\n"

/-- What a flag does. -/
def Flag.purpose : Flag → Bytes
  | auxClassPath => "Classes used only to resolve the hierarchy and annotations"
  | checkAll => "Report every ignored non-void return value"
  | config => "Path or URL of a yaml configuration file"
  | detectors => "Detectors to run (default all: " ++ Bytes.join ", " Detector.names ++ ")"
  | help => "help for findbugs"
  | json => "Output in JSON format"
  | minPriority => "Only report findings with at least this priority (1 low, 2 medium, 3 high)"
  | profile =>
    "Enable CPU and memory profiling (writes cpu.prof and mem.prof to current directory)"
  | showSuppressed => "Also print suppressed findings"
  | verbose => "Enable verbose output"
  | version => "version for findbugs"

/-- A flag with its letter and the word for its value. -/
def Flag.form (flag : Flag) : Bytes :=
  let letter : Bytes := match flag.letter? with
    | some letter => "  -" ++ letter :: ", --"
    | none => "      --"
  let value : Bytes := match flag.valueWord? with
    | some word => 32 :: word
    | none => []
  letter ++ flag.name ++ value

/-- A flag and, behind a column of a width, its purpose. -/
def Flag.line (width : Nat) (flag : Flag) : Bytes :=
  let gap : Bytes := List.replicate (width + 3 - flag.form.length) 32
  flag.form ++ gap ++ flag.purpose ++ "\n"

/-- The flags with their purposes in a column. -/
def flagTable : Bytes :=
  Flag.all.flatMap (Flag.line ((Flag.all.map fun flag => flag.form.length).foldl max 0))

/-- What the help flag shows. -/
def helpText : Bytes :=
  "findbugs scans JVM bytecode for calls whose return value is discarded\n" ++
  "although the callee is annotated (directly, through an overridden ancestor, or\n" ++
  "via the built in catalog) as having a result that must be checked.\n\n" ++
  "Arguments are directories, .class files and .jar archives. Local paths and\n" ++
  "afs URLs are accepted.\n\n" ++
  "Usage:\n  findbugs [classpath...] [flags]\n\nExamples:\n" ++
  "  findbugs build/classes                      # Analyze a class directory\n" ++
  "  findbugs app.jar --aux-classpath lib/        # Resolve library annotations\n" ++
  "  findbugs -v --json app.jar > report.json     # JSON output to file\n" ++
  "  findbugs --check-all build/classes           # Every non-void result must be used\n\n" ++
  "Flags:\n" ++ flagTable

end ReturnAudit.Command
