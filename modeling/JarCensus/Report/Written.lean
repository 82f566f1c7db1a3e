import JarCensus.CommandLine.Basic
import JarCensus.Json.Value
import JarCensus.Report.Basic

/-!
# Written reports

A scan report is written as a JSON document or as lines of text. Both name how long
the scan took. The document also gives the causes of each failure, the lines do not.
-/

namespace JarCensus

/-- The fields of counts. -/
def Stats.toJson (stats : Stats) : Json.Value :=
  .object [("handled", .number stats.handled), ("recorded", .number stats.recorded),
    ("discarded", .number stats.discarded), ("failed", .number stats.failed),
    ("skipped", .number stats.skipped)]

/-- The fields of a summary. -/
def Summary.toJson (summary : Summary) : Json.Value :=
  .object [("root_models", .number summary.rootModels),
    ("non_root_models", .number summary.nonRootModels),
    ("root_converters", .number summary.rootConverters),
    ("non_root_converters", .number summary.nonRootConverters)]

/-- The fields of name lists. -/
def NameLists.toJson (names : NameLists) : Json.Value :=
  .object [("root", .ofStrings names.root), ("non_root", .ofStrings names.nonRoot)]

/-- The fields of a failure, with its causes in the message. -/
def Failure.toJson (failure : Failure) : Json.Value :=
  .object [("path", .string failure.path), ("container", .ofOption failure.container),
    ("is_root", .bool failure.isRoot), ("kind", .string failure.error.kind),
    ("message", .string failure.error.fullMessage)]

/-- The line of a failure. -/
def Failure.line (failure : Failure) : String :=
  s!"- [{failure.error.kind}] {failure.path}: {failure.error.message}\n"

/-- The lines of a list of names under a title. -/
def titledNames (title : String) (names : List String) : String :=
  s!"{title}: {names.length}\n" ++ String.join (names.map fun name => s!"  {name}\n")

namespace CensusReport

/-- The fields of a report on a scan of the given milliseconds. -/
def toJson (report : CensusReport) (duration : Nat) : Json.Value :=
  .object [("archive", .string report.archive),
    ("dependency_jars", .number report.dependencyJars),
    ("decryption_enabled", .bool report.decryptionEnabled),
    ("duration_ms", .number duration),
    ("stats", report.stats.toJson),
    ("summary", report.summary.toJson),
    ("models", report.models.toJson),
    ("converters", report.converters.toJson),
    ("failures", .array (report.failures.map Failure.toJson))]

/-- The lines of the failures, if there are any. -/
def failureLines (report : CensusReport) : String :=
  match report.failures with
  | [] => ""
  | failures => s!"failures: {failures.length}\n" ++ String.join (failures.map Failure.line)

/-- The lines of a report on a scan of the given milliseconds. -/
def toText (report : CensusReport) (duration : Nat) : String :=
  let stats := report.stats
  s!"archive: {report.archive}\n" ++
    s!"dependency_jars: {report.dependencyJars}\n" ++
    s!"duration_ms: {duration}\n" ++
    s!"entries: handled {stats.handled}, recorded {stats.recorded}, " ++
    s!"discarded {stats.discarded}, failed {stats.failed}\n" ++
    titledNames "models (root)" report.models.root ++
    titledNames "models (non-root)" report.models.nonRoot ++
    titledNames "converters (root)" report.converters.root ++
    titledNames "converters (non-root)" report.converters.nonRoot ++
    report.failureLines

/-- The report in a form. -/
def write (report : CensusReport) (format : Format) (duration : Nat) : String :=
  match format with
  | .json => (report.toJson duration).pretty
  | .text => report.toText duration

end CensusReport

/-- The fields of a class report. -/
def ClassReport.toJson (report : ClassReport) : Json.Value :=
  .object [("path", .string report.path), ("name", .string report.name),
    ("annotations", .ofStrings report.annotations),
    ("categorization", .string report.category.label),
    ("protected", .bool report.isProtected), ("decrypted", .bool report.decrypted)]

end JarCensus
