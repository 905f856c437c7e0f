import BuildAlignment.Settings
import BuildAlignment.Toml.Reader

/-!
# The TOML form of settings

* `Settings.keys` are the keys of a settings document. No other key may occur.
* `Settings.read?` reads a document. A setting without a key keeps its usual value.
-/

namespace BuildAlignment

namespace DependencySource

/-- A source is written as its text form, or as a table with the text form as its only key and
nothing in it. -/
def ofToml? : Toml → Option DependencySource
  | .text value => ofDisplay? value
  | .table [(key, .table [])] => ofDisplay? key
  | .table [(key, .list [])] => ofDisplay? key
  | _ => none

end DependencySource

namespace Settings

def keys : List String :=
  ["authority", "dependency_source", "version_modification", "version_incremental_suffix",
    "version_incremental_suffix_padding", "version_suffix_snapshot", "version_override",
    "ignore_unresolvable_dependencies", "report_non_aligned", "dependency_override",
    "dependency_exclusion", "module_versions"]

def ruleTable? (value : Toml) : Option RuleTable :=
  value.textEntries?.map RuleTable.ofEntries

def moduleVersions? (value : Toml) : Option (Keyed String) :=
  value.textEntries?.map Keyed.ofEntries

def ofEntries? (entries : List (String × Toml)) : Option Settings := do
  guard (Toml.onlyKnown keys entries)
  let usual : Settings := {}
  let authority ← Toml.optional? Toml.text? entries "authority"
  let source ←
    Toml.withDefault? DependencySource.ofToml? usual.source entries "dependency_source"
  let versionModification ←
    Toml.withDefault? Toml.boolean? usual.versionModification entries "version_modification"
  let suffix ← Toml.withDefault? Toml.text? usual.suffix entries "version_incremental_suffix"
  let padding ←
    Toml.withDefault? Toml.natural? usual.padding entries "version_incremental_suffix_padding"
  let preserveSnapshot ←
    Toml.withDefault? Toml.boolean? usual.preserveSnapshot entries "version_suffix_snapshot"
  let versionOverride ← Toml.optional? Toml.text? entries "version_override"
  let ignoreUnresolvable ← Toml.withDefault? Toml.boolean? usual.ignoreUnresolvable entries
    "ignore_unresolvable_dependencies"
  let reportNonAligned ←
    Toml.withDefault? Toml.boolean? usual.reportNonAligned entries "report_non_aligned"
  let overrides ← Toml.withDefault? ruleTable? usual.overrides entries "dependency_override"
  let exclusions ← Toml.withDefault? ruleTable? usual.exclusions entries "dependency_exclusion"
  let moduleVersions ←
    Toml.withDefault? moduleVersions? usual.moduleVersions entries "module_versions"
  return { authority, source, versionModification, suffix, padding, preserveSnapshot,
           versionOverride, ignoreUnresolvable, reportNonAligned, overrides, exclusions,
           moduleVersions }

def read? (source : String) : Option Settings :=
  (Toml.read? source).bind ofEntries?

end Settings

end BuildAlignment
