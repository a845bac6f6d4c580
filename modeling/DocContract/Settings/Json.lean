import DocContract.Json.Record
import DocContract.Settings

/-!
# Settings in JSON

Every option has a default, and most have a second name. The written form uses the first name and
leaves nothing out.
-/

namespace DocContract

namespace ParallelSettings

/-- The JSON form. -/
def toJson (p : ParallelSettings) : Json :=
  .object [("enabled", .bool p.enabled), ("max_concurrency", Json.ofNat? p.maxConcurrency?)]

/-- The members of the JSON form. -/
def members : List Json.MemberSpec :=
  [.defaulted "enabled", .either "max_concurrency" "maxConcurrency"]

/-- Reads the JSON form. -/
def ofJson? (j : Json) : Option ParallelSettings :=
  match Json.record? members j with
  | some [enabled, maxConcurrency] => do
    return {
      enabled := ← Json.orDefault? Json.asBool? true enabled
      maxConcurrency? := ← Json.orNull? Json.asNat? maxConcurrency }
  | _ => none

end ParallelSettings

namespace LayoutSettings

/-- The JSON form. -/
def toJson (t : LayoutSettings) : Json :=
  .object [("db_setup_keywords", .ofTexts t.dbSetupKeywords),
    ("negative_case_keywords", .ofTexts t.negativeCaseKeywords),
    ("flow_file_pattern", .string t.flowFilePattern)]

/-- The members of the JSON form. -/
def members : List Json.MemberSpec :=
  [.either "db_setup_keywords" "dbSetupKeywords",
   .either "negative_case_keywords" "negativeCaseKeywords",
   .either "flow_file_pattern" "flowFilePattern"]

/-- Reads the JSON form. -/
def ofJson? (j : Json) : Option LayoutSettings :=
  match Json.record? members j with
  | some [db, negative, flow] => do
    return {
      dbSetupKeywords := ← Json.orDefault? (Json.asList? Json.asText?) defaultDbKeywords db
      negativeCaseKeywords :=
        ← Json.orDefault? (Json.asList? Json.asText?) defaultNegativeKeywords negative
      flowFilePattern := ← Json.orDefault? Json.asText? defaultFlowPattern flow }
  | _ => none

end LayoutSettings

namespace CacheSettings

/-- The JSON form. -/
def toJson (c : CacheSettings) : Json :=
  .object [("enabled", .bool c.enabled), ("dir", Json.ofText? c.dir?)]

/-- The members of the JSON form. -/
def members : List Json.MemberSpec := [.defaulted "enabled", .defaulted "dir"]

/-- Reads the JSON form. -/
def ofJson? (j : Json) : Option CacheSettings :=
  match Json.record? members j with
  | some [enabled, dir] => do
    return {
      enabled := ← Json.orDefault? Json.asBool? false enabled
      dir? := ← Json.orNull? Json.asText? dir }
  | _ => none

end CacheSettings

/-- Reads the name of a convention. -/
def Convention.ofJson? (j : Json) : Option Convention := (Json.asName? j).bind Convention.ofName?

namespace Settings

/-- The JSON form. -/
def toJson (s : Settings) : Json :=
  .object [("strict_mode", .bool s.strictMode),
    ("require_internal_docs", .bool s.requireInternalDocs),
    ("marker_convention", .string s.markerConvention.name),
    ("test_coverage_gap_is_error", .bool s.coverageGapIsError),
    ("max_tag_depth", Json.ofNat? s.maxTagDepth?),
    ("extra_tags", .ofTexts s.extraTags),
    ("parallel", s.parallel.toJson),
    ("tests", s.tests.toJson),
    ("cache", s.cache.toJson)]

/-- The members of the JSON form. -/
def members : List Json.MemberSpec :=
  [.either "strict_mode" "strictMode", .either "require_internal_docs" "requireInternalDocs",
   .either "marker_convention" "markerConvention",
   .either "test_coverage_gap_is_error" "testCoverageGapIsError",
   .either "max_tag_depth" "maxTagDepth", .either "extra_tags" "extraTags",
   .defaulted "parallel", .defaulted "tests", .defaulted "cache"]

/-- Reads the JSON form. -/
def ofJson? (j : Json) : Option Settings :=
  match Json.record? members j with
  | some [strict, internal, convention, gap, depth, extra, parallel, tests, cache] => do
    return {
      strictMode := ← Json.orDefault? Json.asBool? false strict
      requireInternalDocs := ← Json.orDefault? Json.asBool? true internal
      markerConvention := ← Json.orDefault? Convention.ofJson? .dashPlus convention
      coverageGapIsError := ← Json.orDefault? Json.asBool? false gap
      maxTagDepth? := ← Json.orNull? Json.asNat? depth
      extraTags := ← Json.orDefault? (Json.asList? Json.asText?) defaultExtraTags extra
      parallel := ← Json.orDefault? ParallelSettings.ofJson? {} parallel
      tests := ← Json.orDefault? LayoutSettings.ofJson? {} tests
      cache := ← Json.orDefault? CacheSettings.ofJson? {} cache }
  | _ => none

end Settings

end DocContract
