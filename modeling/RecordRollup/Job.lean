import RecordRollup.Plan.Build
import RecordRollup.Rollup.Grouper

/-!
Jobs: the sources, sort criteria and groups of a whole run, as texts that are checked together.
-/

namespace RecordRollup

structure SourceConfig where
  id : Int32
  name : String
  fields : String
deriving DecidableEq, Repr

structure JobConfig where
  sources : List SourceConfig
  /-- The criteria that all sources are sorted by. -/
  sortBy : String
  /-- Further criteria of single sources, by ascending source id. -/
  specificSortBy : List (Int32 × String)
  groupBy : List String
  /-- The first field to report groups of. -/
  rollupFrom : Option String
deriving DecidableEq, Repr

namespace JobConfig

def draft (config : JobConfig) (registry : Registry) : Except Error Plan.Draft := do
  if (Text.trim config.sortBy.toList).isEmpty then .error (.plan .blankSortBy)
  else
    let common ← Criteria.parse config.sortBy registry
    let sources ← config.sources.mapM fun source => do
      return (source.id, ← Schema.parse source.name source.fields)
    let specific ← config.specificSortBy.mapM fun (id, text) => do
      return (id, ← Criteria.parse text registry)
    return ⟨sources, some common, specific⟩

def compile (config : JobConfig) (registry : Registry) : Except Error Grouper := do
  let draft ← config.draft registry
  let plan ← draft.build
  Grouper.ofFields plan config.groupBy config.rollupFrom

def log (config : JobConfig) (registry : Registry) : List Log.Line :=
  let planLines := match config.draft registry with
    | .ok draft => draft.log
    | .error _ => []
  let grouperLines := match config.compile registry with
    | .ok grouper => grouper.log
    | .error _ => []
  planLines ++ grouperLines

end JobConfig

end RecordRollup
