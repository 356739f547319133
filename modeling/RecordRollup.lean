import RecordRollup.Job.Json
import RecordRollup.Proofs.Plan.NormalForm
import RecordRollup.Proofs.Plan.SelfDelimiting
import RecordRollup.Proofs.Plan.SortAgreement
import RecordRollup.Proofs.Rollup.Nesting
import RecordRollup.Proofs.Rollup.SortedGroups
import RecordRollup.Version
import RecordRollup.Proofs.Plan.BuiltPlan
import RecordRollup.Proofs.Plan.Comparability
import RecordRollup.Rollup.Elements
import RecordRollup.Proofs.Rollup.Elements
import RecordRollup.Proofs.Rollup.FailureCauses
import RecordRollup.Proofs.Rollup.Lookahead
import RecordRollup.Proofs.Rollup.Windows
import RecordRollup.Proofs.Criteria.RoundTrip
import RecordRollup.Proofs.Plan.Acceptance
import RecordRollup.Proofs.Plan.CallOrder
import RecordRollup.Plan.Appending
import RecordRollup.Proofs.Plan.Atomicity
import RecordRollup.Proofs.Plan.SharedKeys
import RecordRollup.Proofs.Plan.KeyLocality
import RecordRollup.Proofs.Plan.SettledOrder
import RecordRollup.Proofs.Wire.Comparison
import RecordRollup.Proofs.Wire.RoundTrip
import RecordRollup.Proofs.Criteria.Grammar
import RecordRollup.Proofs.Schema.RoundTrip
import RecordRollup.Proofs.Wire.Grammar
import RecordRollup.Proofs.Wire.Shortest
import RecordRollup.Proofs.Value.NaturalOrder
import RecordRollup.Proofs.Job.Compilation
import RecordRollup.Proofs.Wire.SignedNumbers
import RecordRollup.Proofs.Record.Cells
