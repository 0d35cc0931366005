import Provision.Main
import Provision.Rehearsal.Stage
import Provision.Proofs.Execution
import Provision.Proofs.Lifecycle.Record
import Provision.Proofs.Lifecycle.Protocol
import Provision.Proofs.Lifecycle.Conformance
import Provision.Proofs.Lifecycle.CallOrder
import Provision.Proofs.Lifecycle.Ending
import Provision.Proofs.Lifecycle.Keeping
import Provision.Proofs.Codec
import Provision.Proofs.Lifecycle.Serial
import Provision.Proofs.Surroundings
import Provision.Proofs.Engine.Terraform
import Provision.Proofs.Storage.LocalDirectory
import Provision.Proofs.Lifecycle.Fetch
import Provision.Proofs.Pipeline.Settings
import Provision.Proofs.Pipeline.Prepared
import Provision.Proofs.Pipeline.Runs
import Provision.Proofs.Pipeline.Applied
import Provision.Proofs.Pipeline.RoundTrip
import Provision.Proofs.Transitions
import Provision.Proofs.Time.Timestamp
import Provision.Proofs.Host.Path
import Provision.Proofs.Host.Disk
import Provision.Proofs.Host.Serving
import Provision.Proofs.Storage.OnDisk
import Provision.Proofs.Storage.Bindings
import Provision.Proofs.Storage.Refinement
import Provision.Proofs.Storage.Absence
import Provision.Proofs.Failing
import Provision.Proofs.Lifecycle.Refusal
import Provision.Proofs.Engine.Refusal
import Provision.Proofs.Storage.Refusal
import Provision.Proofs.Pipeline.Refusal
import Provision.Proofs.Lifecycle.Dropping
import Provision.Proofs.Lifecycle.Idempotence
import Provision.Proofs.Lifecycle.Destruction
import Provision.Proofs.Lifecycle.Finding
import Provision.Proofs.Lifecycle.Looking
import Provision.Proofs.Storage.Viewing
import Provision.Proofs.Pipeline.Preview
import Provision.Proofs.Pipeline.Modes
import Provision.Proofs.Host.Alike
import Provision.Proofs.Pipeline.Documented
import Provision.Proofs.Host.Resolving
import Provision.Proofs.Storage.Keys
import Provision.Proofs.Storage.Confinement
import Provision.Proofs.Storage.FailedUpload
import Provision.Proofs.Lifecycle.FailedDestroy
import Provision.Proofs.Storage.BucketKeeping
import Provision.Proofs.Storage.Separation
import Provision.Proofs.Json.Integers
import Provision.Proofs.Version.Serials
import Provision.Proofs.Version.Wire
import Provision.Proofs.Host.Environment
import Provision.Proofs.Engine.Pinning
import Provision.Proofs.Reporting
import Provision.Proofs.Lifecycle.Reporting
import Provision.Proofs.Engine.Diagnostics
import Provision.Proofs.Lifecycle.Results
import Provision.Proofs.Lifecycle.Rising
import Provision.Proofs.Storage.Dates
import Provision.Proofs.Pipeline.Answering
import Provision.Proofs.Pipeline.Replies
import Provision.Proofs.Host.Scratch
import Provision.Proofs.Pipeline.Wire
import Provision.Proofs.CommandLine
import Provision.Proofs.Host.Housing
import Provision.Proofs.Pipeline.Delivery
import Provision.Proofs.Conduct
import Provision.Proofs.Lifecycle.Adoption
import Provision.Proofs.Storage.Tokens
import Provision.Proofs.Storage.Direction
import Provision.Proofs.Dict
import Provision.Proofs.Pipeline.Precedence
import Provision.Proofs.Engine.Masking
import Provision.Proofs.Pipeline.Redaction
import Provision.Proofs.Pipeline.Naming
import Provision.Proofs.Engine.Workspaces
import Provision.Proofs.Version.Comparison
import Provision.Proofs.Decimal.Range
import Provision.Proofs.Json.Grammar
import Provision.Proofs.Json.Literals
import Provision.Proofs.Json.Reading
import Provision.Proofs.Json.Values
import Provision.Proofs.Lifecycle.StateDocument
