import ServerSettings.Files.Tree
import ServerSettings.Log.Traffic
import ServerSettings.Main
import ServerSettings.Settings.Assignment
import ServerSettings.Startup
import ServerSettings.Proofs.Edits
import ServerSettings.Proofs.Precedence
import ServerSettings.Proofs.Dict
import ServerSettings.Proofs.Json.ReadBack
import ServerSettings.Proofs.Decoding
import ServerSettings.Proofs.Json.Reading
import ServerSettings.Proofs.Operations
import ServerSettings.Proofs.RoundTrip
import ServerSettings.Proofs.Failures
import ServerSettings.Proofs.Loading
import ServerSettings.Proofs.KeyLength
import ServerSettings.Proofs.Fixpoint
import ServerSettings.Proofs.Setup
import ServerSettings.Proofs.Secrecy.Layers
import ServerSettings.Proofs.Secrecy.Machines
import ServerSettings.Proofs.Secrecy.Inspection
import ServerSettings.Proofs.Schema
import ServerSettings.Proofs.Acceptance
import ServerSettings.Proofs.Overlay
import ServerSettings.Proofs.CommandLine
import ServerSettings.Proofs.Policies
import ServerSettings.Proofs.Startup
import ServerSettings.Proofs.Secrecy.LogLines
import ServerSettings.Proofs.Log.Conservation
import ServerSettings.Proofs.Lens
import ServerSettings.Proofs.Projection
import ServerSettings.Proofs.Marks
import ServerSettings.Proofs.Secrecy.Redacted
import ServerSettings.Proofs.Reports
import ServerSettings.Proofs.Secrecy.Redactor
import ServerSettings.Proofs.Json.Grammar
import ServerSettings.Proofs.Json.Sorted
import ServerSettings.Proofs.Log.NormalForms
import ServerSettings.Proofs.Log.Lines
import ServerSettings.Proofs.Log.Preparation
import ServerSettings.Proofs.Log.Normalization
import ServerSettings.Proofs.ReportLines
import ServerSettings.Proofs.Selection
import ServerSettings.Proofs.Interrupted
import ServerSettings.Proofs.Secrecy.Reports
import ServerSettings.Proofs.Descriptors
import ServerSettings.Proofs.NewServer
import ServerSettings.Proofs.NewFile
import ServerSettings.Proofs.Chains
import ServerSettings.Proofs.Paths
import ServerSettings.Proofs.KeyReports
