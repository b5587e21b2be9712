import WorkflowPolicy.Access.Package
import WorkflowPolicy.Access.Sandbox
import WorkflowPolicy.Access.Secret
import WorkflowPolicy.Drift.Audit
import WorkflowPolicy.Graph.Topological
import WorkflowPolicy.Yaml.Print
import WorkflowPolicy.Proofs.Text.Cutting
import WorkflowPolicy.Proofs.Text.Pattern
import WorkflowPolicy.Proofs.Net.Port
import WorkflowPolicy.Proofs.Net.PortSpec
import WorkflowPolicy.Proofs.Net.Cidr
import WorkflowPolicy.Proofs.Decimal.Rounding
import WorkflowPolicy.Proofs.Decimal.Shortest
import WorkflowPolicy.Proofs.Decimal.Notation
import WorkflowPolicy.Proofs.Order.Sorting
import WorkflowPolicy.Proofs.Order.Levels
import WorkflowPolicy.Proofs.Graph.Reach
import WorkflowPolicy.Proofs.Graph.Search
import WorkflowPolicy.Proofs.Graph.Reports
import WorkflowPolicy.Proofs.Graph.CycleDetection
import WorkflowPolicy.Proofs.Draft.Log
import WorkflowPolicy.Proofs.Draft.Cycles
import WorkflowPolicy.Proofs.Graph.Components
import WorkflowPolicy.Proofs.Graph.DisjointCycles
import WorkflowPolicy.Proofs.Graph.Runs
import WorkflowPolicy.Proofs.Graph.Topological
import WorkflowPolicy.Proofs.Graph.EntryPoints
import WorkflowPolicy.Proofs.Draft.Acceptance
import WorkflowPolicy.Proofs.Draft.Accepted
import WorkflowPolicy.Proofs.Draft.Remarks
import WorkflowPolicy.Proofs.Json.Equality
import WorkflowPolicy.Proofs.Draft.Composition
import WorkflowPolicy.Proofs.Draft.Credentials
import WorkflowPolicy.Proofs.Access.Egress
import WorkflowPolicy.Proofs.Access.RuleOrder
import WorkflowPolicy.Proofs.Access.DeclarationOrder
import WorkflowPolicy.Proofs.Access.External
import WorkflowPolicy.Proofs.Access.Lookup
import WorkflowPolicy.Proofs.Access.DefaultPorts
import WorkflowPolicy.Proofs.NetworkPolicy.Scope
import WorkflowPolicy.Proofs.NetworkPolicy.Services
import WorkflowPolicy.Proofs.Drift.Exits
import WorkflowPolicy.Proofs.Drift.Calls
import WorkflowPolicy.Proofs.Drift.Isolation
import WorkflowPolicy.Proofs.Drift.Hosts
import WorkflowPolicy.Proofs.Drift.Lock
import WorkflowPolicy.Proofs.Drift.Diff
import WorkflowPolicy.Proofs.Drift.Interleaving
import WorkflowPolicy.Proofs.Drift.Convergence
import WorkflowPolicy.Proofs.Drift.ReadBack
import WorkflowPolicy.Proofs.Drift.Removal
import WorkflowPolicy.Proofs.Drift.Detection
import WorkflowPolicy.Proofs.Drift.Narrowing
import WorkflowPolicy.Proofs.Access.Sandbox
import WorkflowPolicy.Proofs.Access.Secret
import WorkflowPolicy.Proofs.Access.Projections
import WorkflowPolicy.Proofs.NetworkPolicy.Admission
import WorkflowPolicy.Proofs.NetworkPolicy.Wildcards
import WorkflowPolicy.Proofs.Reading.Format
import WorkflowPolicy.Proofs.Reading.Readers
import WorkflowPolicy.Proofs.Reading.Json
import WorkflowPolicy.Proofs.Reading.Yaml
import WorkflowPolicy.Proofs.Reading.Entries
import WorkflowPolicy.Proofs.Reading.Aliases
import WorkflowPolicy.Proofs.Draft.Declared
import WorkflowPolicy.Proofs.Yaml.Equality
import WorkflowPolicy.Proofs.Yaml.Plain
import WorkflowPolicy.Proofs.Draft.Version
import WorkflowPolicy.Proofs.NetworkPolicy.Serialization
import WorkflowPolicy.Proofs.Json.RoundTrip
