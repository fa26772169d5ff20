import ReleaseKeeper.Api.Answer
import ReleaseKeeper.Api.Client
import ReleaseKeeper.Api.Collection
import ReleaseKeeper.Api.Definitions
import ReleaseKeeper.Api.Discovery
import ReleaseKeeper.Api.Instances
import ReleaseKeeper.Api.Objects
import ReleaseKeeper.Api.Request
import ReleaseKeeper.Api.Script
import ReleaseKeeper.Call
import ReleaseKeeper.Cluster.Basic
import ReleaseKeeper.Cluster.Rehearsal
import ReleaseKeeper.CommandLine
import ReleaseKeeper.Decimal.Binary64
import ReleaseKeeper.Decimal.Numeral
import ReleaseKeeper.Decimal.Shortest
import ReleaseKeeper.Definition.Basic
import ReleaseKeeper.Definition.Schema
import ReleaseKeeper.Deployment
import ReleaseKeeper.Error
import ReleaseKeeper.Instance.Basic
import ReleaseKeeper.Instance.Condition
import ReleaseKeeper.Instance.Generation
import ReleaseKeeper.Instance.Spec
import ReleaseKeeper.Instance.Status
import ReleaseKeeper.Instance.Store
import ReleaseKeeper.Json.Basic
import ReleaseKeeper.Json.Merge
import ReleaseKeeper.Json.Patch
import ReleaseKeeper.Json.Pointer
import ReleaseKeeper.Json.Reader
import ReleaseKeeper.Json.Writer
import ReleaseKeeper.LogFormat
import ReleaseKeeper.Main
import ReleaseKeeper.Manifest.Apply
import ReleaseKeeper.Manifest.Delete
import ReleaseKeeper.Manifest.Order
import ReleaseKeeper.Manifest.Source
import ReleaseKeeper.Metadata
import ReleaseKeeper.Platform.Basic
import ReleaseKeeper.Platform.Declared
import ReleaseKeeper.Platform.Minikube
import ReleaseKeeper.Platform.OpenShift
import ReleaseKeeper.Program
import ReleaseKeeper.Proofs.Api.Absence
import ReleaseKeeper.Proofs.Api.Applies
import ReleaseKeeper.Proofs.Api.Exchanges
import ReleaseKeeper.Proofs.Api.Finalizers
import ReleaseKeeper.Proofs.Api.Instances
import ReleaseKeeper.Proofs.Api.KnownKinds
import ReleaseKeeper.Proofs.Api.Objects
import ReleaseKeeper.Proofs.Api.Operations
import ReleaseKeeper.Proofs.Api.Plain
import ReleaseKeeper.Proofs.Api.Reapplied
import ReleaseKeeper.Proofs.Api.Replies
import ReleaseKeeper.Proofs.Api.Server
import ReleaseKeeper.Proofs.Cluster.Applied
import ReleaseKeeper.Proofs.Cluster.Events
import ReleaseKeeper.Proofs.Cluster.Members
import ReleaseKeeper.Proofs.Cluster.Outcomes
import ReleaseKeeper.Proofs.Cluster.Rehearsal
import ReleaseKeeper.Proofs.Cluster.Tags
import ReleaseKeeper.Proofs.Instance.Aggregation
import ReleaseKeeper.Proofs.Instance.Conditions
import ReleaseKeeper.Proofs.Instance.Generation
import ReleaseKeeper.Proofs.Instance.Json
import ReleaseKeeper.Proofs.Instance.RoundTrip
import ReleaseKeeper.Proofs.Instance.Spec
import ReleaseKeeper.Proofs.Instance.Store
import ReleaseKeeper.Proofs.Instance.Transitions
import ReleaseKeeper.Proofs.Json.Equality
import ReleaseKeeper.Proofs.Json.Forms
import ReleaseKeeper.Proofs.Json.Merge
import ReleaseKeeper.Proofs.Json.Named
import ReleaseKeeper.Proofs.Json.Patch
import ReleaseKeeper.Proofs.Manifest.Apply
import ReleaseKeeper.Proofs.Manifest.ConfigData
import ReleaseKeeper.Proofs.Manifest.Delete
import ReleaseKeeper.Proofs.Manifest.Gateways
import ReleaseKeeper.Proofs.Manifest.Independence
import ReleaseKeeper.Proofs.Manifest.Order
import ReleaseKeeper.Proofs.Manifest.Partial
import ReleaseKeeper.Proofs.Manifest.Source
import ReleaseKeeper.Proofs.Manifest.Tagging
import ReleaseKeeper.Proofs.Metadata
import ReleaseKeeper.Proofs.Metadata.Forms
import ReleaseKeeper.Proofs.Platform.Calls
import ReleaseKeeper.Proofs.Program.Interleaving
import ReleaseKeeper.Proofs.Program.Runs
import ReleaseKeeper.Proofs.Readers
import ReleaseKeeper.Proofs.Reconcile.Addresses
import ReleaseKeeper.Proofs.Reconcile.Availability
import ReleaseKeeper.Proofs.Reconcile.Calls
import ReleaseKeeper.Proofs.Reconcile.Cleared
import ReleaseKeeper.Proofs.Reconcile.Convergence
import ReleaseKeeper.Proofs.Reconcile.Effects
import ReleaseKeeper.Proofs.Reconcile.History
import ReleaseKeeper.Proofs.Reconcile.Incarnations
import ReleaseKeeper.Proofs.Reconcile.PartialInstall
import ReleaseKeeper.Proofs.Reconcile.Quiescence
import ReleaseKeeper.Proofs.Reconcile.Recorded
import ReleaseKeeper.Proofs.Reconcile.Removal
import ReleaseKeeper.Proofs.Reconcile.Rounds
import ReleaseKeeper.Proofs.Reconcile.Stages
import ReleaseKeeper.Proofs.Reconcile.Startup
import ReleaseKeeper.Proofs.Reconcile.Statuses
import ReleaseKeeper.Proofs.Reconcile.Stored
import ReleaseKeeper.Proofs.Reconcile.Teardown
import ReleaseKeeper.Proofs.Reconcile.Written
import ReleaseKeeper.Proofs.Resource.Identity
import ReleaseKeeper.Proofs.Settling
import ReleaseKeeper.Proofs.Table
import ReleaseKeeper.Proofs.Text.Replace
import ReleaseKeeper.Proofs.Timestamp
import ReleaseKeeper.Proofs.Transform.Certificates
import ReleaseKeeper.Proofs.Transform.Changes
import ReleaseKeeper.Proofs.Transform.Frame
import ReleaseKeeper.Proofs.Transform.Idempotence
import ReleaseKeeper.Proofs.Transform.Identity
import ReleaseKeeper.Proofs.Transform.Images
import ReleaseKeeper.Proofs.Transform.Owner
import ReleaseKeeper.Proofs.Transform.Pods
import ReleaseKeeper.Proofs.Transform.Retarget
import ReleaseKeeper.Proofs.Transform.Settings
import ReleaseKeeper.Proofs.Typed.Members
import ReleaseKeeper.Proofs.Typed.Reader
import ReleaseKeeper.Proofs.Yaml.Conversion
import ReleaseKeeper.Reconcile.Basic
import ReleaseKeeper.Reconcile.Context
import ReleaseKeeper.Reconcile.Obsolete
import ReleaseKeeper.Reconcile.Stage
import ReleaseKeeper.Reconcile.Startup
import ReleaseKeeper.Reconcile.Teardown
import ReleaseKeeper.Resource.Basic
import ReleaseKeeper.Resource.Key
import ReleaseKeeper.Resource.Role
import ReleaseKeeper.Table
import ReleaseKeeper.Text.Cut
import ReleaseKeeper.Text.Lossy
import ReleaseKeeper.Text.Quoted
import ReleaseKeeper.Text.Unprintable
import ReleaseKeeper.Timestamp
import ReleaseKeeper.Transform.Basic
import ReleaseKeeper.Transform.Builtin
import ReleaseKeeper.Transform.Certs
import ReleaseKeeper.Transform.Image
import ReleaseKeeper.Transform.Namespace
import ReleaseKeeper.Transform.Owner
import ReleaseKeeper.Transform.Setting
import ReleaseKeeper.Typed.Container
import ReleaseKeeper.Typed.Fault
import ReleaseKeeper.Typed.Pod
import ReleaseKeeper.Typed.Reader
import ReleaseKeeper.Typed.Shape
import ReleaseKeeper.Typed.Volume
import ReleaseKeeper.Yaml.Basic
import ReleaseKeeper.Yaml.Cursor
import ReleaseKeeper.Yaml.Node
import ReleaseKeeper.Yaml.Scalar
import ReleaseKeeper.Yaml.Token
import ReleaseKeeper.Yaml.Writer
