import AppBundle.Main
import AppBundle.Proofs.Graph.Walk
import AppBundle.Proofs.Application.Nested
import AppBundle.Proofs.Application.Build
import AppBundle.Proofs.Graph.Snapshot
import AppBundle.Proofs.Graph.Sharing
import AppBundle.Proofs.Application.Coverage
import AppBundle.Proofs.Application.Merge
import AppBundle.Proofs.Application.Provision
import AppBundle.Proofs.Application.Verdict
import AppBundle.Proofs.Json.Document
import AppBundle.Proofs.Json.Reader
import AppBundle.Proofs.CoordinateText
import AppBundle.Proofs.DependencyOrder
import AppBundle.Proofs.Descriptor.Rewriting
import AppBundle.Proofs.FileSystem.Change
import AppBundle.Proofs.FileSystem.Run
import AppBundle.Proofs.Installation.Plan
import AppBundle.Proofs.Installation.Promises
import AppBundle.Proofs.Installation.Layout
import AppBundle.Proofs.Installation.Payloads
import AppBundle.Proofs.Installation.Companions
import AppBundle.Proofs.FileSystem.Below
import AppBundle.Proofs.Installation.Containment
import AppBundle.Proofs.Installation.Agreement
import AppBundle.Proofs.FileSystem.Components
import AppBundle.Proofs.Application.Operations
import AppBundle.Proofs.Application.Soundness
import AppBundle.Proofs.Application.Failures
import AppBundle.Proofs.Packaging.Stages
import AppBundle.Proofs.Packaging.Independence
import AppBundle.Proofs.Packaging.Relocation
import AppBundle.Proofs.Packaging.Untouched
import AppBundle.Proofs.Graph.BreadthFirst
import AppBundle.Proofs.Graph.Queries
import AppBundle.Proofs.Graph.Unplaced
import AppBundle.Proofs.Application.Unplaced
import AppBundle.Proofs.Packaging.Environment
import AppBundle.Proofs.Graph.Distance
import AppBundle.IndexedSet
import AppBundle.Proofs.Application.Extension
import AppBundle.Proofs.IndexedSet
import AppBundle.Proofs.Graph.Promotion
import AppBundle.Proofs.Application.Precedence
import AppBundle.Proofs.Packaging.Places
import AppBundle.Proofs.CoordinateReading
import AppBundle.Proofs.Inspection
import AppBundle.Proofs.Installation.Repetition
import AppBundle.Proofs.Installation.Stopping
import AppBundle.Proofs.CoordinateOrder
import AppBundle.Proofs.IdentityKeys
import AppBundle.Proofs.Packaging.BundleRoots
import AppBundle.Proofs.Xml.Elements
import AppBundle.Proofs.PomReading
import AppBundle.Proofs.FileSystem.Hierarchy
import AppBundle.Proofs.Configuration.Reading
import AppBundle.Proofs.Configuration.Saving
