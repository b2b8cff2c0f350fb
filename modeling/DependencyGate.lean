import DependencyGate.Main
import DependencyGate.Proofs.Run.Verdict
import DependencyGate.Proofs.Manifest.Addition
import DependencyGate.Proofs.Run.Agreement
import DependencyGate.Proofs.Json.Limits
import DependencyGate.Proofs.Lockfile.Advisory
import DependencyGate.Proofs.Manifest.Surroundings
import DependencyGate.Proofs.Manifest.Confinement
import DependencyGate.Proofs.Manifest.Neighbours
import DependencyGate.Proofs.Run.Pruned
import DependencyGate.Proofs.FileTree.Locality
import DependencyGate.Proofs.Source.Search
import DependencyGate.Proofs.Source.Grammar
import DependencyGate.Proofs.Run.Modes
import DependencyGate.Proofs.Run.Amendment
import DependencyGate.Proofs.Manifest.Difference
import DependencyGate.Proofs.Run.Footprint
import DependencyGate.Proofs.Run.Undeclared
import DependencyGate.Proofs.Run.Independence
import DependencyGate.Proofs.Run.Strictness
import DependencyGate.Proofs.Run.Calls
import DependencyGate.Proofs.FileTree.AllOrNothing
import DependencyGate.Proofs.Manifest.Layout
import DependencyGate.Proofs.Manifest.Repetition
import DependencyGate.Proofs.Manifest.Restoration
import DependencyGate.Proofs.Source.Reached
import DependencyGate.Proofs.Utf8.Lossy
import DependencyGate.Proofs.Source.Intact
import DependencyGate.Proofs.Lockfile.Readers
import DependencyGate.Proofs.Manifest.Endings
import DependencyGate.Proofs.Run.Obstacle
import DependencyGate.Proofs.CommandLine.Status
import DependencyGate.Proofs.Run.Report
