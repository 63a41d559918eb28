import AppManifest.Descriptor.Validation
import AppManifest.Main
import AppManifest.Proofs.Syntax.Declaration
import AppManifest.Proofs.Analysis.Accounting
import AppManifest.Proofs.Analysis.Acceptance
import AppManifest.Proofs.Analysis.Completion
import AppManifest.Proofs.Analysis.Noting
import AppManifest.Proofs.Route.Joining
import AppManifest.Proofs.Disk.Building
import AppManifest.Proofs.Analysis.HostHistory
import AppManifest.Proofs.Analysis.Shape
import AppManifest.Proofs.Analysis.Strictness
import AppManifest.Proofs.Disk.Interruption
import AppManifest.Proofs.Disk.Rebuilding
import AppManifest.Proofs.Analysis.Placement
import AppManifest.Proofs.Analysis.Undecodable
import AppManifest.Proofs.Descriptor.Reading
import AppManifest.Proofs.Syntax.Lines
import AppManifest.Proofs.Syntax.Cover
import AppManifest.Proofs.Syntax.Lookup
import AppManifest.Proofs.Analysis.Parameters
import AppManifest.Proofs.Route.Segments
import AppManifest.Proofs.Disk.Walk
import AppManifest.Proofs.Disk.Population
import AppManifest.Proofs.Diagnostic.Reporting
import AppManifest.Proofs.Disk.Damage
import AppManifest.Proofs.Syntax.Literal
import AppManifest.Proofs.Syntax.Arguments
import AppManifest.Proofs.Analysis.Determinacy
import AppManifest.Proofs.Analysis.Recognition
import AppManifest.Proofs.Route.Product
import AppManifest.Proofs.Analysis.DefaultName
import AppManifest.Proofs.Console.Messages
