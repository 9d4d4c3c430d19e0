import Converge.Main
import Converge.Proofs.Steps
import Converge.Simulation.Basic
import Converge.Proofs.ProvisioningGate
import Converge.Proofs.Operations
import Converge.Proofs.Session
import Converge.Proofs.Names
import Converge.Proofs.StandardCatalog
import Converge.Proofs.TenantMonotone
import Converge.Proofs.StatusMachine
import Converge.Proofs.EventLog
import Converge.Proofs.EventIsolation
import Converge.Proofs.Passes
import Converge.Proofs.Idle
import Converge.Proofs.Syncing
import Converge.Proofs.Prepared
import Converge.Proofs.Progress
import Converge.Proofs.Quiescence
import Converge.Proofs.Versions
import Converge.Proofs.EventHistory
import Converge.Proofs.OwnedObjects
import Converge.Proofs.Convergence
import Converge.Proofs.Identity
import Converge.Proofs.Recreation
import Converge.Proofs.TenantRegistry
import Converge.Proofs.Frame
import Converge.Proofs.Requeue
import Converge.Proofs.ClockRange
import Converge.Proofs.EventOrder
import Converge.Proofs.Footprint
import Converge.Proofs.Commutation
import Converge.Proofs.Exits
import Converge.Proofs.Failures
import Converge.Proofs.Building
import Converge.Proofs.Ownership
import Converge.Proofs.Addressing
import Converge.Proofs.Conditions
import Converge.Proofs.Changes
import Converge.Proofs.Persistence
import Converge.Proofs.ClosedGates
import Converge.Proofs.DurationGrammar
import Converge.Proofs.Codecs
import Converge.Proofs.Conversion
import Converge.Proofs.Application
import Converge.Proofs.Archive
import Converge.Proofs.Reading
import Converge.Proofs.Spelling
import Converge.Proofs.Documents
import Converge.Proofs.Configuration
import Converge.Proofs.Representation
import Converge.Proofs.Tables
import Converge.Proofs.JsonTokens
import Converge.Proofs.JsonText
import Converge.Proofs.Texts
import Converge.Proofs.Rereading
import Converge.Proofs.TextOperations
import Converge.Proofs.TextRefinement
import Converge.Proofs.TextReadings
import Converge.Proofs.TextStatus
import Converge.Proofs.TextChanges
import Converge.Proofs.TextFrame
