import Metering.Script
import Metering.Proofs.DataEvents
import Metering.Proofs.StartOrder
import Metering.Proofs.Wanted.Scripts
import Metering.Proofs.Deeds
import Metering.Proofs.DistinctIds
import Metering.Proofs.Ownership
import Metering.Proofs.Recount
import Metering.Proofs.OwnHistory
import Metering.Proofs.Diagnostics
import Metering.Proofs.Lifecycle
import Metering.Proofs.Markers
import Metering.Proofs.Positions
import Metering.Proofs.Times
import Metering.Proofs.Parents
import Metering.Proofs.Innermost
import Metering.Proofs.Sessions
import Metering.Proofs.Balance
import Metering.Proofs.Nesting
import Metering.Proofs.Executors
import Metering.Proofs.Panics
import Metering.Proofs.Payload.FixedPoint
import Metering.Proofs.Payload.Meaning
import Metering.Proofs.Throttle
import Metering.Proofs.Duration
import Metering.Proofs.Messages
import Metering.Proofs.Payload.Shape
import Metering.Proofs.ContextHistory
import Metering.Proofs.Properties
import Metering.Proofs.Units
