import Offload.Accelerator.Fleet
import Offload.Extension.Source
import Offload.Host.Executor
import Offload.Kernel.Elementwise
import Offload.Kernel.LeadingZeros
import Offload.Kernel.Sum
import Offload.Trace.Setup
import Offload.Proofs.Accelerator.Fault
import Offload.Proofs.Accelerator.Lifecycle
import Offload.Proofs.Accelerator.Accounting
import Offload.Proofs.Accelerator.Stale
import Offload.Proofs.Accelerator.Independence
import Offload.Proofs.Accelerator.Log
import Offload.Proofs.Accelerator.Exchange.Discipline
import Offload.Proofs.Accelerator.Access
import Offload.Proofs.Kernel.Agreement
import Offload.Proofs.Kernel.Reference
import Offload.Proofs.Kernel.Tiling
import Offload.Proofs.Extension.Construction
import Offload.Proofs.Extension.Document
import Offload.Proofs.Extension.Spelling
import Offload.Proofs.Extension.Restriction
import Offload.Proofs.Extension.Origin
import Offload.Proofs.Host.Accounting
import Offload.Proofs.Host.Style
import Offload.Proofs.Memory.Allocation
import Offload.Proofs.Memory.View
import Offload.Proofs.Trace.Performance
import Offload.Proofs.Trace.Setup
import Offload.Proofs.Config
import Offload.Proofs.Empty
