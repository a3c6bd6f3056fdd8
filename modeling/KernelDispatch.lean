import KernelDispatch.Main
import KernelDispatch.Kernel.Scripted
import KernelDispatch.Proofs.Session.Policy
import KernelDispatch.Proofs.Catalog.Preference
import KernelDispatch.Proofs.Session.Requests
import KernelDispatch.Proofs.Session.Bindings
import KernelDispatch.Proofs.Session.Invocation
import KernelDispatch.Proofs.Session.Disposal
import KernelDispatch.Proofs.Kernel.Configuration
import KernelDispatch.Proofs.Agreement.Kernels
import KernelDispatch.Proofs.Agreement.Backends
import KernelDispatch.Proofs.Session.Consistency
import KernelDispatch.Proofs.Session.NodeLists
import KernelDispatch.Proofs.Agreement.Coverage
import KernelDispatch.Proofs.Safety.Outcome
import KernelDispatch.Proofs.Session.Fallback
import KernelDispatch.Proofs.Safety.Reference
import KernelDispatch.Proofs.Safety.Builtin
import KernelDispatch.Proofs.Session.Queries
import KernelDispatch.Proofs.Session.HandlerRequests
import KernelDispatch.Proofs.Session.Respelling
import KernelDispatch.Proofs.Agreement.Sums
import KernelDispatch.Proofs.Session.Registration
import KernelDispatch.Proofs.Session.Imports
import KernelDispatch.Proofs.CommandLine.Lines
import KernelDispatch.Proofs.Kernel.Lifecycle
import KernelDispatch.Proofs.Kernel.InPlace
import KernelDispatch.Proofs.Kernel.Softmax
import KernelDispatch.Proofs.Kernel.GeneralProduct
import KernelDispatch.Proofs.Kernel.Elementwise
import KernelDispatch.Proofs.Kernel.Sum
import KernelDispatch.Proofs.Parallel.Schedules
import KernelDispatch.Proofs.Catalog.Grouping
import KernelDispatch.Proofs.Catalog.Reordering
import KernelDispatch.Proofs.Session.Sequences
import KernelDispatch.Proofs.Tensor.SizeCheck
import KernelDispatch.Proofs.Kernel.PartialProducts
import KernelDispatch.Proofs.Graph.AttributeSite
import KernelDispatch.Proofs.Operator.OpsetText
import KernelDispatch.Proofs.Kernel.Flatten
import KernelDispatch.Proofs.Attribute.LastValues
import KernelDispatch.Proofs.Catalog.Sets
import KernelDispatch.Proofs.CommandLine.OwnImports
import KernelDispatch.Proofs.Operator.Imports
