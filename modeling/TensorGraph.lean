import TensorGraph.Custom.Rules
import TensorGraph.Device.Rationed
import TensorGraph.Element.Floating
import TensorGraph.Element.Integer
import TensorGraph.Engine
import TensorGraph.Graph.Dot
import TensorGraph.Plan.Edit
import TensorGraph.Proofs.Acceptance
import TensorGraph.Proofs.Aliasing
import TensorGraph.Proofs.Allocation
import TensorGraph.Proofs.Balance
import TensorGraph.Proofs.Beginnings
import TensorGraph.Proofs.Categories
import TensorGraph.Proofs.Contractions
import TensorGraph.Proofs.Dedicated
import TensorGraph.Proofs.Digits
import TensorGraph.Proofs.Growth
import TensorGraph.Proofs.Histories
import TensorGraph.Proofs.Isolation
import TensorGraph.Proofs.Persistence
import TensorGraph.Proofs.Pooling
import TensorGraph.Proofs.Progressions
import TensorGraph.Proofs.Readings
import TensorGraph.Proofs.Recycling
import TensorGraph.Proofs.Reductions
import TensorGraph.Proofs.Replacement
import TensorGraph.Proofs.Safety
import TensorGraph.Proofs.Sessions
import TensorGraph.Proofs.Stages
import TensorGraph.Proofs.Tightness
import TensorGraph.Proofs.Words
