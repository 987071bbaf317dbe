import BehaviorTree.Codec
import BehaviorTree.Evaluation.Observation
import BehaviorTree.Host.Command
import BehaviorTree.Inspection
import BehaviorTree.Json.Compact
import BehaviorTree.Json.Reader
import BehaviorTree.Script.Interpreter
import BehaviorTree.Proofs.Evaluation.Derivation
import BehaviorTree.Proofs.Evaluation.Frame
import BehaviorTree.Proofs.Evaluation.Course
import BehaviorTree.Proofs.Session
import BehaviorTree.Proofs.Session.OpenFlags
import BehaviorTree.Proofs.Session.Bracketing
import BehaviorTree.Proofs.Evaluation.ExitEvent
import BehaviorTree.Proofs.Evaluation.Blocks
import BehaviorTree.Proofs.Evaluation.Subjects
import BehaviorTree.Proofs.Evaluation.Termination
import BehaviorTree.Proofs.Tree.Edits
import BehaviorTree.Proofs.Host
import BehaviorTree.Proofs.Host.OpenNodes
import BehaviorTree.Proofs.Host.Independence
import BehaviorTree.Proofs.Evaluation.Routing
import BehaviorTree.Proofs.Evaluation.Coupling
import BehaviorTree.Proofs.Evaluation.Correction
import BehaviorTree.Proofs.Evaluation.Inertness
import BehaviorTree.Proofs.Native.Memoryless
import BehaviorTree.Proofs.Native.Soundness
import BehaviorTree.Proofs.Host.Refusal
import BehaviorTree.Proofs.Tree.Attachment
import BehaviorTree.Proofs.Evaluation.Enclosure
import BehaviorTree.Proofs.Evaluation.Surroundings
import BehaviorTree.Proofs.Evaluation.Depth
import BehaviorTree.Proofs.Evaluation.Surplus
import BehaviorTree.Proofs.Evaluation.Requests
import BehaviorTree.Proofs.Native.Succession
import BehaviorTree.Proofs.Native.Composite
import BehaviorTree.Proofs.Native.Repeater
import BehaviorTree.Proofs.Evaluation.Responders
import BehaviorTree.Proofs.Host.Issuance
import BehaviorTree.Proofs.Catalog
import BehaviorTree.Proofs.Native.Grouping
import BehaviorTree.Proofs.Native.Duality
import BehaviorTree.Proofs.Catalog.Naming
import BehaviorTree.Proofs.Slots
import BehaviorTree.Proofs.Outcome
import BehaviorTree.Proofs.Codec
import BehaviorTree.Proofs.Settings
