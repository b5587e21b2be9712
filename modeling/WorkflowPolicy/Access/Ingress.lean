import WorkflowPolicy.Access.Cluster
import WorkflowPolicy.Workflow.Basic

/-!
# Ingress

Which flows into a workflow its triggers ask for. Requests from outside come through a gateway and
carry no labels of pods, so a trigger of that kind opens the port to the whole namespace; otherwise
only the pods that trigger runs may call.
-/

namespace WorkflowPolicy

/-- **Who may call**: pods with the given labels, in namespaces with the given labels. Without
labels for pods any pod may; without labels for namespaces only those of the same namespace. -/
structure IngressRule where
  port : Net.Port
  protocol : Net.Transport := .tcp
  pods : Option (Table String) := none
  namespaces : Option (Table String) := none
  deriving DecidableEq

namespace IngressRule

/-- Any pod of the namespace may call. -/
def anyPod (port : Net.Port) : IngressRule := { port }

/-- Only the pods that trigger runs may call. -/
def triggerPods (port : Net.Port) : IngressRule :=
  { port, pods := some (.single Cluster.roleLabel Cluster.triggerRole) }

/-- Any pod of the named namespace may call. -/
def fromNamespace (port : Net.Port) (name : String) : IngressRule :=
  { port, namespaces := some (.single Cluster.namespaceLabel name) }

/-- The rule for those pods only that have the label besides. -/
def withPodLabel (r : IngressRule) (key value : String) : IngressRule :=
  { r with pods := some ((r.pods.getD .empty).insert key value) }

/-- May every pod of the namespace call? -/
def isOpen (r : IngressRule) : Bool := r.pods.isNone && r.namespaces.isNone

end IngressRule

/-- **The flows that the triggers of a workflow ask for.** -/
def ingressRules (w : Workflow) : List IngressRule :=
  [if w.hasWebhook then .anyPod Cluster.workflowPort else .triggerPods Cluster.workflowPort]

end WorkflowPolicy
