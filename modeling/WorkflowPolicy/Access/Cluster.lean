import WorkflowPolicy.Net.Port

/-!
# Names in the cluster

The names, labels and ports on which the parties in a cluster agree: how workloads and namespaces
are labelled, where names are looked up, and where a workflow listens.
-/

namespace WorkflowPolicy.Cluster

open Net (Port)

/-- The port on which a workflow listens. -/
def workflowPort : Port := 8080

/-- The address on which a workflow listens. -/
def listenAddress : String := "0.0.0.0:8080"

/-- The service that looks names up. -/
def dnsHost : String := "kube-dns.kube-system.svc.cluster.local"

/-- The port of that service. -/
def dnsPort : Port := 53

/-- The label by which the pods of that service are found. -/
def dnsPodLabel : String := "k8s-app"

/-- The value of that label. -/
def dnsPodLabelValue : String := "kube-dns"

/-- The namespace of those pods. -/
def dnsNamespace : String := "kube-system"

/-- How the names of the services in the cluster end. -/
def serviceSuffix : String := ".svc.cluster.local"

/-- The label that names a workload. -/
def nameLabel : String := "app.kubernetes.io/name"

/-- The label that names who manages an object. -/
def managedByLabel : String := "app.kubernetes.io/managed-by"

/-- Who manages the policies. -/
def managedBy : String := "flowpact"

/-- The label of a pod's role. -/
def roleLabel : String := "flowpact.dev/role"

/-- The role of the pods that trigger runs. -/
def triggerRole : String := "trigger"

/-- The label that names a namespace. -/
def namespaceLabel : String := "kubernetes.io/metadata.name"

/-- The annotation that records the external hosts of a policy. -/
def intendedHosts : String := "flowpact.dev/intended-hosts"

/-- What follows the name of a workflow in the name of its policy. -/
def policySuffix : String := "-netpol"

/-- What follows the name of a workflow in the name of the policy for its trigger pods. -/
def triggerPolicySuffix : String := "-trigger-netpol"

/-- All IPv4 addresses. -/
def anyAddress : String := "0.0.0.0/0"

/-- The blocks of IPv4 addresses that are private. -/
def privateBlocks : List String :=
  ["10.0.0.0/8", "172.16.0.0/12", "192.168.0.0/16"]

/-- The proxy from which packages are loaded, where none is given. -/
def defaultPackageProxy : String := "esm-sh.flowpact-system.svc.cluster.local:8080"

end WorkflowPolicy.Cluster
