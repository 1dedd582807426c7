import CommandVetting.Text.Basic

/-!
# Hardening checklists

* `Isolation`: the techniques with a checklist, and `unknown` for any other key;
* `Isolation.keys`: two keys for each technique, **matched exactly**;
* `checklist`: the advice under a key.
-/

namespace CommandVetting

/-- A technique that keeps workloads apart. -/
inductive Isolation where
  | container
  | kubernetes
  | virtualization
  | unknown
  deriving DecidableEq, Repr

/-- The advice for a key that names no technique. -/
def unknownAdvice : Text :=
  "undefined type, valid options are: docker/container, k8s/kubernetes, vm/virtualization"

namespace Isolation

/-- The name of the technique in records. -/
def name : Isolation → Text
  | container => "container"
  | kubernetes => "kubernetes"
  | virtualization => "virtualization"
  | unknown => "unknown"

/-- The keys of the techniques, the short one first. -/
def keys : List (Text × Isolation) :=
  [("docker", container), ("container", container), ("k8s", kubernetes),
   ("kubernetes", kubernetes), ("vm", virtualization), ("virtualization", virtualization)]

/-- The technique that a key names. -/
def ofKey (key : Text) : Isolation := (keys.lookup key).getD unknown

/-- The advice for a technique. -/
def checklist : Isolation → Text
  | container =>
    "Container/host isolation checks:\n" ++
      "- Avoid privileged containers (--privileged); keep capabilities to the minimum\n" ++
      "- Never mount /var/run/docker.sock into workload containers; use a controlled " ++
      "least-privilege proxy when access is required\n" ++
      "- Restrict hostPath mounts and sharing of the host PID/Network namespaces\n" ++
      "- Enable and verify seccomp/AppArmor/SELinux, read-only root filesystems and rootless " ++
      "runtimes where feasible\n" ++
      "- Image provenance and signing: enable image scanning, SBOMs, signature verification and " ++
      "admission policies"
  | kubernetes =>
    "Kubernetes hardening checks:\n" ++
      "- Least-privilege RBAC; disable token automount for the default ServiceAccount (enable " ++
      "only where needed)\n" ++
      "- Enable admission control and policy enforcement (PSA/OPA/Kyverno, per organisational " ++
      "standard)\n" ++
      "- Default-deny network policies with explicit allows; enable audit logging and forward it " ++
      "to the SIEM\n" ++
      "- Node and control-plane patching: upgrade regularly and verify CVE fixes"
  | virtualization =>
    "Virtualization hardening checks:\n" ++
      "- Keep the hypervisor and Guest Additions/Tools up to date; disable unneeded sharing " ++
      "features (shared folders/clipboard/drag and drop)\n" ++
      "- Control device passthrough and management-plane access; enable logging and alerting\n" ++
      "- Define isolation boundaries and east-west traffic policy; keep management and production " ++
      "networks separate"
  | unknown => unknownAdvice

end Isolation

/-- The advice under a key. -/
def checklist (key : Text) : Text := (Isolation.ofKey key).checklist

end CommandVetting
