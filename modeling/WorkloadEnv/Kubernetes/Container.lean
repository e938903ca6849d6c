import WorkloadEnv.Kubernetes.Volume

/-! # Shapes of containers

    Containers with their ports, probes, handlers and security settings. -/

namespace WorkloadEnv.Kubernetes

/-! ## Actions and probes -/

def execAction : Shape := record "ExecAction" [
  may "command" texts]

def httpHeader : Shape := record "HTTPHeader" [
  must "name" .text,
  must "value" .text]

def httpGetAction : Shape := record "HTTPGetAction" [
  may "host" .text,
  may "httpHeaders" (.list httpHeader),
  may "path" .text,
  must "port" .intOrText,
  may "scheme" .text]

def tcpSocketAction : Shape := record "TCPSocketAction" [
  may "host" .text,
  must "port" .intOrText]

def grpcAction : Shape := record "GRPCAction" [
  must "port" .int32,
  may "service" .text]

def lifecycleHandler : Shape := record "LifecycleHandler" [
  may "exec" execAction,
  may "httpGet" httpGetAction,
  may "tcpSocket" tcpSocketAction]

def lifecycle : Shape := record "Lifecycle" [
  may "postStart" lifecycleHandler,
  may "preStop" lifecycleHandler]

def probe : Shape := record "Probe" [
  may "exec" execAction,
  may "failureThreshold" .int32,
  may "grpc" grpcAction,
  may "httpGet" httpGetAction,
  may "initialDelaySeconds" .int32,
  may "periodSeconds" .int32,
  may "successThreshold" .int32,
  may "tcpSocket" tcpSocketAction,
  may "terminationGracePeriodSeconds" .int64,
  may "timeoutSeconds" .int32]

/-! ## Ports, devices, resizing -/

def containerPort : Shape := record "ContainerPort" [
  must "containerPort" .int32,
  may "hostIP" .text,
  may "hostPort" .int32,
  may "name" .text,
  may "protocol" .text]

def containerResizePolicy : Shape := record "ContainerResizePolicy" [
  must "resourceName" .text,
  must "restartPolicy" .text]

def volumeDevice : Shape := record "VolumeDevice" [
  must "devicePath" .text,
  must "name" .text]

def volumeMount : Shape := record "VolumeMount" [
  must "mountPath" .text,
  may "mountPropagation" .text,
  must "name" .text,
  may "readOnly" .bool,
  may "subPath" .text,
  may "subPathExpr" .text]

/-! ## Security -/

def capabilities : Shape := record "Capabilities" [
  may "add" texts,
  may "drop" texts]

def seLinuxOptions : Shape := record "SELinuxOptions" [
  may "level" .text,
  may "role" .text,
  may "type" .text,
  may "user" .text]

def seccompProfile : Shape := record "SeccompProfile" [
  may "localhostProfile" .text,
  must "type" .text]

def windowsSecurityContextOptions : Shape := record "WindowsSecurityContextOptions" [
  may "gmsaCredentialSpec" .text,
  may "gmsaCredentialSpecName" .text,
  may "hostProcess" .bool,
  may "runAsUserName" .text]

def securityContext : Shape := record "SecurityContext" [
  may "allowPrivilegeEscalation" .bool,
  may "capabilities" capabilities,
  may "privileged" .bool,
  may "procMount" .text,
  may "readOnlyRootFilesystem" .bool,
  may "runAsGroup" .int64,
  may "runAsNonRoot" .bool,
  may "runAsUser" .int64,
  may "seLinuxOptions" seLinuxOptions,
  may "seccompProfile" seccompProfile,
  may "windowsOptions" windowsSecurityContextOptions]

/-! ## Containers -/

def container : Shape := record "Container" [
  may "args" texts,
  may "command" texts,
  may "env" (.list envVar),
  may "envFrom" (.list envFromSource),
  may "image" .text,
  may "imagePullPolicy" .text,
  may "lifecycle" lifecycle,
  may "livenessProbe" probe,
  must "name" .text,
  may "ports" (.list containerPort),
  may "readinessProbe" probe,
  may "resizePolicy" (.list containerResizePolicy),
  may "resources" resourceRequirements,
  may "restartPolicy" .text,
  may "securityContext" securityContext,
  may "startupProbe" probe,
  may "stdin" .bool,
  may "stdinOnce" .bool,
  may "terminationMessagePath" .text,
  may "terminationMessagePolicy" .text,
  may "tty" .bool,
  may "volumeDevices" (.list volumeDevice),
  may "volumeMounts" (.list volumeMount),
  may "workingDir" .text]

def ephemeralContainer : Shape := record "EphemeralContainer" [
  may "args" texts,
  may "command" texts,
  may "env" (.list envVar),
  may "envFrom" (.list envFromSource),
  may "image" .text,
  may "imagePullPolicy" .text,
  may "lifecycle" lifecycle,
  may "livenessProbe" probe,
  must "name" .text,
  may "ports" (.list containerPort),
  may "readinessProbe" probe,
  may "resizePolicy" (.list containerResizePolicy),
  may "resources" resourceRequirements,
  may "restartPolicy" .text,
  may "securityContext" securityContext,
  may "startupProbe" probe,
  may "stdin" .bool,
  may "stdinOnce" .bool,
  may "targetContainerName" .text,
  may "terminationMessagePath" .text,
  may "terminationMessagePolicy" .text,
  may "tty" .bool,
  may "volumeDevices" (.list volumeDevice),
  may "volumeMounts" (.list volumeMount),
  may "workingDir" .text]

end WorkloadEnv.Kubernetes
