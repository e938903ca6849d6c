import WorkloadEnv.Kubernetes.Pod

/-! # Shapes of workloads

    The four kinds of workload with a single pod template, their settings and
    the state the cluster reports for them. -/

namespace WorkloadEnv.Kubernetes

/-! ## Deployments -/

def rollingUpdateDeployment : Shape := record "RollingUpdateDeployment" [
  may "maxSurge" .intOrText,
  may "maxUnavailable" .intOrText]

def deploymentStrategy : Shape := record "DeploymentStrategy" [
  may "rollingUpdate" rollingUpdateDeployment,
  may "type" .text]

def deploymentSpec : Shape := record "DeploymentSpec" [
  may "minReadySeconds" .int32,
  may "paused" .bool,
  may "progressDeadlineSeconds" .int32,
  may "replicas" .int32,
  may "revisionHistoryLimit" .int32,
  must "selector" labelSelector,
  may "strategy" deploymentStrategy,
  must "template" podTemplateSpec]

def deploymentCondition : Shape := record "DeploymentCondition" [
  may "lastTransitionTime" .time,
  may "lastUpdateTime" .time,
  may "message" .text,
  may "reason" .text,
  must "status" .text,
  must "type" .text]

def deploymentStatus : Shape := record "DeploymentStatus" [
  may "availableReplicas" .int32,
  may "collisionCount" .int32,
  may "conditions" (.list deploymentCondition),
  may "observedGeneration" .int64,
  may "readyReplicas" .int32,
  may "replicas" .int32,
  may "unavailableReplicas" .int32,
  may "updatedReplicas" .int32]

/-- A workload of the group of applications or of batches. -/
def workload (apiVersion kind : String) (spec status : Shape) : Shape :=
  .record kind [("apiVersion", apiVersion), ("kind", kind)] [
    must "metadata" objectMeta,
    may "spec" spec,
    may "status" status]

def deployment : Shape := workload "apps/v1" "Deployment" deploymentSpec deploymentStatus

/-! ## Stateful sets -/

def statefulSetOrdinals : Shape := record "StatefulSetOrdinals" [
  may "start" .int32]

def statefulSetPersistentVolumeClaimRetentionPolicy : Shape :=
  record "StatefulSetPersistentVolumeClaimRetentionPolicy" [
    may "whenDeleted" .text,
    may "whenScaled" .text]

def rollingUpdateStatefulSetStrategy : Shape := record "RollingUpdateStatefulSetStrategy" [
  may "maxUnavailable" .intOrText,
  may "partition" .int32]

def statefulSetUpdateStrategy : Shape := record "StatefulSetUpdateStrategy" [
  may "rollingUpdate" rollingUpdateStatefulSetStrategy,
  may "type" .text]

def statefulSetSpec : Shape := record "StatefulSetSpec" [
  may "minReadySeconds" .int32,
  may "ordinals" statefulSetOrdinals,
  may "persistentVolumeClaimRetentionPolicy" statefulSetPersistentVolumeClaimRetentionPolicy,
  may "podManagementPolicy" .text,
  may "replicas" .int32,
  may "revisionHistoryLimit" .int32,
  must "selector" labelSelector,
  must "serviceName" .text,
  must "template" podTemplateSpec,
  may "updateStrategy" statefulSetUpdateStrategy,
  may "volumeClaimTemplates" (.list persistentVolumeClaim)]

def statefulSetCondition : Shape := record "StatefulSetCondition" [
  may "lastTransitionTime" .time,
  may "message" .text,
  may "reason" .text,
  must "status" .text,
  must "type" .text]

def statefulSetStatus : Shape := record "StatefulSetStatus" [
  may "availableReplicas" .int32,
  may "collisionCount" .int32,
  may "conditions" (.list statefulSetCondition),
  may "currentReplicas" .int32,
  may "currentRevision" .text,
  may "observedGeneration" .int64,
  may "readyReplicas" .int32,
  must "replicas" .int32,
  may "updateRevision" .text,
  may "updatedReplicas" .int32]

def statefulSet : Shape := workload "apps/v1" "StatefulSet" statefulSetSpec statefulSetStatus

/-! ## Daemon sets -/

def rollingUpdateDaemonSet : Shape := record "RollingUpdateDaemonSet" [
  may "maxSurge" .intOrText,
  may "maxUnavailable" .intOrText]

def daemonSetUpdateStrategy : Shape := record "DaemonSetUpdateStrategy" [
  may "rollingUpdate" rollingUpdateDaemonSet,
  may "type" .text]

def daemonSetSpec : Shape := record "DaemonSetSpec" [
  may "minReadySeconds" .int32,
  may "revisionHistoryLimit" .int32,
  must "selector" labelSelector,
  must "template" podTemplateSpec,
  may "updateStrategy" daemonSetUpdateStrategy]

def daemonSetCondition : Shape := record "DaemonSetCondition" [
  may "lastTransitionTime" .time,
  may "message" .text,
  may "reason" .text,
  must "status" .text,
  must "type" .text]

def daemonSetStatus : Shape := record "DaemonSetStatus" [
  may "collisionCount" .int32,
  may "conditions" (.list daemonSetCondition),
  must "currentNumberScheduled" .int32,
  must "desiredNumberScheduled" .int32,
  may "numberAvailable" .int32,
  must "numberMisscheduled" .int32,
  must "numberReady" .int32,
  may "numberUnavailable" .int32,
  may "observedGeneration" .int64,
  may "updatedNumberScheduled" .int32]

def daemonSet : Shape := workload "apps/v1" "DaemonSet" daemonSetSpec daemonSetStatus

/-! ## Jobs -/

def podFailurePolicyOnExitCodesRequirement : Shape :=
  record "PodFailurePolicyOnExitCodesRequirement" [
    may "containerName" .text,
    must "operator" .text,
    must "values" (.list .int32)]

def podFailurePolicyOnPodConditionsPattern : Shape :=
  record "PodFailurePolicyOnPodConditionsPattern" [
    must "status" .text,
    must "type" .text]

def podFailurePolicyRule : Shape := record "PodFailurePolicyRule" [
  must "action" .text,
  may "onExitCodes" podFailurePolicyOnExitCodesRequirement,
  may "onPodConditions" (.list podFailurePolicyOnPodConditionsPattern)]

def podFailurePolicy : Shape := record "PodFailurePolicy" [
  must "rules" (.list podFailurePolicyRule)]

def jobSpec : Shape := record "JobSpec" [
  may "activeDeadlineSeconds" .int64,
  may "backoffLimit" .int32,
  may "backoffLimitPerIndex" .int32,
  may "completionMode" .text,
  may "completions" .int32,
  may "manualSelector" .bool,
  may "maxFailedIndexes" .int32,
  may "parallelism" .int32,
  may "podFailurePolicy" podFailurePolicy,
  may "podReplacementPolicy" .text,
  may "selector" labelSelector,
  may "suspend" .bool,
  must "template" podTemplateSpec,
  may "ttlSecondsAfterFinished" .int32]

def jobCondition : Shape := record "JobCondition" [
  may "lastProbeTime" .time,
  may "lastTransitionTime" .time,
  may "message" .text,
  may "reason" .text,
  must "status" .text,
  must "type" .text]

def uncountedTerminatedPods : Shape := record "UncountedTerminatedPods" [
  may "failed" texts,
  may "succeeded" texts]

def jobStatus : Shape := record "JobStatus" [
  may "active" .int32,
  may "completedIndexes" .text,
  may "completionTime" .time,
  may "conditions" (.list jobCondition),
  may "failed" .int32,
  may "failedIndexes" .text,
  may "ready" .int32,
  may "startTime" .time,
  may "succeeded" .int32,
  may "terminating" .int32,
  may "uncountedTerminatedPods" uncountedTerminatedPods]

def job : Shape := workload "batch/v1" "Job" jobSpec jobStatus

end WorkloadEnv.Kubernetes
