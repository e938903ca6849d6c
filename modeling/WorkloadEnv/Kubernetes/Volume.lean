import WorkloadEnv.Kubernetes.Environment

/-! # Shapes of volumes

    Where the files of a pod come from, and the claims on persistent volumes. -/

namespace WorkloadEnv.Kubernetes

/-! ## Claims -/

def resourceClaim : Shape := record "ResourceClaim" [
  must "name" .text]

def resourceRequirements : Shape := record "ResourceRequirements" [
  may "claims" (.list resourceClaim),
  may "limits" quantityMap,
  may "requests" quantityMap]

def persistentVolumeClaimSpec : Shape := record "PersistentVolumeClaimSpec" [
  may "accessModes" texts,
  may "dataSource" typedLocalObjectReference,
  may "dataSourceRef" typedObjectReference,
  may "resources" resourceRequirements,
  may "selector" labelSelector,
  may "storageClassName" .text,
  may "volumeMode" .text,
  may "volumeName" .text]

def persistentVolumeClaimTemplate : Shape := record "PersistentVolumeClaimTemplate" [
  may "metadata" objectMeta,
  must "spec" persistentVolumeClaimSpec]

def persistentVolumeClaimCondition : Shape := record "PersistentVolumeClaimCondition" [
  may "lastProbeTime" .time,
  may "lastTransitionTime" .time,
  may "message" .text,
  may "reason" .text,
  must "status" .text,
  must "type" .text]

def persistentVolumeClaimStatus : Shape := record "PersistentVolumeClaimStatus" [
  may "accessModes" texts,
  may "allocatedResourceStatuses" textMap,
  may "allocatedResources" quantityMap,
  may "capacity" quantityMap,
  may "conditions" (.list persistentVolumeClaimCondition),
  may "phase" .text]

def persistentVolumeClaim : Shape := .record "PersistentVolumeClaim"
  [("apiVersion", "v1"), ("kind", "PersistentVolumeClaim")] [
  must "metadata" objectMeta,
  may "spec" persistentVolumeClaimSpec,
  may "status" persistentVolumeClaimStatus]

/-! ## Files from objects of the cluster -/

def keyToPath : Shape := record "KeyToPath" [
  must "key" .text,
  may "mode" .int32,
  must "path" .text]

def configMapVolumeSource : Shape := record "ConfigMapVolumeSource" [
  may "defaultMode" .int32,
  may "items" (.list keyToPath),
  must "name" .text,
  may "optional" .bool]

def secretVolumeSource : Shape := record "SecretVolumeSource" [
  may "defaultMode" .int32,
  may "items" (.list keyToPath),
  may "optional" .bool,
  may "secretName" .text]

def downwardAPIVolumeFile : Shape := record "DownwardAPIVolumeFile" [
  may "fieldRef" objectFieldSelector,
  may "mode" .int32,
  must "path" .text,
  may "resourceFieldRef" resourceFieldSelector]

def downwardAPIVolumeSource : Shape := record "DownwardAPIVolumeSource" [
  may "defaultMode" .int32,
  may "items" (.list downwardAPIVolumeFile)]

def configMapProjection : Shape := record "ConfigMapProjection" [
  may "items" (.list keyToPath),
  must "name" .text,
  may "optional" .bool]

def secretProjection : Shape := record "SecretProjection" [
  may "items" (.list keyToPath),
  must "name" .text,
  may "optional" .bool]

def downwardAPIProjection : Shape := record "DownwardAPIProjection" [
  may "items" (.list downwardAPIVolumeFile)]

def serviceAccountTokenProjection : Shape := record "ServiceAccountTokenProjection" [
  may "audience" .text,
  may "expirationSeconds" .int64,
  must "path" .text]

def volumeProjection : Shape := record "VolumeProjection" [
  may "configMap" configMapProjection,
  may "downwardAPI" downwardAPIProjection,
  may "secret" secretProjection,
  may "serviceAccountToken" serviceAccountTokenProjection]

def projectedVolumeSource : Shape := record "ProjectedVolumeSource" [
  may "defaultMode" .int32,
  may "sources" (.list volumeProjection)]

def ephemeralVolumeSource : Shape := record "EphemeralVolumeSource" [
  may "volumeClaimTemplate" persistentVolumeClaimTemplate]

def persistentVolumeClaimVolumeSource : Shape := record "PersistentVolumeClaimVolumeSource" [
  must "claimName" .text,
  may "readOnly" .bool]

/-! ## Files of the node -/

def emptyDirVolumeSource : Shape := record "EmptyDirVolumeSource" [
  may "medium" .text,
  may "sizeLimit" quantity]

def gitRepoVolumeSource : Shape := record "GitRepoVolumeSource" [
  may "directory" .text,
  must "repository" .text,
  may "revision" .text]

def hostPathVolumeSource : Shape := record "HostPathVolumeSource" [
  must "path" .text,
  may "type" .text]

/-! ## Disks and file servers -/

def awsElasticBlockStoreVolumeSource : Shape := record "AWSElasticBlockStoreVolumeSource" [
  may "fsType" .text,
  may "partition" .int32,
  may "readOnly" .bool,
  must "volumeID" .text]

def azureDiskVolumeSource : Shape := record "AzureDiskVolumeSource" [
  may "cachingMode" .text,
  must "diskName" .text,
  must "diskURI" .text,
  may "fsType" .text,
  may "kind" .text,
  may "readOnly" .bool]

def azureFileVolumeSource : Shape := record "AzureFileVolumeSource" [
  may "readOnly" .bool,
  must "secretName" .text,
  must "shareName" .text]

def cephFSVolumeSource : Shape := record "CephFSVolumeSource" [
  must "monitors" texts,
  may "path" .text,
  may "readOnly" .bool,
  may "secretFile" .text,
  may "secretRef" localObjectReference,
  may "user" .text]

def cinderVolumeSource : Shape := record "CinderVolumeSource" [
  may "fsType" .text,
  may "readOnly" .bool,
  may "secretRef" localObjectReference,
  must "volumeID" .text]

def csiVolumeSource : Shape := record "CSIVolumeSource" [
  must "driver" .text,
  may "fsType" .text,
  may "nodePublishSecretRef" localObjectReference,
  may "readOnly" .bool,
  may "volumeAttributes" textMap]

def fcVolumeSource : Shape := record "FCVolumeSource" [
  may "fsType" .text,
  may "lun" .int32,
  may "readOnly" .bool,
  may "targetWWNs" texts,
  may "wwids" texts]

def flexVolumeSource : Shape := record "FlexVolumeSource" [
  must "driver" .text,
  may "fsType" .text,
  may "options" textMap,
  may "readOnly" .bool,
  may "secretRef" localObjectReference]

def flockerVolumeSource : Shape := record "FlockerVolumeSource" [
  may "datasetName" .text,
  may "datasetUUID" .text]

def gcePersistentDiskVolumeSource : Shape := record "GCEPersistentDiskVolumeSource" [
  may "fsType" .text,
  may "partition" .int32,
  must "pdName" .text,
  may "readOnly" .bool]

def glusterfsVolumeSource : Shape := record "GlusterfsVolumeSource" [
  must "endpoints" .text,
  must "path" .text,
  may "readOnly" .bool]

def iscsiVolumeSource : Shape := record "ISCSIVolumeSource" [
  may "chapAuthDiscovery" .bool,
  may "chapAuthSession" .bool,
  may "fsType" .text,
  may "initiatorName" .text,
  must "iqn" .text,
  may "iscsiInterface" .text,
  must "lun" .int32,
  may "portals" texts,
  may "readOnly" .bool,
  may "secretRef" localObjectReference,
  must "targetPortal" .text]

def nfsVolumeSource : Shape := record "NFSVolumeSource" [
  must "path" .text,
  may "readOnly" .bool,
  must "server" .text]

def photonPersistentDiskVolumeSource : Shape := record "PhotonPersistentDiskVolumeSource" [
  may "fsType" .text,
  must "pdID" .text]

def portworxVolumeSource : Shape := record "PortworxVolumeSource" [
  may "fsType" .text,
  may "readOnly" .bool,
  must "volumeID" .text]

def quobyteVolumeSource : Shape := record "QuobyteVolumeSource" [
  may "group" .text,
  may "readOnly" .bool,
  must "registry" .text,
  may "tenant" .text,
  may "user" .text,
  must "volume" .text]

def rbdVolumeSource : Shape := record "RBDVolumeSource" [
  may "fsType" .text,
  must "image" .text,
  may "keyring" .text,
  must "monitors" texts,
  may "pool" .text,
  may "readOnly" .bool,
  may "secretRef" localObjectReference,
  may "user" .text]

def scaleIOVolumeSource : Shape := record "ScaleIOVolumeSource" [
  may "fsType" .text,
  must "gateway" .text,
  may "protectionDomain" .text,
  may "readOnly" .bool,
  must "secretRef" localObjectReference,
  may "sslEnabled" .bool,
  may "storageMode" .text,
  may "storagePool" .text,
  must "system" .text,
  may "volumeName" .text]

def storageOSVolumeSource : Shape := record "StorageOSVolumeSource" [
  may "fsType" .text,
  may "readOnly" .bool,
  may "secretRef" localObjectReference,
  may "volumeName" .text,
  may "volumeNamespace" .text]

def vsphereVirtualDiskVolumeSource : Shape := record "VsphereVirtualDiskVolumeSource" [
  may "fsType" .text,
  may "storagePolicyID" .text,
  may "storagePolicyName" .text,
  must "volumePath" .text]

/-! ## Volumes -/

def volume : Shape := record "Volume" [
  may "awsElasticBlockStore" awsElasticBlockStoreVolumeSource,
  may "azureDisk" azureDiskVolumeSource,
  may "azureFile" azureFileVolumeSource,
  may "cephfs" cephFSVolumeSource,
  may "cinder" cinderVolumeSource,
  may "configMap" configMapVolumeSource,
  may "csi" csiVolumeSource,
  may "downwardAPI" downwardAPIVolumeSource,
  may "emptyDir" emptyDirVolumeSource,
  may "ephemeral" ephemeralVolumeSource,
  may "fc" fcVolumeSource,
  may "flexVolume" flexVolumeSource,
  may "flocker" flockerVolumeSource,
  may "gcePersistentDisk" gcePersistentDiskVolumeSource,
  may "gitRepo" gitRepoVolumeSource,
  may "glusterfs" glusterfsVolumeSource,
  may "hostPath" hostPathVolumeSource,
  may "iscsi" iscsiVolumeSource,
  must "name" .text,
  may "nfs" nfsVolumeSource,
  may "persistentVolumeClaim" persistentVolumeClaimVolumeSource,
  may "photonPersistentDisk" photonPersistentDiskVolumeSource,
  may "portworxVolume" portworxVolumeSource,
  may "projected" projectedVolumeSource,
  may "quobyte" quobyteVolumeSource,
  may "rbd" rbdVolumeSource,
  may "scaleIO" scaleIOVolumeSource,
  may "secret" secretVolumeSource,
  may "storageos" storageOSVolumeSource,
  may "vsphereVolume" vsphereVirtualDiskVolumeSource]

end WorkloadEnv.Kubernetes
