import ReleaseKeeper.Typed.Shape
/-!
# The shape of volumes

Where the files of a volume come from, and the references that such sources hold, as in version 1.32
of the API (k8s-openapi).
-/
namespace ReleaseKeeper.Typed.Shape

def labelSelectorRequirement : Shape := .record "LabelSelectorRequirement" [
  ("key", .text), ("operator", .text), ("values", .list .text)]

/-- A choice of objects by their labels. -/
def labelSelector : Shape := .record "LabelSelector" [
  ("matchExpressions", .list labelSelectorRequirement), ("matchLabels", .dict .text)]

def localReference : Shape := .record "LocalObjectReference" [
  ("name", .text)]

/-- A field of the pod. -/
def fieldReference : Shape := .record "ObjectFieldSelector" [
  ("apiVersion", .text), ("fieldPath", .text)]

/-- A resource of a container. -/
def resourceReference : Shape := .record "ResourceFieldSelector" [
  ("containerName", .text), ("divisor", .text), ("resource", .text)]

/-- A key and the path that it is written to. -/
def keyToPath : Shape := .record "KeyToPath" [
  ("key", .text), ("mode", .int32), ("path", .text)]

/-- A file that holds a field of the pod. -/
def downwardFile : Shape := .record "DownwardAPIVolumeFile" [
  ("fieldRef", fieldReference), ("mode", .int32), ("path", .text),
  ("resourceFieldRef", resourceReference)]

def claimSpec : Shape := .record "PersistentVolumeClaimSpec" [
  ("accessModes", .list .text),
  ("dataSource", .record "TypedLocalObjectReference" [
    ("apiGroup", .text), ("kind", .text), ("name", .text)]),
  ("dataSourceRef", .record "TypedObjectReference" [
    ("apiGroup", .text), ("kind", .text), ("name", .text), ("namespace", .text)]),
  ("resources", .record "VolumeResourceRequirements" [
    ("limits", .dict .text), ("requests", .dict .text)]),
  ("selector", labelSelector), ("storageClassName", .text), ("volumeAttributesClassName", .text),
  ("volumeMode", .text), ("volumeName", .text)]

def claimTemplate : Shape := .record "PersistentVolumeClaimTemplate" [
  ("metadata", .metadata), ("spec", claimSpec)]

/-- One of the sources that share a volume. -/
def projection : Shape := .record "VolumeProjection" [
  ("clusterTrustBundle", .record "ClusterTrustBundleProjection" [
    ("labelSelector", labelSelector), ("name", .text), ("optional", .bool), ("path", .text),
    ("signerName", .text)]),
  ("configMap", .record "ConfigMapProjection" [
    ("items", .list keyToPath), ("name", .text), ("optional", .bool)]),
  ("downwardAPI", .record "DownwardAPIProjection" [("items", .list downwardFile)]),
  ("secret", .record "SecretProjection" [
    ("items", .list keyToPath), ("name", .text), ("optional", .bool)]),
  ("serviceAccountToken", .record "ServiceAccountTokenProjection" [
    ("audience", .text), ("expirationSeconds", .int64), ("path", .text)])]

def volume : Shape := .record "Volume" [
  ("awsElasticBlockStore", .record "AWSElasticBlockStoreVolumeSource" [
    ("fsType", .text), ("partition", .int32), ("readOnly", .bool), ("volumeID", .text)]),
  ("azureDisk", .record "AzureDiskVolumeSource" [
    ("cachingMode", .text), ("diskName", .text), ("diskURI", .text), ("fsType", .text),
    ("kind", .text), ("readOnly", .bool)]),
  ("azureFile", .record "AzureFileVolumeSource" [
    ("readOnly", .bool), ("secretName", .text), ("shareName", .text)]),
  ("cephfs", .record "CephFSVolumeSource" [
    ("monitors", .list .text), ("path", .text), ("readOnly", .bool), ("secretFile", .text),
    ("secretRef", localReference), ("user", .text)]),
  ("cinder", .record "CinderVolumeSource" [
    ("fsType", .text), ("readOnly", .bool), ("secretRef", localReference), ("volumeID", .text)]),
  ("configMap", .record "ConfigMapVolumeSource" [
    ("defaultMode", .int32), ("items", .list keyToPath), ("name", .text), ("optional", .bool)]),
  ("csi", .record "CSIVolumeSource" [
    ("driver", .text), ("fsType", .text), ("nodePublishSecretRef", localReference),
    ("readOnly", .bool), ("volumeAttributes", .dict .text)]),
  ("downwardAPI", .record "DownwardAPIVolumeSource" [
    ("defaultMode", .int32), ("items", .list downwardFile)]),
  ("emptyDir", .record "EmptyDirVolumeSource" [("medium", .text), ("sizeLimit", .text)]),
  ("ephemeral", .record "EphemeralVolumeSource" [("volumeClaimTemplate", claimTemplate)]),
  ("fc", .record "FCVolumeSource" [
    ("fsType", .text), ("lun", .int32), ("readOnly", .bool), ("targetWWNs", .list .text),
    ("wwids", .list .text)]),
  ("flexVolume", .record "FlexVolumeSource" [
    ("driver", .text), ("fsType", .text), ("options", .dict .text), ("readOnly", .bool),
    ("secretRef", localReference)]),
  ("flocker", .record "FlockerVolumeSource" [("datasetName", .text), ("datasetUUID", .text)]),
  ("gcePersistentDisk", .record "GCEPersistentDiskVolumeSource" [
    ("fsType", .text), ("partition", .int32), ("pdName", .text), ("readOnly", .bool)]),
  ("gitRepo", .record "GitRepoVolumeSource" [
    ("directory", .text), ("repository", .text), ("revision", .text)]),
  ("glusterfs", .record "GlusterfsVolumeSource" [
    ("endpoints", .text), ("path", .text), ("readOnly", .bool)]),
  ("hostPath", .record "HostPathVolumeSource" [("path", .text), ("type", .text)]),
  ("image", .record "ImageVolumeSource" [("pullPolicy", .text), ("reference", .text)]),
  ("iscsi", .record "ISCSIVolumeSource" [
    ("chapAuthDiscovery", .bool), ("chapAuthSession", .bool), ("fsType", .text),
    ("initiatorName", .text), ("iqn", .text), ("iscsiInterface", .text), ("lun", .int32),
    ("portals", .list .text), ("readOnly", .bool), ("secretRef", localReference),
    ("targetPortal", .text)]),
  ("name", .text),
  ("nfs", .record "NFSVolumeSource" [("path", .text), ("readOnly", .bool), ("server", .text)]),
  ("persistentVolumeClaim", .record "PersistentVolumeClaimVolumeSource" [
    ("claimName", .text), ("readOnly", .bool)]),
  ("photonPersistentDisk", .record "PhotonPersistentDiskVolumeSource" [
    ("fsType", .text), ("pdID", .text)]),
  ("portworxVolume", .record "PortworxVolumeSource" [
    ("fsType", .text), ("readOnly", .bool), ("volumeID", .text)]),
  ("projected", .record "ProjectedVolumeSource" [
    ("defaultMode", .int32), ("sources", .list projection)]),
  ("quobyte", .record "QuobyteVolumeSource" [
    ("group", .text), ("readOnly", .bool), ("registry", .text), ("tenant", .text),
    ("user", .text), ("volume", .text)]),
  ("rbd", .record "RBDVolumeSource" [
    ("fsType", .text), ("image", .text), ("keyring", .text), ("monitors", .list .text),
    ("pool", .text), ("readOnly", .bool), ("secretRef", localReference), ("user", .text)]),
  ("scaleIO", .record "ScaleIOVolumeSource" [
    ("fsType", .text), ("gateway", .text), ("protectionDomain", .text), ("readOnly", .bool),
    ("secretRef", localReference), ("sslEnabled", .bool), ("storageMode", .text),
    ("storagePool", .text), ("system", .text), ("volumeName", .text)]),
  ("secret", .record "SecretVolumeSource" [
    ("defaultMode", .int32), ("items", .list keyToPath), ("optional", .bool),
    ("secretName", .text)]),
  ("storageos", .record "StorageOSVolumeSource" [
    ("fsType", .text), ("readOnly", .bool), ("secretRef", localReference), ("volumeName", .text),
    ("volumeNamespace", .text)]),
  ("vsphereVolume", .record "VsphereVirtualDiskVolumeSource" [
    ("fsType", .text), ("storagePolicyID", .text), ("storagePolicyName", .text),
    ("volumePath", .text)])]

end ReleaseKeeper.Typed.Shape
