import ReleaseKeeper.Typed.Volume
/-!
# The shape of containers

What runs in a pod: images, environment, probes, resources and security settings, as in version 1.32
of the API (k8s-openapi).
-/
namespace ReleaseKeeper.Typed.Shape

def execAction : Shape := .record "ExecAction" [
  ("command", .list .text)]

def httpGetAction : Shape := .record "HTTPGetAction" [
  ("host", .text),
  ("httpHeaders", .list (.record "HTTPHeader" [("name", .text), ("value", .text)])),
  ("path", .text), ("port", .intOrText), ("scheme", .text)]

def tcpSocketAction : Shape := .record "TCPSocketAction" [
  ("host", .text), ("port", .intOrText)]

/-- What is done when a container starts or stops. -/
def lifecycleHandler : Shape := .record "LifecycleHandler" [
  ("exec", execAction), ("httpGet", httpGetAction),
  ("sleep", .record "SleepAction" [("seconds", .int64)]), ("tcpSocket", tcpSocketAction)]

def probe : Shape := .record "Probe" [
  ("exec", execAction), ("failureThreshold", .int32),
  ("grpc", .record "GRPCAction" [("port", .int32), ("service", .text)]), ("httpGet", httpGetAction),
  ("initialDelaySeconds", .int32), ("periodSeconds", .int32), ("successThreshold", .int32),
  ("tcpSocket", tcpSocketAction), ("terminationGracePeriodSeconds", .int64),
  ("timeoutSeconds", .int32)]

/-- What a container may use and asks for. -/
def resourceRequirements : Shape := .record "ResourceRequirements" [
  ("claims", .list (.record "ResourceClaim" [("name", .text), ("request", .text)])),
  ("limits", .dict .text), ("requests", .dict .text)]

def appArmorProfile : Shape := .record "AppArmorProfile" [
  ("localhostProfile", .text), ("type", .text)]

def seccompProfile : Shape := .record "SeccompProfile" [
  ("localhostProfile", .text), ("type", .text)]

def seLinuxOptions : Shape := .record "SELinuxOptions" [
  ("level", .text), ("role", .text), ("type", .text), ("user", .text)]

def windowsOptions : Shape := .record "WindowsSecurityContextOptions" [
  ("gmsaCredentialSpec", .text), ("gmsaCredentialSpecName", .text), ("hostProcess", .bool),
  ("runAsUserName", .text)]

def securityContext : Shape := .record "SecurityContext" [
  ("allowPrivilegeEscalation", .bool), ("appArmorProfile", appArmorProfile),
  ("capabilities", .record "Capabilities" [("add", .list .text), ("drop", .list .text)]),
  ("privileged", .bool), ("procMount", .text), ("readOnlyRootFilesystem", .bool),
  ("runAsGroup", .int64), ("runAsNonRoot", .bool), ("runAsUser", .int64),
  ("seLinuxOptions", seLinuxOptions), ("seccompProfile", seccompProfile),
  ("windowsOptions", windowsOptions)]

def keySelector (name : String) : Shape := .record name [
  ("key", .text), ("name", .text), ("optional", .bool)]

def envVar : Shape := .record "EnvVar" [
  ("name", .text), ("value", .text),
  ("valueFrom", .record "EnvVarSource" [
    ("configMapKeyRef", keySelector "ConfigMapKeySelector"), ("fieldRef", fieldReference),
    ("resourceFieldRef", resourceReference), ("secretKeyRef", keySelector "SecretKeySelector")])]

/-- An object whose entries become variables of the environment. -/
def envFromSource : Shape := .record "EnvFromSource" [
  ("configMapRef", .record "ConfigMapEnvSource" [("name", .text), ("optional", .bool)]),
  ("prefix", .text),
  ("secretRef", .record "SecretEnvSource" [("name", .text), ("optional", .bool)])]

def containerFields : List (String × Shape) := [
  ("args", .list .text), ("command", .list .text), ("env", .list envVar),
  ("envFrom", .list envFromSource), ("image", .text), ("imagePullPolicy", .text),
  ("lifecycle", .record "Lifecycle" [
    ("postStart", lifecycleHandler), ("preStop", lifecycleHandler)]),
  ("livenessProbe", probe), ("name", .text),
  ("ports", .list (.record "ContainerPort" [
    ("containerPort", .int32), ("hostIP", .text), ("hostPort", .int32), ("name", .text),
    ("protocol", .text)])),
  ("readinessProbe", probe),
  ("resizePolicy", .list (.record "ContainerResizePolicy" [
    ("resourceName", .text), ("restartPolicy", .text)])),
  ("resources", resourceRequirements), ("restartPolicy", .text),
  ("securityContext", securityContext), ("startupProbe", probe), ("stdin", .bool),
  ("stdinOnce", .bool), ("terminationMessagePath", .text), ("terminationMessagePolicy", .text),
  ("tty", .bool),
  ("volumeDevices", .list (.record "VolumeDevice" [("devicePath", .text), ("name", .text)])),
  ("volumeMounts", .list (.record "VolumeMount" [
    ("mountPath", .text), ("mountPropagation", .text), ("name", .text), ("readOnly", .bool),
    ("recursiveReadOnly", .text), ("subPath", .text), ("subPathExpr", .text)])),
  ("workingDir", .text)]

def container : Shape := .record "Container" containerFields

/-- A container that is added to a running pod. -/
def ephemeralContainer : Shape :=
  .record "EphemeralContainer" (containerFields ++ [("targetContainerName", .text)])

end ReleaseKeeper.Typed.Shape
