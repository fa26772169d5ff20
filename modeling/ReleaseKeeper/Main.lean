import ReleaseKeeper.CommandLine
import ReleaseKeeper.Definition.Basic
import ReleaseKeeper.Yaml.Writer
/-!
# The program

The program prints the definition of instances (`crd_yaml`), or keeps a release installed. The
latter takes a connection to a cluster.
-/
namespace ReleaseKeeper

open CommandLine

def usage : String := "\n".intercalate [
  "Serving operator - installs and manages Knative Serving",
  "",
  "Usage: serving-operator [OPTIONS] [COMMAND]",
  "",
  "Commands:",
  "  controller  Run the controller (default)",
  "  crd         Print the KnativeServing CRD and exit",
  "  help        Print this message",
  "",
  "Options:",
  "      --manifest-path <MANIFEST_PATH>          Manifest file or directory",
  "      --recursive                              Read manifests from sub-directories too",
  "      --operand-namespace <OPERAND_NAMESPACE>  Namespace of the default instance",
  "      --operand-name <OPERAND_NAME>            Name of the default instance",
  "      --log-format <LOG_FORMAT>                Log format: json or text",
  "      --requeue-seconds <REQUEUE_SECONDS>      Delay before another try",
  "  -h, --help                                   Print help",
  "  -V, --version                                Print version"]

def CommandLine.Refusal.message : Refusal → String
  | unknownArgument => "unexpected argument found"
  | unknownCommand => "unrecognized subcommand"
  | missingValue => "a value is required for an argument but none was supplied"
  | badValue => "invalid value for an argument"
  | repeated => "an argument cannot be used multiple times"
  | surplusValue => "unexpected value for an argument found"
  | help => usage
  | version => s!"serving-operator {releaseVersion}"

def environment : IO (Dict String) := do
  let found ← environmentNames.mapM fun (_, name) => return (← IO.getEnv name).map ((name, ·))
  return found.filterMap id

def complain (code : UInt32) (detail : String) : IO UInt32 := do
  IO.eprintln detail
  return code

def follow (s : Settings) : IO UInt32 := do
  if s.command = some .crd then
    IO.println (Yaml.Writer.write Definition.toJson)
    return 0
  match manifestPath? s (← IO.getEnv "KO_DATA_PATH") with
  | none => complain 1 s!"Error: {missingManifest}"
  | some _ => complain 1 "Error: failed to create kube client: no cluster is configured"

end ReleaseKeeper

def main (args : List String) : IO UInt32 := do
  match ReleaseKeeper.CommandLine.read (← ReleaseKeeper.environment) args with
  | .ok s => ReleaseKeeper.follow s
  | .error .help => IO.println ReleaseKeeper.usage; return 0
  | .error .version =>
    IO.println ReleaseKeeper.CommandLine.Refusal.version.message
    return 0
  | .error e => ReleaseKeeper.complain 2 s!"error: {e.message}"
