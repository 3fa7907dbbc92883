import ContainerAudit.Rule.Basic

/-!
# Rules on the isolation of services

What a compose file may give to a service that takes away its isolation from the host. Services are
looked at in the order of their names.
-/

namespace ContainerAudit.Rule

open ContainerAudit.Compose (Service)
open ContainerAudit.Text (mapChars trim upper lower hasPart)

/-- The service by its name in messages. -/
def serviceName (s : Service) : String :=
  "Service '" ++ s.name ++ "'"

/-- The matches of all services in order. -/
def eachService (f : Service → List Match) (d : Compose.Document) : List Match :=
  d.sorted.flatMap f

def privilegedService (d : Compose.Document) (_ : Patterns) : List Match :=
  d |> eachService fun s =>
    if s.privileged = some true then
      [{ line := s.lineOf "privileged", text := "privileged: true",
         message := some (serviceName s ++ " runs privileged.") }]
    else []

/-- A mount of the Docker socket. -/
def mountsSocket (sockets : List String) (source : String) : Bool :=
  sockets.any fun socket => hasPart socket.toList source.toList

def socketMount (d : Compose.Document) (p : Patterns) : List Match :=
  d |> eachService fun s =>
    (s.volumes.filter fun m => mountsSocket (p.entries .dockerSocketPaths) m.source).map fun m =>
      { line := m.line, text := m.raw,
        message := some (serviceName s ++ " mounts the Docker socket.") }

/-! ## Security options -/

/-- The first occurrence of a character replaced by another. -/
def replaceFirst (a b : Char) : List Char → List Char
  | [] => []
  | c :: rest => if c = a then b :: rest else c :: replaceFirst a b rest

/-- A security option in its usual spelling: an equals sign may stand for the colon, and blanks and
case do not count. -/
def normalOption (option : String) : String :=
  mapChars (fun s => lower (Text.without ' ' (replaceFirst '=' ':' (trim s)))) option

/-- Pairs of texts in order. -/
def pairOrder (a b : String × String) : Bool :=
  decide (a.1 < b.1) || (a.1 == b.1 && decide (a.2 ≤ b.2))

/-- The security options of a service with their usual spelling, in the order of that. -/
def normalOptions (s : Service) : List (String × String) :=
  (s.securityOpt.map fun option => (normalOption option, option)).mergeSort pairOrder

/-- The matches for the security options of a service that are in a list. -/
def optionMatches (bad : List String) (message : Service → String → String) (s : Service) :
    List Match :=
  ((normalOptions s).filter fun (normal, _) => bad.contains normal).map fun (_, option) =>
    { line := s.lineOfItem "security_opt" option, text := option,
      message := some (message s option) }

/-- A service switches the filter of system calls off. -/
def seccompDisabled (d : Compose.Document) (_ : Patterns) : List Match :=
  d |> eachService (optionMatches ["seccomp:unconfined"] fun s _ =>
    serviceName s ++ " disables seccomp.")

/-- A service switches its access control profile off. -/
def profileDisabled (d : Compose.Document) (_ : Patterns) : List Match :=
  d |> eachService (optionMatches ["label:disable", "apparmor:unconfined"] fun s option =>
    serviceName s ++ " sets " ++ option ++ ".")

/-- A service can gain privileges. -/
def privilegesOpen (d : Compose.Document) (_ : Patterns) : List Match :=
  d |> eachService fun s =>
    let options := (normalOptions s).map (·.1)
    if options.contains "no-new-privileges:true" || options.contains "no-new-privileges" then []
    else
      [{ line := s.lineOf "security_opt", text := "service: " ++ s.name,
         message := some (serviceName s ++ " does not set no-new-privileges:true.") }]

/-! ## Namespaces, capabilities and file system -/

/-- The word is `host`, whatever its case and the blanks around it. -/
def isHost (word : Option String) : Bool :=
  mapChars (fun s => lower (trim s)) (word.getD "") == "host"

/-- A service uses the network of the host. -/
def hostNetwork (d : Compose.Document) (_ : Patterns) : List Match :=
  d |> eachService fun s =>
    if isHost s.networkMode then
      [{ line := s.lineOf "network_mode", text := "network_mode: " ++ s.networkMode.getD "",
         message := some (serviceName s ++ " uses the host network.") }]
    else []

/-- The matches for one namespace of a service. -/
def namespaceMatches (key label : String) (word : Option String) (s : Service) : List Match :=
  if isHost word then
    [{ line := s.lineOf key, text := key ++ ": " ++ word.getD "",
       message := some (serviceName s ++ " shares the host " ++ label ++ " namespace.") }]
  else []

/-- A service shares the processes or the memory of the host. -/
def hostNamespaces (d : Compose.Document) (_ : Patterns) : List Match :=
  d |> eachService fun s =>
    namespaceMatches "pid" "PID" s.pid s ++ namespaceMatches "ipc" "IPC" s.ipc s

/-- A capability in capitals and without `CAP_` in front. -/
def normalCapability (capability : String) : String :=
  mapChars (fun s =>
    let s := upper s
    if "CAP_".toList.isPrefixOf s then s.drop 4 else s) capability

/-- A service adds a capability that breaks its isolation. -/
def dangerousCapability (d : Compose.Document) (p : Patterns) : List Match :=
  let dangerous := (p.entries .dangerousCapabilities).map (mapChars upper)
  d |> eachService fun s =>
    (s.capAdd.filter fun c => dangerous.contains (normalCapability c)).map fun c =>
      { line := s.lineOfItem "cap_add" c, text := "cap_add: " ++ c,
        message := some (serviceName s ++ " adds " ++ c ++ ".") }

/-- A service says that it can write its file system. -/
def writableRoot (d : Compose.Document) (_ : Patterns) : List Match :=
  d |> eachService fun s =>
    if (s.lines.lookup "read_only").isSome && s.readOnly ≠ some true then
      let word := if s.readOnly = some false then "false" else "none"
      [{ line := s.lineOf "read_only", text := "read_only: " ++ word,
         message := some (serviceName s ++ " has a writable root filesystem.") }]
    else []

def serviceRules : List Rule :=
  [{ id := "COMPOSE-SEC-001", kind := .compose, severity := .critical,
     title := "Privileged container", cwe := some "CWE-250",
     message := "privileged: true disables nearly every isolation boundary between container " ++
       "and host.",
     fix := some ("Remove `privileged: true` and grant only the specific capabilities the " ++
       "service needs."),
     check := .ofCompose privilegedService },
   { id := "COMPOSE-SEC-002", kind := .compose, severity := .critical,
     title := "Docker socket mounted into a service", cwe := some "CWE-250",
     message := "Mounting the Docker socket gives the service root-equivalent control of the host.",
     fix := some "Remove the socket mount or front it with a read-only socket proxy.",
     check := .ofCompose socketMount },
   { id := "COMPOSE-SEC-003", kind := .compose, severity := .high,
     title := "Seccomp profile disabled", cwe := some "CWE-693",
     message := "seccomp:unconfined removes the syscall filter that blocks kernel attack surface.",
     fix := some "Drop `seccomp:unconfined` or supply a custom seccomp profile.",
     check := .ofCompose seccompDisabled },
   { id := "COMPOSE-SEC-004", kind := .compose, severity := .high,
     title := "Host network mode", cwe := some "CWE-668",
     message := "network_mode: host shares the host network stack with the container.",
     fix := some "Use a bridge network and publish only the required ports.",
     check := .ofCompose hostNetwork },
   { id := "COMPOSE-SEC-005", kind := .compose, severity := .high,
     title := "Dangerous capability added", cwe := some "CWE-250",
     message := "The added capability allows container escape or host tampering.",
     fix := some ("Remove the capability; start from `cap_drop: [ALL]` and add back only what " ++
       "is required."),
     check := .ofCompose dangerousCapability },
   { id := "COMPOSE-SEC-006", kind := .compose, severity := .high,
     title := "Host PID or IPC namespace shared", cwe := some "CWE-668",
     message := "Sharing the host PID or IPC namespace exposes host processes and memory to the " ++
       "container.",
     fix := some "Remove `pid: host` / `ipc: host`.",
     check := .ofCompose hostNamespaces },
   { id := "COMPOSE-SEC-007", kind := .compose, severity := .medium,
     title := "no-new-privileges not set", cwe := some "CWE-269",
     message := "Without no-new-privileges, setuid binaries can raise privileges inside the " ++
       "container.",
     fix := some "Add `security_opt: [\"no-new-privileges:true\"]`.",
     check := .ofCompose privilegesOpen },
   { id := "COMPOSE-SEC-008", kind := .compose, severity := .high,
     title := "SELinux/AppArmor confinement disabled", cwe := some "CWE-693",
     message := "Disabling the mandatory access control profile removes a container isolation " ++
       "layer.",
     fix := some "Remove `label:disable` / `apparmor:unconfined` or provide a tailored profile.",
     check := .ofCompose profileDisabled },
   { id := "COMPOSE-SEC-009", kind := .compose, severity := .medium,
     title := "Writable root filesystem", cwe := some "CWE-732",
     message := "read_only is explicitly disabled, so the container can modify its own filesystem.",
     fix := some "Set `read_only: true` and mount writable paths with tmpfs or volumes.",
     check := .ofCompose writableRoot }]

end ContainerAudit.Rule
