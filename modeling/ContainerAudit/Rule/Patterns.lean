import ContainerAudit.Value

/-!
# Pattern tables

The words and file patterns that the heuristic rules look for. A configuration can replace any
table.
-/

namespace ContainerAudit

inductive Table where
  | dockerSocketPaths
  | secretNameKeywords
  | secretFilePatterns
  | sensitivePorts
  | dangerousCapabilities
  | bloatedBaseImages
  | slimTagMarkers
  | dependencyInstallCommands
  | buildToolchainPackages
  deriving DecidableEq, Repr

namespace Table

def all : List Table :=
  [dockerSocketPaths, secretNameKeywords, secretFilePatterns, sensitivePorts,
    dangerousCapabilities, bloatedBaseImages, slimTagMarkers, dependencyInstallCommands,
    buildToolchainPackages]

/-- The name of a table in configurations. -/
def name : Table → String
  | dockerSocketPaths => "docker_socket_paths"
  | secretNameKeywords => "secret_name_keywords"
  | secretFilePatterns => "secret_file_patterns"
  | sensitivePorts => "sensitive_ports"
  | dangerousCapabilities => "dangerous_capabilities"
  | bloatedBaseImages => "bloated_base_images"
  | slimTagMarkers => "slim_tag_markers"
  | dependencyInstallCommands => "dependency_install_commands"
  | buildToolchainPackages => "build_toolchain_packages"

def ofName? (name : String) : Option Table :=
  all.find? (·.name == name)

/-- The entries of a table where nothing replaces them. -/
def standard : Table → List String
  | dockerSocketPaths => ["/var/run/docker.sock", "/run/docker.sock"]
  | secretNameKeywords =>
    ["key", "secret", "password", "passwd", "token", "credential", "api_key"]
  | secretFilePatterns =>
    [".env", "*.env", "*.pem", "*.key", "*.p12", "*.pfx", "id_rsa", "id_dsa", "id_ecdsa",
      "id_ed25519", ".npmrc", ".pypirc", ".netrc", ".git-credentials", "credentials",
      "credentials.json", "secrets.*", "*secret*"]
  | sensitivePorts => ["22", "23", "2375", "2376", "3306", "5432", "6379", "9200", "27017"]
  | dangerousCapabilities =>
    ["ALL", "SYS_ADMIN", "NET_ADMIN", "SYS_PTRACE", "SYS_MODULE", "SYS_RAWIO", "SYS_BOOT",
      "SYS_TIME", "DAC_READ_SEARCH", "DAC_OVERRIDE", "BPF", "PERFMON", "MAC_ADMIN"]
  | bloatedBaseImages =>
    ["ubuntu", "debian", "centos", "fedora", "amazonlinux", "oraclelinux", "rockylinux",
      "almalinux", "node", "python", "ruby", "golang", "openjdk", "php", "perl", "rust",
      "buildpack-deps"]
  | slimTagMarkers => ["slim", "alpine", "distroless", "minimal", "chiseled"]
  | dependencyInstallCommands =>
    ["npm install", "npm ci", "yarn install", "pnpm install", "pip install", "pip3 install",
      "poetry install", "pipenv install", "bundle install", "composer install",
      "go mod download", "cargo fetch", "mvn dependency:go-offline", "gradle dependencies"]
  | buildToolchainPackages =>
    ["build-essential", "build-base", "gcc", "g++", "clang", "make", "cmake", "maven", "gradle",
      "golang"]

end Table

/-- The entries of all tables. -/
structure Patterns where
  entries : Table → List String

namespace Patterns

def standard : Patterns := ⟨Table.standard⟩

def replace (p : Patterns) (table : Table) (texts : List String) : Patterns :=
  ⟨fun t => if t = table then texts else p.entries t⟩

/-- Why tables cannot be replaced. -/
inductive Error where
  | unknownTable (name : Value)
  | notAList (table : Table)
  /-- An item of a table has no text. -/
  | unwritten (e : Value.TextError)

/-- The items of a value that is a list or a tuple. -/
def items? : Value → Option (List Value)
  | .list items => some items
  | .tuple items => some items
  | _ => none

/-- Replace tables by the entries of a map; the first entry that is not right stops it. -/
def merge (p : Patterns) : List (Value × Value) → Except Error Patterns
  | [] => .ok p
  | (name, value) :: rest =>
    match name.asText?.bind Table.ofName? with
    | some table =>
      match items? value with
      | some items =>
        match items.mapM Value.plain with
        | .ok texts => (p.replace table texts).merge rest
        | .error e => .error (.unwritten e)
      | none => .error (.notAList table)
    | none => .error (.unknownTable name)

def notAListText (table : Table) : String :=
  "pattern table '" ++ table.name ++ "' must be a list of strings"

end Patterns

end ContainerAudit
