import ContainerAudit.Rule.BaseImage
import ContainerAudit.Rule.Command
import ContainerAudit.Rule.Copying
import ContainerAudit.Rule.Package
import ContainerAudit.Rule.Runtime
import ContainerAudit.Rule.Secret
import ContainerAudit.Rule.Service

/-!
# The catalogue of rules

Every rule of the audit with its particulars, in the order in which rules are listed and run.
-/

namespace ContainerAudit.Rule

/-- The rules on the security of images. -/
def imageSecurityRules : List Rule :=
  [{ id := "SEC-001", kind := .dockerfile, severity := .critical,
     title := "Docker socket exposed to the container", cwe := some "CWE-250",
     message := "Access to the Docker socket grants root-equivalent control of the host.",
     fix := some ("Remove the Docker socket reference; use a rootless builder or a socket proxy " ++
       "with an allow-list."),
     check := .ofDockerfile socketExposed },
   { id := "SEC-002", kind := .dockerfile, severity := .high,
     title := "Container runs as root", cwe := some "CWE-250",
     message := "The final stage never switches to a non-root USER.",
     fix := some "Create an unprivileged user and add `USER <name>` before CMD/ENTRYPOINT.",
     check := .ofDockerfile runsAsRoot },
   { id := "SEC-003", kind := .dockerfile, severity := .critical,
     title := "Secret baked into ENV/ARG", cwe := some "CWE-798",
     message := "Values set with ENV or ARG persist in image metadata and history.",
     fix := some ("Pass secrets at build time with `RUN --mount=type=secret` or inject them at " ++
       "runtime."),
     check := .ofDockerfile secretInVariable },
   { id := "SEC-004", kind := .dockerfile, severity := .high,
     title := "ADD downloads a remote URL", cwe := some "CWE-494",
     message := "Remote ADD fetches content without integrity verification.",
     fix := some ("Download with curl/wget and verify a checksum, or use " ++
       "`ADD --checksum=sha256:...`."),
     check := .ofDockerfile remoteAdd },
   { id := "SEC-005", kind := .dockerfile, severity := .high,
     title := "Remote script piped into a shell", cwe := some "CWE-494",
     message := "Piping a downloaded script into a shell executes unverified code.",
     fix := some "Download the script, verify its checksum or signature, then execute it.",
     check := .ofDockerfile scriptPiped },
   { id := "SEC-006", kind := .dockerfile, severity := .medium,
     title := "CMD/ENTRYPOINT in shell form",
     message := "Shell form runs the process under /bin/sh, which does not forward signals.",
     fix := some "Use exec form, e.g. CMD [\"npm\", \"start\"].",
     check := .ofDockerfile shellForm },
   { id := "SEC-007", kind := .dockerfile, severity := .medium,
     title := "sudo used in RUN", cwe := some "CWE-250",
     message := "sudo inside an image keeps a privilege-escalation path available at runtime.",
     fix := some "Run privileged steps before switching USER instead of invoking sudo.",
     check := .ofDockerfile sudoUsed },
   { id := "SEC-008", kind := .dockerfile, severity := .high,
     title := "World-writable permissions", cwe := some "CWE-732",
     message := "World-writable files let any process in the container tamper with them.",
     fix := some ("Grant the minimum permissions needed (e.g. 755 for directories, 644 for " ++
       "files) and set ownership with --chown."),
     check := .ofDockerfile worldWritable },
   { id := "SEC-009", kind := .dockerfile, severity := .medium,
     title := "Sensitive port exposed", cwe := some "CWE-668",
     message := "Administrative and database ports should not be published by application images.",
     fix := some ("Drop the EXPOSE entry and reach the service over an internal network or " ++
       "`docker exec`."),
     check := .ofDockerfile sensitivePort },
   { id := "SEC-010", kind := .dockerfile, severity := .critical,
     title := "Secret file persisted in an image layer", cwe := some "CWE-538",
     message := "Deleting a copied secret in a later layer leaves it recoverable from the " ++
       "earlier layer.",
     fix := some ("Mount the file with `RUN --mount=type=secret` or copy it only into a " ++
       "discarded build stage."),
     check := .ofDockerfile secretRemovedLater }]

def optimizationRules : List Rule :=
  [{ id := "OPT-001", kind := .dockerfile, severity := .medium, category := "optimization",
     title := "Base image not pinned",
     message := "Untagged or :latest base images make builds irreproducible.",
     fix := some "Pin a specific version tag, ideally with a digest (image:1.2.3@sha256:...).",
     check := .ofDockerfile unpinnedBase },
   { id := "OPT-002", kind := .dockerfile, severity := .medium, category := "optimization",
     title := "Bloated base image",
     message := "The runtime stage is built on a full OS or full language image.",
     fix := some "Use a slim, alpine or distroless variant for the final stage.",
     check := .ofDockerfile bloatedBase },
   { id := "OPT-003", kind := .dockerfile, severity := .medium, category := "optimization",
     title := "Build context copied before installing dependencies",
     message := "Copying the whole build context first invalidates the dependency layer on " ++
       "every source change.",
     fix := some ("Copy only dependency manifests (package.json, requirements.txt, ...), " ++
       "install, then copy the rest."),
     check := .ofDockerfile contextCopiedFirst },
   { id := "OPT-004", kind := .dockerfile, severity := .medium, category := "optimization",
     title := "apt lists not cleaned up",
     message := "apt package lists stay in the layer when not removed in the same RUN.",
     fix := some "Append `&& rm -rf /var/lib/apt/lists/*` to the install command.",
     check := .ofDockerfile aptListsLeft },
   { id := "OPT-005", kind := .dockerfile, severity := .medium, category := "optimization",
     title := "apt installs recommended packages",
     message := "Recommended packages add size the image rarely needs.",
     fix := some "Use `apt-get install --no-install-recommends`.",
     check := .ofDockerfile aptRecommends },
   { id := "OPT-006", kind := .dockerfile, severity := .medium, category := "optimization",
     title := "pip cache kept in image",
     message := "pip keeps downloaded wheels in its cache directory inside the layer.",
     fix := some "Use `pip install --no-cache-dir`.",
     check := .ofDockerfile pipCacheLeft },
   { id := "OPT-007", kind := .dockerfile, severity := .medium, category := "optimization",
     title := "apk cache kept in image",
     message := "apk keeps its package index in the layer unless told otherwise.",
     fix := some "Use `apk add --no-cache`.",
     check := .ofDockerfile apkCacheLeft },
   { id := "OPT-008", kind := .dockerfile, severity := .medium, category := "optimization",
     title := "Consecutive RUN instructions",
     message := "Each RUN adds a layer; adjacent RUN instructions can usually be merged.",
     fix := some "Combine adjacent RUN instructions with `&&`.",
     check := .ofDockerfile consecutiveRuns },
   { id := "OPT-009", kind := .dockerfile, severity := .medium, category := "optimization",
     title := "ADD used for local files",
     message := "ADD has implicit URL and archive behaviour; COPY is explicit for local files.",
     fix := some "Replace ADD with COPY.",
     check := .ofDockerfile addForLocal },
   { id := "OPT-010", kind := .dockerfile, severity := .medium, category := "optimization",
     title := "No HEALTHCHECK for an exposed service",
     message := "The image exposes a port but gives the runtime no way to check service health.",
     fix := some ("Add `HEALTHCHECK CMD curl -f http://localhost:<port>/ || exit 1` (or " ++
       "suppress when an orchestrator probes health)."),
     check := .ofDockerfile healthUnchecked },
   { id := "OPT-011", kind := .dockerfile, severity := .medium, category := "optimization",
     title := "Build toolchain shipped in a single-stage image",
     message := "Compilers and build tools installed in the only stage end up in the runtime " ++
       "image.",
     fix := some ("Use a multi-stage build: compile in a builder stage and COPY --from it into " ++
       "a slim runtime stage."),
     check := .ofDockerfile toolchainShipped },
   { id := "OPT-012", kind := .dockerfile, severity := .medium, category := "optimization",
     title := "Distribution upgrade inside the image",
     message := "apt upgrade makes the image depend on whatever the mirrors serve at build time.",
     fix := some "Pull a newer base image tag instead of upgrading packages in the Dockerfile.",
     check := .ofDockerfile upgradeInImage },
   { id := "OPT-013", kind := .dockerfile, severity := .medium, category := "optimization",
     title := "RUN cd instead of WORKDIR",
     message := "Changing directories inside RUN is hard to follow and does not persist across " ++
       "instructions.",
     fix := some "Set the directory with WORKDIR.",
     check := .ofDockerfile cdUsed }]

def catalogue : List Rule :=
  serviceRules ++ imageSecurityRules ++ optimizationRules

end ContainerAudit.Rule
