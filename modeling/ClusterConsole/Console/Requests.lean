import ClusterConsole.Console.State

/-!
# Forwards and benchmarks on request

A forward is asked for in the view of a pod's containers and taken down in the
view of forwards; both happen only after a question was answered. Benchmarks are
started and stopped at once.
-/

namespace ClusterConsole.Console

open ClusterConsole.Background (Surroundings)
open ClusterConsole.Resource ClusterConsole.Snapshot ClusterConsole.Status

/-- Asks a question and waits for the answer. -/
def ask (c : Console) (prompt : String) (intent : Intent) : Console :=
  { c with question := some ⟨prompt, intent⟩, mode := .confirm }

/-- The mapping that is asked for, or the one that the container's first usable
port suggests. -/
def wantedMapping? (c : Console) (row : Entry) (text : Option String) :
    Option Forwarding.Mapping :=
  match text with
  | some text => Forwarding.Mapping.read? text
  | none =>
      (c.table.kind.column? "PORTS").bind fun column =>
        (Forwarding.firstTcpPort? (row.field column)).map Forwarding.Mapping.same

/-- Asks whether the selected container shall be forwarded. -/
def requestForward (c : Console) (text : Option String) : Console :=
  if c.view.target.kind ≠ .containers then
    c.flash .warn "Port-forwards start from a container view"
  else
    match c.view.target.parent, c.selectedRow? with
    | some path, some row =>
        let container := row.field 0
        let fqn := containerKey path container
        if c.registry.contains fqn then c.flash .error (Failure.alreadyForwarded fqn).message
        else
          match Forwarding.Registry.ensureRunnable c.table fqn with
          | .error e => c.flash .error e.message
          | .ok () =>
              match c.wantedMapping? row text with
              | none => c.flash .error
                  ("No usable TCP port for " ++ fqn ++ "; try :pf <local>:<pod>")
              | some m =>
                  c.ask ("PortForward " ++ fqn ++ " localhost:" ++ toString m.localPort ++ " -> " ++
                    toString m.remotePort ++ "? [y/n]") (.forward path container m)
    | _, _ => c

/-- Starts a forward and gives the errand of its tunnel. -/
def startForward (c : Console) (s : Surroundings) (path container : String)
    (m : Forwarding.Mapping) : Console :=
  let fqn := containerKey path container
  match c.registry.start s.time fqn path container m with
  | .error e => c.flash .error e.message
  | .ok (registry, _) =>
      match registry.launch fqn with
      | .ok (registry, session) =>
          let c := { c with registry := registry, errands := c.errands ++ [Errand.tunnel session] }
          (c.inform ("Starting port-forward " ++ fqn ++ " " ++ m.text)).hydrate s
      | .error e => { c with registry := (registry.stop fqn).1 }.flash .error e.message

/-- Asks whether the selected forward shall be taken down. -/
def requestDelete (c : Console) : Console :=
  if c.view.target.kind ≠ .forwards then
    c.flash .warn "Only port-forwards can be deleted from here"
  else
    match c.selectedRow? with
    | none => c
    | some row => c.ask ("Delete port-forward " ++ row.fqn ++ "? [y/n]") (.deleteForward row.fqn)

/-- Takes a forward down. -/
def deleteForward (c : Console) (s : Surroundings) (fqn : String) : Console :=
  match c.registry.stop fqn with
  | (registry, some _) =>
      ({ c with registry := registry }.inform ("PortForward " ++ fqn ++ " deleted")).hydrate s
  | (_, none) => c.flash .warn ("No port-forward for " ++ fqn)

/-- Does what the operator has agreed to. -/
def carryOut (c : Console) (s : Surroundings) : Intent → Console
  | .forward path container m => c.startForward s path container m
  | .deleteForward fqn => c.deleteForward s fqn

/-- Starts a benchmark of the selected forward and gives its errand. -/
def startBenchmark (c : Console) (s : Surroundings) : Console :=
  if c.view.target.kind ≠ .forwards then
    c.flash .warn "Benchmarks run from the port-forwards view"
  else
    match c.selectedRow? with
    | none => c
    | some row =>
        match c.registry.get? row.fqn with
        | none => c.flash .error ("No port-forward for " ++ row.fqn)
        | some session =>
            if session.active then
              let settings := c.runner.resolve session.path session.container
              let target : Benchmark.Target := ⟨session.fqn, forwardUrl session settings, settings⟩
              match c.runner.run s.time target with
              | .ok (runner, id) =>
                  { c with
                    runner := runner
                    errands := c.errands ++ [Errand.benchmark id target] }.flash .warn
                      "Benchmark in progress..."
              | .error e => c.flash .error e.message
            else c.flash .warn ("PortForward " ++ row.fqn ++ " is not active yet")

/-- Calls the running benchmark off. -/
def stopBenchmark (c : Console) : Console :=
  match c.runner.cancel with
  | (runner, true) => { c with runner := runner }.flash .error "Benchmark canceled!"
  | (_, false) => c.inform "No benchmark running"

/-- Calls off all that is under way before the console is left. -/
def shutdown (c : Console) : Console :=
  { c with runner := c.runner.cancel.1, registry := c.registry.stopAll }

end ClusterConsole.Console
