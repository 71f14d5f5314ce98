import ClusterConsole.Benchmark.Course
import ClusterConsole.Forwarding.Tunnel

/-!
# Errands

Transports and loads as they run: how one behaves is given beforehand, and a run
records how far it has come.
-/

namespace ClusterConsole.Background

open ClusterConsole.Status

/-- How a transport behaves: the ports it reports, if it reports any, and its
end. It ends at once or waits until it is called off; one that can break may end
otherwise while it waits. -/
structure Transport where
  report : Option (List Forwarding.Mapping)
  ending : Forwarding.Ending
  waits : Bool
  breakable : Bool
  deriving DecidableEq, Repr, Inhabited

/-- How a load behaves: it breaks off inside, or it gives its result after a
delay. One that is held waits for being called off first; the delay too ends when
the load is called off. -/
inductive LoadPlan where
  | aborts (text : String)
  | gives (held : Bool) (delay : Nat) (result : Except Chain Benchmark.Report)

/-- A transport that runs for a tunnel. -/
structure TunnelRun where
  tunnel : Forwarding.Tunnel
  transport : Transport
  started : Bool
  /-- The transport waits until it is called off or breaks. -/
  waiting : Bool
  /-- What it breaks with. -/
  broken : Option Forwarding.Ending
  /-- Something waits for the report of the ports. -/
  awaited : Bool
  deriving DecidableEq, Repr, Inhabited

def TunnelRun.ofSession (s : Forwarding.Session) (t : Transport) : TunnelRun :=
  ⟨Forwarding.Tunnel.ofSession s, t, false, false, none, false⟩

/-- A benchmark that runs. -/
structure BenchmarkRun where
  trial : Benchmark.Trial
  plan : LoadPlan

namespace BenchmarkRun

/-- Whether the load waits for something that being called off ends. -/
def idle (r : BenchmarkRun) : Bool :=
  match r.trial.progress with
  | .held | .delayed => true
  | _ => false

end BenchmarkRun

end ClusterConsole.Background
