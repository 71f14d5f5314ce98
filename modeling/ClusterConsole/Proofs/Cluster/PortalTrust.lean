import ClusterConsole.Proofs.Cluster.PortalCourse

/-!
# What a portal can be trusted for

Of a portal in any of its courses the events so far tell what it has reported and what it may
have returned (`portals_are_trustworthy`): it was ready if the pod was found and all ports are
bound, it returns well only if it was called off, and badly only for a fault of the tunnel
itself. What happens to single connections does not end it (`Event.Harmless`), and whatever it
returns, nothing of it stays open. It is never kept from returning once it is called off.
-/

namespace ClusterConsole.Cluster

open ClusterConsole.Resource ClusterConsole.Status
open ClusterConsole.Forwarding (Mapping)

namespace Portal

variable {server : Server} {path : String} {ports : List Mapping} {es : List Event} {p : Portal}
  {l : AcceptLoop} {outcome : Except PortalFault Unit}

theorem openPorts_of_ended (hbound : p.bound = []) (hloops : ∀ l ∈ p.loops, l.running = false) :
    p.openPorts = [] := by
  rw [openPorts, hbound, List.filter_eq_nil_iff.2 fun l hl => by simp [hloops l hl]]
  rfl

theorem Idle.openPorts (h : p.Idle) : p.openPorts = [] :=
  openPorts_of_ended h.bound fun l hl => by rw [h.loops] at hl; cases hl

/-- Nothing has come of the event that is not the matter of one connection. -/
def Event.Harmless : Event → Prop
  | .calledOff | .loop _ (.refused _) | .loop _ (.broke _)
  | .loop _ (.relayEnded _ (.unopened _)) => False
  | _ => True

theorem not_justified_of_harmless (h : ∀ e ∈ es, e.Harmless) :
    ¬Justified path ports es outcome := by
  intro houtcome
  cases outcome with
  | ok => exact h _ houtcome
  | error fault =>
      cases fault with
      | podMissing | unbound => exact houtcome
      | notAccepted | loopAborted =>
          obtain ⟨i, hi⟩ := houtcome
          exact h _ hi
      | unopened =>
          obtain ⟨-, i, k, m, -, -, he⟩ := houtcome
          exact h _ he

/-- A loop that nothing has happened to but harm to its connections is running. -/
theorem Opened.running (h : Opened server path ports es p) (hes : ∀ e ∈ es, e.Harmless)
    (hl : l ∈ p.loops) (hstopped : l.ending ≠ some .stopped) : l.running = true := by
  obtain ⟨i, hi⟩ := List.mem_iff_getElem?.1 hl
  have hresult : l.result? = none := by
    cases hresult : l.result? with
    | none => rfl
    | some outcome =>
        exact absurd ((h.accounts i l hi).result outcome hresult) (not_justified_of_harmless hes)
  rw [AcceptLoop.result?] at hresult
  rw [AcceptLoop.running]
  cases hending : l.ending with
  | none => rfl
  | some ending =>
      rw [hending] at hresult hstopped
      cases ending with
      | stopped => exact absurd rfl hstopped
      | returned | aborted => cases hresult

/-- What a portal reports and returns can be trusted. -/
structure Trustworthy (server : Server) (path : String) (ports : List Mapping) (es : List Event)
    (p : Portal) : Prop where
  /-- The ports are reported once at most, -/
  once : p.signals = [] ∨ p.signals = [ports]
  /-- as soon as the pod was found and all of them are bound. -/
  ready : p.signals = [ports] ↔ .fetched ∈ es ∧ Found server path ∧ (opening es).bound = ports
  /-- Without the pod or one of the ports that is what is returned, and nothing stays open. -/
  missing : .fetched ∈ es → ¬Found server path →
    (∃ why, p.result = some (.error ["failed to fetch pod " ++ path, why])) ∧ p.signals = [] ∧
      p.openPorts = []
  unbound : ∀ m reason, .unbound m reason ∈ es →
    p.result = some (.error ["failed to bind localhost:" ++ toString m.localPort, reason]) ∧
      p.signals = [] ∧ p.openPorts = []
  /-- All ends well only if the portal was ready and was called off. -/
  ok : p.result = some (.ok ()) → p.signals = [ports] ∧ .calledOff ∈ es
  /-- A portal that was ready fails for a connection that was not opened at the far end, or a
  loop that could not take connections in or broke off inside. -/
  failed : ∀ chain, p.result = some (.error chain) → p.signals = [ports] →
    ∃ fault : PortalFault, chain = fault.chain ∧ Blamed path ports es fault
  /-- It is not ended by relays that break or break off inside: all ports stay open. -/
  harmless : (∀ e ∈ es, e.Harmless) → p.signals = [ports] →
    p.result = none ∧ (∀ l ∈ p.loops, l.running = true) ∧ p.openPorts = ports
  /-- Called off while it serves it can return, and well, -/
  leaves : p.stage = .serving → ∃ es', Reached server path ports (es ++ es') p.callOff ∧
    p.callOff.result = some (.ok ())
  /-- and once it knows what to return it can return that. -/
  closes : ∀ outcome, p.stage = .closing outcome →
    ∃ es' q, Reached server path ports (es ++ es') q ∧
      q.result = some (outcome.mapError PortalFault.chain)
  /-- Once it has returned no loop is running and no port is open. -/
  returned : p.result.isSome = true →
    (∀ l ∈ p.loops, l.running = false) ∧ p.openPorts = []

theorem Reached.closes (h : Reached server path ports es p) (hstage : p.stage = .closing outcome) :
    ∃ es' q, Reached server path ports (es ++ es') q ∧
      q.result = some (outcome.mapError PortalFault.chain) := by
  obtain ⟨es', hclosed⟩ := exists_reached_close h hstage
  exact ⟨es', _, hclosed, rfl⟩

/-- Before it is ready there is nothing to a portal but what it returns. -/
theorem trustworthy_of_unready (h : Reached server path ports es p) (hsignals : p.signals = [])
    (hready : ¬(.fetched ∈ es ∧ Found server path ∧ (opening es).bound = ports))
    (hmissing : .fetched ∈ es → ¬Found server path →
      ∃ why, p.result = some (.error ["failed to fetch pod " ++ path, why]))
    (hunbound : ∀ m reason, .unbound m reason ∈ es →
      p.result = some (.error ["failed to bind localhost:" ++ toString m.localPort, reason]))
    (hresult : p.result = none ∨ p.Idle ∧ ∃ chain, p.result = some (.error chain)) :
    Trustworthy server path ports es p := by
  have hidle (h : p.result ≠ none) : p.Idle := (hresult.resolve_left h).1
  have hnone : p.signals ≠ [ports] := by simp [hsignals]
  constructor
  case once => exact .inl hsignals
  case ready => exact iff_of_false hnone hready
  case missing =>
    intro hfetched hfound
    obtain ⟨why, h⟩ := hmissing hfetched hfound
    exact ⟨⟨why, h⟩, hsignals, (hidle (by simp [h])).openPorts⟩
  case unbound =>
    intro m reason he
    have h := hunbound m reason he
    exact ⟨h, hsignals, (hidle (by simp [h])).openPorts⟩
  case ok =>
    intro h
    obtain hnothing | ⟨-, chain, herror⟩ := hresult
    · simp [hnothing] at h
    · simp [herror] at h
  case failed => exact fun _ _ h => absurd h hnone
  case harmless => exact fun _ h => absurd h hnone
  case leaves => exact exists_reached_callOff h
  case closes => exact fun _ => h.closes
  case returned =>
    intro h
    have hi := hidle (Option.isSome_iff_ne_none.1 h)
    refine ⟨fun l hl => ?_, hi.openPorts⟩
    rw [hi.loops] at hl
    cases hl

theorem Course.of_result (h : Course path ports es p) {r : Except Chain Unit}
    (hr : p.result = some r) : ∃ outcome : Except PortalFault Unit,
      r = outcome.mapError PortalFault.chain ∧ Justified path ports es outcome ∧
        ∀ l ∈ p.loops, l.running = false := by
  cases h with
  | serving hs | closing hs => rw [result, hs] at hr; cases hr
  | @closed outcome hs houtcome hloops =>
      rw [result, hs] at hr
      exact ⟨outcome, (Option.some.inj hr).symm, houtcome, hloops⟩

theorem Opened.trustworthy (h : Opened server path ports es p) (hcourse : Course path ports es p)
    (hreached : Reached server path ports es p) : Trustworthy server path ports es p := by
  constructor
  case once => exact .inr h.signals
  case ready =>
    have hbound : (Portal.opening es).bound = ports := by rw [h.opening]
    exact iff_of_true h.signals ⟨answered_opening.1 (by rw [h.opening]), h.found, hbound⟩
  case missing => exact fun _ hfound => absurd h.found hfound
  case unbound =>
    intro m reason he
    rw [← mem_unbound_opening, h.opening] at he
    cases he
  case ok =>
    intro hresult
    obtain ⟨outcome, heq, houtcome, -⟩ := hcourse.of_result hresult
    cases outcome with
    | ok => exact ⟨h.signals, houtcome⟩
    | error => cases heq
  case failed =>
    intro chain hresult _
    obtain ⟨outcome, heq, houtcome, -⟩ := hcourse.of_result hresult
    cases outcome with
    | ok => cases heq
    | error fault => exact ⟨fault, Except.error.inj heq, houtcome⟩
  case harmless =>
    intro hes _
    cases hcourse with
    | closing _ houtcome => exact absurd houtcome (not_justified_of_harmless hes)
    | closed _ houtcome => exact absurd houtcome (not_justified_of_harmless hes)
    | serving hs hstopped =>
        have hrunning : ∀ l ∈ p.loops, l.running = true := fun l hl =>
          h.running hes hl (hstopped l hl)
        refine ⟨by rw [result, hs], hrunning, ?_⟩
        rw [openPorts, h.bound, List.filter_eq_self.2 hrunning]
        exact h.mappings
  case leaves => exact exists_reached_callOff hreached
  case closes => exact fun _ => hreached.closes
  case returned =>
    intro hresult
    obtain ⟨r, hr⟩ := Option.isSome_iff_exists.1 hresult
    obtain ⟨-, -, -, hloops⟩ := hcourse.of_result hr
    exact ⟨hloops, openPorts_of_ended h.bound hloops⟩

/-- The signal and the outcome of a portal can be trusted, in whatever order things happen. -/
theorem portals_are_trustworthy (h : Reached server path ports es p) :
    Trustworthy server path ports es p := by
  have hstanding := h.sound.standing
  have hanswered {o : Opening} (h : opening es = o) : .fetched ∈ es ↔ o.answered = true :=
    h ▸ answered_opening.symm
  have hunbound {o : Opening} (h : opening es = o) {m : Mapping} {reason : String}
      (he : .unbound m reason ∈ es) : (m, reason) ∈ o.unbound := h ▸ mem_unbound_opening.2 he
  cases hstanding with
  | fetching hs ho hi =>
      have hnone : .fetched ∉ es := fun he => nomatch (hanswered ho).1 he
      refine trustworthy_of_unready h hi.signals (fun h => hnone h.1) (fun he => absurd he hnone)
        (fun m reason he => ?_) (.inl (by rw [result, hs]))
      cases hunbound ho he
  | @missing why hs ho hf hi =>
      have hresult : p.result = some (.error ["failed to fetch pod " ++ path, why]) := by
        rw [result, hs]
        rfl
      refine trustworthy_of_unready h hi.signals (fun h => hf h.2.1) (fun _ _ => ⟨why, hresult⟩)
        (fun m reason he => ?_) (.inr ⟨hi, _, hresult⟩)
      cases hunbound ho he
  | binding hs ho hf hp hl hsig =>
      refine trustworthy_of_unready h hsig (fun h => ?_) (fun _ hn => absurd hf hn)
        (fun m reason he => ?_) (.inl (by rw [result, hs]))
      · rw [ho, ← hp] at h
        simp at h
      · cases hunbound ho he
  | @unbound before rest m reason hs ho hf hp hi =>
      have hresult : p.result =
          some (.error ["failed to bind localhost:" ++ toString m.localPort, reason]) := by
        rw [result, hs]
        rfl
      refine trustworthy_of_unready h hi.signals (fun h => ?_) (fun _ hn => absurd hf hn)
        (fun m' reason' he => ?_) (.inr ⟨hi, _, hresult⟩)
      · rw [ho, ← hp] at h
        simp at h
      · obtain ⟨rfl, rfl⟩ := Prod.mk.inj (List.mem_singleton.1 (hunbound ho he))
        exact hresult
  | opened hopened hcourse => exact hopened.trustworthy hcourse h

/-- A cluster with one pod. -/
def lone : Server := (Gateway.ofPods "ns" ["web"]).server

/-- A portal to the pod that was ready. -/
def ready (stage : Stage) (relays : List (Option RelayEnd)) (ending : Option LoopEnd) : Portal :=
  ⟨"ns/web", [⟨8080, 80⟩], stage, [], [⟨⟨8080, 80⟩, relays, ending⟩], [[⟨8080, 80⟩]], false⟩

theorem exists_reached_ready :
    ∃ es, Reached lone "ns/web" [⟨8080, 80⟩] es (ready .serving [] none) := by
  have hpod : (Gateway.pod lone "ns/web" "ns" "web").2 = .ok (Gateway.bare "ns" "web").pod := by
    decide +kernel
  have hfetch : (start "ns/web" [⟨8080, 80⟩]).fetch lone =
      (start "ns/web" [⟨8080, 80⟩]).proceed [⟨8080, 80⟩] := fetch_of_pod hpod
  have hfetched : Reached lone "ns/web" [⟨8080, 80⟩] [.fetched]
      ((start "ns/web" [⟨8080, 80⟩]).proceed [⟨8080, 80⟩]) :=
    hfetch ▸ Reached.start.step (.fetched rfl)
  have hbound : Reached lone "ns/web" [⟨8080, 80⟩] _ (Portal.hold _ ⟨8080, 80⟩ []) :=
    hfetched.step (.bound rfl)
  exact ⟨_, hbound⟩

/-- The relay of a connection breaks off inside, and then the portal is called off. -/
theorem portals_are_trustworthy_ready : ∃ es p, Reached lone "ns/web" [⟨8080, 80⟩] es p ∧
    p.result = some (.ok ()) ∧ Trustworthy lone "ns/web" [⟨8080, 80⟩] es p := by
  obtain ⟨es, hserving⟩ := exists_reached_ready
  have hbroken : Reached lone "ns/web" [⟨8080, 80⟩] _
      (ready .serving [some (.aborted "boom")] none) :=
    (hserving.step (.loop (i := 0) rfl rfl .accepted)).step
      (.loop (i := 0) rfl rfl (.relayEnded (k := 0) rfl))
  obtain ⟨es', hclosed, hresult⟩ := exists_reached_callOff hbroken rfl
  exact ⟨_, _, hclosed, hresult, portals_are_trustworthy hclosed⟩

end Portal

end ClusterConsole.Cluster
