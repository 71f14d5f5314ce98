import ClusterConsole.Cluster.Portal
import ClusterConsole.Proofs.Cluster.Paging

/-!
# The course of a portal

What happens to a portal is an `Event`: the answers of the server and of the system, the
connections and the ends of their relays, the turns of the loops, and that it is called off.
`Step` lists what each event changes and when it can come; a course is any list of events that
come one after the other (`Reached`). Nothing is said of when or whether they come.

How far the portal has come is told by the events so far (`Standing`), and whatever a loop or
the portal ends with is put down to one of them (`Justified`); both hold of every portal that can
be reached (`Reached.sound`). Opening a portal in one go and calling it off in one go are among
the courses (`exists_reached_of_open`, `exists_reached_callOff`).
-/

namespace ClusterConsole.Cluster

open ClusterConsole.Resource ClusterConsole.Status
open ClusterConsole.Forwarding (Mapping)

namespace Gateway

variable {server : Server} {what ns name : String} {chain : Chain}

theorem exists_pod_eq_ok_iff : (∃ p, (pod server what ns name).2 = .ok p) ↔
    ∃ request d p, podRequest? ns name = some request ∧ server.get request.path = .ok d ∧
      Pod.ofDocument? d = some p := by
  unfold pod
  cases podRequest? ns name with
  | none => simp
  | some request =>
      cases hget : server.get request.path with
      | error status => simp [hget]
      | ok d => cases hread : Pod.ofDocument? d <;> simp [hget, hread]

theorem pod_eq_error (h : (pod server what ns name).2 = .error chain) :
    ∃ why, chain = ["failed to fetch pod " ++ what, why] := by
  unfold pod at h
  dsimp only at h
  split at h
  · exact ⟨_, (Except.error.inj h).symm⟩
  · split at h
    · exact ⟨_, (Except.error.inj h).symm⟩
    · split at h
      · exact ⟨_, (Except.error.inj h).symm⟩
      · cases h

end Gateway

namespace AcceptLoop

theorem running_stop (l : AcceptLoop) : l.stop.running = false := by
  unfold stop
  split
  · rfl
  · rename_i h
    exact eq_false_of_ne_true h

theorem mapping_stop (l : AcceptLoop) : l.stop.mapping = l.mapping := by
  unfold stop
  split <;> rfl

end AcceptLoop

namespace Portal

/-! ## What happens to a portal -/

/-- What happens to a loop. -/
inductive LoopEvent where
  /-- A connection comes in. -/
  | accepted
  /-- No connection can be taken in. -/
  | refused (reason : String)
  | relayEnded (k : Nat) (e : RelayEnd)
  /-- The loop looks at a relay that has ended. -/
  | relayJoined (k : Nat)
  /-- The loop notices that the portal was called off. -/
  | left
  | broke (text : String)

inductive Event where
  | calledOff
  /-- The server has answered for the pod. -/
  | fetched
  | bound (m : Mapping)
  | unbound (m : Mapping) (reason : String)
  | loop (i : Nat) (e : LoopEvent)
  /-- The portal notices that it was called off. -/
  | noticed
  /-- The portal looks at a loop that has ended. -/
  | joined (i : Nat)
  | stopped (i : Nat)
  | returned

/-- What an event changes in a loop that is running. -/
inductive LoopStep (pod : String) (calledOff : Bool) (l : AcceptLoop) :
    LoopEvent → AcceptLoop → Prop where
  | accepted : LoopStep pod calledOff l .accepted l.accept
  | refused {reason : String} : LoopStep pod calledOff l (.refused reason) (l.refuse reason)
  | relayEnded {k : Nat} {e : RelayEnd} (hk : l.relays[k]? = some none) :
      LoopStep pod calledOff l (.relayEnded k e) (l.endRelay k e)
  | relayJoined {k : Nat} {e : RelayEnd} (hk : l.relays[k]? = some (some e)) :
      LoopStep pod calledOff l (.relayJoined k) (l.join pod k e)
  | left (h : calledOff = true) : LoopStep pod calledOff l .left l.leave
  | broke {text : String} : LoopStep pod calledOff l (.broke text) (l.breakOff text)

/-- What an event changes in a portal. -/
inductive Step (server : Server) (p : Portal) : Event → Portal → Prop where
  | calledOff : Step server p .calledOff { p with calledOff := true }
  | fetched (h : p.stage = .fetching) : Step server p .fetched (p.fetch server)
  | bound {m : Mapping} {rest : List Mapping} (h : p.stage = .binding (m :: rest)) :
      Step server p (.bound m) (p.hold m rest)
  | unbound {m : Mapping} {rest : List Mapping} {reason : String}
      (h : p.stage = .binding (m :: rest)) :
      Step server p (.unbound m reason) (p.refuse m reason)
  | loop {i : Nat} {l l' : AcceptLoop} {e : LoopEvent} (hl : p.loops[i]? = some l)
      (hrunning : l.running = true) (h : LoopStep p.pod p.calledOff l e l') :
      Step server p (.loop i e) { p with loops := p.loops.set i l' }
  | noticed (h : p.stage = .serving) (hoff : p.calledOff = true) :
      Step server p .noticed (p.leave (.ok ()))
  | joined {i : Nat} {l : AcceptLoop} {outcome : Except PortalFault Unit} (h : p.stage = .serving)
      (hl : p.loops[i]? = some l) (hresult : l.result? = some outcome) :
      Step server p (.joined i) (p.leave outcome)
  | stopped {i : Nat} {l : AcceptLoop} {outcome : Except PortalFault Unit}
      (h : p.stage = .closing outcome) (hl : p.loops[i]? = some l) :
      Step server p (.stopped i) { p with loops := p.loops.set i l.stop }
  | returned {outcome : Except PortalFault Unit} (h : p.stage = .closing outcome)
      (hended : ∀ l ∈ p.loops, l.running = false) :
      Step server p .returned (p.close outcome)

/-- The portals that can be reached, with what has happened so far. -/
inductive Reached (server : Server) (path : String) (ports : List Mapping) :
    List Event → Portal → Prop where
  | start : Reached server path ports [] (start path ports)
  | step {es : List Event} {p q : Portal} {e : Event} (h : Reached server path ports es p)
      (hstep : p.Step server e q) : Reached server path ports (es ++ [e]) q

variable {server : Server} {path : String} {ports rest : List Mapping} {es es' : List Event}
  {p q : Portal} {e : Event} {i : Nat} {l l' : AcceptLoop} {m : Mapping} {reason : String}
  {outcome : Except PortalFault Unit} {fault : PortalFault}

/-! ## What the events say -/

/-- What has come of opening the portal: whether the server has answered, the mappings that
were bound, and those that could not be. -/
structure Opening where
  answered : Bool
  bound : List Mapping
  unbound : List (Mapping × String)

def opening (es : List Event) : Opening where
  answered := es.any fun | .fetched => true | _ => false
  bound := es.filterMap fun | .bound m => some m | _ => none
  unbound := es.filterMap fun | .unbound m reason => some (m, reason) | _ => none

/-- The event is none of the opening. -/
def Event.Later : Event → Prop
  | .fetched | .bound _ | .unbound .. => False
  | _ => True

theorem opening_append_of_later (h : e.Later) : opening (es ++ [e]) = opening es := by
  cases e with
  | fetched | bound | unbound => exact h.elim
  | _ => simp [opening]

theorem opening_append_fetched (es : List Event) :
    opening (es ++ [.fetched]) = { opening es with answered := true } := by
  simp [opening]

theorem opening_append_bound (es : List Event) (m : Mapping) :
    opening (es ++ [.bound m]) = { opening es with bound := (opening es).bound ++ [m] } := by
  simp [opening]

theorem opening_append_unbound (es : List Event) (m : Mapping) (reason : String) :
    opening (es ++ [.unbound m reason]) =
      { opening es with unbound := (opening es).unbound ++ [(m, reason)] } := by
  simp [opening]

theorem answered_opening : (opening es).answered = true ↔ .fetched ∈ es := by
  simp only [opening, List.any_eq_true]
  constructor
  · rintro ⟨e, he, h⟩
    cases e with
    | fetched => exact he
    | _ => cases h
  · exact fun h => ⟨_, h, rfl⟩

theorem mem_unbound_opening : (m, reason) ∈ (opening es).unbound ↔ .unbound m reason ∈ es := by
  simp only [opening, List.mem_filterMap]
  constructor
  · rintro ⟨e, he, h⟩
    cases e with
    | unbound m' reason' =>
        obtain ⟨rfl, rfl⟩ := Prod.mk.inj (Option.some.inj h)
        exact he
    | _ => cases h
  · exact fun h => ⟨_, h, rfl⟩

/-- What the fault is put down to. Before the portal is ready there is nothing of the kind. -/
def Blamed (path : String) (ports : List Mapping) (es : List Event) : PortalFault → Prop
  | .podMissing _ | .unbound _ => False
  | .notAccepted reason => ∃ i, .loop i (.refused reason) ∈ es
  | .unopened pod port fault => pod = (unqualified path).2 ∧ ∃ i k m, ports[i]? = some m ∧
      m.remotePort = port ∧ .loop i (.relayEnded k (.unopened fault)) ∈ es
  | .loopAborted text => ∃ i, .loop i (.broke text) ∈ es

/-- What an outcome is put down to. -/
def Justified (path : String) (ports : List Mapping) (es : List Event) :
    Except PortalFault Unit → Prop
  | .ok () => .calledOff ∈ es
  | .error fault => Blamed path ports es fault

theorem Justified.mono (h : Justified path ports es outcome) (hes : es ⊆ es') :
    Justified path ports es' outcome := by
  cases outcome with
  | ok => exact hes h
  | error fault =>
      cases fault with
      | podMissing | unbound => exact h.elim
      | notAccepted | loopAborted => exact h.imp fun i hi => hes hi
      | unopened =>
          obtain ⟨hpod, i, k, m, hm, hport, he⟩ := h
          exact ⟨hpod, i, k, m, hm, hport, hes he⟩

/-! ## Loops -/

/-- What a loop knows of its relays, and what it has ended with, is put down to events. -/
structure LoopAccount (path : String) (ports : List Mapping) (es : List Event) (i : Nat)
    (l : AcceptLoop) : Prop where
  mapping : ports[i]? = some l.mapping
  relays : ∀ fault, some (.unopened fault) ∈ l.relays →
    ∃ k, .loop i (.relayEnded k (.unopened fault)) ∈ es
  result : ∀ outcome, l.result? = some outcome → Justified path ports es outcome

theorem LoopAccount.mono (h : LoopAccount path ports es i l) (hes : es ⊆ es') :
    LoopAccount path ports es' i l where
  mapping := h.mapping
  relays fault hfault := (h.relays fault hfault).imp fun _ hk => hes hk
  result outcome houtcome := (h.result outcome houtcome).mono hes

theorem LoopAccount.finish (h : LoopAccount path ports es i l) {ending : LoopEnd}
    (hending : ∀ outcome, ending.result? = some outcome → Justified path ports es outcome) :
    LoopAccount path ports es i (l.finish ending) where
  mapping := h.mapping
  relays _ hfault := nomatch hfault
  result := hending

theorem LoopAccount.finish_of_result (h : LoopAccount path ports es i l) {ending : LoopEnd}
    (hresult : ending.result? = some outcome) (houtcome : Justified path ports es outcome) :
    LoopAccount path ports es i (l.finish ending) := by
  refine h.finish fun outcome' heq => ?_
  obtain rfl := Option.some.inj (hresult.symm.trans heq)
  exact houtcome

theorem LoopAccount.stop (h : LoopAccount path ports es i l) :
    LoopAccount path ports es i l.stop := by
  unfold AcceptLoop.stop
  split
  · exact h.finish fun _ houtcome => nomatch houtcome
  · exact h

theorem LoopAccount.step {calledOff : Bool} {e : LoopEvent} (h : LoopAccount path ports es i l)
    (hoff : calledOff = true → .calledOff ∈ es)
    (hstep : LoopStep (unqualified path).2 calledOff l e l') :
    LoopAccount path ports (es ++ [.loop i e]) i l' := by
  have hes : es ⊆ es ++ [.loop i e] := List.subset_append_left _ _
  have hlast : .loop i e ∈ es ++ [.loop i e] := List.mem_append_right _ List.mem_cons_self
  have h' := h.mono hes
  cases hstep with
  | accepted =>
      refine ⟨h'.mapping, fun fault hfault => h'.relays fault ?_, h'.result⟩
      simpa [AcceptLoop.accept] using hfault
  | refused => exact h'.finish_of_result rfl ⟨i, hlast⟩
  | @relayEnded k e hk =>
      refine ⟨h'.mapping, fun fault hfault => ?_, h'.result⟩
      rcases List.mem_or_eq_of_mem_set hfault with hold | hnew
      · exact h'.relays fault hold
      · obtain rfl := Option.some.inj hnew
        exact ⟨k, hlast⟩
  | @relayJoined k e hk =>
      unfold AcceptLoop.join
      split
      · exact ⟨h'.mapping, fun fault hfault => h'.relays fault ((List.eraseIdx_sublist _ _).subset
          hfault), h'.result⟩
      · rename_i fault hfault
        obtain rfl : e = .unopened fault := by cases e <;> simp_all [RelayEnd.fault?]
        obtain ⟨k', hk'⟩ := h'.relays fault (List.mem_of_getElem? hk)
        exact h'.finish_of_result rfl ⟨rfl, i, k', l.mapping, h.mapping, rfl, hk'⟩
  | left hcalledOff => exact h'.finish_of_result rfl (hes (hoff hcalledOff))
  | broke => exact h'.finish_of_result rfl ⟨i, hlast⟩

theorem mapping_of_step {pod : String} {calledOff : Bool} {e : LoopEvent}
    (hstep : LoopStep pod calledOff l e l') : l'.mapping = l.mapping := by
  cases hstep with
  | relayJoined =>
      unfold AcceptLoop.join
      split <;> rfl
  | _ => rfl

/-- A loop is stopped by nothing but the portal. -/
theorem ending_ne_stopped_of_step {pod : String} {calledOff : Bool} {e : LoopEvent}
    (hrunning : l.running = true) (hstep : LoopStep pod calledOff l e l') :
    l'.ending ≠ some .stopped := by
  have hnone : l.ending ≠ some .stopped := by
    rw [Option.isNone_iff_eq_none.1 hrunning]
    exact nofun
  cases hstep with
  | accepted | relayEnded => exact hnone
  | relayJoined =>
      unfold AcceptLoop.join
      split
      · exact hnone
      · exact nofun
  | _ => exact nofun

/-! ## How far a portal has come -/

/-- The pod is there: the server gives it when it is asked for it. -/
def Found (server : Server) (path : String) : Prop :=
  ∃ request d pod, Gateway.podRequest? (unqualified path).1 (unqualified path).2 = some request ∧
    server.get request.path = .ok d ∧ Pod.ofDocument? d = some pod

/-- Nothing of the portal is open, and it was not ready. -/
structure Idle (p : Portal) : Prop where
  bound : p.bound = []
  loops : p.loops = []
  signals : p.signals = []

/-- The portal was ready, and whatever its loops have ended with is put down to events. -/
structure Opened (server : Server) (path : String) (ports : List Mapping) (es : List Event)
    (p : Portal) : Prop where
  opening : opening es = ⟨true, ports, []⟩
  found : Found server path
  bound : p.bound = []
  mappings : p.loops.map AcceptLoop.mapping = ports
  signals : p.signals = [ports]
  accounts : ∀ i l, p.loops[i]? = some l → LoopAccount path ports es i l

/-- How far a portal has come since it was ready. -/
inductive Course (path : String) (ports : List Mapping) (es : List Event) (p : Portal) : Prop where
  | serving (hstage : p.stage = .serving) (hloops : ∀ l ∈ p.loops, l.ending ≠ some .stopped)
  | closing {outcome : Except PortalFault Unit} (hstage : p.stage = .closing outcome)
      (houtcome : Justified path ports es outcome)
  | closed {outcome : Except PortalFault Unit} (hstage : p.stage = .closed outcome)
      (houtcome : Justified path ports es outcome) (hloops : ∀ l ∈ p.loops, l.running = false)

/-- How far a portal has come. -/
inductive Standing (server : Server) (path : String) (ports : List Mapping) (es : List Event)
    (p : Portal) : Prop where
  | fetching (hstage : p.stage = .fetching) (hopening : opening es = ⟨false, [], []⟩)
      (hidle : p.Idle)
  | missing {why : String}
      (hstage : p.stage = .closed (.error (.podMissing ["failed to fetch pod " ++ path, why])))
      (hopening : opening es = ⟨true, [], []⟩) (hfound : ¬Found server path) (hidle : p.Idle)
  | binding {m : Mapping} {rest : List Mapping} (hstage : p.stage = .binding (m :: rest))
      (hopening : opening es = ⟨true, p.bound, []⟩) (hfound : Found server path)
      (hports : p.bound ++ m :: rest = ports) (hloops : p.loops = []) (hsignals : p.signals = [])
  | unbound {before rest : List Mapping} {m : Mapping} {reason : String}
      (hstage : p.stage = .closed (.error (.unbound ⟨m.localPort, reason⟩)))
      (hopening : opening es = ⟨true, before, [(m, reason)]⟩) (hfound : Found server path)
      (hports : before ++ m :: rest = ports) (hidle : p.Idle)
  | opened (hopened : Opened server path ports es p) (hcourse : Course path ports es p)

theorem fetch_cases (server : Server) (p : Portal) :
    (Found server p.path ∧ p.fetch server = p.proceed p.ports) ∨
    (¬Found server p.path ∧ ∃ why,
      p.fetch server = p.quit (.podMissing ["failed to fetch pod " ++ p.path, why])) := by
  unfold Found fetch
  rw [← Gateway.exists_pod_eq_ok_iff]
  dsimp only
  cases hpod : (Gateway.pod server p.path (unqualified p.path).1 (unqualified p.path).2).2 with
  | ok pod => exact .inl ⟨⟨pod, rfl⟩, rfl⟩
  | error chain =>
      obtain ⟨why, rfl⟩ := Gateway.pod_eq_error hpod
      exact .inr ⟨(fun ⟨_, h⟩ => nomatch h), why, rfl⟩

theorem fetch_of_pod {pod : Pod}
    (h : (Gateway.pod server p.path (unqualified p.path).1 (unqualified p.path).2).2 = .ok pod) :
    p.fetch server = p.proceed p.ports := by
  unfold fetch
  dsimp only
  rw [h]

theorem loopAccount_start {bound : List Mapping} (hports : bound = ports)
    (hl : (bound.map AcceptLoop.start)[i]? = some l) : LoopAccount path ports es i l := by
  rw [List.getElem?_map, Option.map_eq_some_iff] at hl
  obtain ⟨m, hm, rfl⟩ := hl
  exact ⟨hports ▸ hm, nofun, nofun⟩

/-- With all ports bound the portal is ready, with some left it binds on. -/
theorem standing_proceed (hopening : opening es = ⟨true, p.bound, []⟩) (hfound : Found server path)
    (hports : p.bound ++ rest = ports) (hown : p.ports = ports) (hloops : p.loops = [])
    (hsignals : p.signals = []) : Standing server path ports es (p.proceed rest) := by
  cases rest with
  | cons m rest => exact .binding rfl hopening hfound hports hloops hsignals
  | nil =>
      rw [List.append_nil] at hports
      have hunstopped : ∀ l ∈ p.announce.loops, l.ending ≠ some .stopped := by
        intro l hl
        obtain ⟨m, -, rfl⟩ := List.mem_map.1 hl
        exact nofun
      have hmappings : p.announce.loops.map AcceptLoop.mapping = ports := by
        rw [announce, List.map_map]
        exact (List.map_id p.bound).trans hports
      have hannounced : p.announce.signals = [ports] := by
        rw [announce, hsignals, hown, List.nil_append]
      exact .opened ⟨hports ▸ hopening, hfound, rfl, hmappings, hannounced,
        fun i l hl => loopAccount_start hports hl⟩ (.serving rfl hunstopped)

theorem Standing.of_fetching (h : Standing server path ports es p) (hstage : p.stage = .fetching) :
    opening es = ⟨false, [], []⟩ ∧ p.Idle := by
  cases h with
  | fetching _ hopening hidle => exact ⟨hopening, hidle⟩
  | missing hs | binding hs | unbound hs => rw [hstage] at hs; cases hs
  | opened _ hcourse => cases hcourse <;> simp_all

theorem Standing.of_binding (h : Standing server path ports es p)
    (hstage : p.stage = .binding (m :: rest)) :
    opening es = ⟨true, p.bound, []⟩ ∧ Found server path ∧ p.bound ++ m :: rest = ports ∧
      p.loops = [] ∧ p.signals = [] := by
  cases h with
  | binding hs hopening hfound hports hloops hsignals =>
      rw [hstage] at hs
      obtain ⟨rfl, rfl⟩ := List.cons.inj (Stage.binding.inj hs)
      exact ⟨hopening, hfound, hports, hloops, hsignals⟩
  | fetching hs | missing hs | unbound hs => rw [hstage] at hs; cases hs
  | opened _ hcourse => cases hcourse <;> simp_all

/-- A portal that has loops, or serves or closes, was ready. -/
theorem Standing.of_live (h : Standing server path ports es p)
    (hlive : p.stage = .serving ∨ (∃ outcome, p.stage = .closing outcome) ∨ p.loops ≠ []) :
    Opened server path ports es p ∧ Course path ports es p := by
  have hidle (hserving : p.stage ≠ .serving) (hclosing : ∀ outcome, p.stage ≠ .closing outcome)
      (hloops : p.loops = []) : False := by
    rcases hlive with hs | ⟨outcome, hs⟩ | hs
    · exact hserving hs
    · exact hclosing outcome hs
    · exact hs hloops
  cases h with
  | opened hopened hcourse => exact ⟨hopened, hcourse⟩
  | fetching hs _ hi | missing hs _ _ hi | unbound hs _ _ _ hi =>
      exact (hidle (by simp [hs]) (by simp [hs]) hi.loops).elim
  | binding hs _ _ _ hloops => exact (hidle (by simp [hs]) (by simp [hs]) hloops).elim

theorem Opened.later (h : Opened server path ports es p) (he : e.Later) :
    Opened server path ports (es ++ [e]) p where
  opening := (opening_append_of_later he).trans h.opening
  found := h.found
  bound := h.bound
  mappings := h.mappings
  signals := h.signals
  accounts i l hl := (h.accounts i l hl).mono (List.subset_append_left _ _)

/-- The stage and the token are nothing to what a portal has opened. -/
theorem Opened.of_same (h : Opened server path ports es p) (hbound : q.bound = p.bound)
    (hloops : q.loops = p.loops) (hsignals : q.signals = p.signals) :
    Opened server path ports es q :=
  ⟨h.opening, h.found, hbound.trans h.bound, hloops ▸ h.mappings, hsignals.trans h.signals,
    hloops ▸ h.accounts⟩

theorem Opened.set_loop (h : Opened server path ports es p) (hl : p.loops[i]? = some l)
    (hmapping : l'.mapping = l.mapping) (haccount : LoopAccount path ports es i l') :
    Opened server path ports es { p with loops := p.loops.set i l' } where
  opening := h.opening
  found := h.found
  bound := h.bound
  mappings := by
    have hself : p.loops.set i l = p.loops := by
      obtain ⟨hi, rfl⟩ := List.getElem?_eq_some_iff.1 hl
      exact List.set_getElem_self hi
    rw [List.map_set, hmapping, ← List.map_set, hself]
    exact h.mappings
  signals := h.signals
  accounts j k hk := by
    rw [List.getElem?_set] at hk
    split at hk
    · rename_i hij
      subst hij
      split at hk
      · obtain rfl := Option.some.inj hk
        exact haccount
      · cases hk
    · exact h.accounts j k hk

theorem Course.later (h : Course path ports es p) : Course path ports (es ++ [e]) p := by
  have hes : es ⊆ es ++ [e] := List.subset_append_left _ _
  cases h with
  | serving hs hloops => exact .serving hs hloops
  | closing hs houtcome => exact .closing hs (houtcome.mono hes)
  | closed hs houtcome hloops => exact .closed hs (houtcome.mono hes) hloops

/-- A loop that was running leaves the course of the portal as it was. -/
theorem Course.set_loop (h : Course path ports es p) (hl : l ∈ p.loops)
    (hrunning : l.running = true) (hl' : l'.ending ≠ some .stopped) :
    Course path ports es { p with loops := p.loops.set i l' } := by
  cases h with
  | serving hs hloops =>
      refine .serving hs fun k hk => ?_
      rcases List.mem_or_eq_of_mem_set hk with hold | rfl
      · exact hloops k hold
      · exact hl'
  | closing hs houtcome => exact .closing hs houtcome
  | closed _ _ hloops =>
      rw [hloops l hl] at hrunning
      cases hrunning

theorem Standing.calledOff (h : Standing server path ports es p) :
    Standing server path ports (es ++ [.calledOff]) { p with calledOff := true } := by
  have hopening : opening (es ++ [.calledOff]) = opening es := opening_append_of_later trivial
  have hidle (h : p.Idle) : Idle { p with calledOff := true } := ⟨h.bound, h.loops, h.signals⟩
  cases h with
  | fetching hs ho hi => exact .fetching hs (hopening.trans ho) (hidle hi)
  | missing hs ho hf hi => exact .missing hs (hopening.trans ho) hf (hidle hi)
  | binding hs ho hf hp hl hsig => exact .binding hs (hopening.trans ho) hf hp hl hsig
  | unbound hs ho hf hp hi => exact .unbound hs (hopening.trans ho) hf hp (hidle hi)
  | opened ho hc =>
      have hlater : Opened server path ports (es ++ [.calledOff]) p := ho.later trivial
      refine .opened (hlater.of_same rfl rfl rfl) ?_
      cases hc.later (e := .calledOff) with
      | serving hs hl => exact .serving hs hl
      | closing hs ho => exact .closing hs ho
      | closed hs ho hl => exact .closed hs ho hl

theorem Standing.step (h : Standing server path ports es p) (hpath : p.path = path)
    (hown : p.ports = ports) (hoff : p.calledOff = true → .calledOff ∈ es)
    (hstep : p.Step server e q) : Standing server path ports (es ++ [e]) q := by
  have hes : es ⊆ es ++ [e] := List.subset_append_left _ _
  subst hpath
  cases hstep with
  | calledOff => exact h.calledOff
  | fetched hstage =>
      obtain ⟨hopening, hidle⟩ := h.of_fetching hstage
      have hfetched : opening (es ++ [.fetched]) = ⟨true, [], []⟩ := by
        rw [opening_append_fetched, hopening]
      rcases fetch_cases server p with ⟨hfound, heq⟩ | ⟨hfound, why, heq⟩
      · rw [heq]
        exact standing_proceed (hfetched.trans (by rw [hidle.bound])) hfound
          (by rw [hidle.bound, hown, List.nil_append]) hown hidle.loops hidle.signals
      · rw [heq]
        exact .missing rfl hfetched hfound ⟨rfl, hidle.loops, hidle.signals⟩
  | @bound m rest hstage =>
      obtain ⟨hopening, hfound, hports, hloops, hsignals⟩ := h.of_binding hstage
      refine standing_proceed ?_ hfound ?_ hown hloops hsignals
      · rw [opening_append_bound, hopening]
      · rw [← hports, List.append_assoc, List.singleton_append]
  | @unbound m rest reason hstage =>
      obtain ⟨hopening, hfound, hports, hloops, hsignals⟩ := h.of_binding hstage
      refine .unbound rfl ?_ hfound hports ⟨rfl, hloops, hsignals⟩
      rw [opening_append_unbound, hopening, List.nil_append]
  | @loop i l l' e hl hrunning hloop =>
      have hmem := List.mem_of_getElem? hl
      obtain ⟨hopened, hcourse⟩ := h.of_live (.inr (.inr (List.ne_nil_of_mem hmem)))
      have hlater : Opened server p.path ports (es ++ [.loop i e]) p := hopened.later trivial
      exact .opened (hlater.set_loop hl (mapping_of_step hloop)
          ((hopened.accounts i l hl).step hoff hloop))
        (hcourse.later.set_loop hmem hrunning (ending_ne_stopped_of_step hrunning hloop))
  | noticed hstage hcalledOff =>
      obtain ⟨hopened, -⟩ := h.of_live (.inl hstage)
      have hlater : Opened server p.path ports (es ++ [.noticed]) p := hopened.later trivial
      exact .opened (hlater.of_same rfl rfl rfl) (.closing rfl (hes (hoff hcalledOff)))
  | @joined i l outcome hstage hl hresult =>
      obtain ⟨hopened, -⟩ := h.of_live (.inl hstage)
      have hlater : Opened server p.path ports (es ++ [.joined i]) p := hopened.later trivial
      exact .opened (hlater.of_same rfl rfl rfl)
        (.closing rfl (((hopened.accounts i l hl).result outcome hresult).mono hes))
  | @stopped i l outcome hstage hl =>
      obtain ⟨hopened, hcourse⟩ := h.of_live (.inr (.inl ⟨outcome, hstage⟩))
      have hlater : Opened server p.path ports (es ++ [.stopped i]) p := hopened.later trivial
      refine .opened (hlater.set_loop hl l.mapping_stop (hlater.accounts i l hl).stop) ?_
      cases hcourse.later (e := .stopped i) with
      | closing hs houtcome => exact .closing hs houtcome
      | serving hs | closed hs => rw [hstage] at hs; cases hs
  | @returned outcome hstage hended =>
      obtain ⟨hopened, hcourse⟩ := h.of_live (.inr (.inl ⟨outcome, hstage⟩))
      have hlater : Opened server p.path ports (es ++ [.returned]) p := hopened.later trivial
      refine .opened (hlater.of_same rfl rfl rfl) ?_
      cases hcourse.later (e := .returned) with
      | closing hs houtcome =>
          rw [hstage] at hs
          exact .closed rfl (Stage.closing.inj hs ▸ houtcome) hended
      | serving hs | closed hs => rw [hstage] at hs; cases hs

theorem proceed_keeps (p : Portal) (rest : List Mapping) :
    (p.proceed rest).path = p.path ∧ (p.proceed rest).ports = p.ports ∧
      (p.proceed rest).calledOff = p.calledOff := by
  cases rest <;> exact ⟨rfl, rfl, rfl⟩

/-- What was asked of the portal stays, and it is called off by nobody else. -/
theorem keeps_of_step (h : p.Step server e q) : q.path = p.path ∧ q.ports = p.ports ∧
    (q.calledOff = true → p.calledOff = true ∨ e = .calledOff) := by
  cases h with
  | calledOff => exact ⟨rfl, rfl, fun _ => .inr rfl⟩
  | fetched =>
      rcases fetch_cases server p with ⟨-, heq⟩ | ⟨-, why, heq⟩
      · obtain ⟨hpath, hports, hoff⟩ := p.proceed_keeps p.ports
        rw [heq, hpath, hports, hoff]
        exact ⟨rfl, rfl, .inl⟩
      · rw [heq]
        exact ⟨rfl, rfl, .inl⟩
  | @bound m rest =>
      obtain ⟨hpath, hports, hoff⟩ := Portal.proceed_keeps { p with bound := p.bound ++ [m] } rest
      rw [hold, hpath, hports, hoff]
      exact ⟨rfl, rfl, .inl⟩
  | _ => exact ⟨rfl, rfl, .inl⟩

/-- All that is known of a portal that can be reached. -/
structure Sound (server : Server) (path : String) (ports : List Mapping) (es : List Event)
    (p : Portal) : Prop where
  own_path : p.path = path
  own_ports : p.ports = ports
  calledOff : p.calledOff = true → .calledOff ∈ es
  standing : Standing server path ports es p

theorem Reached.sound (h : Reached server path ports es p) : Sound server path ports es p := by
  induction h with
  | start => exact ⟨rfl, rfl, nofun, .fetching rfl rfl ⟨rfl, rfl, rfl⟩⟩
  | @step es p q e _ hstep ih =>
      obtain ⟨hpath, hports, hoff⟩ := keeps_of_step hstep
      refine ⟨hpath.trans ih.own_path, hports.trans ih.own_ports, fun hq => ?_,
        ih.standing.step ih.own_path ih.own_ports ih.calledOff hstep⟩
      rcases hoff hq with hp | rfl
      · exact List.mem_append_left _ (ih.calledOff hp)
      · exact List.mem_append_right _ List.mem_cons_self

/-! ## Opening and calling off -/

/-- Opening comes to an end: the portal serves or has failed. -/
def Settled (p : Portal) : Prop := p.stage = .serving ∨ ∃ fault, p.stage = .closed (.error fault)

theorem exists_reached_bindRest (bind : List Nat → Nat → Option String) (rest : List Mapping)
    (h : Reached server path ports es p) (hstage : p.stage = (p.proceed rest).stage) :
    ∃ es', Reached server path ports (es ++ es') (bindRest bind rest p) ∧
      (bindRest bind rest p).Settled := by
  induction rest generalizing p es with
  | nil => exact ⟨[], by rwa [List.append_nil], .inl hstage⟩
  | cons m rest ih =>
      rw [bindRest]
      split
      · rename_i reason _
        exact ⟨[.unbound m reason], h.step (.unbound hstage), .inr ⟨_, rfl⟩⟩
      · have hheld : (p.hold m rest).stage = ((p.hold m rest).proceed rest).stage := by
          cases rest <;> rfl
        obtain ⟨es', hreached, hsettled⟩ := ih (h.step (.bound hstage)) hheld
        rw [List.append_assoc] at hreached
        exact ⟨_, hreached, hsettled⟩

/-- A portal that is opened in one go takes one of the courses. -/
theorem exists_reached_launch (server : Server) (path : String) (ports : List Mapping)
    (bind : List Nat → Nat → Option String) :
    ∃ es, Reached server path ports es (launch server path ports bind) ∧
      (launch server path ports bind).Settled := by
  have hreached : Reached server path ports [.fetched] ((start path ports).fetch server) :=
    Reached.start.step (.fetched rfl)
  unfold launch
  rcases fetch_cases server (start path ports) with ⟨-, heq⟩ | ⟨-, why, heq⟩
  · rw [heq] at hreached ⊢
    cases ports with
    | nil => exact ⟨_, hreached, .inl rfl⟩
    | cons m rest =>
        obtain ⟨es', hes', hsettled⟩ := exists_reached_bindRest bind (m :: rest) hreached rfl
        exact ⟨_, hes', hsettled⟩
  · rw [heq] at hreached ⊢
    exact ⟨_, hreached, .inr ⟨_, rfl⟩⟩

theorem exists_reached_of_open {bind : List Nat → Nat → Option String}
    (h : open_ server path ports bind = .ok p) :
    ∃ es, Reached server path ports es p ∧ p.stage = .serving := by
  obtain ⟨es, hreached, hsettled⟩ := exists_reached_launch server path ports bind
  unfold open_ at h
  dsimp only at h
  split at h
  · cases h
  · rename_i hnot
    obtain rfl := Except.ok.inj h
    exact ⟨es, hreached, hsettled.resolve_right fun ⟨fault, hs⟩ => hnot fault hs⟩

theorem exists_reached_stop_rest (done rest : List AcceptLoop) (h : Reached server path ports es p)
    (hstage : p.stage = .closing outcome) (hloops : p.loops = done ++ rest) :
    ∃ es', Reached server path ports (es ++ es')
      { p with loops := done ++ rest.map AcceptLoop.stop } := by
  induction rest generalizing es done p with
  | nil =>
      refine ⟨[], ?_⟩
      rw [List.append_nil, List.map_nil, ← hloops]
      exact h
  | cons l rest ih =>
      have hl : p.loops[done.length]? = some l := by simp [hloops]
      have hset : p.loops.set done.length l.stop = (done ++ [l.stop]) ++ rest := by simp [hloops]
      obtain ⟨es', hes'⟩ := ih (done ++ [l.stop]) (h.step (.stopped hstage hl)) hstage hset
      refine ⟨[.stopped done.length] ++ es', ?_⟩
      simpa using hes'

/-- A portal that knows what it will return stops its loops and returns it. -/
theorem exists_reached_close (h : Reached server path ports es p)
    (hstage : p.stage = .closing outcome) :
    ∃ es', Reached server path ports (es ++ es') (p.stopLoops.close outcome) := by
  obtain ⟨es', hstopped⟩ := exists_reached_stop_rest [] p.loops h hstage rfl
  have hended : ∀ l ∈ p.stopLoops.loops, l.running = false := by
    intro l hl
    obtain ⟨k, -, rfl⟩ := List.mem_map.1 hl
    exact k.running_stop
  have hclosed := hstopped.step (.returned hstage hended)
  exact ⟨es' ++ [.returned], by rwa [← List.append_assoc]⟩

theorem exists_reached_callOff (h : Reached server path ports es p) (hstage : p.stage = .serving) :
    ∃ es', Reached server path ports (es ++ es') p.callOff ∧
      p.callOff.result = some (.ok ()) := by
  have hoff : Reached server path ports (es ++ [.calledOff] ++ [.noticed])
      (Portal.leave { p with calledOff := true } (.ok ())) :=
    (h.step .calledOff).step (.noticed hstage rfl)
  obtain ⟨es', hclosed⟩ := exists_reached_close hoff rfl
  have hcallOff : p.callOff =
      (Portal.leave { p with calledOff := true } (.ok ())).stopLoops.close (.ok ()) := by
    simp only [callOff, hstage]
  rw [hcallOff]
  refine ⟨[.calledOff] ++ [.noticed] ++ es', ?_, rfl⟩
  simpa only [List.append_assoc] using hclosed

end Portal

end ClusterConsole.Cluster
