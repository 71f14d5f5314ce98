import ClusterConsole.Proofs.Background.Queueing
import ClusterConsole.Proofs.Forwarding.Telling
import Mathlib.Data.List.Induction

/-!
# What is queued about a forward

`Telling` speaks of what tunnels send. Here it is tied to the queue in which reports wait
until they are heard: what was ever put there is what was sent (`queued_eq_sent`), and it was
heard or is still waiting. A tunnel has ports to report and an end to tell only if its
transport has said so (`exists_report`, `exists_finish`). `Reporting` gathers what
follows for every run.
-/

namespace ClusterConsole.Forwarding

open ClusterConsole.Background (Queueing)

/-- The place in the queue that an act empties. -/
def Act.place? : Act → Option Nat
  | .hear i => some i
  | _ => none

theorem Act.eq_hear_of_place? {a : Act} {i : Nat} (h : a.place? = some i) : a = .hear i := by
  cases a <;> cases h
  rfl

namespace Exchange

variable {x : Exchange} {t : Tunnel}

/-! ## The queue -/

/-- The queue of an exchange; a report leaves it when it is heard. -/
def queueing : Queueing Exchange Act Report where
  act := act
  waiting := reports
  cut a := Queueing.pick a.place?

/-- An act leaves the reports that it does not hear where they are, and whatever else stands
in the queue afterwards was sent by it. -/
theorem exists_queued_act (x : Exchange) (a : Act) :
    ∃ l, (x.act a).reports = (queueing.cut a x.reports).2 ++ l ∧ (x.act a).sent = x.sent ++ l := by
  have hnone (h : (x.act a).reports = (queueing.cut a x.reports).2 ∧ (x.act a).sent = x.sent) :
      ∃ l, (x.act a).reports = (queueing.cut a x.reports).2 ++ l ∧
        (x.act a).sent = x.sent ++ l :=
    ⟨[], by rw [h.1, List.append_nil], by rw [h.2, List.append_nil]⟩
  cases a with
  | start now fqn path container m =>
      refine hnone ?_
      rw [act, start]
      split <;> exact ⟨rfl, rfl⟩
  | launch fqn =>
      refine hnone ?_
      rw [act, launch]
      split <;> exact ⟨rfl, rfl⟩
  | stop fqn => exact hnone ⟨rfl, rfl⟩
  | stopAll => exact hnone x.stopAll_keeps.2.2
  | close => exact hnone ⟨rfl, rfl⟩
  | move k m =>
      rw [act, move]
      cases x.tunnels[k]? with
      | none => exact ⟨[], (List.append_nil _).symm, (List.append_nil _).symm⟩
      | some t => exact ⟨_, rfl, rfl⟩
  | hear i =>
      refine hnone ?_
      rw [act, hear]
      cases hi : x.reports[i]? with
      | none =>
          have hlength := List.getElem?_eq_none_iff.1 hi
          exact ⟨(List.eraseIdx_of_length_le hlength).symm, rfl⟩
      | some ρ => exact ⟨rfl, rfl⟩

theorem queueing_keeps : queueing.Keeps where
  whole a := Queueing.perm_pick a.place?
  order a := Queueing.sublist_pick a.place?
  behind x a := by
    obtain ⟨l, hreports, -⟩ := x.exists_queued_act a
    exact ⟨l, hreports.symm⟩

/-- What was ever sent is what was put into the queue. -/
theorem queued_eq_sent (acts : List Act) : queueing.queued empty acts = (empty.run acts).sent := by
  have hact (x : Exchange) (a : Act) :
      (queueing.act x a).sent = x.sent ++ (queueing.queuedBy x a).filterMap some := by
    obtain ⟨l, hreports, hsent⟩ := x.exists_queued_act a
    rw [Queueing.queuedBy_eq hreports, List.filterMap_some]
    exact hsent
  have hrun := Queueing.gather_run hact empty acts
  rw [List.filterMap_some] at hrun
  exact hrun.symm

/-- What is queued about that generation, in order. -/
def queuedOf (acts : List Act) (g : Nat) : List Report :=
  (queueing.queued empty acts).filter fun ρ => ρ.generation == g

theorem queuedOf_eq_sentOf (acts : List Act) (g : Nat) :
    queuedOf acts g = (empty.run acts).sentOf g := by
  rw [queuedOf, queued_eq_sent, sentOf]

/-! ## What a transport has said -/

theorem getElem?_act {k : Nat} {a : Act} (ht : (x.act a).tunnels[k]? = some t) :
    x.tunnels[k]? = some t ∨ (∃ s, t = Tunnel.ofSession s) ∨
      ∃ m u, a = .move k m ∧ x.tunnels[k]? = some u ∧
        t = (u.move (x.registry.isCalledOff u.generation) m).1 := by
  cases a with
  | start now fqn path container m =>
      left
      simp only [act, start] at ht
      split at ht <;> exact ht
  | launch fqn =>
      simp only [act, launch] at ht
      split at ht
      · rw [List.getElem?_append] at ht
        split at ht
        · exact .inl ht
        · exact .inr (.inl ⟨_, List.mem_singleton.1 (List.mem_of_getElem? ht)⟩)
      · exact .inl ht
  | stop fqn => exact .inl ht
  | stopAll =>
      left
      rwa [← x.stopAll_keeps.2.1]
  | close => exact .inl ht
  | move i m =>
      cases hi : x.tunnels[i]? with
      | none =>
          left
          simpa [act, move, hi] using ht
      | some u =>
          simp only [act, move, hi] at ht
          by_cases hik : i = k
          · subst hik
            rw [List.getElem?_set_self (List.getElem?_eq_some_iff.1 hi).1] at ht
            exact .inr (.inr ⟨m, u, rfl, hi, (Option.some.inj ht).symm⟩)
          · rw [List.getElem?_set_ne hik] at ht
            exact .inl ht
  | hear i =>
      left
      simp only [act, hear] at ht
      split at ht <;> exact ht

/-- What does not hold of a tunnel that was launched and holds of it later came to hold by one
of its moves. -/
theorem exists_move_of {p : Tunnel → Prop} (hp : ∀ s, ¬ p (Tunnel.ofSession s)) {k : Nat}
    {acts : List Act} (ht : (empty.run acts).tunnels[k]? = some t) (h : p t) :
    ∃ before m after u, acts = before ++ .move k m :: after ∧
      (empty.run before).tunnels[k]? = some u ∧ u.tag = t.tag ∧ ¬ p u ∧
        p (u.move ((empty.run before).registry.isCalledOff u.generation) m).1 := by
  induction acts using List.reverseRecOn generalizing t with
  | nil => simp [run, empty] at ht
  | append_singleton acts a ih =>
      rw [run_append] at ht
      rcases getElem?_act ht with ht | ⟨s, rfl⟩ | ⟨m, u, rfl, hu, rfl⟩
      · obtain ⟨before, m, after, v, rfl, hv⟩ := ih ht h
        exact ⟨before, m, after ++ [a], v, by simp, hv⟩
      · exact absurd h (hp s)
      · have htag := (u.later_move ((empty.run acts).registry.isCalledOff u.generation) m).tag
        by_cases hpu : p u
        · obtain ⟨before, m', after, v, rfl, hv, hvu, hrest⟩ := ih hu hpu
          exact ⟨before, m', after ++ [.move k m], v, by simp, hv, hvu.trans htag.symm, hrest⟩
        · exact ⟨acts, m, [], u, rfl, hu, htag.symm, hpu, h⟩

theorem exists_report {k : Nat} {ports : List Mapping} {acts : List Act}
    (ht : (empty.run acts).tunnels[k]? = some t) (hr : t.ready = .reported ports) :
    ∃ before after u, acts = before ++ .move k (.report ports) :: after ∧
      (empty.run before).tunnels[k]? = some u ∧ u.tag = t.tag ∧ u.ready = .pending ∧
        u.ending = none := by
  obtain ⟨before, m, after, u, rfl, hu, htag, hnot, hnow⟩ :=
    exists_move_of (p := fun t => t.ready = .reported ports) (fun s => by simp [Tunnel.ofSession])
      ht hr
  obtain ⟨rfl, hfree⟩ := Tunnel.reported_move hnot hnow
  exact ⟨before, after, u, rfl, hu, htag, hfree⟩

theorem exists_finish {k : Nat} {e : Ending} {acts : List Act}
    (ht : (empty.run acts).tunnels[k]? = some t) (he : t.ending = some e) :
    ∃ before after u, acts = before ++ .move k (.finish e) :: after ∧
      (empty.run before).tunnels[k]? = some u ∧ u.tag = t.tag ∧ u.ending = none := by
  obtain ⟨before, m, after, u, rfl, hu, htag, hnot, hnow⟩ :=
    exists_move_of (p := fun t => t.ending = some e) (fun s => by simp [Tunnel.ofSession]) ht he
  obtain ⟨rfl, hnone⟩ := Tunnel.ending_move hnot hnow
  exact ⟨before, after, u, rfl, hu, htag, hnone⟩

/-! ## Every run -/

/-- How the tunnels of a run report. -/
structure Reporting (acts : List Act) : Prop where
  /-- A session that was launched has one tunnel. -/
  launched : ∀ s ∈ (empty.run acts).registry.sessions, s.phase ≠ .created →
    ∃ t ∈ (empty.run acts).tunnels, t.fqn = s.fqn ∧ t.generation = s.generation
  distinct : ((empty.run acts).tunnels.map Tunnel.generation).Nodup
  /-- What was queued was heard or is waiting, each report as often as it was queued, -/
  kept : (queueing.taken empty acts ++ (empty.run acts).reports).Perm (queueing.queued empty acts)
  /-- the waiting ones in the order in which they were queued, -/
  order : (empty.run acts).reports.Sublist (queueing.queued empty acts)
  /-- and the others too, if the first of those that wait is always heard first. -/
  fifo : (∀ i, .hear i ∈ acts → i = 0) →
    queueing.taken empty acts ++ (empty.run acts).reports = queueing.queued empty acts
  /-- Hearing a report applies it to the registry as it stands. -/
  heard : ∀ (i : Nat) (ρ : Report), (empty.run acts).reports[i]? = some ρ →
    ((empty.run acts).act (.hear i)).registry =
      ((empty.run acts).registry.applyReport ρ).registry
  source : ∀ ρ ∈ queueing.queued empty acts, ∃ t ∈ (empty.run acts).tunnels,
    ρ.fqn = t.fqn ∧ ρ.generation = t.generation
  /-- A tunnel queues nothing, or its activation, or its activation and then its end; the
  activation is there only if ports were reported. -/
  once : ∀ (k : Nat) (t : Tunnel), (empty.run acts).tunnels[k]? = some t →
    t.InOrder (queuedOf acts t.generation)
  /-- Ports that the transport reports while it runs, for the first time, are queued once the
  part that waits for them has its turn. -/
  activation : ∀ (k : Nat) (t : Tunnel), (empty.run acts).tunnels[k]? = some t →
    t.ready = .pending → t.ending = none → ∀ (ports : List Mapping) (l₁ l₂ : List Act), ∃ rest,
      queuedOf (acts ++ .move k (.report ports) :: (l₁ ++ .move k .settleActivation :: l₂))
          t.generation = .activated t.fqn t.generation ports :: rest ∧
        ∀ ρ ∈ rest, ∃ o, ρ = .finished t.fqn t.generation o
  /-- However the transport ends, both other parts take their turn and all is queued: the
  activation, if ports had been reported by then, and one end. The end that counts is the
  first. -/
  finish : ∀ (k : Nat) (t : Tunnel), (empty.run acts).tunnels[k]? = some t →
    ∀ (e : Ending) (l₁ l₂ l₃ : List Act), ∃ c,
      queuedOf (acts ++ .move k (.finish e) :: (l₁ ++ .move k .settleActivation :: l₂ ++
          .move k .settleFinish :: l₃)) t.generation =
        t.due ++ [.finished t.fqn t.generation ((t.ending.getD e).outcome c)]
  /-- No other ports are queued than those that the transport has reported. -/
  reported : ∀ fqn g ports, .activated fqn g ports ∈ queueing.queued empty acts →
    ∃ before after k t, acts = before ++ .move k (.report ports) :: after ∧
      (empty.run before).tunnels[k]? = some t ∧ t.fqn = fqn ∧ t.generation = g ∧
      t.ready = .pending ∧ t.ending = none
  /-- An end is queued after the transport has ended so, with the outcome that the token
  decides at that moment. Hearing it leaves no session of that generation and says of it
  what `Announced` has. -/
  ended : ∀ fqn g o, .finished fqn g o ∈ queueing.queued empty acts →
    ∃ before during after k t e,
      acts = before ++ .move k (.finish e) :: during ++ .move k .settleFinish :: after ∧
      (empty.run before).tunnels[k]? = some t ∧ t.fqn = fqn ∧ t.generation = g ∧
      t.ending = none ∧
      let calledOff :=
        (empty.run (before ++ .move k (.finish e) :: during)).registry.isCalledOff g
      o = e.outcome calledOff ∧
        Announced (empty.run acts).registry fqn g e.fault? calledOff
          ((empty.run acts).registry.applyReport (.finished fqn g o))

theorem run_append_cons (acts : List Act) (a : Act) (l : List Act) :
    empty.run (acts ++ a :: l) = ((empty.run acts).act a).run l :=
  run_append empty acts (a :: l)

theorem exists_tunnel_of_launched {s : Session} (h : x.Sound) (hs : s ∈ x.registry.sessions)
    (hp : s.phase ≠ .created) :
    ∃ t ∈ x.tunnels, t.fqn = s.fqn ∧ t.generation = s.generation := by
  have hlife := h.lives.alive s hs
  have hturn : Turn.launched ∈ s.phase.turns := by
    have hended := hlife.ended_eq_false
    cases hphase : s.phase <;> simp_all [Phase.turns, Phase.ended]
  rw [← hlife.turns_eq] at hturn
  obtain ⟨m, hm, hlaunched⟩ := List.mem_map.1 hturn
  have htag : m.session.tag = s.tag := by
    rw [← hlife.eq_of_mem m hm]
    rfl
  have hmem : s.tag ∈ x.tunnels.map Tunnel.tag := by
    rw [h.tunnels, launches]
    exact List.mem_map.2 ⟨m, List.mem_filter.2 ⟨(mem_life.1 hm).1, beq_iff_eq.2 hlaunched⟩, htag⟩
  obtain ⟨t, ht, htt⟩ := List.mem_map.1 hmem
  exact ⟨t, ht, congrArg Prod.fst htt, congrArg Prod.snd htt⟩

theorem activation_queued (acts : List Act) {k : Nat} (ht : (empty.run acts).tunnels[k]? = some t)
    (hr : t.ready = .pending) (he : t.ending = none) (ports : List Mapping) (l₁ l₂ : List Act) :
    ∃ rest, queuedOf (acts ++ .move k (.report ports) :: (l₁ ++ .move k .settleActivation :: l₂))
          t.generation = .activated t.fqn t.generation ports :: rest ∧
        ∀ ρ ∈ rest, ∃ o, ρ = .finished t.fqn t.generation o := by
  have hs := Sound.empty.run acts
  have hact := hs.act_changes (.move k (.report ports))
  have hreport := getElem?_move (.report ports) ht
  have htag := (t.later_report ports).tag
  have hfqn : (t.report ports).fqn = t.fqn := congrArg Prod.fst htag
  have hgen : (t.report ports).generation = t.generation := congrArg Prod.snd htag
  have hsent := sentOf_run_of_reported (hact.sound hs) (hact.telling hs (telling_run acts))
    hreport (Tunnel.ready_report hr he) l₁ l₂
  simp only [Tunnel.move, hfqn, hgen] at hsent
  rw [queuedOf_eq_sentOf, run_append_cons]
  exact hsent

theorem finish_queued (acts : List Act) {k : Nat} (ht : (empty.run acts).tunnels[k]? = some t)
    (e : Ending) (l₁ l₂ l₃ : List Act) :
    ∃ c, queuedOf (acts ++ .move k (.finish e) :: (l₁ ++ .move k .settleActivation :: l₂ ++
          .move k .settleFinish :: l₃)) t.generation =
        t.due ++ [.finished t.fqn t.generation ((t.ending.getD e).outcome c)] := by
  have hs := Sound.empty.run acts
  have hact := hs.act_changes (.move k (.finish e))
  have hfinish := getElem?_move (.finish e) ht
  have htag := (t.later_finish e).tag
  have hfqn : (t.finish e).fqn = t.fqn := congrArg Prod.fst htag
  have hgen : (t.finish e).generation = t.generation := congrArg Prod.snd htag
  have hsent := sentOf_run_of_ended (hact.sound hs) (hact.telling hs (telling_run acts))
    hfinish (t.ending_finish e) l₁ l₂ l₃
  simp only [Tunnel.move, hfqn, hgen, t.due_finish] at hsent
  rw [queuedOf_eq_sentOf, run_append_cons]
  exact hsent

/-- An activation is queued by a tunnel that has ports to report. -/
theorem exists_reported {acts : List Act} {fqn : String} {g : Nat} {ports : List Mapping}
    (h : .activated fqn g ports ∈ (empty.run acts).sent) :
    ∃ (k : Nat) (t : Tunnel), (empty.run acts).tunnels[k]? = some t ∧ t.fqn = fqn ∧
      t.generation = g ∧ t.ready = .reported ports := by
  obtain ⟨t, ht, htag⟩ := List.mem_map.1 ((Sound.empty.run acts).sent _ h)
  obtain ⟨hfqn, hgen⟩ := Prod.mk.inj htag
  obtain ⟨k, hk⟩ := List.mem_iff_getElem?.1 ht
  have hmem : .activated fqn g ports ∈ (empty.run acts).sentOf t.generation := by
    refine List.mem_filter.2 ⟨h, ?_⟩
    rw [hgen]
    exact beq_self_eq_true g
  have hdue : .activated fqn g ports ∈ t.due := by
    rcases (telling_run acts k t hk).inOrder with hnil | hdue | ⟨e, c, -, hall⟩
    · rw [hnil] at hmem
      cases hmem
    · rwa [hdue] at hmem
    · rw [hall] at hmem
      simpa using hmem
  refine ⟨k, t, hk, hfqn, hgen, ?_⟩
  unfold Tunnel.due at hdue
  split at hdue
  · cases List.mem_singleton.1 hdue
    assumption
  · cases hdue

/-- Every tunnel queues at most one activation, of the ports that its transport has reported,
and behind it one end, which names how the transport has ended. -/
theorem tunnels_tell_once_in_order (acts : List Act) : Reporting acts where
  launched s hs hp := exists_tunnel_of_launched (Sound.empty.run acts) hs hp
  distinct := by
    rw [(Sound.empty.run acts).map_generation]
    exact (Sound.empty.run acts).nodup_generations .launched
  kept := queueing_keeps.perm empty acts
  order := queueing_keeps.sublist empty acts
  fifo hfront := queueing_keeps.fifo fun a ha =>
    Queueing.append_pick fun i hi => hfront i (Act.eq_hear_of_place? hi ▸ ha)
  heard i ρ hi := by simp only [act, hear, hi]
  source ρ hρ := by
    rw [queued_eq_sent] at hρ
    obtain ⟨t, ht, htag⟩ := List.mem_map.1 ((Sound.empty.run acts).sent ρ hρ)
    exact ⟨t, ht, (congrArg Prod.fst htag).symm, (congrArg Prod.snd htag).symm⟩
  once k t ht := by
    rw [queuedOf_eq_sentOf]
    exact (telling_run acts k t ht).inOrder
  activation _ _ ht hr he ports l₁ l₂ := activation_queued acts ht hr he ports l₁ l₂
  finish _ _ ht e l₁ l₂ l₃ := finish_queued acts ht e l₁ l₂ l₃
  reported fqn g ports h := by
    rw [queued_eq_sent] at h
    obtain ⟨k, t, ht, rfl, rfl, hr⟩ := exists_reported h
    obtain ⟨before, after, u, rfl, hu, htag, hfree⟩ := exists_report ht hr
    exact ⟨before, after, k, u, rfl, hu, congrArg Prod.fst htag, congrArg Prod.snd htag, hfree⟩
  ended fqn g o h := by
    rw [queued_eq_sent] at h
    rcases exists_settleFinish h with hnil | ⟨before, after, k, t, e, hacts, ht, hf, hg, he, rfl⟩
    · cases hnil
    · obtain ⟨earlier, during, u, rfl, hu, htag, hnone⟩ := exists_finish ht he
      have hannounced := (Sound.empty.run acts).announced h
      exact ⟨earlier, during, after, k, u, e, hacts, hu, (congrArg Prod.fst htag).trans hf,
        (congrArg Prod.snd htag).trans hg, hnone, rfl, hannounced⟩

end Exchange

end ClusterConsole.Forwarding
