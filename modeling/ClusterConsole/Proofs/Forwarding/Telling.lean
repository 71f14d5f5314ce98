import ClusterConsole.Proofs.Forwarding.NoOrphans

/-!
# What tunnels tell

Every tunnel sends its reports in order, `InOrder`, and once its transport has ended
and both its other parts have had their turn, all of them. The end of a forward names
the outcome that the token had decided when it was sent (`exists_settleFinish`);
`Announced` says what the operator is told when it is heard.
-/

namespace ClusterConsole.Forwarding

open ClusterConsole.Status

namespace Tunnel

variable {t t' : Tunnel} {l : List Report}

/-- The activation that a tunnel has to tell, if its transport has reported ports. -/
def due (t : Tunnel) : List Report :=
  match t.ready with
  | .reported ports => [.activated t.fqn t.generation ports]
  | _ => []

/-- Nothing was told, or all but the end, or all. -/
def InOrder (t : Tunnel) (l : List Report) : Prop :=
  l = [] ∨ l = t.due ∨
    ∃ e c, t.ending = some e ∧ l = t.due ++ [.finished t.fqn t.generation (e.outcome c)]

theorem activation_eq_due (h : t.activationSettled = true) : t.activation = t.due := by
  cases hr : t.ready <;> simp [activation, due, h, hr]

theorem Told.eq_of_queued (h : t.Told l) (hq : t.finishQueued = true) {e : Ending}
    (he : t.ending = some e) :
    ∃ c, l = t.due ++ [.finished t.fqn t.generation (e.outcome c)] := by
  obtain ⟨c, hl⟩ := h.told
  refine ⟨c, ?_⟩
  rw [hl, activation_eq_due (h.queued hq).1]
  simp [conclusion, hq, he]

theorem Told.inOrder (h : t.Told l) : t.InOrder l := by
  by_cases hs : t.activationSettled = true
  · by_cases hq : t.finishQueued = true
    · obtain ⟨e, he⟩ := Option.isSome_iff_exists.1 (h.queued hq).2
      obtain ⟨c, hl⟩ := h.eq_of_queued hq he
      exact .inr (.inr ⟨e, c, he, hl⟩)
    · right
      left
      rw [h.eq_activation hq, activation_eq_due hs]
  · exact .inl (h.eq_nil hs)

theorem due_finish (t : Tunnel) (e : Ending) : (t.finish e).due = t.due := by
  unfold finish
  split
  · rfl
  · unfold withhold
    split
    · rename_i hr
      simp [due, hr]
    · rfl

theorem ending_finish (t : Tunnel) (e : Ending) :
    (t.finish e).ending = some (t.ending.getD e) := by
  cases h : t.ending <;> simp [finish, h]

theorem ready_report {ports : List Mapping} (hr : t.ready = .pending) (he : t.ending = none) :
    (t.report ports).ready = .reported ports := by
  simp [report, hr, he]

theorem Later.due (h : t.Later t') (hr : t.ready ≠ .pending) : t'.due = t.due := by
  have hready := h.ready hr
  have hfqn : t'.fqn = t.fqn := congrArg Prod.fst h.tag
  have hgen : t'.generation = t.generation := congrArg Prod.snd h.tag
  rw [Tunnel.due, Tunnel.due, hready, hfqn, hgen]

end Tunnel

namespace Exchange

variable {x y : Exchange} {t u : Tunnel} {ρ : Report} {fqn : String} {g : Nat} {o : Outcome}

/-! ## One tunnel for each generation -/

theorem Sound.eq_of_generation {i k : Nat} (h : x.Sound) (hu : x.tunnels[i]? = some u)
    (ht : x.tunnels[k]? = some t) (hg : u.generation = t.generation) : i = k := by
  have hnodup := h.nodup_generations .launched
  rw [← h.map_generation] at hnodup
  have hi : i < (x.tunnels.map Tunnel.generation).length := by
    rw [List.length_map]
    exact (List.getElem?_eq_some_iff.1 hu).1
  refine (List.getElem?_inj hi hnodup).1 ?_
  rw [List.getElem?_map, List.getElem?_map, hu, ht, Option.map_some, Option.map_some, hg]

/-- What each tunnel has told. -/
def Telling (x : Exchange) : Prop :=
  ∀ (k : Nat) (t : Tunnel), x.tunnels[k]? = some t → t.Told (x.sentOf t.generation)

theorem sentOf_eq_nil (h : ∀ ρ ∈ x.sent, ρ.generation ≠ g) : x.sentOf g = [] := by
  refine List.filter_eq_nil_iff.2 fun ρ hρ => ?_
  simp [h ρ hρ]

end Exchange

open Exchange

namespace Change

variable {x y : Exchange}

theorem telling (h : Change x y) (hs : x.Sound) (hx : x.Telling) : y.Telling := by
  cases h with
  | register free next created => exact hx
  | @launch s s' found created step =>
      intro k t ht
      rw [List.getElem?_append] at ht
      split at ht
      · exact hx k t ht
      · have hmem := List.mem_of_getElem? ht
        rw [List.mem_singleton.1 hmem]
        have hg : s.generation = s'.generation := by rw [← step]
        have hnil : x.sentOf s'.generation = [] := by
          refine sentOf_eq_nil fun ρ hρ heq => ?_
          exact hs.launched_of_sent hρ (Registry.mem_of_get? found) (hg.trans heq.symm) created
        have htold := Tunnel.Told.ofSession s'
        rw [← hnil] at htold
        exact htold
  | activate found activating step => exact hx
  | remove found last legal => exact hx
  | close => exact hx
  | @move k t m found =>
      intro i u hu
      have hout : ∀ ρ ∈ (t.move (x.registry.isCalledOff t.generation) m).2,
          ρ.generation = t.generation :=
        fun ρ hρ => congrArg Prod.snd (Tunnel.tag_of_mem_move hρ)
      by_cases hi : k = i
      · subst hi
        have hk := (List.getElem?_eq_some_iff.1 found).1
        rw [List.getElem?_set_self hk] at hu
        obtain rfl := Option.some.inj hu
        have hgen : (t.move (x.registry.isCalledOff t.generation) m).1.generation =
            t.generation := congrArg Prod.snd (Tunnel.later_move t _ m).tag
        have hnew : (t.move (x.registry.isCalledOff t.generation) m).2.filter
            (fun ρ => ρ.generation == t.generation) =
              (t.move (x.registry.isCalledOff t.generation) m).2 :=
          List.filter_eq_self.2 fun ρ hρ => by simp [hout ρ hρ]
        rw [hgen]
        simp only [sentOf, List.filter_append, hnew]
        exact (hx k t found).move _ m
      · rw [List.getElem?_set_ne hi] at hu
        have hne : t.generation ≠ u.generation := fun h => hi (hs.eq_of_generation found hu h)
        have hnew : (t.move (x.registry.isCalledOff t.generation) m).2.filter
            (fun ρ => ρ.generation == u.generation) = [] :=
          List.filter_eq_nil_iff.2 fun ρ hρ => by simp [hout ρ hρ, hne]
        simp only [sentOf, List.filter_append, hnew, List.append_nil]
        exact hx i u hu
  | take i => exact hx

end Change

theorem Changes.telling {x y : Exchange} (h : Changes x y) (hs : x.Sound) (hx : x.Telling) :
    y.Telling := by
  induction h with
  | refl => exact hx
  | tail hsteps hstep ih => exact hstep.telling (Changes.sound hsteps hs) ih

namespace Exchange

variable {x y : Exchange} {t u : Tunnel} {ρ : Report} {fqn : String} {g : Nat} {o : Outcome}

theorem telling_run (acts : List Act) : (empty.run acts).Telling :=
  (Sound.empty.run_changes acts).telling Sound.empty (by simp [Telling, empty])

/-! ## Everything is told in the end -/

theorem getElem?_move {k : Nat} (m : Tunnel.Move) (ht : x.tunnels[k]? = some t) :
    (x.act (.move k m)).tunnels[k]? =
      some (t.move (x.registry.isCalledOff t.generation) m).1 := by
  have hk := (List.getElem?_eq_some_iff.1 ht).1
  simp only [act, move, ht]
  exact List.getElem?_set_self hk

theorem Sound.exists_later_move {k : Nat} (h : x.Sound) (ht : x.tunnels[k]? = some t)
    (m : Tunnel.Move) (acts : List Act) :
    ∃ t', (x.run (.move k m :: acts)).tunnels[k]? = some t' ∧
      (t.move (x.registry.isCalledOff t.generation) m).1.Later t' := by
  have hmove := (h.act_changes (.move k m)).sound h
  exact (hmove.run_onward acts).tunnels k _ (getElem?_move m ht)

/-- Once the transport has ended, the two other parts have to take their turn, the one
that waits for the ports first; then all is told, whatever else happens meanwhile. -/
theorem sentOf_run_of_ended (hs : x.Sound) (hx : x.Telling) {k : Nat} {e : Ending}
    (ht : x.tunnels[k]? = some t) (he : t.ending = some e) (l₁ l₂ l₃ : List Act) :
    ∃ c, (x.run (l₁ ++ .move k .settleActivation :: l₂ ++ .move k .settleFinish :: l₃)).sentOf
      t.generation = t.due ++ [.finished t.fqn t.generation (e.outcome c)] := by
  have hsome : t.ending.isSome = true := by rw [he]; rfl
  have hready := (hx k t ht).ended hsome
  -- `t₁` takes the first of the two turns and `t₂` the second; `t₃` stands at the end
  obtain ⟨t₁, ht₁, hlater₁⟩ := (hs.run_onward l₁).tunnels k t ht
  obtain ⟨t₂, ht₂, hlater₂⟩ := (hs.run l₁).exists_later_move ht₁ .settleActivation l₂
  obtain ⟨t₃, ht₃, hlater₃⟩ :=
    ((hs.run l₁).run (.move k .settleActivation :: l₂)).exists_later_move ht₂ .settleFinish l₃
  rw [← run_append, ← run_append] at ht₃
  have hlater : t.Later t₂ := (hlater₁.trans (t₁.later_move _ .settleActivation)).trans hlater₂
  have hsettled : t₂.activationSettled = true :=
    hlater₂.settled (Tunnel.settled_settleActivation (hlater₁.ready hready ▸ hready))
  have hqueued : t₃.finishQueued = true :=
    hlater₃.queued (Tunnel.queued_settleFinish hsettled (hlater.ending hsome ▸ hsome))
  have hall : t.Later t₃ := (hlater.trans (t₂.later_move _ .settleFinish)).trans hlater₃
  have htold := (hs.run_changes _).telling hs hx k t₃ ht₃
  obtain ⟨c, hl⟩ := htold.eq_of_queued hqueued ((hall.ending hsome).trans he)
  have hfqn : t₃.fqn = t.fqn := congrArg Prod.fst hall.tag
  have hgen : t₃.generation = t.generation := congrArg Prod.snd hall.tag
  rw [hall.due hready, hfqn, hgen, ← List.append_assoc] at hl
  exact ⟨c, hl⟩

/-- Once the transport has reported its ports, the part that waits for them has to take its
turn; then the activation is told, and behind it at most the end. -/
theorem sentOf_run_of_reported (hs : x.Sound) (hx : x.Telling) {k : Nat} {ports : List Mapping}
    (ht : x.tunnels[k]? = some t) (hr : t.ready = .reported ports) (l₁ l₂ : List Act) :
    ∃ rest, (x.run (l₁ ++ .move k .settleActivation :: l₂)).sentOf t.generation =
        .activated t.fqn t.generation ports :: rest ∧
      ∀ ρ ∈ rest, ∃ o, ρ = .finished t.fqn t.generation o := by
  have hready : t.ready ≠ .pending := by simp [hr]
  obtain ⟨t₁, ht₁, hlater₁⟩ := (hs.run_onward l₁).tunnels k t ht
  obtain ⟨t₂, ht₂, hlater₂⟩ := (hs.run l₁).exists_later_move ht₁ .settleActivation l₂
  rw [← run_append] at ht₂
  have hlater : t.Later t₂ := (hlater₁.trans (t₁.later_move _ .settleActivation)).trans hlater₂
  have hsettled : t₂.activationSettled = true :=
    hlater₂.settled (Tunnel.settled_settleActivation (hlater₁.ready hready ▸ hready))
  obtain ⟨c, hl⟩ := ((hs.run_changes _).telling hs hx k t₂ ht₂).told
  have hfqn : t₂.fqn = t.fqn := congrArg Prod.fst hlater.tag
  have hgen : t₂.generation = t.generation := congrArg Prod.snd hlater.tag
  rw [Tunnel.activation_eq_due hsettled, hlater.due hready, hgen] at hl
  refine ⟨t₂.conclusion c, by simpa [Tunnel.due, hr] using hl, fun ρ hρ => ?_⟩
  obtain ⟨o, rfl⟩ := Tunnel.eq_finished_of_mem_conclusion hρ
  exact ⟨o, by rw [hfqn, hgen]⟩

/-! ## How an end comes to be told -/

theorem sent_act (x : Exchange) (a : Act) : (x.act a).sent = x.sent ∨
    ∃ k m t, a = .move k m ∧ x.tunnels[k]? = some t ∧
      (x.act a).sent = x.sent ++ (t.move (x.registry.isCalledOff t.generation) m).2 := by
  cases a with
  | start now fqn path container m =>
      left
      simp only [act, start]
      split <;> rfl
  | launch fqn =>
      left
      simp only [act, launch]
      split <;> rfl
  | stop fqn => exact .inl rfl
  | stopAll => exact .inl x.stopAll_keeps.2.2.2
  | close => exact .inl rfl
  | move k m =>
      cases ht : x.tunnels[k]? with
      | none =>
          left
          simp [act, move, ht]
      | some t =>
          right
          refine ⟨k, m, t, rfl, ht, ?_⟩
          simp [act, move, ht]
  | hear i =>
      left
      simp only [act, hear]
      split <;> rfl

/-- An end that was queued during some acts was queued by one of them, with the token
as it stood then. -/
theorem exists_settleFinish {acts : List Act} (h : .finished fqn g o ∈ (x.run acts).sent) :
    .finished fqn g o ∈ x.sent ∨
    ∃ before after k t e, acts = before ++ .move k .settleFinish :: after ∧
      (x.run before).tunnels[k]? = some t ∧ t.fqn = fqn ∧ t.generation = g ∧
      t.ending = some e ∧ o = e.outcome ((x.run before).registry.isCalledOff g) := by
  induction acts generalizing x with
  | nil => exact .inl h
  | cons a acts ih =>
      rcases ih h with hmem | ⟨before, after, k, t, e, rfl, hrest⟩
      · rcases x.sent_act a with hsent | ⟨k, m, t, rfl, ht, hsent⟩
        · left
          rwa [hsent] at hmem
        · rw [hsent] at hmem
          rcases List.mem_append.1 hmem with hmem | hmem
          · exact .inl hmem
          · obtain ⟨rfl, htag, e, he, rfl⟩ := Tunnel.finished_mem_move hmem
            obtain ⟨rfl, rfl⟩ := Prod.mk.inj htag
            exact .inr ⟨[], acts, k, t, e, rfl, ht, rfl, rfl, he, rfl⟩
      · exact .inr ⟨a :: before, after, k, t, e, rfl, hrest⟩

/-! ## What the operator is told -/

/-- What hearing the end of a forward comes to, given what went wrong and whether the
token was called off when the end was queued. -/
structure Announced (r : Registry) (fqn : String) (g : Nat) (fault : Option String)
    (calledOff : Bool) (a : Aftermath) : Prop where
  gone : ∀ s ∈ a.registry.sessions, s.generation ≠ g
  error : ∀ text, a.notice = some ⟨.error, text⟩ ↔ ∃ detail, fault = some detail ∧
    calledOff = false ∧ (r.current? fqn g).isSome ∧ text = (Failure.transport fqn detail).message
  info : ∀ text, a.notice = some ⟨.info, text⟩ ↔ fault = none ∧ calledOff = false ∧
    (r.current? fqn g).isSome ∧ text = "PortForward " ++ fqn ++ " closed"
  warn : ∀ text, a.notice = some ⟨.warn, text⟩ ↔ ∃ detail, fault = some detail ∧
    calledOff = true ∧ text = "PortForward " ++ fqn ++ " stopped: " ++ detail
  /-- A session that was stopped before is never said to have failed or closed. -/
  stopped : (∀ s ∈ r.sessions, s.generation ≠ g) → ∀ n, a.notice = some n → n.level = .warn

theorem notice_applyReport (r : Registry) (fqn : String) (g : Nat) (o : Outcome) :
    (r.applyReport (.finished fqn g o)).notice =
      Registry.finishedNotice fqn o (r.current? fqn g).isSome := by
  cases h : r.current? fqn g with
  | none => simp [Registry.applyReport, Registry.applyFinished, Registry.finish_of_none h]
  | some s => simp [Registry.applyReport, Registry.applyFinished, Registry.finish_of_some h]

/-- The notice by what went wrong, what the token said and whether the session is
registered. -/
theorem finishedNotice_outcome (fqn : String) (e : Ending) (c registered : Bool) :
    Registry.finishedNotice fqn (e.outcome c) registered =
      match e.fault?, c, registered with
      | some detail, true, _ => some ⟨.warn, "PortForward " ++ fqn ++ " stopped: " ++ detail⟩
      | some detail, false, true => some ⟨.error, (Failure.transport fqn detail).message⟩
      | none, false, true => some ⟨.info, "PortForward " ++ fqn ++ " closed"⟩
      | _, _, _ => none := by
  cases h : e.fault? <;> cases c <;> cases registered <;>
    simp [Ending.outcome, h, Registry.finishedNotice]

theorem Sound.gone_of_finished (h : x.Sound) (hρ : .finished fqn g o ∈ x.sent) :
    ∀ s ∈ (x.registry.applyReport (.finished fqn g o)).registry.sessions, s.generation ≠ g := by
  intro s hs hg
  cases hcur : x.registry.current? fqn g with
  | none =>
      rw [(Registry.applyReport_of_none (ρ := .finished fqn g o) hcur).1] at hs
      have hfqn := h.fqn_of_sent hρ hs hg
      have hget := h.lives.ordered.get?_eq_some hs
      rw [hfqn] at hget
      exact Registry.current?_eq_none_iff.1 hcur s hget hg
  | some t =>
      have hdrop : (x.registry.applyReport (.finished fqn g o)).registry = x.registry.drop t := by
        simp [Registry.applyReport, Registry.applyFinished, Registry.finish_of_some hcur]
      rw [hdrop] at hs
      obtain ⟨hs, hne⟩ := Registry.mem_drop.1 hs
      obtain ⟨hget, htg⟩ := Registry.current?_eq_some_iff.1 hcur
      have heq := h.lives.distinct s hs t (Registry.mem_of_get? hget) (hg.trans htg.symm)
      exact hne (congrArg Session.fqn heq)

theorem Sound.announced {e : Ending} {c : Bool} (h : x.Sound)
    (hρ : .finished fqn g (e.outcome c) ∈ x.sent) :
    Announced x.registry fqn g e.fault? c
      (x.registry.applyReport (.finished fqn g (e.outcome c))) := by
  have hnotice := (notice_applyReport x.registry fqn g (e.outcome c)).trans
    (finishedNotice_outcome fqn e c _)
  refine ⟨h.gone_of_finished hρ, fun text => ?_, fun text => ?_, fun text => ?_, fun hgone n => ?_⟩
  · rw [hnotice]
    cases e.fault? <;> cases c <;> cases x.registry.current? fqn g <;> simp [eq_comm]
  · rw [hnotice]
    cases e.fault? <;> cases c <;> cases x.registry.current? fqn g <;> simp [eq_comm]
  · rw [hnotice]
    cases e.fault? <;> cases c <;> cases x.registry.current? fqn g <;> simp [eq_comm]
  · have hcur : x.registry.current? fqn g = none :=
      Registry.current?_eq_none_iff.2 fun s hs => hgone s (Registry.mem_of_get? hs)
    rw [hnotice, hcur]
    intro hn
    cases hf : e.fault? <;> cases c <;> simp [hf] at hn
    rw [← hn]

end Exchange

end ClusterConsole.Forwarding
