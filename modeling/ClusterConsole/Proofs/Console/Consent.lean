import ClusterConsole.Proofs.Console.Desk
import ClusterConsole.Proofs.Forwarding.Changes

/-!
# Forwards need consent

A question is open exactly while the console waits for its answer, and it is put as its
intent says (`Candid`). So the registry is touched by an answer only, and by what the
operator was asked about. What is heard meanwhile may end a session or let it become
active, but never put another one in its place (`Descends`), so the answer to a question
about a session is about that session.
-/

namespace ClusterConsole

open ClusterConsole.Resource

/-! ## Sessions that stay -/

namespace Forwarding.Registry

variable {r r' r'' : Registry} {s : Session}

/-- Each session of the second registry stood in the first one, under the same key. -/
def Descends (r r' : Registry) : Prop :=
  ∀ k t, r'.get? k = some t → ∃ u, r.get? k = some u ∧ u.generation = t.generation

theorem Descends.refl (r : Registry) : r.Descends r := by
  intro k t ht
  exact ⟨t, ht, rfl⟩

theorem Descends.trans (h : r.Descends r') (h' : r'.Descends r'') : r.Descends r'' := by
  intro k t ht
  obtain ⟨u, hu, hut⟩ := h' k t ht
  obtain ⟨v, hv, hvu⟩ := h k u hu
  exact ⟨v, hv, hvu.trans hut⟩

theorem descends_set (hs : r.get? s.fqn = some s) (p : Phase) :
    r.Descends (r.set { s with phase := p }) := by
  intro k t ht
  rw [get?_set] at ht
  split at ht
  · rename_i hk
    subst hk
    rw [hs, Option.map_some, Option.some.injEq] at ht
    exact ⟨s, hs, by rw [← ht]⟩
  · exact ⟨t, ht, rfl⟩

theorem descends_drop (r : Registry) (s : Session) : r.Descends (r.drop s) := by
  intro k t ht
  rw [get?_drop] at ht
  split at ht
  · cases ht
  · exact ⟨t, ht, rfl⟩

theorem descends_applyReport (r : Registry) (ρ : Report) :
    r.Descends (r.applyReport ρ).registry := by
  cases hcurrent : r.current? ρ.fqn ρ.generation with
  | none =>
      rw [(applyReport_of_none hcurrent).1]
      exact .refl r
  | some s =>
      obtain ⟨hs, -⟩ := current?_eq_some_iff.1 hcurrent
      have hfqn := fqn_of_get? hs
      rcases applyReport_of_some hcurrent with ⟨hsame, -⟩ | ⟨-, hset, -⟩ | ⟨o, hdrop, -⟩
      · rw [hsame]
        exact .refl r
      · rw [hset]
        exact descends_set (hfqn ▸ hs) .active
      · rw [hdrop]
        exact descends_drop r s

end Forwarding.Registry

namespace Console

open ClusterConsole.Background (News Surroundings)
open ClusterConsole.Forwarding (Registry)

/-! ## Questions -/

/-- The open question and whether the console waits for an answer. -/
def Bearing.matter (b : Bearing) : Option Question × Bool := (b.question, b.asking)

/-- A question is open just while the console waits, and it says what it is about. -/
structure Candid (c : Console) : Prop where
  open_iff : c.mode = .confirm ↔ c.question.isSome = true
  prompt : ∀ q, c.question = some q → q.prompt = q.intent.prompt
  errands : c.errands = []

variable {c c' : Console} {s : Surroundings} {p : Console × Option Command} {a : Action}
  {i : Intent}

theorem asking_eq_true_iff : c.bearing.asking = true ↔ c.mode = .confirm := decide_eq_true_iff

theorem Candid.of_matter (h : c.Candid) (hc : c'.bearing.matter = c.bearing.matter)
    (herrands : c'.errands = []) : c'.Candid := by
  have hquestion : c'.question = c.question := congrArg Prod.fst hc
  have hasking : c'.bearing.asking = c.bearing.asking := congrArg Prod.snd hc
  refine ⟨?_, ?_, herrands⟩
  · rw [← asking_eq_true_iff, hasking, hquestion, asking_eq_true_iff]
    exact h.open_iff
  · rw [hquestion]
    exact h.prompt

theorem candid_of_none (hc : c.bearing.matter = (none, false)) (herrands : c.errands = []) :
    c.Candid := by
  have hquestion : c.question = none := congrArg Prod.fst hc
  have hasking : c.bearing.asking = false := congrArg Prod.snd hc
  refine ⟨?_, ?_, herrands⟩
  · rw [← asking_eq_true_iff, hasking, hquestion]
    exact ⟨nofun, nofun⟩
  · rw [hquestion]
    exact nofun

theorem candid_of_asked (hc : c.bearing.matter = (some ⟨i.prompt, i⟩, true))
    (herrands : c.errands = []) : c.Candid := by
  have hquestion : c.question = some ⟨i.prompt, i⟩ := congrArg Prod.fst hc
  have hasking : c.bearing.asking = true := congrArg Prod.snd hc
  refine ⟨?_, ?_, herrands⟩
  · rw [← asking_eq_true_iff, hasking, hquestion]
    exact iff_of_true rfl rfl
  · rw [hquestion]
    rintro q hq
    obtain rfl := Option.some.inj hq
    rfl

theorem matter_watchCurrent (c : Console) (s : Surroundings) :
    (c.watchCurrent s).1.bearing.matter = c.bearing.matter := by
  obtain ⟨r, table, h⟩ := bearing_watchCurrent c s
  rw [h]
  rfl

theorem matter_hydrate (c : Console) (s : Surroundings) :
    (c.hydrate s).bearing.matter = c.bearing.matter := by
  rw [bearing_hydrate]
  rfl

theorem matter_hear (c : Console) (s : Surroundings) (news : News) :
    (c.hear s news).bearing.matter = c.bearing.matter := by
  obtain ⟨table, error, registry, runner, h⟩ := bearing_hear c s news
  rw [h]
  rfl

theorem Learnt.matter (h : Learnt s c c') : c'.bearing.matter = c.bearing.matter := by
  obtain ⟨table, registry, runner, h⟩ := h.bearing_eq
  rw [h]
  rfl

/-- While no question is open, an action may open one, if there is occasion to. -/
theorem Outcome.matter (h : Outcome s c p) : p.1.bearing.matter = c.bearing.matter ∨
    ∃ i, Occasion c i ∧ p.1.bearing.matter = (some ⟨i.prompt, i⟩, true) := by
  cases h with
  | still h => exact .inl (by rw [h])
  | refresh h => exact .inl (by rw [h])
  | paced _ h => exact .inl (by rw [h])
  | rescoped _ h => exact .inl (by rw [h]; rfl)
  | opened c₀ h =>
      refine .inl ((matter_watchCurrent c₀ s).trans ?_)
      exact congrArg (fun p => (p.2.1, p.2.2.1)) h
  | @drawn c₀ h => exact .inl ((matter_hydrate c₀ s).trans (by rw [h]))
  | asked hi h => exact .inr ⟨_, hi, by rw [h]; rfl⟩
  | benchmark _ h => exact .inl (by rw [h]; rfl)
  | cancel h => exact .inl (by rw [h]; rfl)

theorem Done.matter (h : Done s c i c') : c'.bearing.matter = c.bearing.matter := by
  cases h with
  | forwarded _ _ h => exact (matter_hydrate _ s).trans (by rw [h]; rfl)
  | refused _ h => rw [h]
  | deleted _ h => exact (matter_hydrate _ s).trans (by rw [h]; rfl)
  | missed _ h => rw [h]

/-- While a question is open, an action that is no answer leaves it open. -/
theorem Reply.matter (h : Reply s c a c') :
    c'.bearing.matter = if a.answers then (none, false) else c.bearing.matter := by
  cases h with
  | agreed _ h => exact h.matter
  | dropped ha h => rw [ha, h]; rfl
  | waits ha h => rw [ha, h]; rfl

/-! ## The registry -/

theorem registry_hydrate (c : Console) (s : Surroundings) :
    (c.hydrate s).registry = c.registry :=
  (congrArg Bearing.registry (bearing_hydrate c s) :)

theorem Outcome.registry (h : Outcome s c p) : p.1.registry = c.registry := by
  cases h with
  | still h | refresh h | paced _ h | rescoped _ h | asked _ h | benchmark _ h | cancel h =>
      exact (congrArg Bearing.registry h :)
  | opened c₀ h =>
      obtain ⟨r, table, hopened⟩ := bearing_watchCurrent c₀ s
      exact (congrArg Bearing.registry hopened :).trans (congrArg (fun p => p.2.2.2.1) h)
  | drawn h => exact (registry_hydrate _ s).trans (congrArg Bearing.registry h)

theorem Reply.registry (h : Reply s c a c') (ha : a ≠ .confirmYes) :
    c'.registry = c.registry := by
  cases h with
  | agreed => exact absurd rfl ha
  | dropped _ h | waits _ h => exact (congrArg Bearing.registry h :)

/-- Only agreement touches the registry. -/
theorem registry_act (h : c.mode ≠ .confirm ∨ a ≠ .confirmYes) (s : Surroundings) :
    (c.act s a).1.registry = c.registry := by
  by_cases hc : c.mode = .confirm
  · rw [act_of_confirm hc]
    exact (answer_reply c s a).registry (h.resolve_left (not_not_intro hc))
  · exact (act_outcome s a hc).registry

theorem Learnt.registry (h : Learnt s c c') : c'.registry = c.registry ∨
    ∃ ρ, c'.registry = (c.registry.applyReport ρ).registry := by
  cases h with
  | aside _ h => exact .inl (congrArg Bearing.registry h :)
  | reported report h =>
      exact .inr ⟨report, (registry_hydrate _ s).trans (congrArg Bearing.registry h :)⟩
  | reloaded h => exact .inl ((registry_hydrate _ s).trans (congrArg Bearing.registry h :))

/-- What is heard touches the registry only as a report does. -/
theorem registry_hear (c : Console) (s : Surroundings) (news : News) :
    (c.hear s news).registry = c.registry ∨
      ∃ ρ, (c.hear s news).registry = (c.registry.applyReport ρ).registry := by
  cases news with
  | table generation table =>
      have h := bearing_tableLoaded c generation table
      split at h <;> exact .inl (congrArg Bearing.registry h :)
  | tableFailure generation message =>
      have h := bearing_tableFailed c generation message
      split at h <;> exact .inl (congrArg Bearing.registry h :)
  | _ => exact (hear_learnt c s rfl).registry

theorem descends_of_heard (h : c'.registry = c.registry ∨
    ∃ ρ, c'.registry = (c.registry.applyReport ρ).registry) :
    c.registry.Descends c'.registry := by
  rcases h with h | ⟨ρ, h⟩
  · rw [h]
    exact .refl _
  · rw [h]
    exact Registry.descends_applyReport c.registry ρ

namespace Desk

variable {d d' : Desk} {label : Option Action}

/-! ## Every desk is candid -/

theorem candid_act (h : d.console.Candid) (s : Surroundings) (a : Action) :
    (d.follow (d.console.act s a)).console.Candid := by
  rw [(d.console_follow (d.console.act s a)).1]
  by_cases hc : d.console.mode = .confirm
  · rw [act_of_confirm hc]
    have hmatter := (answer_reply d.console s a).matter
    cases ha : a.answers with
    | true =>
        rw [ha, if_pos rfl] at hmatter
        exact candid_of_none hmatter rfl
    | false =>
        rw [ha] at hmatter
        exact h.of_matter hmatter rfl
  · rcases (act_outcome s a hc).matter with hsame | ⟨i, -, hasked⟩
    · exact h.of_matter hsame rfl
    · exact candid_of_asked hasked rfl

theorem candid_step (h : d.console.Candid) (hstep : Step d label d') : d'.console.Candid := by
  cases hstep with
  | still | watches | outside => exact h
  | acts a => exact candid_act h d.surroundings a
  | hears =>
      obtain ⟨table, error, registry, runner, hheard⟩ := bearing_hear d.console d.surroundings _
      exact h.of_matter (matter_hear _ _ _) ((congrArg Bearing.errands hheard :).trans h.errands)
  | learns hlearnt =>
      obtain ⟨table, registry, runner, hheard⟩ := hlearnt.bearing_eq
      exact h.of_matter hlearnt.matter ((congrArg Bearing.errands hheard :).trans h.errands)
  | draws =>
      exact h.of_matter (matter_hydrate _ _)
        ((congrArg Bearing.errands (bearing_hydrate _ _) :).trans h.errands)
  | warns => exact h.of_matter rfl h.errands

theorem candid_run (h : d.console.Candid) (acts : List Act) : (d.run acts).console.Candid := by
  induction acts generalizing d with
  | nil => exact h
  | cons a acts ih => exact ih (candid_step h (d.step_act a))

theorem candid_opening (s : Surroundings) (home cluster context : String) (scope : Scope)
    (kind : Kind) (interval : Nat) :
    (opening s home cluster context scope kind interval).console.Candid := by
  obtain ⟨r, hstart, -⟩ := bearing_start s home cluster context scope kind
  simp only [opening]
  generalize Console.start s home cluster context scope kind = c at hstart
  rw [(console_follow _ _).1]
  apply candid_of_none
  · have hsame : (c.watchCurrent s).1.bearing.matter = c.bearing.matter :=
      matter_watchCurrent c s
    rw [hstart] at hsame
    exact hsame
  · rfl

/-! ## While a question is open -/

/-- Whether it is an action that answers a question. -/
def Act.answers (m : Act) : Bool := m.action?.any Action.answers

/-- Without an answer the question stays open, and no session takes another one's place. -/
theorem wait_step (hc : d.console.mode = .confirm)
    (hlabel : label.any Action.answers = false) (hstep : Step d label d') :
    d'.console.bearing.matter = d.console.bearing.matter ∧
      d.console.registry.Descends d'.console.registry := by
  cases hstep with
  | still | watches | outside => exact ⟨rfl, .refl _⟩
  | acts a =>
      have ha : a.answers = false := hlabel
      have hreply := answer_reply d.console d.surroundings a
      have hmatter := hreply.matter
      rw [ha] at hmatter
      rw [(d.console_follow _).1, act_of_confirm hc]
      have hsame : (d.console.answer d.surroundings a).registry = d.console.registry :=
        hreply.registry (by rintro rfl; cases ha)
      refine ⟨hmatter, ?_⟩
      change d.console.registry.Descends (d.console.answer d.surroundings a).registry
      rw [hsame]
      exact .refl _
  | hears => exact ⟨matter_hear _ _ _, descends_of_heard (registry_hear _ _ _)⟩
  | learns hlearnt => exact ⟨hlearnt.matter, descends_of_heard hlearnt.registry⟩
  | draws =>
      refine ⟨matter_hydrate _ _, ?_⟩
      rw [registry_hydrate]
      exact .refl _
  | warns => exact ⟨rfl, .refl _⟩

theorem wait_run (hc : d.console.mode = .confirm) {more : List Act}
    (hmore : ∀ m ∈ more, m.answers = false) :
    (d.run more).console.bearing.matter = d.console.bearing.matter ∧
      d.console.registry.Descends (d.run more).console.registry := by
  induction more generalizing d with
  | nil => exact ⟨rfl, .refl _⟩
  | cons m more ih =>
      obtain ⟨hmatter, hdescends⟩ := wait_step hc (hmore m List.mem_cons_self) (d.step_act m)
      have hnext : (d.act m).console.mode = .confirm := by
        rw [← asking_eq_true_iff] at hc ⊢
        exact (congrArg Prod.snd hmatter).trans hc
      obtain ⟨hlast, hlater⟩ := ih hnext fun m hm => hmore m (List.mem_cons_of_mem _ hm)
      exact ⟨hlast.trans hmatter, hdescends.trans hlater⟩

/-! ## Consent -/

/-- What becomes of the operator's forwards, and of the questions about them. -/
structure Consent (d : Desk) : Prop where
  /-- Nothing but agreement touches the registry. -/
  untouched : ∀ s a, d.console.mode ≠ .confirm ∨ a ≠ .confirmYes →
    (d.console.act s a).1.registry = d.console.registry
  idle : d.console.mode ≠ .confirm → d.console.question = none
  /-- Agreement does what the operator was asked about, and closes the question. -/
  agreed : ∀ s, d.console.mode = .confirm → ∃ i, d.console.question = some ⟨i.prompt, i⟩ ∧
    d.console.errands = [] ∧ Done s d.console.answered i (d.console.act s .confirmYes).1 ∧
    (d.console.act s .confirmYes).1.question = none ∧
    (d.console.act s .confirmYes).1.mode ≠ .confirm
  /-- A question is opened by an action of the operator, and only if there is occasion. -/
  asked : ∀ m q, (d.act m).console.question = some q → d.console.question = some q ∨
    m.action?.isSome = true ∧ Occasion d.console q.intent ∧ q.prompt = q.intent.prompt
  /-- Whatever happens before the answer, no session but the one that the question is about
  is taken down. -/
  meant : ∀ prompt fqn more, d.console.question = some ⟨prompt, .deleteForward fqn⟩ →
    (∀ m ∈ more, m.answers = false) →
    (d.run more).console.question = some ⟨prompt, .deleteForward fqn⟩ ∧
    ∀ s, ((d.run more).console.act s .confirmYes).1.registry = (d.run more).console.registry ∨
      ∃ session session', d.console.registry.get? fqn = some session ∧
        (d.run more).console.registry.get? fqn = some session' ∧
        session.generation = session'.generation ∧
        ((d.run more).console.act s .confirmYes).1.registry =
          (d.run more).console.registry.drop session'

/-- The answer that agrees. -/
theorem Candid.agreed {c : Console} (h : c.Candid) (hc : c.mode = .confirm) (s : Surroundings) :
    ∃ i, c.question = some ⟨i.prompt, i⟩ ∧ Done s c.answered i (c.act s .confirmYes).1 := by
  obtain ⟨q, hq⟩ := Option.isSome_iff_exists.1 (h.open_iff.1 hc)
  obtain ⟨prompt, i⟩ := q
  obtain rfl : prompt = i.prompt := h.prompt _ hq
  refine ⟨i, hq, ?_⟩
  rw [act_of_confirm hc]
  simp only [answer, hq]
  exact carryOut_done c.answered s i

theorem asked_step (hstep : Step d label d') {q : Question}
    (hq : d'.console.question = some q) : d.console.question = some q ∨
      label.isSome = true ∧ Occasion d.console q.intent ∧ q.prompt = q.intent.prompt := by
  have hsame (hmatter : d'.console.bearing.matter = d.console.bearing.matter) :
      d.console.question = some q := (congrArg Prod.fst hmatter).symm.trans hq
  cases hstep with
  | still | watches | outside | warns => exact .inl hq
  | acts a =>
      rw [(d.console_follow _).1] at hq
      by_cases hc : d.console.mode = .confirm
      · rw [act_of_confirm hc] at hq
        have hmatter := (answer_reply d.console d.surroundings a).matter
        split at hmatter
        · exact nomatch hq.symm.trans (congrArg Prod.fst hmatter)
        · exact .inl ((congrArg Prod.fst hmatter).symm.trans hq)
      · rcases (act_outcome d.surroundings a hc).matter with hmatter | ⟨i, hi, hmatter⟩
        · exact .inl ((congrArg Prod.fst hmatter).symm.trans hq)
        · obtain rfl := Option.some.inj ((congrArg Prod.fst hmatter).symm.trans hq)
          exact .inr ⟨rfl, hi, rfl⟩
  | hears => exact .inl (hsame (matter_hear _ _ _))
  | learns hlearnt => exact .inl (hsame hlearnt.matter)
  | draws => exact .inl (hsame (matter_hydrate _ _))

/-- Agreement takes down the session under that key, or nothing. -/
theorem Done.deleted_or {c c' : Console} {s : Surroundings} {fqn : String}
    (h : Done s c (.deleteForward fqn) c') : c'.registry = c.registry ∨
      ∃ session, c.registry.get? fqn = some session ∧ c'.registry = c.registry.drop session := by
  cases h with
  | deleted hget h =>
      exact .inr ⟨_, hget, (registry_hydrate _ s).trans (congrArg Bearing.registry h :)⟩
  | missed _ h => exact .inl (congrArg Bearing.registry h :)

theorem consent_of_candid (h : d.console.Candid) : d.Consent := by
  constructor
  · intro s a ha
    exact registry_act ha s
  · intro hc
    exact Option.not_isSome_iff_eq_none.1 (mt h.open_iff.2 hc)
  · intro s hc
    obtain ⟨i, hq, hdone⟩ := Candid.agreed h hc s
    have hmatter := hdone.matter
    refine ⟨i, hq, h.errands, hdone, congrArg Prod.fst hmatter, ?_⟩
    rw [ne_eq, ← asking_eq_true_iff]
    exact fun hasking => nomatch (congrArg Prod.snd hmatter).symm.trans hasking
  · intro m q hq
    exact asked_step (d.step_act m) hq
  · intro prompt fqn more hq hmore
    have hc : d.console.mode = .confirm := h.open_iff.2 (by rw [hq]; rfl)
    obtain ⟨hmatter, hdescends⟩ := wait_run hc hmore
    have hlater : (d.run more).console.question = some ⟨prompt, .deleteForward fqn⟩ :=
      (congrArg Prod.fst hmatter).trans hq
    have hwaits : (d.run more).console.mode = .confirm := by
      rw [← asking_eq_true_iff] at hc ⊢
      exact (congrArg Prod.snd hmatter).trans hc
    refine ⟨hlater, ?_⟩
    intro s
    -- the answer is about the session that stands under the key by then
    obtain ⟨i, hi, hdone⟩ := Candid.agreed (candid_run h more) hwaits s
    obtain ⟨-, rfl⟩ := Question.mk.inj (Option.some.inj (hi.symm.trans hlater))
    rcases Done.deleted_or hdone with hsame | ⟨session', hget, hdropped⟩
    · exact .inl hsame
    · obtain ⟨session, hsession, hgeneration⟩ := hdescends fqn session' hget
      exact .inr ⟨session, session', hsession, hget, hgeneration, hdropped⟩

/-- No forward is opened or taken down unless the operator agreed to it, and he agrees to
what he was asked about. -/
theorem forwards_need_consent (s : Surroundings) (home cluster context : String)
    (scope : Scope) (kind : Kind) (interval : Nat) (acts : List Act) :
    ((opening s home cluster context scope kind interval).run acts).Consent :=
  consent_of_candid
    (candid_run (candid_opening s home cluster context scope kind interval) acts)

end Desk

end Console

end ClusterConsole
