import ClusterConsole.Proofs.Watching.ChangeLog
import ClusterConsole.Proofs.Watching.Timetable

/-!
# The traffic that a timeline carries

`Carries` ties a timeline to the traffic on its watcher: the loop calls for its cycles,
and so does who refreshes from outside, all with the one token of the timeline. Whatever
is done to a timeline is accounted for by acts of the traffic (`exists_carries`), so what
its listeners hear is what the calls have handed out.
-/

namespace ClusterConsole.Watching

open ClusterConsole.Resource ClusterConsole.Snapshot ClusterConsole.Status

namespace Traffic

variable {L : Type} {x : Traffic L} {k : Nat} {c : Call} {scope : Scope} {since : Nat}

/-- The call at that place fetches, with the token `0`. -/
def Fetches (x : Traffic L) (k : Nat) (scope : Scope) : Prop :=
  ∃ since, x.calls[k]? = some ⟨0, .fetching scope since⟩

theorem Fetches.quit (h : x.Fetches k scope) (hoff : 0 ∈ x.calledOff) :
    x.act (.quit k) = x.breakOff k 0 := by
  obtain ⟨since, hc⟩ := h
  simp only [act, Traffic.quit, hc]
  exact if_pos ⟨rfl, hoff⟩

theorem Fetches.answer_examine (h : x.Fetches k scope) (hon : 0 ∉ x.calledOff)
    (fetched : Fetched) : x.after [.answer k fetched, .examine k] =
      serve { x with calls := x.calls.set k ⟨0, .answered scope fetched⟩ } k 0 scope fetched := by
  obtain ⟨since, hc⟩ := h
  have hset : (x.calls.set k ⟨0, .answered scope fetched⟩)[k]? =
      some ⟨0, .answered scope fetched⟩ :=
    List.getElem?_set_self (List.getElem?_eq_some_iff.1 hc).1
  simp only [after_cons, after_nil, act, answer, hc, examine, hset]
  exact if_neg hon

end Traffic

namespace Timeline

variable {t t' t'' : Timeline} {own own' own'' : Option Scope} {x : Traffic String} {l : PollLoop}
  {scope : Scope}

/-- What the loop fetches in, if it does. -/
def loopFetch? : Option (PollLoop × LoopPhase) → Option Scope
  | some (_, .fetching scope _ _) => some scope
  | _ => none

/-- The traffic on the watcher of a timeline; `own` is the scope of the call from outside
of the loop that is underway. -/
structure Carries (t : Timeline) (own : Option Scope) (x : Traffic String) : Prop where
  sound : x.Sound
  watcher : x.watcher = t.watcher
  now : x.now = t.now
  calledOff : 0 ∈ x.calledOff ↔ t.calledOff = true
  fetchedIn : x.fetchedIn = t.fetchedIn
  heard : x.rounds.flatMap Round.handed = t.heard
  flight : ∀ scope, own.or (loopFetch? t.loop) = some scope → ∃ k, x.Fetches k scope
  apart : own = none ∨ loopFetch? t.loop = none

theorem Carries.own_of_free (h : Carries t own x) (hfree : t.watcher.busy = false) :
    own.or (loopFetch? t.loop) = none := by
  rw [Option.eq_none_iff_forall_ne_some]
  intro scope hscope
  obtain ⟨k, since, hc⟩ := h.flight scope hscope
  rw [← h.watcher, h.sound.busy hc rfl] at hfree
  cases hfree

/-! ## How cycles begin and end -/

theorem Carries.refuse (h : Carries t own x) (hbusy : t.watcher.busy = true)
    {loop : Option (PollLoop × LoopPhase)} (hloop : loopFetch? t.loop = loopFetch? loop) :
    Carries { t with loop := loop } own (x.act (.call 0)) := by
  have hsound := h.sound.step (x.step_act (.call 0))
  rw [← h.watcher] at hbusy
  rw [Traffic.act, Traffic.call_of_busy hbusy] at hsound ⊢
  refine ⟨hsound, h.watcher, h.now, h.calledOff, h.fetchedIn, h.heard, fun scope hscope => ?_,
    hloop ▸ h.apart⟩
  obtain ⟨k, since, hc⟩ := h.flight scope (hloop ▸ hscope)
  exact ⟨k, since, by rw [List.getElem?_append_left (List.getElem?_eq_some_iff.1 hc).1, hc]⟩

theorem Carries.admit (h : Carries t own x) (hfree : t.watcher.busy = false)
    (script : List (Nat × Fetched)) (own' : Option Scope) (loop : Option (PollLoop × LoopPhase))
    (hflight : own'.or (loopFetch? loop) = some t.watcher.scope)
    (hapart : own' = none ∨ loopFetch? loop = none) :
    Carries { t with
      watcher := { t.watcher with busy := true }
      script := script
      loop := loop
      fetchedIn := t.fetchedIn ++ [t.watcher.scope] } own' (x.act (.call 0)) := by
  have hsound := h.sound.step (x.step_act (.call 0))
  rw [← h.watcher] at hfree hflight ⊢
  rw [Traffic.act, Traffic.call_of_free hfree] at hsound ⊢
  refine ⟨hsound, rfl, h.now, h.calledOff, by rw [← h.fetchedIn], h.heard,
    fun scope hscope => ?_, hapart⟩
  rw [hflight, Option.some_inj] at hscope
  exact ⟨x.calls.length, x.now, by rw [List.getElem?_concat_length, hscope]⟩

theorem Carries.abandon (h : Carries t own x)
    (hflight : own.or (loopFetch? t.loop) = some scope) (hoff : t.calledOff = true)
    (loop : Option (PollLoop × LoopPhase)) (hloop : loopFetch? loop = none) :
    ∃ acts, Carries { t.abandon with loop := loop } none (x.after acts) := by
  obtain ⟨k, hk⟩ := h.flight scope hflight
  have hsound := h.sound.step (x.step_act (.quit k))
  refine ⟨[.quit k], ?_⟩
  rw [Traffic.after_cons, Traffic.after_nil]
  rw [hk.quit (h.calledOff.2 hoff)] at hsound ⊢
  exact ⟨hsound, congrArg Watcher.abandon h.watcher, h.now, h.calledOff, h.fetchedIn, h.heard,
    (fun _ hscope => nomatch hloop.symm.trans hscope), .inl rfl⟩

theorem Carries.conclude (h : Carries t own x)
    (hflight : own.or (loopFetch? t.loop) = some scope) (hon : t.calledOff = false)
    (fetched : Fetched) (loop : Option (PollLoop × LoopPhase)) (hloop : loopFetch? loop = none) :
    ∃ acts, Carries { t.conclude scope fetched with loop := loop } none (x.after acts) := by
  obtain ⟨k, hk⟩ := h.flight scope hflight
  have hsound := h.sound.after [.answer k fetched, .examine k]
  have hmem : 0 ∉ x.calledOff := fun hmem => by
    rw [h.calledOff.1 hmem] at hon
    cases hon
  refine ⟨[.answer k fetched, .examine k], ?_⟩
  rw [hk.answer_examine hmem fetched] at hsound ⊢
  refine ⟨hsound, ?_, h.now, h.calledOff, h.fetchedIn, ?_,
    (fun _ hscope => nomatch hloop.symm.trans hscope), .inl rfl⟩
  · exact congrArg (fun w => (w.conclude scope fetched).1) h.watcher
  · rw [Traffic.rounds_serve, List.flatMap_append, h.heard, h.watcher]
    exact congrArg (t.heard ++ ·) (List.append_nil _)

theorem Carries.rewatch (h : Carries t own x) {w : Watcher String} (a : Traffic.Act String)
    (ha : x.act a = { x with watcher := w }) {loop : Option (PollLoop × LoopPhase)}
    (hloop : loopFetch? t.loop = loopFetch? loop) :
    Carries { t with watcher := w, loop := loop } own (x.act a) := by
  have hsound := h.sound.step (x.step_act a)
  rw [ha] at hsound ⊢
  exact ⟨hsound, rfl, h.now, h.calledOff, h.fetchedIn, h.heard, hloop ▸ h.flight, hloop ▸ h.apart⟩

/-! ## The loop -/

/-- The traffic on the one timeline goes on to that on the other. -/
def CarriesOn (own : Option Scope) (t : Timeline) (own' : Option Scope) (t' : Timeline) : Prop :=
  ∀ x, Carries t own x → ∃ acts, Carries t' own' (x.after acts)

theorem CarriesOn.refl (own : Option Scope) (t : Timeline) : CarriesOn own t own t :=
  fun _ h => ⟨[], h⟩

theorem CarriesOn.trans (h : CarriesOn own t own' t') (h' : CarriesOn own' t' own'' t'') :
    CarriesOn own t own'' t'' := by
  intro x hx
  obtain ⟨acts, hacts⟩ := h x hx
  obtain ⟨acts', hacts'⟩ := h' _ hacts
  exact ⟨acts ++ acts', by rw [Traffic.after_append]; exact hacts'⟩

theorem carriesOn_take (own : Option Scope) (t : Timeline) (l : PollLoop) (branch : Branch)
    {loop : Option (PollLoop × LoopPhase)} (hloop : loopFetch? t.loop = loopFetch? loop) :
    CarriesOn own t own
      { t with watcher := (l.take t.watcher t.now branch).2.1, loop := loop } := by
  intro x h
  cases branch with
  | calledOff | tick => exact ⟨[], ⟨h.sound, h.watcher, h.now, h.calledOff, h.fetchedIn, h.heard,
      hloop ▸ h.flight, hloop ▸ h.apart⟩⟩
  | nudge => exact ⟨[.takeNudge], h.rewatch .takeNudge (by rw [← h.watcher]; rfl) hloop⟩
  | rate =>
      rw [PollLoop.take_rate]
      exact ⟨[.takeRate], h.rewatch .takeRate (by rw [← h.watcher]; rfl) hloop⟩

theorem carriesOn_startCycle (own : Option Scope) (t : Timeline) (l : PollLoop)
    (hidle : loopFetch? t.loop = none) (hon : t.calledOff = false) :
    CarriesOn own t own (t.startCycle l) := by
  intro x h
  unfold startCycle Watcher.begin?
  cases hbusy : t.watcher.busy with
  | true => exact ⟨[.call 0], h.refuse hbusy hidle⟩
  | false =>
      have hown := h.own_of_free hbusy
      obtain ⟨script, delay, fetched, hfetch⟩ :=
        exists_nextFetch { t with watcher := { t.watcher with busy := true } } t.watcher.scope
      simp only [hfetch, Bool.false_eq_true, if_false]
      rw [hidle, Option.or_none] at hown
      subst hown
      split
      · have hadmit := h.admit hbusy script (some t.watcher.scope) t.loop rfl (.inr hidle)
        obtain ⟨acts, hacts⟩ := hadmit.conclude rfl hon fetched (some (l, .waiting)) rfl
        exact ⟨.call 0 :: acts, hacts⟩
      · exact ⟨[.call 0], h.admit hbusy script none _ rfl (.inl rfl)⟩

theorem carriesOn_act (own : Option Scope) (t : Timeline) : CarriesOn own t own t.act := by
  unfold act
  split
  · exact .refl own t
  · exact .refl own t
  · rename_i l hloop
    have hidle : loopFetch? t.loop = none := by rw [hloop]; rfl
    split
    · exact .refl own t
    · rename_i branch hpick
      cases branch with
      | calledOff => exact carriesOn_take own t l .calledOff hidle
      | tick =>
          exact (carriesOn_take own t l .tick rfl).trans
            (carriesOn_startCycle own t _ hidle (calledOff_of_pick? hpick nofun))
      | nudge =>
          exact (carriesOn_take own t l .nudge rfl).trans
            (carriesOn_startCycle own { t with watcher := _ } _ hidle
              (calledOff_of_pick? hpick nofun))
      | rate =>
          have htake := carriesOn_take own t l .rate (hidle.trans (Eq.refl (loopFetch?
            (some ((l.take t.watcher t.now .rate).1, .waiting)))))
          rw [PollLoop.take_rate] at htake ⊢
          exact htake
  · rename_i l scope doneAt fetched hloop
    have hflight : loopFetch? t.loop = some scope := by rw [hloop]; rfl
    intro x h
    -- nobody from outside can have a call underway beside the loop
    obtain rfl := h.apart.resolve_right (by rw [hflight]; nofun)
    split
    · exact h.abandon hflight ‹_› _ rfl
    · split
      · exact h.conclude hflight (Bool.eq_false_iff.2 ‹_›) fetched _ rfl
      · exact ⟨[], h⟩

/-- The clock moves on to that time, unless it is past. -/
theorem carriesOn_until (own : Option Scope) (t : Timeline) (time : Nat) :
    CarriesOn own t own { t with now := max t.now time } := by
  intro x h
  have hnow : x.now + (max t.now time - t.now) = max t.now time := by
    rw [h.now]
    exact Nat.add_sub_of_le (Nat.le_max_left _ _)
  exact ⟨[.pass (max t.now time - t.now)], h.sound.after _, h.watcher, hnow, h.calledOff,
    h.fetchedIn, h.heard, h.flight, h.apart⟩

theorem carriesOn_runUntil (own : Option Scope) (deadline fuel : Nat) (t : Timeline) :
    CarriesOn own t own (runUntil deadline fuel t) := by
  induction fuel generalizing t with
  | zero => exact carriesOn_until own t deadline
  | succ fuel ih =>
      rw [runUntil]
      split
      · exact carriesOn_until own t deadline
      · split
        · exact (carriesOn_until own t _).trans ((carriesOn_act own _).trans (ih _))
        · exact carriesOn_until own t deadline

theorem calledOff_startCycle (t : Timeline) (l : PollLoop) :
    (t.startCycle l).calledOff = t.calledOff := by
  unfold startCycle
  split
  · rfl
  · rename_i w scope hbegin
    obtain ⟨script, delay, fetched, hfetch⟩ := exists_nextFetch { t with watcher := w } scope
    rw [hfetch]
    dsimp only
    split <;> rfl

theorem calledOff_act (t : Timeline) : t.act.calledOff = t.calledOff := by
  unfold act
  split
  · rfl
  · rfl
  · split
    · rfl
    · dsimp only
      split
      · rfl
      · rfl
      · rw [calledOff_startCycle]
  · split
    · rfl
    · split <;> rfl

theorem calledOff_runUntil (deadline fuel : Nat) (t : Timeline) :
    (runUntil deadline fuel t).calledOff = t.calledOff := by
  induction fuel generalizing t with
  | zero => rfl
  | succ fuel ih =>
      rw [runUntil]
      split
      · rfl
      · split
        · rw [ih, calledOff_act]
        · rfl

/-! ## Deeds -/

theorem carriesOn_callOff (own : Option Scope) (t : Timeline) :
    CarriesOn own t own { t with calledOff := true } := fun _ h =>
  ⟨[.callOff 0], h.sound.after _, h.watcher, h.now, ⟨fun _ => rfl, fun _ => List.mem_cons_self⟩,
    h.fetchedIn, h.heard, h.flight, h.apart⟩

/-- What is left of the limit of a refresh passes. -/
theorem carriesOn_limit (own : Option Scope) (t : Timeline) (limit : Option Nat) (ms : Nat) :
    CarriesOn own t own (if limit.isSome then { t.pass ms with calledOff := true } else t) := by
  split
  · exact (carriesOn_runUntil own _ _ t).trans (carriesOn_callOff own _)
  · exact .refl own t

/-- The call from outside ends. -/
theorem carriesOn_abandon (hoff : t.calledOff = true) :
    CarriesOn (some scope) t none t.abandon :=
  fun _ h => h.abandon rfl hoff _ (h.apart.resolve_left nofun)

theorem carriesOn_conclude (hon : t.calledOff = false) (fetched : Fetched) :
    CarriesOn (some scope) t none (t.conclude scope fetched) :=
  fun _ h => h.conclude rfl hon fetched _ (h.apart.resolve_left nofun)

theorem carriesOn_refresh (t : Timeline) (limit : Option Nat) :
    CarriesOn none t none (t.refresh limit).1 := by
  unfold refresh Watcher.begin?
  cases hbusy : t.watcher.busy with
  | true =>
      have hrefuse : CarriesOn none t none t := fun x h => ⟨[.call 0], h.refuse hbusy rfl⟩
      exact hrefuse.trans (carriesOn_limit none t limit _)
  | false =>
      obtain ⟨script, delay, fetched, hfetch⟩ :=
        exists_nextFetch { t with watcher := { t.watcher with busy := true } } t.watcher.scope
      have hadmit : CarriesOn none t (some t.watcher.scope) { t with
          watcher := { t.watcher with busy := true }
          script := script
          fetchedIn := t.fetchedIn ++ [t.watcher.scope] } := fun x h =>
        ⟨[.call 0], h.admit hbusy script _ t.loop rfl (.inr (h.own_of_free hbusy))⟩
      simp only [hfetch, Bool.false_eq_true, if_false]
      refine hadmit.trans ?_
      split
      · exact (carriesOn_abandon ‹_›).trans (carriesOn_limit none _ limit _)
      · rename_i hon
        split
        · rename_i hlimit
          refine (carriesOn_limit _ _ limit _).trans (carriesOn_abandon ?_)
          rw [if_pos hlimit.1]
        · refine (carriesOn_runUntil _ _ fuel _).trans ((carriesOn_conclude ?_ fetched).trans
            (carriesOn_limit none _ limit _))
          rw [calledOff_runUntil]
          exact Bool.eq_false_iff.2 hon

theorem carriesOn_refreshTwice (t : Timeline) : CarriesOn none t none t.refreshTwice.1 := by
  unfold refreshTwice
  split
  · dsimp only
    split
    · exact (carriesOn_refresh t none).trans (carriesOn_refresh _ none)
    · exact carriesOn_refresh t none
  · exact (carriesOn_refresh t none).trans (carriesOn_refresh _ none)

theorem carriesOn_rewatch (a : Traffic.Act String) (f : Watcher String → Watcher String)
    (ha : ∀ x : Traffic String, x.act a = { x with watcher := f x.watcher }) (t : Timeline) :
    CarriesOn none t none { t with watcher := f t.watcher } :=
  fun x h => ⟨[a], h.rewatch a (by rw [ha, h.watcher]) rfl⟩

theorem carriesOn_perform (t : Timeline) (d : Deed) : CarriesOn none t none (t.perform d) := by
  cases d with
  | watch =>
      rw [perform]
      split
      · exact fun x h => ⟨[], h.sound, h.watcher, h.now, h.calledOff, h.fetchedIn, h.heard,
          by rintro _ ⟨⟩, .inl rfl⟩
      · exact .refl none t
  | nudge => exact carriesOn_rewatch .nudge Watcher.nudge (fun _ => rfl) t
  | setScope scope => exact carriesOn_rewatch (.setScope scope) (·.setScope scope) (fun _ => rfl) t
  | setRate rate => exact carriesOn_rewatch (.setRate rate) (·.setRate rate) (fun _ => rfl) t
  | addListener l => exact carriesOn_rewatch (.addListener l) (·.addListener l) (fun _ => rfl) t
  | callOff => exact carriesOn_callOff none t
  | pass ms => exact carriesOn_runUntil none _ _ t
  | refresh limit => exact carriesOn_refresh t limit
  | refreshTwice => exact carriesOn_refreshTwice t

/-- Whatever is done to a timeline, what goes on there is some run of the traffic on its
watcher. -/
theorem exists_carries (target : Target) (scope : Scope) (rate : Nat)
    (script : List (Nat × Fetched)) (deeds : List Deed) :
    ∃ acts, Carries (deeds.foldl perform (start (Watcher.new target scope rate) script)) none
      ((Traffic.start (Watcher.new target scope rate)).after acts) := by
  have hstart : Carries (start (Watcher.new target scope rate) script) none
      (Traffic.start (Watcher.new target scope rate)) :=
    ⟨.start _ rfl, rfl, rfl, ⟨nofun, nofun⟩, rfl, rfl, nofun, .inl rfl⟩
  have hdeeds (t : Timeline) : CarriesOn none t none (deeds.foldl perform t) := by
    induction deeds generalizing t with
    | nil => exact .refl none t
    | cons d deeds ih => exact (carriesOn_perform t d).trans (ih _)
  exact hdeeds _ _ hstart

end Timeline

end ClusterConsole.Watching
