import ClusterConsole.Proofs.Console.Desk

/-!
# The watcher of the view

The console and the view's watcher know of each other only through the commands that
actions come to. `Attended` says how far they agree after every act, `InScope` that the
scope is the one that the console would choose, and `Pass` that of all tokens only the
present view's is good. A scope that is named by the sign for all namespaces is not told
apart from it by a watcher; no word is read as one, so only a console that is started
in such a scope can come to one.
-/

namespace ClusterConsole

open ClusterConsole.Resource

/-! ## Scopes and their signs -/

namespace Resource.Scope

/-- The scope is not named by the sign for all namespaces. -/
def Proper (scope : Scope) : Prop := scope ≠ .named allSign

theorem proper_ofWord (word : String) : (ofWord word).Proper := by
  simp only [ofWord]
  split
  · exact nofun
  · rename_i hword
    intro hnamed
    injection hnamed with hsign
    exact hword (.inr (.inl hsign))

theorem eq_of_sign {a b : Scope} (ha : a.Proper) (hb : b.Proper) (h : a.sign = b.sign) :
    a = b := by
  cases a with
  | all =>
      cases b with
      | all => rfl
      | named ns => exact absurd (congrArg Scope.named h.symm) hb
  | named ns =>
      cases b with
      | all => exact absurd (congrArg Scope.named h) ha
      | named other => exact congrArg Scope.named h

end Resource.Scope

namespace Console

open ClusterConsole.Background (Surroundings)
open ClusterConsole.Watching (Traffic)

theorem proper_scopeFor {c : Console} (h : c.scope.Proper) (target : Target) :
    (c.scopeFor target).Proper := by
  simp only [scopeFor]
  split
  · exact h
  · exact nofun

/-! ## What a command does to the order and to the tokens -/

namespace LiveView

variable {v : LiveView} {c : Console}

/-- The token of the present view. -/
def token? (v : LiveView) : Option Nat := v.current.map (·.token)

/-- Of all tokens so far the present view's is the only one that is not called off. -/
structure Pass (v : LiveView) : Prop where
  old : ∀ k ∈ v.calledOff, k < v.tokens
  present : ∀ k, v.token? = some k → k < v.tokens
  calledOff : ∀ k < v.tokens, k ∈ v.calledOff ↔ v.token? ≠ some k

theorem Pass.idle (interval : Nat) : (idle interval).Pass where
  old _ hk := nomatch hk
  present _ hk := nomatch hk
  calledOff _ hk := nomatch hk

theorem order?_amend (v : LiveView) (f : WatchOrder → WatchOrder) :
    (v.amend f).order? = v.order?.map f := by
  cases h : v.current <;> simp only [amend, order?, h] <;> rfl

theorem token?_amend (v : LiveView) (f : WatchOrder → WatchOrder) :
    (v.amend f).token? = v.token? := by
  cases h : v.current <;> simp only [amend, token?, h] <;> rfl

theorem interval_stop (v : LiveView) : v.stop.interval = v.interval := by
  simp only [stop]
  split <;> rfl

theorem tokens_stop (v : LiveView) : v.stop.tokens = v.tokens := by
  simp only [stop]
  split <;> rfl

theorem mem_calledOff_stop (v : LiveView) (k : Nat) :
    k ∈ v.stop.calledOff ↔ v.token? = some k ∨ k ∈ v.calledOff := by
  cases h : v.current with
  | none => simp only [stop, token?, h, Option.map_none, reduceCtorEq, false_or]
  | some a =>
      simp only [stop, token?, h, Option.map_some, List.mem_cons, Option.some.injEq]
      rw [eq_comm]

theorem order?_start (v : LiveView) (c : Console) (target : Target) (generation : Nat) :
    (v.start c target generation).order? =
      if target.kind.polled then some ⟨target, c.scopeFor target, v.interval, generation⟩
      else none := by
  rw [← interval_stop v]
  rfl

theorem Pass.start (h : v.Pass) (c : Console) (target : Target) (generation : Nat) :
    (v.start c target generation).Pass := by
  have htoken : (v.start c target generation).token? = some v.tokens := by
    rw [← tokens_stop v]
    rfl
  have htokens : (v.start c target generation).tokens = v.tokens + 1 := by
    rw [← tokens_stop v]
    rfl
  have hoff (k : Nat) : k ∈ (v.start c target generation).calledOff ↔ k < v.tokens := by
    refine (mem_calledOff_stop v k).trans ⟨?_, fun hk => ?_⟩
    · rintro (hk | hk)
      · exact h.present k hk
      · exact h.old k hk
    · by_cases hpresent : v.token? = some k
      · exact .inl hpresent
      · exact .inr ((h.calledOff k hk).2 hpresent)
  constructor
  · intro k hk
    rw [htokens]
    exact Nat.lt_succ_of_lt ((hoff k).1 hk)
  · intro k hk
    rw [htoken, Option.some.injEq] at hk
    rw [htokens, ← hk]
    exact Nat.lt_succ_self _
  · intro k hk
    rw [htokens] at hk
    rw [hoff, htoken, ne_eq, Option.some.injEq]
    omega

/-- What only changes the order keeps the tokens. -/
theorem Pass.of_same {v' : LiveView} (h : v.Pass) (htokens : v'.tokens = v.tokens)
    (hoff : v'.calledOff = v.calledOff) (htoken : v'.token? = v.token?) : v'.Pass := by
  constructor
  · rw [hoff, htokens]
    exact h.old
  · rw [htoken, htokens]
    exact h.present
  · rw [hoff, htokens, htoken]
    exact h.calledOff

theorem Pass.apply (h : v.Pass) (c : Console) (command : Command) :
    (v.apply c command).1.Pass := by
  cases command with
  | watch target generation => exact h.start c target generation
  | setScope scope =>
      simp only [LiveView.apply]
      split
      · exact h
      · split
        · exact h
        · exact h.of_same rfl rfl (token?_amend v _)
  | setInterval ms => exact h.of_same rfl rfl (token?_amend { v with interval := ms } _)
  | refresh => exact h

theorem order?_setScope (v : LiveView) (c : Console) (scope : Scope) :
    (v.apply c (.setScope scope)).1.order? = v.order?.map fun o =>
      if o.scope.sign = (c.scopeFor o.target).sign then o
      else { o with scope := c.scopeFor o.target } := by
  simp only [LiveView.apply]
  split
  · rename_i hnone
    rw [hnone, Option.map_none]
  · rename_i o hsome
    by_cases hsign : o.scope.sign = (c.scopeFor o.target).sign
    · rw [if_pos hsign, hsome, Option.map_some, if_pos hsign]
    · rw [if_neg hsign, order?_amend, hsome, Option.map_some, Option.map_some, if_neg hsign]

theorem order?_setInterval (v : LiveView) (c : Console) (ms : Nat) :
    (v.apply c (.setInterval ms)).1.order? = v.order?.map fun o => { o with interval := ms } :=
  order?_amend { v with interval := ms } _

end LiveView

/-! ## What an action asks of the watcher -/

/-- What an action asks of the watcher, and where the view stands then. -/
inductive Asks (s : Surroundings) (c : Console) : Console × Option Command → Prop where
  | nothing {c' : Console} (h : c'.bearing.stance = c.bearing.stance) : Asks s c (c', none)
  | refresh {c' : Console} (h : c'.bearing.stance = c.bearing.stance) :
      Asks s c (c', some .refresh)
  | setInterval {c' : Console} {ms : Nat} (hms : Launch.shortestInterval ≤ ms)
      (h : c'.bearing.stance = c.bearing.stance) : Asks s c (c', some (.setInterval ms))
  | setScope {c' : Console} (word : String)
      (h : c'.bearing.stance = (.ofWord word, c.bearing.stance.2)) :
      Asks s c (c', some (.setScope (.ofWord word)))
  | opened (c₀ : Console) (hgeneration : c₀.generation = c.generation)
      (hscope : c₀.scope = c.scope ∨ ∃ word, c₀.scope = .ofWord word) :
      Asks s c (c₀.watchCurrent s)

theorem Outcome.asks {s : Surroundings} {c : Console} {p : Console × Option Command}
    (h : Outcome s c p) : Asks s c p := by
  cases h with
  | still h => exact .nothing (by rw [h])
  | refresh h => exact .refresh (by rw [h])
  | paced hms h => exact .setInterval hms (by rw [h])
  | rescoped word h => exact .setScope word (by rw [h]; rfl)
  | opened c₀ h hscope => exact .opened c₀ (congrArg Prod.fst h) hscope
  | drawn h => exact .nothing (by rw [stance_hydrate, h])
  | asked _ h => exact .nothing (by rw [h]; rfl)
  | benchmark _ h => exact .nothing (by rw [h]; rfl)
  | cancel h => exact .nothing (by rw [h]; rfl)

theorem Done.stance {s : Surroundings} {c c' : Console} {i : Intent} (h : Done s c i c') :
    c'.bearing.stance = c.bearing.stance := by
  cases h with
  | forwarded _ _ h => rw [stance_hydrate, h]; rfl
  | refused _ h => rw [h]
  | deleted _ h => rw [stance_hydrate, h]; rfl
  | missed _ h => rw [h]

theorem Reply.stance {s : Surroundings} {c c' : Console} {a : Action} (h : Reply s c a c') :
    c'.bearing.stance = c.bearing.stance := by
  cases h with
  | agreed _ h => exact h.stance
  | dropped _ h => rw [h]; rfl
  | waits _ h => rw [h]

theorem act_asks (c : Console) (s : Surroundings) (a : Action) : Asks s c (c.act s a) := by
  by_cases hc : c.mode = .confirm
  · rw [act_of_confirm hc]
    exact .nothing (answer_reply c s a).stance
  · exact (act_outcome s a hc).asks

namespace Desk

variable {d d' : Desk} {c c₀ : Console} {s : Surroundings} {x : Traffic Nat} {o : WatchOrder}
  {ws : List (Traffic Nat)} {label : Option Action}

/-! ## The order and the watcher -/

/-- The settings that an order asks for. -/
def settingsOf (o : WatchOrder) : Target × Scope × Nat × List Nat :=
  (o.target, o.scope, o.interval, [o.generation])

structure Attended (d : Desk) : Prop where
  /-- The kinds that are fetched have a watcher, and no others. -/
  polled : d.live.order?.isSome = d.console.view.target.kind.polled
  order : ∀ o, d.live.order? = some o → o.target = d.console.view.target ∧
    o.interval = d.live.interval ∧ o.generation = d.console.generation
  watcher : ∀ o, d.live.order? = some o →
    ∃ x, d.watchers.getLast? = some x ∧ x.watcher.settings = settingsOf o

theorem getLast?_modify (h : ws.getLast? = some x) (f : Traffic Nat → Traffic Nat) :
    (ws.modify (ws.length - 1) f).getLast? = some (f x) := by
  rw [List.getLast?_eq_getElem?] at h
  simp [List.getLast?_eq_getElem?, h]

/-- The view has not moved, and neither has its watcher. -/
theorem Attended.keep (h : d.Attended) (hlive : d'.live = d.live)
    (hwatchers : d'.watchers = d.watchers)
    (hview : d'.console.bearing.stance.2 = d.console.bearing.stance.2) : d'.Attended := by
  have htarget : d'.console.view.target = d.console.view.target := congrArg Prod.fst hview
  have hgeneration : d'.console.generation = d.console.generation := congrArg Prod.snd hview
  refine ⟨?_, ?_, ?_⟩
  · rw [hlive, htarget]
    exact h.polled
  · rw [hlive, htarget, hgeneration]
    exact h.order
  · rw [hlive, hwatchers]
    exact h.watcher

/-- The order of the present view has changed, and the watcher with it. -/
theorem Attended.amend {live : LiveView} {f : WatchOrder → WatchOrder}
    {g : Traffic Nat → Traffic Nat} (h : d.Attended) (log : List Turn)
    (horder : live.order? = d.live.order?.map f)
    (hkept : ∀ o, (f o).target = o.target ∧ (f o).generation = o.generation)
    (hinterval : ∀ o, o.interval = d.live.interval → (f o).interval = live.interval)
    (hfollow : ∀ x o, x.watcher.settings = settingsOf o →
      (g x).watcher.settings = settingsOf (f o)) :
    Attended { d with
      live := live
      watchers := d.watchers.modify (d.watchers.length - 1) g
      log := log } := by
  constructor
  · rw [horder, Option.isSome_map]
    exact h.polled
  · intro o ho
    rw [horder, Option.map_eq_some_iff] at ho
    obtain ⟨o, ho, rfl⟩ := ho
    obtain ⟨htarget, hms, hgeneration⟩ := h.order o ho
    exact ⟨(hkept o).1.trans htarget, hinterval o hms, (hkept o).2.trans hgeneration⟩
  · intro o ho
    rw [horder, Option.map_eq_some_iff] at ho
    obtain ⟨o, ho, rfl⟩ := ho
    obtain ⟨x, hx, hsettings⟩ := h.watcher o ho
    exact ⟨g x, getLast?_modify hx g, hfollow x o hsettings⟩

theorem Attended.refresh (h : d.Attended) : (d.carryOut .refresh).Attended := by
  cases ho : d.live.order? with
  | none =>
      simp only [carryOut, LiveView.apply, ho]
      exact h.keep rfl rfl rfl
  | some o =>
      simp only [carryOut, LiveView.apply, ho]
      apply h.amend (f := id) _ (Option.map_id_apply.symm)
      · intro o
        exact ⟨rfl, rfl⟩
      · intro o ho
        exact ho
      · intro x o hx
        exact hx

theorem Attended.setInterval (h : d.Attended) (ms : Nat) :
    (d.carryOut (.setInterval ms)).Attended := by
  have horder := LiveView.order?_setInterval d.live d.console ms
  cases ho : d.live.order? with
  | none =>
      rw [ho, Option.map_none] at horder
      have hpolled := h.polled
      rw [ho] at hpolled
      refine ⟨(congrArg Option.isSome horder).trans hpolled, ?_, ?_⟩
      · intro o hsome
        exact nomatch horder.symm.trans hsome
      · intro o hsome
        exact nomatch horder.symm.trans hsome
  | some o =>
      have hsame : { d.live with interval := ms }.order? = some o := ho
      simp only [carryOut, LiveView.apply, hsame]
      apply h.amend _ horder
      · intro o
        exact ⟨rfl, rfl⟩
      · intro o _
        rfl
      · intro x o hx
        simp only [Watching.Watcher.settings, settingsOf, Prod.mk.injEq] at hx ⊢
        exact ⟨hx.1, hx.2.1, rfl, hx.2.2.2⟩

theorem Attended.setScope (h : d.Attended) (scope : Scope) :
    (d.carryOut (.setScope scope)).Attended := by
  cases ho : d.live.order? with
  | none =>
      simp only [carryOut, LiveView.apply, ho]
      exact h.keep rfl rfl rfl
  | some o =>
      by_cases hsign : o.scope.sign = (d.console.scopeFor o.target).sign
      · simp only [carryOut, LiveView.apply, ho, hsign, if_true]
        exact h.keep rfl rfl rfl
      · simp only [carryOut, LiveView.apply, ho, if_neg hsign]
        apply h.amend _ (LiveView.order?_amend d.live _)
        · intro o
          exact ⟨rfl, rfl⟩
        · intro o ho
          exact ho
        · intro x o hx
          simp only [Watching.Watcher.settings, settingsOf, Prod.mk.injEq] at hx ⊢
          exact ⟨hx.1, rfl, hx.2.2⟩

/-- A view that is fetched gets an order and a watcher behind those so far. -/
theorem watch_of_polled (d : Desk) (target : Target) (generation : Nat)
    (hpolled : target.kind.polled = true) : ∃ o : WatchOrder,
      o = ⟨target, d.console.scopeFor target, d.live.interval, generation⟩ ∧
      (d.carryOut (.watch target generation)).live.order? = some o ∧
      (d.carryOut (.watch target generation)).watchers =
        d.watchers ++ [Traffic.start (Sitting.watcherOf o)] := by
  have horder := LiveView.order?_start d.live d.console target generation
  rw [hpolled, if_pos rfl] at horder
  refine ⟨_, rfl, horder, ?_⟩
  simp only [carryOut, LiveView.apply, horder, Option.elim, applyChange]

theorem watch_of_local (d : Desk) (target : Target) (generation : Nat)
    (hlocal : target.kind.polled = false) :
    (d.carryOut (.watch target generation)).live.order? = none ∧
      (d.carryOut (.watch target generation)).watchers = d.watchers := by
  have horder := LiveView.order?_start d.live d.console target generation
  rw [hlocal] at horder
  refine ⟨horder, ?_⟩
  simp only [carryOut, LiveView.apply, horder]
  rfl

/-- A view that is opened is attended, whatever was before. -/
theorem attended_watch (d : Desk) :
    (d.carryOut (.watch d.console.view.target d.console.generation)).Attended := by
  have hinterval : (d.live.start d.console d.console.view.target
      d.console.generation).interval = d.live.interval := LiveView.interval_stop d.live
  cases hpolled : d.console.view.target.kind.polled with
  | true =>
      obtain ⟨o, ho, horder, hwatchers⟩ := d.watch_of_polled _ d.console.generation hpolled
      constructor
      · exact (congrArg Option.isSome horder).trans hpolled.symm
      · intro o' ho'
        obtain rfl := Option.some.inj (horder.symm.trans ho')
        exact ho ▸ ⟨rfl, hinterval.symm, rfl⟩
      · intro o' ho'
        obtain rfl := Option.some.inj (horder.symm.trans ho')
        rw [hwatchers]
        exact ⟨_, List.getLast?_concat, rfl⟩
  | false =>
      obtain ⟨horder, -⟩ := d.watch_of_local _ d.console.generation hpolled
      constructor
      · exact (congrArg Option.isSome horder).trans hpolled.symm
      · intro o ho
        exact nomatch horder.symm.trans ho
      · intro o ho
        exact nomatch horder.symm.trans ho

theorem Attended.follow {p : Console × Option Command} (h : d.Attended)
    (hp : Asks s d.console p) : (d.follow p).Attended := by
  have hkept {c : Console} (hview : c.bearing.stance.2 = d.console.bearing.stance.2) :
      Attended { d with console := { c with errands := [] } } := h.keep rfl rfl hview
  cases hp with
  | nothing hc => exact hkept (by rw [hc])
  | refresh hc => exact (hkept (by rw [hc])).refresh
  | setInterval _ hc => exact (hkept (by rw [hc])).setInterval _
  | setScope _ hc => exact (hkept (by rw [hc])).setScope _
  | opened c₀ =>
      rw [follow_watchCurrent]
      exact attended_watch _

/-- What happens on some watcher leaves the settings of all as they are. -/
theorem getLast?_set {k : Nat} {y : Traffic Nat} (hx : ws[k]? = some x)
    (hy : y.watcher.settings = x.watcher.settings) {z : Traffic Nat}
    (hz : ws.getLast? = some z) : ∃ z', (ws.set k y).getLast? = some z' ∧
      z'.watcher.settings = z.watcher.settings := by
  rw [List.getLast?_eq_getElem?] at hz
  rw [List.getLast?_eq_getElem?, List.length_set, List.getElem?_set]
  by_cases hk : k = ws.length - 1
  · subst hk
    rw [hx] at hz
    obtain rfl := Option.some.inj hz
    refine ⟨y, ?_, hy⟩
    rw [if_pos rfl, if_pos (List.getElem?_eq_some_iff.1 hx).1]
  · exact ⟨z, by rw [if_neg hk, hz], rfl⟩

theorem Attended.step (h : d.Attended) (hstep : Step d label d') : d'.Attended := by
  cases hstep with
  | still => exact h
  | acts a => exact h.follow (act_asks d.console d.surroundings a)
  | @watches k x a hx ha =>
      refine ⟨h.polled, h.order, ?_⟩
      intro o ho
      obtain ⟨z, hz, hsettings⟩ := h.watcher o ho
      obtain ⟨z', hz', hsame⟩ := getLast?_set hx (x.settings_act ha) hz
      exact ⟨z', hz', hsame.trans hsettings⟩
  | hears => exact h.keep rfl rfl (congrArg Prod.snd (stance_hear _ _ _))
  | learns hlearnt => exact h.keep rfl rfl (congrArg Prod.snd hlearnt.stance)
  | draws => exact h.keep rfl rfl (congrArg Prod.snd (stance_hydrate _ _))
  | warns text => exact h.keep rfl rfl rfl
  | outside s => exact h.keep rfl rfl rfl

theorem attended_opening (s : Surroundings) (home cluster context : String) (scope : Scope)
    (kind : Kind) (interval : Nat) :
    (opening s home cluster context scope kind interval).Attended := by
  simp only [opening]
  rw [follow_watchCurrent]
  exact attended_watch _

theorem Attended.run (h : d.Attended) (acts : List Act) : (d.run acts).Attended := by
  induction acts generalizing d with
  | nil => exact h
  | cons a acts ih => exact ih (h.step (d.step_act a))

/-! ## Scope, interval and tokens -/

/-- The interval that was asked for last; `initial` is the one before any was. -/
def lastRate (initial : Nat) : List Turn → Nat
  | .asked (.setInterval ms) :: _ => ms
  | _ :: log => lastRate initial log
  | [] => initial

/-- What is agreed on beside the view itself. -/
structure Agreed (initial : Nat) (d : Desk) : Prop where
  proper : d.console.scope.Proper
  scope : ∀ o, d.live.order? = some o → o.scope = d.console.scopeFor o.target
  interval : d.live.interval = lastRate initial d.log
  shortest : Launch.shortestInterval ≤ lastRate initial d.log
  pass : d.live.Pass
  held : d.live.token?.isSome = true

variable {initial : Nat}

theorem scopeFor_congr (h : c.scope = c₀.scope) (target : Target) :
    c.scopeFor target = c₀.scopeFor target := by
  simp only [scopeFor, h]

theorem Agreed.keep (h : d.Agreed initial) (hlive : d'.live = d.live)
    (hscope : d'.console.scope = d.console.scope)
    (hrate : lastRate initial d'.log = lastRate initial d.log) : d'.Agreed initial := by
  refine ⟨hscope ▸ h.proper, ?_, ?_, hrate ▸ h.shortest, hlive ▸ h.pass, hlive ▸ h.held⟩
  · intro o ho
    rw [hlive] at ho
    rw [scopeFor_congr hscope]
    exact h.scope o ho
  · rw [hlive, hrate]
    exact h.interval

theorem Agreed.setInterval (h : d.Agreed initial) {ms : Nat}
    (hms : Launch.shortestInterval ≤ ms) : (d.carryOut (.setInterval ms)).Agreed initial := by
  have htoken := LiveView.token?_amend { d.live with interval := ms } fun o =>
    { o with interval := ms }
  refine ⟨h.proper, ?_, rfl, hms, h.pass.apply d.console (.setInterval ms),
    (congrArg Option.isSome htoken).trans h.held⟩
  intro o ho
  obtain ⟨o, hsome, rfl⟩ := Option.map_eq_some_iff.1
    ((LiveView.order?_setInterval d.live d.console ms).symm.trans ho)
  exact h.scope o hsome

/-- The order is left alone only where it is for the same scope. -/
theorem Agreed.setScope (h : d.Agreed initial) (c : Console) (word : String)
    (hc : c.scope = .ofWord word) :
    (({ d with console := c } : Desk).carryOut (.setScope (.ofWord word))).Agreed initial := by
  have hproper : c.scope.Proper := hc ▸ Scope.proper_ofWord word
  have hsame : (d.live.apply c (.setScope (.ofWord word))).1.interval = d.live.interval ∧
      (d.live.apply c (.setScope (.ofWord word))).1.token? = d.live.token? := by
    simp only [LiveView.apply]
    split
    · exact ⟨rfl, rfl⟩
    · split
      · exact ⟨rfl, rfl⟩
      · exact ⟨rfl, LiveView.token?_amend d.live _⟩
  refine ⟨hproper, ?_, hsame.1.trans h.interval, h.shortest,
    h.pass.apply c (.setScope (.ofWord word)), (congrArg Option.isSome hsame.2).trans h.held⟩
  intro o' ho'
  obtain ⟨o, ho, rfl⟩ := Option.map_eq_some_iff.1
    ((LiveView.order?_setScope d.live c (.ofWord word)).symm.trans ho')
  have hbefore : o.scope.Proper := by
    rw [h.scope o ho]
    exact proper_scopeFor h.proper o.target
  -- scopes are compared by their signs, which tell apart proper ones only
  by_cases hsign : o.scope.sign = (c.scopeFor o.target).sign
  · rw [if_pos hsign]
    exact Scope.eq_of_sign hbefore (proper_scopeFor hproper o.target) hsign
  · rw [if_neg hsign]
    rfl

theorem Agreed.watch (d : Desk) (hproper : d.console.scope.Proper) (hpass : d.live.Pass)
    (hinterval : d.live.interval = lastRate initial d.log)
    (hshortest : Launch.shortestInterval ≤ lastRate initial d.log) (target : Target)
    (generation : Nat) : (d.carryOut (.watch target generation)).Agreed initial := by
  refine ⟨hproper, ?_, (LiveView.interval_stop d.live).trans hinterval, hshortest,
    hpass.start d.console target generation, rfl⟩
  intro o ho
  have horder := (LiveView.order?_start d.live d.console target generation).symm.trans ho
  split at horder
  · obtain rfl := Option.some.inj horder
    rfl
  · cases horder

theorem Agreed.follow {p : Console × Option Command} (h : d.Agreed initial)
    (hp : Asks s d.console p) : (d.follow p).Agreed initial := by
  cases hp with
  | nothing hc => exact h.keep rfl (congrArg Prod.fst hc) rfl
  | refresh hc => exact h.keep rfl (congrArg Prod.fst hc) rfl
  | @setInterval c ms hms hc =>
      have hkept : Agreed initial { d with console := { c with errands := [] } } :=
        h.keep rfl (congrArg Prod.fst hc) rfl
      exact hkept.setInterval hms
  | @setScope c word hc => exact h.setScope { c with errands := [] } word (congrArg Prod.fst hc)
  | opened c₀ _ hscope =>
      obtain ⟨r, table, hbearing⟩ := bearing_watchCurrent c₀ s
      have hsame : (d.opened c₀ s).console.scope = c₀.scope := congrArg Bearing.scope hbearing
      have hproper : (d.opened c₀ s).console.scope.Proper := by
        rw [hsame]
        rcases hscope with hkept | ⟨word, hword⟩
        · exact hkept ▸ h.proper
        · exact hword ▸ Scope.proper_ofWord word
      rw [follow_watchCurrent]
      exact Agreed.watch _ hproper h.pass h.interval h.shortest _ _

theorem Agreed.step (h : d.Agreed initial) (hstep : Step d label d') : d'.Agreed initial := by
  cases hstep with
  | still => exact h
  | acts a => exact h.follow (act_asks d.console d.surroundings a)
  | watches => exact h.keep rfl rfl rfl
  | hears => exact h.keep rfl (congrArg Prod.fst (stance_hear _ _ _)) rfl
  | learns hlearnt => exact h.keep rfl (congrArg Prod.fst hlearnt.stance) rfl
  | draws => exact h.keep rfl (congrArg Prod.fst (stance_hydrate _ _)) rfl
  | warns => exact h.keep rfl rfl rfl
  | outside => exact h.keep rfl rfl rfl

theorem Agreed.run (h : d.Agreed initial) (acts : List Act) : (d.run acts).Agreed initial := by
  induction acts generalizing d with
  | nil => exact h
  | cons a acts ih => exact ih (h.step (d.step_act a))

theorem agreed_opening (s : Surroundings) (home cluster context : String) {scope : Scope}
    (hscope : scope.Proper) (kind : Kind) {interval : Nat}
    (hinterval : Launch.shortestInterval ≤ interval) :
    (opening s home cluster context scope kind interval).Agreed interval := by
  obtain ⟨r, hstart, -⟩ := bearing_start s home cluster context scope kind
  simp only [opening]
  generalize Console.start s home cluster context scope kind = c at hstart
  have hsame : c.scope = scope := congrArg Bearing.scope hstart
  obtain ⟨r, table, hopened⟩ := bearing_watchCurrent c s
  rw [follow_watchCurrent]
  apply Agreed.watch
  · have hscoped : (c.watchCurrent s).1.scope = c.scope := congrArg Bearing.scope hopened
    rw [← hsame, ← hscoped] at hscope
    exact hscope
  · exact LiveView.Pass.idle interval
  · rfl
  · exact hinterval

/-! ## The watcher matches the console -/

/-- What the console and the watcher of its view agree on. -/
structure Matched (initial : Nat) (d : Desk) : Prop where
  ordered : d.console.view.target.kind.polled = true → d.live.order? =
    some ⟨d.console.view.target, d.console.scopeFor d.console.view.target,
      lastRate initial d.log, d.console.generation⟩
  served : d.console.view.target.kind.polled = true → ∃ x, d.watcher? = some x ∧
    x.watcher.target = d.console.view.target ∧
    x.watcher.scope = d.console.scopeFor d.console.view.target ∧
    x.watcher.rate = lastRate initial d.log ∧
    x.watcher.listeners = [d.console.generation]
  /-- The timer of a poll loop does not stand still. -/
  rate : Launch.shortestInterval ≤ lastRate initial d.log
  unpolled : d.console.view.target.kind.polled = false →
    d.live.order? = none ∧ d.watcher? = none
  tokens : ∃ k < d.live.tokens, d.live.token? = some k ∧
    ∀ j < d.live.tokens, j ∈ d.live.calledOff ↔ j ≠ k

theorem watcher?_of_order (ho : d.live.order? = some o) : d.watcher? = d.watchers.getLast? := by
  simp only [watcher?, sender?, ho, Option.map_some, Option.bind_some, List.getLast?_eq_getElem?]

/-- The order of a view that has one. -/
theorem Agreed.exists_order (h : d.Agreed initial) (hview : d.Attended)
    (hpolled : d.console.view.target.kind.polled = true) : d.live.order? =
      some ⟨d.console.view.target, d.console.scopeFor d.console.view.target,
        lastRate initial d.log, d.console.generation⟩ := by
  rw [← hview.polled] at hpolled
  obtain ⟨o, ho⟩ := Option.isSome_iff_exists.1 hpolled
  obtain ⟨htarget, hinterval, hgeneration⟩ := hview.order o ho
  rw [ho, ← htarget, ← h.interval, ← hinterval, ← hgeneration, ← h.scope o ho]

theorem Attended.order?_eq_none (h : d.Attended)
    (hpolled : d.console.view.target.kind.polled = false) : d.live.order? = none := by
  rw [← h.polled] at hpolled
  exact Option.isNone_iff_eq_none.1 (Option.isSome_eq_false_iff.1 hpolled)

theorem Agreed.matched (h : d.Agreed initial) (hview : d.Attended) : d.Matched initial := by
  constructor
  · exact h.exists_order hview
  · intro hpolled
    have ho := h.exists_order hview hpolled
    obtain ⟨x, hx, hsettings⟩ := hview.watcher _ ho
    simp only [Watching.Watcher.settings, settingsOf, Prod.mk.injEq] at hsettings
    exact ⟨x, (watcher?_of_order ho).trans hx, hsettings⟩
  · exact h.shortest
  · intro hpolled
    have ho := hview.order?_eq_none hpolled
    exact ⟨ho, by simp only [watcher?, sender?, ho, Option.map_none, Option.bind_none]⟩
  · obtain ⟨k, hk⟩ := Option.isSome_iff_exists.1 h.held
    refine ⟨k, h.pass.present k hk, hk, ?_⟩
    intro j hj
    rw [h.pass.calledOff j hj, hk, ne_eq, Option.some.injEq, eq_comm]

/-- Whatever the operator does and whatever happens meanwhile, the watcher of a view is for
what the console shows, and all views before are called off. -/
theorem watcher_matches_console (s : Surroundings) (home cluster context : String)
    (scope : Scope) (hscope : scope.Proper) (kind : Kind) (arguments : Launch.Arguments)
    (configured : Option Nat) (acts : List Act) :
    ((opening s home cluster context scope kind (arguments.interval configured)).run
      acts).Matched (arguments.interval configured) := by
  have hinterval : Launch.shortestInterval ≤ arguments.interval configured :=
    Nat.le_max_right _ _
  have hagreed := agreed_opening s home cluster context hscope kind hinterval
  have hattended := attended_opening s home cluster context scope kind
    (arguments.interval configured)
  exact (hagreed.run acts).matched (hattended.run acts)

theorem watcher_matches_console_default : (Scope.named "default").Proper ∧
    ((opening default "/home/me" "kind" "kind" (.named "default") .namespaces
      (Launch.Arguments.default.interval (some 1))).run
        [.watcher 0 (.call 1), .watcher 0 (.answer 0 (.ok [⟨"dev", ["dev", "Active", "1d"]⟩])),
          .watcher 0 (.examine 0), .hear, .act .enter]).Matched
      (Launch.Arguments.default.interval (some 1)) :=
  have hscope : (Scope.named "default").Proper := by simp [Scope.Proper, Scope.allSign]
  ⟨hscope, watcher_matches_console default "/home/me" "kind" "kind" (.named "default") hscope
    .namespaces Launch.Arguments.default (some 1) _⟩

end Desk

end Console

end ClusterConsole
