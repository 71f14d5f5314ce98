import ClusterConsole.Proofs.Snapshot.Succession
import ClusterConsole.Proofs.Watching.Traffic

/-!
# What a listener hears

The tables that one listener is handed follow one upon the other as those of
`Table.successive`, one for each cycle whose fetch did not fail: the watcher keeps its
table through the cycles that fail, are called off or turned away, and a change of its
scope does not touch it. So a listener that was there from the start hears a faithful
log of the changes.
-/

namespace ClusterConsole.Watching

open ClusterConsole.Resource ClusterConsole.Snapshot ClusterConsole.Status

variable {L : Type}

def Delivery.table? : Delivery → Option Table
  | .table t => some t
  | .failure _ => none

/-- What the fetch gave, and where, unless it failed. -/
def Round.harvest? (r : Round L) : Option Table.Harvest :=
  match r.fetched with
  | .ok rows => some (r.scope, rows)
  | .error _ => none

/-- The table that the listener at that place was handed. -/
def Round.tableFor? (k : Nat) (r : Round L) : Option Table :=
  r.handed[k]?.bind fun p => p.2.table?

theorem Watcher.foldl_addListener (ls : List L) (w : Watcher L) :
    ls.foldl Watcher.addListener w = { w with listeners := w.listeners ++ ls } := by
  induction ls generalizing w with
  | nil => rw [List.foldl_nil, List.append_nil]
  | cons l ls ih =>
      rw [List.foldl_cons, ih]
      simp only [Watcher.addListener, List.append_assoc, List.singleton_append]

namespace Traffic

variable {x y : Traffic L} {kind : Kind} {scope : Scope} {k : Nat} {l : L}

/-- What the fetches gave that did not fail, in the order in which they were looked at. -/
def harvests (x : Traffic L) : List Table.Harvest := x.rounds.filterMap Round.harvest?

/-- All tables that the listener at that place was handed. -/
def tablesFor (x : Traffic L) (k : Nat) : List Table := x.rounds.filterMap (Round.tableFor? k)

/-- What the listener `l` at that place heard of a kind since the first scope. -/
structure Heard (kind : Kind) (scope : Scope) (k : Nat) (l : L) (x : Traffic L) : Prop where
  log : Table.ChangeLog kind x.harvests (x.tablesFor k)
  latest : x.watcher.snapshot = (x.tablesFor k).getLast?.getD (Table.empty kind scope)
  /-- What is handed out comes of a call that has fetched it, and is a table just when
  that fetch has not failed. -/
  fetched : ∀ r ∈ x.rounds, x.calls[r.call]?.map Call.standing = some (.served r.scope r.fetched) ∧
    ∃ d, r.handed[k]? = some (l, d) ∧ d.table?.isSome = r.fetched.toBool
  /-- A call that has returned `true` hands out once, and one that was turned away, was
  called off or has not ended hands out nothing. -/
  counted : ∀ j : Nat, x.rounds.countP (fun r => r.call == j) =
    if x.returned j = some true then 1 else 0

/-! ## One more round -/

/-- What every act keeps. -/
structure Logged (kind : Kind) (scope : Scope) (k : Nat) (l : L) (x : Traffic L) : Prop where
  target : x.watcher.target.kind = kind
  listener : x.watcher.listeners[k]? = some l
  tables : x.tablesFor k = Table.successive kind (Table.empty kind scope) x.harvests
  latest : x.watcher.snapshot = (x.tablesFor k).getLast?.getD (Table.empty kind scope)
  handed : ∀ r ∈ x.rounds, ∃ d, r.handed[k]? = some (l, d) ∧ d.table?.isSome = r.fetched.toBool

theorem Logged.start (target : Target) (scope : Scope) (rate : Nat) (listeners : List L)
    (k : Fin listeners.length) :
    (start (listeners.foldl Watcher.addListener (Watcher.new target scope rate))).Logged
      target.kind scope k listeners[k] := by
  rw [Watcher.foldl_addListener]
  exact ⟨rfl, List.getElem?_eq_getElem k.isLt, rfl, rfl, fun r hr => nomatch hr⟩

theorem getElem?_deliver {w : Watcher L} (h : w.listeners[k]? = some l) (d : Delivery) :
    (w.deliver d)[k]? = some (l, d) := by
  rw [Watcher.deliver, List.getElem?_map, h, Option.map_some]

/-- All listeners are handed the same. -/
theorem exists_conclude_snd (w : Watcher L) (scope : Scope) (fetched : Fetched) :
    ∃ d, (w.conclude scope fetched).2 = w.deliver d ∧ d.table?.isSome = fetched.toBool := by
  cases fetched with
  | ok rows => exact ⟨.table _, rfl, rfl⟩
  | error chain => exact ⟨.failure chain, rfl, rfl⟩

theorem tablesFor_serve (h : x.watcher.listeners[k]? = some l) (j token : Nat)
    (scope : Scope) (fetched : Fetched) : (x.serve j token scope fetched).tablesFor k =
      x.tablesFor k ++ match fetched with
        | .ok rows =>
            [Table.advance x.watcher.target.kind scope (some x.watcher.snapshot) rows]
        | .error _ => [] := by
  rw [tablesFor, rounds_serve, List.filterMap_append, tablesFor]
  cases fetched <;>
    simp [Watcher.conclude, Round.tableFor?, getElem?_deliver h, Delivery.table?]

theorem harvests_serve (x : Traffic L) (j token : Nat) (scope : Scope) (fetched : Fetched) :
    (x.serve j token scope fetched).harvests = x.harvests ++ match fetched with
      | .ok rows => [(scope, rows)]
      | .error _ => [] := by
  rw [harvests, rounds_serve, List.filterMap_append, harvests]
  cases fetched <;> rfl

theorem Logged.serve (h : x.Logged kind scope k l) (j token : Nat) (scope' : Scope)
    (fetched : Fetched) : (x.serve j token scope' fetched).Logged kind scope k l := by
  have htables := tablesFor_serve h.listener j token scope' fetched
  have hharvests := x.harvests_serve j token scope' fetched
  have hhanded : ∀ r ∈ (x.serve j token scope' fetched).rounds,
      ∃ d, r.handed[k]? = some (l, d) ∧ d.table?.isSome = r.fetched.toBool := by
    intro r hr
    rcases List.mem_append.1 hr with hr | hr
    · exact h.handed r hr
    · obtain rfl := List.mem_singleton.1 hr
      obtain ⟨d, hd, htable⟩ := exists_conclude_snd x.watcher scope' fetched
      exact ⟨d, by rw [hd, getElem?_deliver h.listener], htable⟩
  cases fetched with
  | ok rows =>
      rw [h.target] at htables
      refine ⟨h.target, h.listener, ?_, ?_, hhanded⟩
      · rw [htables, hharvests, Table.successive_append, ← h.tables, ← h.latest]
        rfl
      · rw [htables, List.getLast?_concat, Option.getD_some, ← h.target]
        rfl
  | error chain =>
      rw [List.append_nil] at htables hharvests
      refine ⟨h.target, h.listener, ?_, ?_, hhanded⟩
      · rw [htables, hharvests, h.tables]
      · rw [htables, ← h.latest]
        rfl

theorem Logged.step (h : x.Logged kind scope k l) (hstep : Step x y) :
    y.Logged kind scope k l := by
  cases hstep with
  | aside w now calledOff htarget hsnapshot _ hlisteners =>
      refine ⟨by rw [htarget, h.target], ?_, h.tables, by rw [hsnapshot, h.latest]; rfl, h.handed⟩
      obtain ⟨ls, hls⟩ := hlisteners
      rw [← hls, List.getElem?_append_left (List.getElem?_eq_some_iff.1 h.listener).1]
      exact h.listener
  | serves j token scope' fetched => exact h.serve j token scope' fetched
  | _ => exact ⟨h.target, h.listener, h.tables, h.latest, h.handed⟩

theorem Logged.after (h : x.Logged kind scope k l) (acts : List (Act L)) :
    (x.after acts).Logged kind scope k l := by
  induction acts generalizing x with
  | nil => exact h
  | cons a acts ih => exact ih (h.step (x.step_act a))

/-! ## Every run -/

theorem Logged.heard (h : x.Logged kind scope k l) (hsound : x.Sound) :
    x.Heard kind scope k l where
  log := by
    rw [h.tables]
    exact Table.changeLog_successive kind scope x.harvests
  latest := h.latest
  fetched r hr := by
    obtain ⟨c, hc, hserved⟩ := hsound.ofCall r hr
    exact ⟨by rw [hc, Option.map_some, hserved], h.handed r hr⟩
  counted := hsound.counted

/-- Whatever happens, a listener that is there from the start hears a faithful log of the
changes. -/
theorem tables_are_a_change_log (target : Target) (scope : Scope) (rate : Nat)
    (listeners : List L) (k : Fin listeners.length) (acts : List (Act L)) :
    ((start (listeners.foldl Watcher.addListener (Watcher.new target scope rate))).after
      acts).Heard target.kind scope k listeners[k] :=
  ((Logged.start target scope rate listeners k).after acts).heard
    ((Sound.start _ (by rw [Watcher.foldl_addListener]; rfl)).after acts)

end Traffic

end ClusterConsole.Watching
