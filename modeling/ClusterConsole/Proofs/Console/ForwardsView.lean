import ClusterConsole.Proofs.Benchmark.Layers
import ClusterConsole.Proofs.Console.Consent
import ClusterConsole.Proofs.Console.OwnView
import Mathlib.Data.List.Forall2

/-!
# The view of forwards

The table of the forwards is made from the registry and the settings file, and neither
of the two changes without its being made anew (`Current`). What it shows of a session
does not depend on the table before, nor, but for the age, on the time at which it was
made.
-/

namespace ClusterConsole

open ClusterConsole.Resource ClusterConsole.Snapshot

/-- The cell of an entry in the column of that name. -/
def Snapshot.Table.cell? (t : Table) (e : Entry) (column : String) : Option String :=
  (t.kind.column? column).map e.field

/-! ## The order of the sessions -/

namespace Forwarding.Registry

variable {r : Registry}

theorem Ordered.applyReport (h : r.Ordered) (ρ : Report) :
    (r.applyReport ρ).registry.Ordered := by
  cases hcurrent : r.current? ρ.fqn ρ.generation with
  | none =>
      rw [(applyReport_of_none hcurrent).1]
      exact h
  | some s =>
      rcases applyReport_of_some hcurrent with ⟨hsame, -⟩ | ⟨-, hset, -⟩ | ⟨o, hdrop, -⟩
      · rw [hsame]
        exact h
      · rw [hset]
        exact h.set
      · rw [hdrop]
        exact h.drop

/-- Sessions whose keys are in order have keys apart. -/
theorem Ordered.nodup (h : r.Ordered) : (r.sessions.map Session.fqn).Nodup := by
  rw [List.nodup_iff_pairwise_ne, List.pairwise_map]
  refine h.imp ?_
  intro s t hlt heq
  exact String.lt_irrefl _ (heq ▸ hlt)

end Forwarding.Registry

namespace Console

open ClusterConsole.Background (News Surroundings)
open ClusterConsole.Benchmark (Locates locates_forwardUrl)
open ClusterConsole.Forwarding (Registry Session)

variable {c c' : Console} {s : Surroundings}

theorem Done.ordered {i : Intent} (h : Done s c i c') (hc : c.registry.Ordered) :
    c'.registry.Ordered := by
  cases h with
  | @forwarded c₀ path container m session hfree hsession h =>
      have hregistry : c₀.registry = c.registry.register session :=
        (congrArg Bearing.registry h :)
      rw [registry_hydrate, hregistry]
      exact hc.register (by rw [hsession]; exact hfree)
  | refused _ h | missed _ h =>
      have hregistry : c'.registry = c.registry := (congrArg Bearing.registry h :)
      rw [hregistry]
      exact hc
  | @deleted c₀ fqn session _ h =>
      have hregistry : c₀.registry = c.registry.drop session := (congrArg Bearing.registry h :)
      rw [registry_hydrate, hregistry]
      exact hc.drop

theorem ordered_act (hc : c.registry.Ordered) (s : Surroundings) (a : Action) :
    (c.act s a).1.registry.Ordered := by
  by_cases h : c.mode ≠ .confirm ∨ a ≠ .confirmYes
  · rw [registry_act h]
    exact hc
  · simp only [not_or, ne_eq, Decidable.not_not] at h
    obtain ⟨hconfirm, rfl⟩ := h
    rw [act_of_confirm hconfirm]
    cases answer_reply c s .confirmYes with
    | agreed _ h => exact h.ordered hc
    | dropped _ h =>
        have hregistry : (c.answer s .confirmYes).registry = c.registry :=
          (congrArg Bearing.registry h :)
        rw [hregistry]
        exact hc
    | waits ha => cases ha

theorem ordered_of_heard (hc : c.registry.Ordered) (h : c'.registry = c.registry ∨
    ∃ ρ, c'.registry = (c.registry.applyReport ρ).registry) : c'.registry.Ordered := by
  rcases h with h | ⟨ρ, h⟩
  · rw [h]
    exact hc
  · rw [h]
    exact hc.applyReport ρ

/-! ## A table that is up to date -/

/-- In the view of forwards the table shows what there is, as it was found at some time. -/
def Current (c : Console) : Prop := c.view.target.kind = .forwards →
  ∃ time, c.table.presentRows = c.registry.sessions.map (forwardRow c.runner.file time)

theorem DrawnOver.current {previous : Table} (h : c.DrawnOver s previous)
    (hc : c.registry.Ordered) : c.Current := by
  intro hkind
  obtain ⟨rows, hrows, htable⟩ := h
  simp only [localRows?, hkind, Option.some.injEq] at hrows
  refine ⟨s.time, ?_⟩
  rw [htable, hkind, ← hrows]
  apply Table.presentRows_advance
  · intro row hrow
    rfl
  · intro row hrow
    obtain ⟨session, -, rfl⟩ := List.mem_map.1 hrow
    rfl
  · rw [List.map_map]
    exact hc.nodup

theorem Redrawn.current (h : Redrawn s c c') (hc : c.Current) (hordered : c'.registry.Ordered) :
    c'.Current := by
  cases h with
  | kept h hregistry hfile =>
      simp only [Bearing.shown, bearing, Prod.mk.injEq] at h
      obtain ⟨htarget, -, htable, -⟩ := h
      intro hkind
      rw [htarget] at hkind
      rw [htable, hregistry, hfile]
      exact hc hkind
  | drawn _ h => exact h.current hordered
  | opened _ h => exact h.current hordered

namespace Desk

variable {d d' : Desk} {label : Option Action}

theorem ordered_step (h : d.console.registry.Ordered) (hstep : Step d label d') :
    d'.console.registry.Ordered := by
  cases hstep with
  | still | watches | outside | warns => exact h
  | acts a =>
      rw [(d.console_follow _).1]
      exact ordered_act h d.surroundings a
  | hears => exact ordered_of_heard h (registry_hear _ _ _)
  | learns hlearnt => exact ordered_of_heard h hlearnt.registry
  | draws =>
      rw [registry_hydrate]
      exact h

theorem current_step (h : d.console.Current) (hposted : d.Posted) (hview : d.Attended)
    (hordered : d.console.registry.Ordered) (hstep : Step d label d') : d'.console.Current := by
  intro hkind
  have hlocal : d'.console.view.target.kind.polled = false := by rw [hkind]; rfl
  have hredrawn := redrawn_step hposted hview hstep hlocal
  exact hredrawn.current h (ordered_step hordered hstep) hkind

theorem current_run (h : d.console.Current) (hposted : d.Posted) (hview : d.Attended)
    (hordered : d.console.registry.Ordered) (acts : List Act) :
    (d.run acts).console.Current := by
  induction acts generalizing d with
  | nil => exact h
  | cons a acts ih =>
      have hstep := d.step_act a
      exact ih (current_step h hposted hview hordered hstep) (hposted.step hstep)
        (hview.step hstep) (ordered_step hordered hstep)

theorem current_opening (s : Surroundings) (home cluster context : String) (scope : Scope)
    (kind : Kind) (interval : Nat) :
    (opening s home cluster context scope kind interval).console.registry.Ordered ∧
      (opening s home cluster context scope kind interval).console.Current := by
  obtain ⟨r, hstart, -⟩ := bearing_start s home cluster context scope kind
  simp only [opening]
  generalize Console.start s home cluster context scope kind = c at hstart
  have hempty : c.registry = Registry.empty := (congrArg Bearing.registry hstart :)
  have hsame : (c.watchCurrent s).1.registry = Registry.empty := by
    obtain ⟨r, table, hopened⟩ := bearing_watchCurrent c s
    exact (congrArg Bearing.registry hopened :).trans hempty
  have hordered : (c.watchCurrent s).1.registry.Ordered := by
    rw [hsame]
    exact List.Pairwise.nil
  rw [(console_follow _ _).1]
  refine ⟨hordered, ?_⟩
  intro hkind
  obtain ⟨htarget, -, -, -, hdrawn⟩ := watchCurrent_own c s
  have hlocal : c.view.target.kind.polled = false := by
    rw [← htarget, show (c.watchCurrent s).1.view.target.kind = .forwards from hkind]
    rfl
  obtain ⟨previous, -, hdrawn⟩ := hdrawn hlocal
  exact hdrawn.current hordered hkind

/-! ## What the view of forwards shows -/

/-- An entry shows a session, with the settings that its benchmarks would have. -/
structure Shows (c : Console) (e : Entry) (f : Session) : Prop where
  fqn : e.fqn = f.fqn
  podNamespace : c.table.cell? e "NAMESPACE" = some f.podNamespace
  pod : c.table.cell? e "NAME" = some f.pod
  container : c.table.cell? e "CONTAINER" = some f.container
  ports : c.table.cell? e "PORTS" = some f.mapping.text
  url : c.table.cell? e "URL" = some (forwardUrl f (c.runner.resolve f.path f.container))
  locator : ∃ url, c.table.cell? e "URL" = some url ∧
    Locates url f.mapping.localPort (c.runner.resolve f.path f.container).path
  concurrency : c.table.cell? e "C" =
    some (toString (c.runner.resolve f.path f.container).concurrency)
  requests : c.table.cell? e "N" =
    some (toString (c.runner.resolve f.path f.container).requests)

theorem cell?_of_row {c : Console} {e : Entry} {row : Row} {column : String} (i : Nat)
    (hkind : c.table.kind = .forwards) (he : (⟨e.fqn, e.fields⟩ : Row) = row)
    (hcolumn : Kind.forwards.column? column = some i) :
    c.table.cell? e column = some (row.fields.getD i "") := by
  rw [Table.cell?, hkind, hcolumn, ← he]
  rfl

theorem shows_of_row {c : Console} {e : Entry} {f : Session} {time : Int}
    (hkind : c.table.kind = .forwards)
    (he : (⟨e.fqn, e.fields⟩ : Row) = forwardRow c.runner.file time f) : Shows c e f where
  fqn := congrArg Row.fqn he
  podNamespace := cell?_of_row 0 hkind he (by decide)
  pod := cell?_of_row 1 hkind he (by decide)
  container := cell?_of_row 2 hkind he (by decide)
  ports := cell?_of_row 3 hkind he (by decide)
  url := cell?_of_row 4 hkind he (by decide)
  locator := ⟨_, cell?_of_row 4 hkind he (by decide), locates_forwardUrl f _⟩
  concurrency := cell?_of_row 5 hkind he (by decide)
  requests := cell?_of_row 6 hkind he (by decide)

theorem Own.shows (h : d.Own) (hcurrent : d.console.Current)
    (hview : d.console.view.target.kind = .forwards) :
    List.Forall₂ (Shows d.console) (d.console.table.entries.filter Entry.present)
      d.console.registry.sessions := by
  obtain ⟨time, hrows⟩ := hcurrent hview
  rw [Table.presentRows, ← List.forall₂_eq_eq_eq, List.forall₂_map_left_iff,
    List.forall₂_map_right_iff] at hrows
  refine hrows.imp ?_
  intro e f he
  exact shows_of_row (h.kind.trans hview) he

/-- After every act, in the view of forwards, the entries that are not gone are one for each
session, in order, and show it as it is and with the settings that are in force. -/
theorem forwards_view_is_current (s : Surroundings) (home cluster context : String)
    (scope : Scope) (kind : Kind) (interval : Nat) (acts : List Act)
    (hview : ((opening s home cluster context scope kind interval).run
      acts).console.view.target.kind = .forwards) :
    List.Forall₂ (Shows ((opening s home cluster context scope kind interval).run acts).console)
      (((opening s home cluster context scope kind interval).run
        acts).console.table.entries.filter Entry.present)
      ((opening s home cluster context scope kind interval).run
        acts).console.registry.sessions := by
  have hattended := attended_opening s home cluster context scope kind interval
  have hposted := posted_opening s home cluster context scope kind interval
  have hown := own_opening s home cluster context scope kind interval
  obtain ⟨hordered, hcurrent⟩ := current_opening s home cluster context scope kind interval
  generalize opening s home cluster context scope kind interval = d at *
  exact (hown.run hposted hattended acts).shows
    (current_run hcurrent hposted hattended hordered acts) hview

/-- A container is forwarded and then looked at in the view of forwards. -/
def forwardAndLook : List Act :=
  [.watcher 0 (.call 1),
    .watcher 0 (.answer 0 (.ok [⟨"default/web",
      ["default", "web", "1/1", "Running", "0", "10.0.0.1", "node", "1d"]⟩])),
    .watcher 0 (.examine 0), .hear, .act .enter,
    .watcher 1 (.call 2),
    .watcher 1 (.answer 0 (.ok [⟨"default/web|app",
      ["app", "nginx", "true", "Running", "false", "0", "http:80/TCP", "1d"]⟩])),
    .watcher 1 (.examine 0), .hear, .act .forward, .act .confirmYes,
    .act .startCommand, .act (.inputChar 'p'), .act (.inputChar 'f'), .act .submitInput]

theorem forwards_view_is_current_forwardAndLook :
    ((opening default "/home/me" "kind" "kind" (.named "default") .pods 2000).run
      forwardAndLook).console.view.target.kind = .forwards ∧
    ((opening default "/home/me" "kind" "kind" (.named "default") .pods 2000).run
      forwardAndLook).console.registry.sessions.map Session.fqn = ["default/web|app"] ∧
    List.Forall₂ (Shows ((opening default "/home/me" "kind" "kind" (.named "default") .pods
        2000).run forwardAndLook).console)
      (((opening default "/home/me" "kind" "kind" (.named "default") .pods 2000).run
        forwardAndLook).console.table.entries.filter Entry.present)
      ((opening default "/home/me" "kind" "kind" (.named "default") .pods 2000).run
        forwardAndLook).console.registry.sessions :=
  have hview : ((opening default "/home/me" "kind" "kind" (.named "default") .pods 2000).run
      forwardAndLook).console.view.target.kind = .forwards := by decide +kernel
  ⟨hview, by decide +kernel, forwards_view_is_current default "/home/me" "kind" "kind"
    (.named "default") .pods 2000 forwardAndLook hview⟩

end Desk

end Console

end ClusterConsole
