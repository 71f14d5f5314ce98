import ClusterConsole.Proofs.Background.Mirror
import ClusterConsole.Proofs.Console.Bearing

/-!
# What an action does beside the screen

The registry, the runner and the errands outlive the view. `Deed` lists what can
become of these three; whatever else an action does is seen on the screen only. An
action comes to a deed by what `Bearing` says of it (`act_deed`).
-/

namespace ClusterConsole.Console

open ClusterConsole.Background (News Surroundings)
open ClusterConsole.Forwarding (Mapping Registry)
open ClusterConsole.Benchmark (Runner)
open ClusterConsole.Resource ClusterConsole.Snapshot ClusterConsole.Status

variable {c c' c'' : Console} {s : Surroundings}

/-- What outlives the view. -/
def holdings (c : Console) : Registry × Runner × List Errand := (c.registry, c.runner, c.errands)

inductive Deed (s : Surroundings) (c c' : Console) : Prop where
  | none (h : c'.holdings = c.holdings)
  /-- A forward is registered and launched, and its tunnel is an errand. -/
  | forward {fqn path container : String} {m : Mapping} {r r' : Registry}
      {session₀ session : Forwarding.Session}
      (hstart : c.registry.start s.time fqn path container m = .ok (r, session₀))
      (hlaunch : r.launch fqn = .ok (r', session))
      (h : c'.holdings = (r', c.runner, c.errands ++ [.tunnel session]))
  | delete (fqn : String) (h : c'.holdings = ((c.registry.stop fqn).1, c.runner, c.errands))
  | benchmark {target : Benchmark.Target} {r : Runner} {id : Nat}
      (hrun : c.runner.run s.time target = .ok (r, id))
      (h : c'.holdings = (c.registry, r, c.errands ++ [.benchmark id target]))
  | cancel (h : c'.holdings = (c.registry, c.runner.cancel.1, c.errands))
  | reload {path : String} {r : Runner} (hreload : c.runner.reload s.files path = .ok r)
      (h : c'.holdings = (c.registry, r, c.errands))

/-- What is held is a part of the bearing. -/
theorem holdings_of_bearing {b : Bearing} (h : c.bearing = b) :
    c.holdings = (b.registry, b.runner, b.errands) := by
  subst h
  rfl

theorem holdings_hydrate (c : Console) (s : Surroundings) :
    (c.hydrate s).holdings = c.holdings :=
  holdings_of_bearing (bearing_hydrate c s)

theorem holdings_flash? (c : Console) (notice : Option Notice) :
    (c.flash? notice).holdings = c.holdings :=
  holdings_of_bearing (bearing_flash? c notice)

/-- A deed is about what outlives the view. -/
theorem Deed.after (h : Deed s c' c'') (hc : c'.holdings = c.holdings) : Deed s c c'' := by
  simp only [holdings, Prod.mk.injEq] at hc
  obtain ⟨hregistry, hrunner, herrands⟩ := hc
  cases h with
  | none h => exact .none (by rw [h, holdings, holdings, hregistry, hrunner, herrands])
  | forward hstart hlaunch h =>
      rw [hrunner, herrands] at h
      rw [hregistry] at hstart
      exact .forward hstart hlaunch h
  | delete fqn h =>
      rw [hregistry, hrunner, herrands] at h
      exact .delete fqn h
  | benchmark hrun h =>
      rw [hregistry, herrands] at h
      rw [hrunner] at hrun
      exact .benchmark hrun h
  | cancel h =>
      rw [hregistry, hrunner, herrands] at h
      exact .cancel h
  | reload hreload h =>
      rw [hregistry, herrands] at h
      rw [hrunner] at hreload
      exact .reload hreload h

/-! ## What an action does -/

/-- Opening the view of the forwards reads the settings file again. -/
theorem watchCurrent_deed (c : Console) (s : Surroundings) : Deed s c (c.watchCurrent s).1 := by
  rw [watchCurrent_eq]
  obtain ⟨r, h, hr⟩ := bearing_unveil c s
  have hheld := (holdings_hydrate (c.unveil s) s).trans (holdings_of_bearing h)
  rcases hr with rfl | hreload
  · exact .none hheld
  · exact .reload hreload hheld

theorem Outcome.deed {p : Console × Option Command} (h : Outcome s c p) : Deed s c p.1 := by
  cases h with
  | still h | refresh h | paced _ h | rescoped _ h | asked _ h =>
      exact .none (holdings_of_bearing h)
  | opened c₀ h =>
      simp only [Bearing.kept, bearing, Prod.mk.injEq] at h
      obtain ⟨-, -, -, hregistry, hrunner, herrands⟩ := h
      refine (watchCurrent_deed c₀ s).after ?_
      rw [holdings, hregistry, hrunner, herrands]
      rfl
  | drawn h => exact .none ((holdings_hydrate _ s).trans (holdings_of_bearing h))
  | benchmark hrun h => exact .benchmark hrun (holdings_of_bearing h)
  | cancel h => exact .cancel (holdings_of_bearing h)

theorem Done.deed {i : Intent} (h : Done s c i c') : Deed s c c' := by
  cases h with
  | @forwarded c₀ path container m session hfree hsession h =>
      obtain ⟨r, hstart, hlaunch⟩ := Registry.start_launch s.time path container m hfree
      rw [← hsession] at hlaunch
      exact .forward hstart hlaunch ((holdings_hydrate c₀ s).trans (holdings_of_bearing h))
  | refused _ h | missed _ h => exact .none (holdings_of_bearing h)
  | @deleted c₀ fqn session hget h =>
      refine .delete fqn ((holdings_hydrate c₀ s).trans ?_)
      rw [Registry.stop_of_some hget]
      exact holdings_of_bearing h

theorem Reply.deed {a : Action} (h : Reply s c a c') : Deed s c c' := by
  cases h with
  | agreed _ h => exact h.deed.after rfl
  | dropped _ h | waits _ h => exact .none (holdings_of_bearing h)

/-- What an action does beside the screen. -/
theorem act_deed (c : Console) (s : Surroundings) (a : Action) : Deed s c (c.act s a).1 := by
  by_cases hc : c.mode = .confirm
  · rw [act_of_confirm hc]
    exact (answer_reply c s a).deed
  · exact (act_outcome s a hc).deed

/-- A console starts with nothing under way; the settings file is read at once. -/
theorem holdings_start (around : Surroundings) (home cluster context : String) (scope : Scope)
    (kind : Kind) : ∃ r, (start around home cluster context scope kind).holdings =
      (Registry.empty, r, []) ∧
      (r = Runner.empty (some (Benchmark.reportsDirectory home cluster)) ∨
        (Runner.empty (some (Benchmark.reportsDirectory home cluster))).reload around.files
          (Benchmark.settingsPath home cluster) = .ok r) := by
  obtain ⟨r, h, hr⟩ := bearing_start around home cluster context scope kind
  exact ⟨r, holdings_of_bearing h, hr⟩

/-! ## What is heard -/

/-- News changes the registry and the runner as it should and no errands. -/
theorem holdings_hear (c : Console) (s : Surroundings) (news : News) :
    (c.hear s news).holdings =
      (news.onRegistry c.registry, news.onRunner s.files c.runner, c.errands) := by
  cases news with
  | table generation table =>
      rw [hear, holdings_of_bearing (bearing_tableLoaded c generation table)]
      split <;> rfl
  | tableFailure generation message =>
      rw [hear, holdings_of_bearing (bearing_tableFailed c generation message)]
      split <;> rfl
  | forward report =>
      simp only [hear, forwardReported]
      split
      · rw [holdings_hydrate, holdings_flash?]
        rfl
      · rw [holdings_flash?]
        rfl
  | benchmark completion => exact holdings_flash? _ _
  | holdOver message =>
      simp only [hear, holdOver]
      split <;> rfl
  | settingsWritten path =>
      simp only [hear, settingsWritten, reloadSettings, News.onRunner]
      cases c.runner.reload s.files path with
      | error e => rfl
      | ok r => exact holdings_hydrate _ s

/-- News that is neither a report nor a word comes to a deed. -/
theorem hear_deed (c : Console) (s : Surroundings) {news : News} (hreport : news.report? = none)
    (hword : news.word? = none) : Deed s c (c.hear s news) := by
  have hheard := holdings_hear c s news
  cases news with
  | table generation table => exact .none hheard
  | tableFailure generation message => exact .none hheard
  | forward report => cases hreport
  | benchmark completion => cases hword
  | holdOver message => cases hword
  | settingsWritten path =>
      cases hreload : c.runner.reload s.files path with
      | error e =>
          simp only [News.onRunner, hreload] at hheard
          exact .none hheard
      | ok r =>
          simp only [News.onRunner, hreload] at hheard
          exact .reload hreload hheard

theorem attentive : owner.Attentive where
  registry s news c := congrArg Prod.fst (holdings_hear c s news)
  runner s news c := congrArg (fun p => p.2.1) (holdings_hear c s news)

/-- Hearing gives no errands. -/
theorem keeps_errands : owner.Keeps fun c => c.errands = [] :=
  fun s news c h => (congrArg (fun p => p.2.2) (holdings_hear c s news)).trans h

end ClusterConsole.Console
