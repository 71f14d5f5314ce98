import ClusterConsole.Proofs.Benchmark.Series
import Mathlib.Data.List.Nodup

/-!
# The bookkeeping of a series

`Series.Sound` is what every act keeps: the runner is `Sole` in regard of the
benchmarks that were started, each completion was told by one benchmark that has it
behind it, and as long as the queue takes words each of those has told. No act takes
a benchmark back on its course (`exists_later_act`).
-/

namespace ClusterConsole.Benchmark

open ClusterConsole.Status
open ClusterConsole.Storage (Files)

namespace Runner

variable {r r' : Runner} {id : Nat}

theorem calledOff_cancel (r : Runner) : ∀ id ∈ r.calledOff, id ∈ r.cancel.1.calledOff := by
  intro id hid
  cases h : r.running? with
  | none => rwa [cancel_of_none h]
  | some s =>
      rw [cancel_of_some h]
      exact List.mem_cons_of_mem _ hid

theorem calledOff_complete (r : Runner) (i : Nat) (canceled : Bool) :
    ∀ id ∈ r.calledOff, id ∈ (r.complete i canceled).1.calledOff := by
  intro id hid
  by_cases howner : ∃ s, r.slot = some s ∧ s.id = i
  · obtain ⟨s, hs, hi⟩ := howner
    rw [complete_of_eq hs hi]
    exact List.mem_cons_of_mem _ hid
  · rwa [complete_of_ne fun s hs hi => howner ⟨s, hs, hi⟩]

theorem applyCompletion_fst (r : Runner) (c : Completion) :
    (r.applyCompletion c).1 = (r.complete c.id c.canceled).1 := by
  unfold applyCompletion
  split <;> rename_i heq <;> rw [heq]

end Runner

namespace Series

variable {x : Series} {t u : Trial} {k : Nat} {c : Completion} {f : Trial → Trial}

structure Sound (x : Series) : Prop where
  sole : x.runner.Sole (x.trials.map Trial.id)
  nodup : (x.told.map Completion.id).Nodup
  ofTrial : ∀ c ∈ x.told, ∃ t ∈ x.trials, t.id = c.id ∧ t.Over
  told : x.listening = true → ∀ t ∈ x.trials, t.Over → t.id ∈ x.told.map Completion.id
  canceled : x.canceled.Nodup
  calledOff : ∀ id ∈ x.canceled, id ∈ x.runner.calledOff

/-! ## The trials after a step of one of them -/

theorem getElem?_onTrial (x : Series) (k : Nat) (f : Trial → Trial) (i : Nat) :
    (x.onTrial k f).trials[i]? = (x.trials[i]?).map fun t => if k = i then f t else t :=
  List.getElem?_modify f k x.trials i

theorem mem_onTrial : u ∈ (x.onTrial k f).trials ↔
    ∃ (i : Nat) (t : Trial), x.trials[i]? = some t ∧ (if k = i then f t else t) = u := by
  rw [List.mem_iff_getElem?]
  simp only [getElem?_onTrial, Option.map_eq_some_iff]

theorem map_id_onTrial (x : Series) (k : Nat) (hf : ∀ t, (f t).id = t.id) :
    (x.onTrial k f).trials.map Trial.id = x.trials.map Trial.id := by
  refine List.ext_getElem? fun i => ?_
  rw [List.getElem?_map, List.getElem?_map, getElem?_onTrial, Option.map_map]
  congr 1
  funext t
  by_cases hk : k = i <;> simp [hk, hf]

theorem after_append (x : Series) (acts acts' : List Act) :
    x.after (acts ++ acts') = (x.after acts).after acts' :=
  List.foldl_append

/-! ## What a step keeps -/

namespace Sound

theorem empty (directory : Option String) : (empty directory).Sound where
  sole := Runner.Sole.empty directory
  nodup := List.nodup_nil
  ofTrial := by simp [Series.empty]
  told := by simp [Series.empty]
  canceled := List.nodup_nil
  calledOff := by simp [Series.empty]

theorem withRunner {r : Runner} (h : x.Sound) (hr : r.Sole (x.trials.map Trial.id))
    (hoff : ∀ id ∈ x.runner.calledOff, id ∈ r.calledOff) : Sound { x with runner := r } :=
  { h with sole := hr, calledOff := fun id hid => hoff id (h.calledOff id hid) }

/-- A step of a benchmark that does not put its completion behind it. -/
theorem onTrial (h : x.Sound) (k : Nat) (hid : ∀ t, (f t).id = t.id)
    (hover : ∀ t, (f t).Over ↔ t.Over) : (x.onTrial k f).Sound where
  sole := by
    rw [map_id_onTrial x k hid]
    exact h.sole
  nodup := h.nodup
  ofTrial c hc := by
    obtain ⟨t, ht, htc, hto⟩ := h.ofTrial c hc
    obtain ⟨i, hi⟩ := List.mem_iff_getElem?.1 ht
    refine ⟨_, mem_onTrial.2 ⟨i, t, hi, rfl⟩, ?_⟩
    by_cases hk : k = i
    · rw [if_pos hk, hid]
      exact ⟨htc, (hover t).2 hto⟩
    · rw [if_neg hk]
      exact ⟨htc, hto⟩
  told hl u hu huo := by
    obtain ⟨i, t, hi, rfl⟩ := mem_onTrial.1 hu
    have ht := List.mem_of_getElem? hi
    by_cases hk : k = i
    · rw [if_pos hk] at huo ⊢
      rw [hid]
      exact h.told hl t ht ((hover t).1 huo)
    · rw [if_neg hk] at huo ⊢
      exact h.told hl t ht huo
  canceled := h.canceled
  calledOff := h.calledOff

theorem run (h : x.Sound) (now : Int) (target : Target) : (x.run now target).Sound := by
  unfold Series.run
  cases hrun : x.runner.run now target with
  | error e => exact h
  | ok p =>
      obtain ⟨r, id⟩ := p
      have hsole := h.sole.run hrun
      obtain ⟨-, rfl, -⟩ := Runner.run_eq_ok_iff.1 hrun
      refine { h with sole := ?_, ofTrial := fun c hc => ?_, told := fun hl t ht hto => ?_ }
      · rw [List.map_append]
        exact hsole
      · obtain ⟨t, ht, hrest⟩ := h.ofTrial c hc
        exact ⟨t, List.mem_append_left _ ht, hrest⟩
      · rcases List.mem_append.1 ht with ht | ht
        · exact h.told hl t ht hto
        · rw [List.mem_singleton.1 ht] at hto
          simp [Trial.Over, Trial.rank] at hto

theorem cancel (h : x.Sound) : x.cancel.Sound := by
  have hsole := h.sole.cancel
  have hoff := x.runner.calledOff_cancel
  cases hrun : x.runner.running? with
  | none =>
      have hcancel : x.cancel = x := by simp [Series.cancel, Runner.cancel_of_none hrun]
      rwa [hcancel]
  | some s =>
      obtain ⟨hs, hphase⟩ := Runner.running?_eq_some_iff.1 hrun
      have hcanceled : x.cancel = { x with
          runner := x.runner.cancel.1, canceled := x.canceled ++ [s.id] } := by
        simp [Series.cancel, Runner.cancel_of_some hrun, hs]
      have hnew : s.id ∉ x.canceled := fun hmem =>
        h.sole.running s hs hphase (h.calledOff _ hmem)
      rw [hcanceled]
      refine { h.withRunner hsole hoff with canceled := ?_, calledOff := fun id hid => ?_ }
      · exact List.nodup_append.2 ⟨h.canceled, List.pairwise_singleton _ _, fun i hi j hj => by
          rw [List.mem_singleton.1 hj]
          exact fun heq => hnew (heq ▸ hi)⟩
      · rcases List.mem_append.1 hid with hid | hid
        · exact hoff id (h.calledOff id hid)
        · rw [List.mem_singleton.1 hid, Runner.cancel_of_some hrun]
          exact List.mem_cons_self

theorem reload (h : x.Sound) (files : Files) (path : String) : (x.reload files path).Sound := by
  unfold Series.reload
  cases hr : x.runner.reload files path with
  | error e => exact h
  | ok r =>
      have hsole := h.sole.reload hr
      obtain ⟨file, -, rfl⟩ := Runner.reload_eq_ok_iff.1 hr
      exact h.withRunner hsole fun id hid => hid

theorem push (h : x.Sound) (word : Word) : (x.push word).Sound := by
  unfold Series.push
  split
  · exact { h with }
  · exact h

theorem eq_of_id (h : x.Sound) (ht : t ∈ x.trials) (hu : u ∈ x.trials) (hid : t.id = u.id) :
    t = u := by
  have hnodup : (x.trials.map Trial.id).Nodup := h.sole.increasing.imp Nat.ne_of_lt
  exact List.inj_on_of_nodup_map hnodup ht hu hid

/-- A benchmark that has not told has no completion among those that were queued. -/
theorem id_notMem_told (h : x.Sound) (ht : t ∈ x.trials) (hto : ¬ t.Over) :
    t.id ∉ x.told.map Completion.id := by
  intro hmem
  obtain ⟨c, hc, hid⟩ := List.mem_map.1 hmem
  obtain ⟨u, hu, huc, huo⟩ := h.ofTrial c hc
  have heq := h.eq_of_id hu ht (huc.trans hid)
  exact hto (heq ▸ huo)

/-- A benchmark puts its completion behind it and tells it, if the queue takes it. -/
theorem told_onTrial (h : x.Sound) (ht : x.trials[k]? = some t) (hto : ¬ t.Over)
    (hid : c.id = t.id) :
    Sound { x.onTrial k (·.told c x.listening) with
      told := if x.listening then x.told ++ [c] else x.told } := by
  have hmem := List.mem_of_getElem? ht
  have hnew := h.id_notMem_told hmem hto
  have over_told : ∀ u : Trial, (u.told c x.listening).Over := by
    intro u
    rw [Trial.Over, Trial.rank_told]
    split <;> omega
  have hids := map_id_onTrial (f := (·.told c x.listening)) x k fun _ => rfl
  refine
    { sole := by rw [hids]; exact h.sole
      nodup := ?_
      ofTrial := ?_
      told := ?_
      canceled := h.canceled
      calledOff := h.calledOff }
  · by_cases hl : x.listening = true
    · rw [if_pos hl, List.map_append]
      refine List.nodup_append.2 ⟨h.nodup, List.pairwise_singleton _ _, fun i hi j hj heq => ?_⟩
      rw [heq, List.mem_singleton.1 hj, hid] at hi
      exact hnew hi
    · rw [if_neg hl]
      exact h.nodup
  · have hold : ∀ d ∈ x.told, ∃ u ∈ (x.onTrial k (·.told c x.listening)).trials,
        u.id = d.id ∧ u.Over := by
      intro d hd
      obtain ⟨u, hu, hud, huo⟩ := h.ofTrial d hd
      obtain ⟨i, hi⟩ := List.mem_iff_getElem?.1 hu
      refine ⟨_, mem_onTrial.2 ⟨i, u, hi, rfl⟩, ?_⟩
      by_cases hk : k = i
      · rw [if_pos hk]
        exact ⟨hud, over_told u⟩
      · rw [if_neg hk]
        exact ⟨hud, huo⟩
    intro d hd
    by_cases hl : x.listening = true
    · rw [if_pos hl] at hd
      rcases List.mem_append.1 hd with hd | hd
      · exact hold d hd
      · rw [List.mem_singleton.1 hd]
        exact ⟨_, mem_onTrial.2 ⟨k, t, ht, rfl⟩, by rw [if_pos rfl]; exact ⟨hid.symm, over_told t⟩⟩
    · rw [if_neg hl] at hd
      exact hold d hd
  · intro hl u hu huo
    have hl : x.listening = true := hl
    rw [if_pos hl, List.map_append]
    obtain ⟨i, v, hi, rfl⟩ := mem_onTrial.1 hu
    by_cases hk : k = i
    · subst hk
      rw [ht] at hi
      obtain rfl := Option.some.inj hi
      rw [if_pos rfl]
      exact List.mem_append_right _ (List.mem_singleton.2 hid.symm)
    · rw [if_neg hk] at huo ⊢
      exact List.mem_append_left _ (h.told hl v (List.mem_of_getElem? hi) huo)

theorem tell (h : x.Sound) (k : Nat) (files : Files) (time : Time.Moment) :
    (x.tell k files time).Sound := by
  unfold Series.tell
  cases hk : x.trials[k]?.bind fun t => t.complete? files x.runner.directory time with
  | none => exact h
  | some p =>
      obtain ⟨files', c⟩ := p
      obtain ⟨t, ht, hc⟩ := Option.bind_eq_some_iff.1 hk
      obtain ⟨hrank, hid⟩ := Trial.complete?_eq_some hc
      have hto : ¬ t.Over := by
        rw [Trial.Over, hrank]
        omega
      exact (h.told_onTrial ht hto hid).push (.completion c)

theorem release (h : x.Sound) (k : Nat) : (x.release k).Sound := by
  unfold Series.release
  split
  · exact h
  · refine (h.onTrial k Trial.id_release fun t => ?_).push _
    rw [Trial.Over, Trial.Over, Trial.rank_release]
    split <;> omega

theorem hear (h : x.Sound) (i : Nat) : (x.hear i).Sound := by
  unfold Series.hear
  split
  · exact h
  · rename_i word hword
    cases word with
    | completion c =>
        have hsole := h.sole.complete c.id c.canceled
        have hoff := x.runner.calledOff_complete c.id c.canceled
        rw [← Runner.applyCompletion_fst] at hsole hoff
        exact { h.withRunner hsole hoff with }
    | holdOver message =>
        dsimp only
        split <;> exact { h with }

theorem act (h : x.Sound) (a : Act) : (x.act a).Sound := by
  cases a with
  | run now target => exact h.run now target
  | cancel => exact h.cancel
  | reload files path => exact h.reload files path
  | close => exact h.withRunner h.sole.close fun id hid => hid
  | stir k p =>
      refine h.onTrial k (fun t => t.id_stir p) fun t => ?_
      rw [Trial.Over, Trial.Over, Trial.rank_stir]
  | load k result =>
      refine h.onTrial k (fun t => t.id_finish result) fun t => ?_
      rw [Trial.Over, Trial.Over, Trial.rank_finish]
      omega
  | read k =>
      refine h.onTrial k (fun t => t.id_read _) fun t => ?_
      rw [Trial.Over, Trial.Over, Trial.rank_read]
      split <;> omega
  | tell k files time => exact h.tell k files time
  | release k => exact h.release k
  | hear i => exact h.hear i
  | flash notice => exact { h with }
  | shut => exact { h with told := fun hl => absurd (show false = true from hl) (by decide) }

theorem after (h : x.Sound) (acts : List Act) : (x.after acts).Sound := by
  induction acts generalizing x with
  | nil => exact h
  | cons a acts ih => exact ih (h.act a)

end Sound

/-! ## What cannot be taken back -/

/-- What is pushed is put behind the rest as long as someone listens. -/
theorem push_cases (x : Series) (word : Word) :
    x.push word = x ∨
      x.listening = true ∧ x.push word = { x with queue := x.queue ++ [word] } := by
  unfold push
  split
  · exact .inr ⟨‹_›, rfl⟩
  · exact .inl rfl

theorem trials_push (x : Series) (word : Word) : (x.push word).trials = x.trials := by
  rcases x.push_cases word with h | ⟨-, h⟩ <;> rw [h]

theorem runner_push (x : Series) (word : Word) : (x.push word).runner = x.runner := by
  rcases x.push_cases word with h | ⟨-, h⟩ <;> rw [h]

theorem told_push (x : Series) (word : Word) : (x.push word).told = x.told := by
  rcases x.push_cases word with h | ⟨-, h⟩ <;> rw [h]

theorem line_push (x : Series) (word : Word) : (x.push word).line = x.line := by
  rcases x.push_cases word with h | ⟨-, h⟩ <;> rw [h]

theorem exists_later_onTrial {i : Nat} (ht : x.trials[i]? = some t)
    (hf : k = i → t.Later (f t)) :
    ∃ t', (x.onTrial k f).trials[i]? = some t' ∧ t.Later t' := by
  refine ⟨if k = i then f t else t, by rw [getElem?_onTrial, ht, Option.map_some], ?_⟩
  split
  · rename_i hk
    exact hf hk
  · exact Trial.Later.refl t

theorem exists_later_act {i : Nat} (ht : x.trials[i]? = some t) (a : Act) :
    ∃ t', (x.act a).trials[i]? = some t' ∧ t.Later t' := by
  have hrefl := Trial.Later.refl t
  cases a with
  | run now target =>
      simp only [act, run]
      split
      · have hi := (List.getElem?_eq_some_iff.1 ht).1
        exact ⟨t, by rw [List.getElem?_append_left hi, ht], hrefl⟩
      · exact ⟨t, ht, hrefl⟩
  | reload files path =>
      simp only [act, reload]
      split <;> exact ⟨t, ht, hrefl⟩
  | stir k p =>
      exact exists_later_onTrial ht fun _ => ⟨t.id_stir p, Nat.le_of_eq (t.rank_stir p).symm⟩
  | load k result =>
      refine exists_later_onTrial ht fun _ => ⟨t.id_finish result, ?_⟩
      rw [Trial.rank_finish]
      omega
  | read k =>
      refine exists_later_onTrial ht fun _ => ⟨t.id_read _, ?_⟩
      rw [Trial.rank_read]
      split <;> omega
  | tell k files time =>
      simp only [act, tell]
      split
      · exact ⟨t, ht, hrefl⟩
      · rename_i files' c hk
        obtain ⟨u, hu, hc⟩ := Option.bind_eq_some_iff.1 hk
        rw [trials_push]
        refine exists_later_onTrial ht fun hki => ⟨rfl, ?_⟩
        subst hki
        rw [ht] at hu
        obtain rfl := Option.some.inj hu
        rw [(Trial.complete?_eq_some hc).1, Trial.rank_told]
        split <;> omega
  | release k =>
      simp only [act, release]
      split
      · exact ⟨t, ht, hrefl⟩
      · rw [trials_push]
        refine exists_later_onTrial ht fun _ => ⟨t.id_release, ?_⟩
        rw [Trial.rank_release]
        split <;> omega
  | hear i =>
      simp only [act, hear]
      split
      · exact ⟨t, ht, hrefl⟩
      · split
        · exact ⟨t, ht, hrefl⟩
        · split <;> exact ⟨t, ht, hrefl⟩
  | _ => exact ⟨t, ht, hrefl⟩

theorem exists_later_after {i : Nat} (ht : x.trials[i]? = some t) (acts : List Act) :
    ∃ t', (x.after acts).trials[i]? = some t' ∧ t.Later t' := by
  induction acts generalizing x t with
  | nil => exact ⟨t, ht, Trial.Later.refl t⟩
  | cons a acts ih =>
      obtain ⟨t', ht', hlater⟩ := exists_later_act ht a
      obtain ⟨t'', ht'', hlater'⟩ := ih ht'
      exact ⟨t'', ht'', hlater.trans hlater'⟩

theorem told_act (x : Series) (a : Act) : x.told <+: (x.act a).told := by
  cases a with
  | tell k files time =>
      simp only [act, tell, push]
      split
      · exact List.prefix_rfl
      · split
        · split
          · exact List.prefix_append _ _
          · exact List.prefix_rfl
        · split
          · exact List.prefix_append _ _
          · exact List.prefix_rfl
  | run now target =>
      simp only [act, run]
      split <;> exact List.prefix_rfl
  | reload files path =>
      simp only [act, reload]
      split <;> exact List.prefix_rfl
  | release k =>
      simp only [act, release, push]
      split
      · exact List.prefix_rfl
      · split <;> exact List.prefix_rfl
  | hear i =>
      simp only [act, hear]
      split
      · exact List.prefix_rfl
      · split
        · exact List.prefix_rfl
        · split <;> exact List.prefix_rfl
  | _ => exact List.prefix_rfl

theorem told_after (x : Series) (acts : List Act) : x.told <+: (x.after acts).told := by
  induction acts generalizing x with
  | nil => exact List.prefix_rfl
  | cons a acts ih => exact (x.told_act a).trans (ih (x.act a))

end Series

end ClusterConsole.Benchmark
