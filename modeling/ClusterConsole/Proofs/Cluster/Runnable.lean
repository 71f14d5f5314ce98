import ClusterConsole.Cluster.Rows
import ClusterConsole.Forwarding.Registry
import ClusterConsole.Proofs.Console.Census

/-!
# Which containers may be forwarded

Before a forward is started, the table of containers is asked whether the container runs.
The answer has come a long way: from the status under the container's name, in one of two
lists, through the word for its state, into a row, past the comparison with the table before,
and back out of the column STATE. At the end it is what the status says
(`Pod.only_running_may_be_forwarded`), whatever the table before showed.
-/

namespace ClusterConsole.Cluster

open ClusterConsole.Forwarding ClusterConsole.Resource ClusterConsole.Snapshot

/-! ## The word for a state -/

theorem getD_nonEmpty_eq_iff {reason : Option String} {fallback word : String}
    (hword : word ≠ "") (hfallback : fallback ≠ word) :
    (nonEmpty reason).getD fallback = word ↔ reason = some word := by
  cases reason with
  | none => simp [nonEmpty, hfallback]
  | some text =>
      by_cases htext : text = ""
      · simp [nonEmpty, Option.filter_some, htext, hfallback, Ne.symm hword]
      · simp [nonEmpty, Option.filter_some, htext]

namespace ContainerState

variable {s : ContainerState}

/-- The reasons given do not pass for the word of a state that runs. -/
def Candid (s : ContainerState) : Prop :=
  s.waiting.join ≠ some "Running" ∧ s.terminated.bind Prod.fst ≠ some "Running"

instance (s : ContainerState) : Decidable s.Candid :=
  inferInstanceAs (Decidable (_ ∧ _))

theorem exit_ne_running (code : Int) : "Exit(" ++ toString code ++ ")" ≠ "Running" := by
  intro h
  have hhead := congrArg (fun text : String => text.toList.head?) h
  simp [String.toList_append] at hhead

theorem label_fst_eq_running_iff (h : s.Candid) (now : Int) (podAge : String) :
    (s.label now podAge).1 = "Running" ↔ s.running.isSome = true := by
  obtain ⟨running, waiting, terminated⟩ := s
  obtain ⟨hwaiting, hterminated⟩ := h
  cases running with
  | some started => simp [label]
  | none =>
      refine iff_of_false ?_ (by simp)
      cases waiting with
      | some reason =>
          intro hword
          exact hwaiting ((getD_nonEmpty_eq_iff (by decide) (by decide)).1 hword)
      | none =>
          cases terminated with
          | some t =>
              intro hword
              exact hterminated ((getD_nonEmpty_eq_iff (by decide) (exit_ne_running t.2.1)).1 hword)
          | none => simp [label]

end ContainerState

namespace ContainerStatus

/-- The status says that the container runs. -/
def Running (s : ContainerStatus) : Prop :=
  ∃ state, s.state = some state ∧ state.running.isSome = true

end ContainerStatus

/-! ## The row of a container -/

namespace Container

/-- The field in the column STATE says of exactly the containers that run that they do. -/
theorem state_row_eq_running_iff {status : Option ContainerStatus}
    (h : ∀ s ∈ status, ∀ state ∈ s.state, state.Candid) (c : Container) (now : Int)
    (path podAge : String) (init : Bool) :
    (c.row now path podAge init status).fields.getD 3 "" = "Running" ↔
      ∃ s, status = some s ∧ s.Running := by
  cases status with
  | none => simp [row]
  | some s =>
      obtain ⟨name, ready, restarts, state⟩ := s
      cases state with
      | none => simp [row, ContainerStatus.Running]
      | some state =>
          have hlabel := ContainerState.label_fst_eq_running_iff (h _ rfl state rfl) now podAge
          simpa [row, ContainerStatus.Running] using hlabel

end Container

namespace Pod

variable {p : Pod} {path : String} {now : Int}

theorem statusOf_eq_some_iff {statuses : List ContainerStatus}
    (h : (statuses.map ContainerStatus.name).Nodup) {name : String} {s : ContainerStatus} :
    statusOf statuses name = some s ↔ s ∈ statuses ∧ s.name = name := by
  rw [statusOf]
  constructor
  · intro hs
    exact ⟨List.mem_reverse.1 (List.mem_of_find?_eq_some hs), by simpa using List.find?_some hs⟩
  · rintro ⟨hs, rfl⟩
    refine Table.find?_eq_some_of_mem ?_ (List.mem_reverse.2 hs)
    rwa [List.map_reverse, List.nodup_reverse]

def regular (p : Pod) : List Container := (p.spec.map (·.containers)).getD []

def initial (p : Pod) : List Container := (p.spec.map (·.initContainers)).getD []

/-- The keys of the pod's containers. -/
def keys (p : Pod) (path : String) : List String :=
  (p.regular ++ p.initial).map fun c => containerKey path c.name

/-- Names are apart, and no reason passes for the word of a state that runs. -/
structure Ordinary (p : Pod) : Prop where
  names : ((p.regular ++ p.initial).map Container.name).Nodup
  statuses : (p.statuses.map ContainerStatus.name).Nodup
  initStatuses : (p.initStatuses.map ContainerStatus.name).Nodup
  candid : ∀ s ∈ p.statuses ++ p.initStatuses, ∀ state ∈ s.state, state.Candid

/-- The row of one of the pod's containers. -/
def rowOf (p : Pod) (now : Int) (path : String) (init : Bool) (c : Container) : Row :=
  c.row now path (ageAt now p.metadata.created) init
    (statusOf (if init then p.initStatuses else p.statuses) c.name)

theorem containerRows_eq (p : Pod) (now : Int) (path : String) :
    p.containerRows now path true =
      p.regular.map (p.rowOf now path false) ++ p.initial.map (p.rowOf now path true) := by
  rw [containerRows, regular, initial]
  cases p.spec <;> rfl

theorem fqns_containerRows (p : Pod) (now : Int) (path : String) :
    (p.containerRows now path true).map Row.fqn = p.keys path := by
  rw [containerRows_eq, keys, List.map_append, List.map_map, List.map_map, List.map_append]
  rfl

theorem width_containerRows {row : Row} (h : row ∈ p.containerRows now path true) :
    row.fields.length = Kind.containers.width := by
  rw [containerRows_eq] at h
  rcases List.mem_append.1 h with h | h <;> obtain ⟨c, -, rfl⟩ := List.mem_map.1 h <;> rfl

theorem Ordinary.nodup_keys (h : p.Ordinary) (path : String) : (p.keys path).Nodup := by
  refine List.pairwise_map.2 ((List.pairwise_map.1 h.names).imp fun hne heq => hne ?_)
  exact containerKey_inj heq

/-- The status under a container's name is that of its own list. -/
theorem Ordinary.state_rowOf_eq_running_iff (h : p.Ordinary) (init : Bool) (c : Container) :
    (p.rowOf now path init c).fields.getD 3 "" = "Running" ↔
      ∃ s ∈ if init then p.initStatuses else p.statuses, s.name = c.name ∧ s.Running := by
  have hnodup : ((if init then p.initStatuses else p.statuses).map ContainerStatus.name).Nodup := by
    split
    · exact h.initStatuses
    · exact h.statuses
  have hcandid : ∀ s ∈ if init then p.initStatuses else p.statuses,
      ∀ state ∈ s.state, state.Candid := fun s hs => by
    refine h.candid s (List.mem_append.2 ?_)
    split at hs
    · exact .inr hs
    · exact .inl hs
  rw [rowOf, Container.state_row_eq_running_iff]
  · simp only [statusOf_eq_some_iff hnodup, and_assoc]
  · intro s hs
    exact hcandid s ((statusOf_eq_some_iff hnodup).1 hs).1

end Pod

end ClusterConsole.Cluster

namespace ClusterConsole.Forwarding.Registry

open ClusterConsole.Snapshot ClusterConsole.Status

variable {t : Table} {fqn : String}

/-! ## The question before a forward -/

theorem ensureRunnable_of_some {e : Entry} (hkind : t.kind = .containers)
    (h : t.present? fqn = some e) : ensureRunnable t fqn = .ok () ↔ e.field 3 = "Running" := by
  have hcolumn : t.kind.column? "STATE" = some 3 := by rw [hkind]; decide
  simp only [ensureRunnable, h, hcolumn, Option.map_some, Option.getD_some]
  by_cases hstate : e.field 3 = "Running" <;> simp [hstate]

theorem ensureRunnable_of_none (h : t.present? fqn = none) :
    ensureRunnable t fqn = .error (.notRunnable fqn "container not found") := by
  simp only [ensureRunnable, h]

end ClusterConsole.Forwarding.Registry

namespace ClusterConsole.Cluster.Pod

open ClusterConsole.Forwarding.Registry ClusterConsole.Resource ClusterConsole.Snapshot

variable {p : Pod}

/-- The table of a pod's containers that follows another one. -/
def containersTable (p : Pod) (now : Int) (path : String) (previous : Option Table) : Table :=
  Table.advance .containers .all previous (p.containerRows now path true)

/-- The containers that run may be forwarded, and nothing else may. -/
structure RunningOnly (p : Pod) (path : String) (previous : Option Table) (t : Table) :
    Prop where
  regular : ∀ c ∈ p.regular, ensureRunnable t (containerKey path c.name) = .ok () ↔
    ∃ s ∈ p.statuses, s.name = c.name ∧ s.Running
  initial : ∀ c ∈ p.initial, ensureRunnable t (containerKey path c.name) = .ok () ↔
    ∃ s ∈ p.initStatuses, s.name = c.name ∧ s.Running
  other : ∀ fqn ∉ p.keys path,
    ensureRunnable t fqn = .error (.notRunnable fqn "container not found")
  /-- This goes for what was shown before too: it stands in the table still, but as gone. -/
  gone : ∀ s ∈ previous, s.Sound .containers → ∀ e ∈ s.entries, e.present = true →
    e.fqn ∉ p.keys path → e.gone ∈ t.entries

theorem only_running_may_be_forwarded (h : p.Ordinary) (now : Int) (path : String)
    (previous : Option Table) :
    p.RunningOnly path previous (p.containersTable now path previous) := by
  have hnodup : ((p.containerRows now path true).map Row.fqn).Nodup := by
    rw [fqns_containerRows]
    exact h.nodup_keys path
  have hkind : (p.containersTable now path previous).kind = .containers :=
    (Table.Sound.advance _ _ _ _).kind_eq
  -- a container's own row is what the table shows under its key
  have hrun : ∀ (init : Bool) (c : Container),
      p.rowOf now path init c ∈ p.containerRows now path true →
      (ensureRunnable (p.containersTable now path previous) (containerKey path c.name) = .ok () ↔
        ∃ s ∈ if init then p.initStatuses else p.statuses, s.name = c.name ∧ s.Running) := by
    intro init c hrow
    have hpresent : (p.containersTable now path previous).present? (containerKey path c.name) =
        some (Table.classify previous (p.rowOf now path init c)) := by
      rw [containersTable, Table.present?_advance]
      exact congrArg (Option.map _)
        (Table.firstRow_eq_some_of_mem hnodup hrow rfl (width_containerRows hrow))
    rw [ensureRunnable_of_some hkind hpresent, Entry.field, Table.fields_classify]
    exact h.state_rowOf_eq_running_iff init c
  have hnone : ∀ fqn ∉ p.keys path,
      Table.firstRow .containers .all (p.containerRows now path true) fqn = none := by
    intro fqn hfqn
    refine Option.eq_none_iff_forall_ne_some.2 fun row hrow => hfqn ?_
    rw [← fqns_containerRows p now, ← Table.fqn_of_firstRow hrow]
    exact List.mem_map_of_mem (List.mem_of_find?_eq_some hrow)
  rw [containerRows_eq] at hrun
  constructor
  case regular =>
    exact fun c hc => hrun false c (List.mem_append_left _ (List.mem_map_of_mem hc))
  case initial =>
    exact fun c hc => hrun true c (List.mem_append_right _ (List.mem_map_of_mem hc))
  case other =>
    intro fqn hfqn
    refine ensureRunnable_of_none ?_
    rw [containersTable, Table.present?_advance, hnone fqn hfqn, Option.map_none]
  case gone =>
    intro s hs hsound e he hpresent hfqn
    obtain rfl : previous = some s := hs
    refine Table.gone_mem_advance hsound ?_ (hnone e.fqn hfqn)
    exact Table.present?_eq_some_iff.2 ⟨hsound.get?_of_mem he, hpresent⟩

/-- A pod with a container that runs, one that cannot start, and an init container that is
done. -/
def threeContainers : Pod :=
  ⟨⟨some "web", none, some "shop", none, false, []⟩,
    some ⟨[⟨"app", none, []⟩, ⟨"sidecar", none, []⟩], [⟨"setup", none, []⟩], none⟩, some "Running",
    none,
    [⟨"app", true, 0, some ⟨some none, none, none⟩⟩,
      ⟨"sidecar", false, 3, some ⟨none, some (some "CrashLoopBackOff"), none⟩⟩],
    [⟨"setup", true, 0, some ⟨none, none, some (some "Completed", 0, none)⟩⟩]⟩

/-- The table before: a container that the pod has no more. -/
def formerContainer : Table :=
  Table.advance .containers .all none
    [⟨"shop/web|old", ["old", "-", "true", "Running", "false", "0", "-", "1d"]⟩]

theorem only_running_may_be_forwarded_web :
    threeContainers.Ordinary ∧
      threeContainers.RunningOnly "shop/web" (some formerContainer)
        (threeContainers.containersTable 0 "shop/web" (some formerContainer)) := by
  have hordinary : threeContainers.Ordinary :=
    ⟨by decide, by decide, by decide, by decide⟩
  exact ⟨hordinary, only_running_may_be_forwarded hordinary 0 "shop/web" (some formerContainer)⟩

end ClusterConsole.Cluster.Pod
