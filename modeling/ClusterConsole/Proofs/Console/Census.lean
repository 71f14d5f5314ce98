import ClusterConsole.Cluster.Rows
import ClusterConsole.Console.State
import ClusterConsole.Proofs.Benchmark.ReportNames
import ClusterConsole.Proofs.Snapshot.Diff

/-!
# The census of a view

A `Batch` is what one fetch gives for a view: a list of objects of one kind, the
containers of one pod, the sessions of the registry, or the files of a directory. Its
`rows` are made by the functions that make the rows of the kind; its `subjects` are the
objects themselves, each with its own row. What a table shows is a census of them: every
subject in scope is counted once, in the order of the fetch, and nothing else is.

The columns, the key and the place of a row come from different hands. They agree as long
as no name has a slash in it, which parts a namespace from a name in a key.
-/

namespace ClusterConsole.Resource

open ClusterConsole.Text

variable {ns name : String}

theorem toList_qualified (hns : ns ≠ "") :
    (qualified ns name).toList = ns.toList ++ '/' :: name.toList := by
  rw [qualified, if_neg hns]
  simp

/-- A key is cut where it was joined. -/
theorem unqualified_qualified (hns : '/' ∉ ns.toList) (hname : '/' ∉ name.toList) :
    unqualified (qualified ns name) = (ns, name) := by
  by_cases hempty : ns = ""
  · have hcut : cut '/' name = none := by
      rw [cut]
      cases h : cutList '/' name.toList with
      | none => rfl
      | some p =>
          rw [(cutList_eq_some h).1] at hname
          simp at hname
    rw [qualified, if_pos hempty, unqualified, hcut, hempty]
    rfl
  · have hcut : cut '/' (qualified ns name) = some (ns, name) := by
      rw [cut, toList_qualified hempty, cutList_append hns]
      simp
    rw [unqualified, hcut]
    rfl

/-- The key of a container is the key of what goes by its pod's name and its own. -/
theorem containerKey_qualified (ns pod container : String) :
    containerKey (qualified ns pod) container = qualified ns (containerKey pod container) := by
  rw [containerKey, qualified, qualified, containerKey]
  split
  · rfl
  · simp [String.append_assoc]

theorem containerKey_inj {path c c' : String} (h : containerKey path c = containerKey path c') :
    c = c' := by
  have hlist := congrArg String.toList h
  simp only [containerKey, String.toList_append, List.append_cancel_left_eq] at hlist
  exact String.toList_inj.1 hlist

end ClusterConsole.Resource

namespace ClusterConsole.Console

open ClusterConsole.Benchmark (Reading SettingsFile ageText reportHead reportRow? reportRows)
open ClusterConsole.Cluster ClusterConsole.Resource ClusterConsole.Snapshot ClusterConsole.Storage

/-! ## What rows stand for -/

/-- What a row of a view stands for. -/
inductive Subject where
  | pod (p : Pod)
  /-- A container of the pod that goes by those names. -/
  | container (ns name : String) (p : Pod) (init : Bool) (c : Container)
  | service (s : Service)
  | deployment (d : Deployment)
  | node (n : Cluster.Node)
  | namespace_ (n : Namespace)
  /-- A session, with the settings that are in force. -/
  | forward (file : SettingsFile) (s : Forwarding.Session)
  /-- The text of a report file of that age. -/
  | report (stem text : String) (age : Option Nat)

namespace Subject

variable {o o' : Subject} {scope : Scope} {now : Int}

def kind : Subject → Kind
  | pod _ => .pods
  | container .. => .containers
  | service _ => .services
  | deployment _ => .deployments
  | node _ => .nodes
  | namespace_ _ => .namespaces
  | forward .. => .forwards
  | report .. => .benchmarks

/-- The namespace that the subject lies in, a container in that of its pod. What lies in
none has the empty text. -/
def place : Subject → String
  | pod p => p.metadata.ns.getD ""
  | container ns .. => ns
  | service s => s.metadata.ns.getD ""
  | deployment d => d.metadata.ns.getD ""
  | node _ | namespace_ _ | forward .. | report .. => ""

def name : Subject → String
  | pod p => p.metadata.anyName
  | container _ _ _ _ c => c.name
  | service s => s.metadata.anyName
  | deployment d => d.metadata.anyName
  | node n => n.metadata.anyName
  | namespace_ n => n.metadata.anyName
  | forward _ s => s.pod
  | report stem .. => stem

/-- What tells the subject apart from the others in its place. -/
def key : Subject → String
  | container _ name _ _ c => containerKey name c.name
  | forward _ s => s.fqn
  | o => o.name

def row (now : Int) : Subject → Row
  | pod p => p.row now
  | container ns name p init c =>
      c.row now (qualified ns name) (ageAt now p.metadata.created) init
        (Pod.statusOf (if init then p.initStatuses else p.statuses) c.name)
  | service s => s.row now
  | deployment d => d.row now
  | node n => n.row now
  | namespace_ n => n.row now
  | forward file s => forwardRow file now s
  | report stem text age =>
      let r := Reading.ofText text
      ⟨stem, [stem, r.status, r.rate, toString r.errors, ageText age]⟩

/-- There is no slash in the names that the key of a row is made of. Kinds that lie in no
namespace may have any names. -/
def Plain (o : Subject) : Prop :=
  o.kind.namespaced = true → '/' ∉ o.place.toList ∧ '/' ∉ o.key.toList

instance (o : Subject) : Decidable o.Plain := inferInstanceAs (Decidable (_ → _))

/-- The subject belongs to the scope: kinds without namespaces belong to every scope. -/
def InScope (scope : Scope) (o : Subject) : Prop :=
  o.kind.namespaced = true → scope.contains o.place = true

instance (scope : Scope) (o : Subject) : Decidable (o.InScope scope) :=
  inferInstanceAs (Decidable (_ → _))

theorem length_fields (o : Subject) (now : Int) : (o.row now).fields.length = o.kind.width := by
  cases o <;> rfl

theorem nameField (o : Subject) (now : Int) :
    (o.row now).fields[o.kind.nameColumn]? = some o.name := by
  cases o <;> rfl

theorem fqn_row (o : Subject) (now : Int) : (o.row now).fqn = qualified o.place o.key := by
  cases o with
  | container ns name p init c => exact containerKey_qualified ns name c.name
  | _ => rfl

theorem place_of_not_namespaced (h : ¬ o.kind.namespaced = true) : o.place = "" := by
  cases o with
  | node | namespace_ | forward | report => rfl
  | _ => exact absurd rfl h

theorem inScope_row (h : o.Plain) (now : Int) :
    Table.inScope o.kind scope (o.row now).fqn = decide (o.InScope scope) := by
  rw [Bool.eq_iff_iff, decide_eq_true_iff, Table.inScope, InScope]
  by_cases hkind : o.kind.namespaced = true
  · obtain ⟨hplace, hkey⟩ := h hkind
    have hns : namespaceOf (o.row now).fqn = o.place := by
      rw [fqn_row, namespaceOf, unqualified_qualified hplace hkey]
    simp [hkind, hns]
  · simp [hkind]

/-- The key of a row determines what it stands for. -/
theorem address_eq_of_fqn (ho : o.Plain) (ho' : o'.Plain) (hkind : o.kind = o'.kind)
    (h : (o.row now).fqn = (o'.row now).fqn) : (o.place, o.key) = (o'.place, o'.key) := by
  rw [fqn_row, fqn_row] at h
  by_cases hns : o.kind.namespaced = true
  · have hcut := congrArg unqualified h
    obtain ⟨hplace, hkey⟩ := ho hns
    obtain ⟨hplace', hkey'⟩ := ho' (hkind ▸ hns)
    rwa [unqualified_qualified hplace hkey, unqualified_qualified hplace' hkey'] at hcut
  · rw [place_of_not_namespaced hns, place_of_not_namespaced (hkind ▸ hns)] at h ⊢
    exact congrArg (Prod.mk "") h

end Subject

/-! ## What a fetch gives -/

/-- What one fetch gives for a view. -/
inductive Batch where
  | pods (l : List Pod)
  /-- The containers of the pod that goes by those names. -/
  | containers (ns name : String) (p : Pod) (withInit : Bool)
  | services (l : List Service)
  | deployments (l : List Deployment)
  | nodes (l : List Cluster.Node)
  | namespaces (l : List Namespace)
  | forwards (file : SettingsFile) (sessions : List Forwarding.Session)
  /-- What stands in a directory, and of which age it is; perhaps only the reports of one
  target are asked for. -/
  | reports (target : Option String) (age : String → Option Nat)
      (entries : List (String × Storage.Node))

namespace Batch

variable {b : Batch} {o : Subject} {now : Int}

def kind : Batch → Kind
  | pods _ => .pods
  | containers .. => .containers
  | services _ => .services
  | deployments _ => .deployments
  | nodes _ => .nodes
  | namespaces _ => .namespaces
  | forwards .. => .forwards
  | reports .. => .benchmarks

/-- Whether the report of that name is asked for. -/
def selects (target : Option String) (stem : String) : Bool :=
  match target with
  | none => true
  | some name => (reportHead name).toList.isPrefixOf stem.toList

def rows (now : Int) : Batch → List Row
  | pods l => l.map (Pod.row now)
  | containers ns name p withInit => p.containerRows now (qualified ns name) withInit
  | services l => l.map (Service.row now)
  | deployments l => l.map (Deployment.row now)
  | nodes l => l.map (Node.row now)
  | namespaces l => l.map (Namespace.row now)
  | forwards file sessions => sessions.map (forwardRow file now)
  | reports target age entries =>
      (entries.filterMap fun e => reportRow? e.1 e.2 (age e.1)).filter fun row =>
        selects target row.fqn

theorem rows_reports {files : Files} {directory : String} {entries : List (String × Storage.Node)}
    (hlist : files.list directory = .ok entries) (target : Option String) (now : Int) :
    (reports target (fun name => files.age? (Path.join directory name)) entries).rows now =
      reportRows files directory target := by
  rw [reportRows, hlist]
  rfl

/-- The report that a file is, if it is one. -/
def report? (age : String → Option Nat) (e : String × Storage.Node) : Option Subject :=
  match e.2, Path.cutExtension e.1 with
  | .file (some text), (stem, some "txt") => some (.report stem text (age e.1))
  | _, _ => none

/-- The containers of a pod, the init containers behind the others. -/
def containersOf (ns name : String) (p : Pod) (withInit : Bool) : List Subject :=
  match p.spec with
  | none => []
  | some spec =>
      spec.containers.map (.container ns name p false) ++
        if withInit then spec.initContainers.map (.container ns name p true) else []

/-- The objects themselves, in the order in which they were given. -/
def subjects : Batch → List Subject
  | pods l => l.map .pod
  | containers ns name p withInit => containersOf ns name p withInit
  | services l => l.map .service
  | deployments l => l.map .deployment
  | nodes l => l.map .node
  | namespaces l => l.map .namespace_
  | forwards file sessions => sessions.map (.forward file)
  | reports target age entries =>
      (entries.filterMap (report? age)).filter fun o => selects target o.name

/-- No two of the objects go by the same names. -/
def Distinct : Batch → Prop
  | b@(containers ..) => (b.subjects.map Subject.name).Nodup
  | forwards _ sessions => (sessions.map Forwarding.Session.fqn).Nodup
  | reports _ _ entries => (entries.map Prod.fst).Nodup
  | b => (b.subjects.map fun o => (o.place, o.name)).Nodup

structure Legal (b : Batch) : Prop where
  plain : ∀ o ∈ b.subjects, o.Plain
  distinct : b.Distinct

theorem reportRow?_eq (age : String → Option Nat) (e : String × Storage.Node) (now : Int) :
    reportRow? e.1 e.2 (age e.1) = (report? age e).map (Subject.row now) := by
  obtain ⟨name, node⟩ := e
  match node with
  | .directory | .file none => rfl
  | .file (some text) =>
      cases hcut : Path.cutExtension name with
      | mk stem extension =>
          by_cases hword : extension = some "txt"
          · simp only [reportRow?, report?, hcut, hword, Option.map_some, Subject.row]
          · simp [reportRow?, report?, hcut, hword]

theorem containerRows_eq (ns name : String) (p : Pod) (withInit : Bool) (now : Int) :
    p.containerRows now (qualified ns name) withInit =
      (containersOf ns name p withInit).map (Subject.row now) := by
  rw [Pod.containerRows, containersOf]
  cases p.spec with
  | none => rfl
  | some spec => cases withInit <;> simp [Subject.row, Function.comp_def]

theorem report?_eq_some {age : String → Option Nat} {e : String × Storage.Node}
    (h : report? age e = some o) :
    ∃ stem text, o = .report stem text (age e.1) ∧ e.1 = stem ++ ".txt" := by
  unfold report? at h
  split at h
  · rename_i text stem hnode hcut
    refine ⟨stem, text, (Option.some.inj h).symm, ?_⟩
    rw [Benchmark.eq_of_cutExtension hcut, String.append_assoc]
    rfl
  · cases h

/-- Each object gives one row. -/
theorem rows_eq (b : Batch) (now : Int) : b.rows now = b.subjects.map (Subject.row now) := by
  cases b with
  | containers ns name p withInit => exact containerRows_eq ns name p withInit now
  | reports target age entries =>
      simp only [rows, subjects, reportRow?_eq age _ now, ← List.map_filterMap, List.filter_map]
      refine congrArg (List.map _) (List.filter_congr fun o ho => ?_)
      obtain ⟨e, -, he⟩ := List.mem_filterMap.1 ho
      obtain ⟨stem, text, rfl, -⟩ := report?_eq_some he
      rfl
  | _ => simp [rows, subjects, Subject.row, Function.comp_def]

theorem kind_of_mem (h : o ∈ b.subjects) : o.kind = b.kind := by
  cases b with
  | containers ns name p withInit =>
      simp only [subjects, containersOf] at h
      split at h
      · cases h
      · rcases List.mem_append.1 h with h | h
        · obtain ⟨c, -, rfl⟩ := List.mem_map.1 h
          rfl
        · split at h
          · obtain ⟨c, -, rfl⟩ := List.mem_map.1 h
            rfl
          · cases h
  | reports target age entries =>
      obtain ⟨e, -, he⟩ := List.mem_filterMap.1 (List.mem_of_mem_filter h)
      obtain ⟨stem, text, rfl, -⟩ := report?_eq_some he
      rfl
  | _ =>
      obtain ⟨x, -, rfl⟩ := List.mem_map.1 h
      rfl

/-! ## The census -/

theorem key_of_mem_containersOf {ns name : String} {p : Pod} {withInit : Bool}
    (h : o ∈ containersOf ns name p withInit) : o.key = containerKey name o.name := by
  unfold containersOf at h
  split at h
  · cases h
  · rcases List.mem_append.1 h with h | h
    · obtain ⟨c, -, rfl⟩ := List.mem_map.1 h
      rfl
    · split at h
      · obtain ⟨c, -, rfl⟩ := List.mem_map.1 h
        rfl
      · cases h

/-- Objects that go by different names have different addresses. -/
theorem Distinct.addresses (h : b.Distinct) :
    b.subjects.Pairwise fun o o' => (o.place, o.key) ≠ (o'.place, o'.key) := by
  cases b with
  | containers ns name p withInit =>
      refine (List.pairwise_map.1 h).imp_of_mem fun {o o'} ho ho' hne heq => hne ?_
      have hkey := (Prod.mk.inj heq).2
      rw [key_of_mem_containersOf ho, key_of_mem_containersOf ho'] at hkey
      exact containerKey_inj hkey
  | forwards file sessions =>
      exact List.pairwise_map.2 ((List.pairwise_map.1 h).imp fun hne heq => hne (Prod.mk.inj heq).2)
  | reports target age entries =>
      have hentries : (entries.filterMap (report? age)).Pairwise fun o o' =>
          (o.place, o.key) ≠ (o'.place, o'.key) := by
        refine List.pairwise_filterMap.2 ((List.pairwise_map.1 h).imp ?_)
        intro e e' hne o ho o' ho' heq
        obtain ⟨stem, text, rfl, hname⟩ := report?_eq_some ho
        obtain ⟨stem', text', rfl, hname'⟩ := report?_eq_some ho'
        obtain rfl : stem = stem' := (Prod.mk.inj heq).2
        exact hne (hname.trans hname'.symm)
      exact hentries.filter _
  | _ =>
      refine (List.pairwise_map.1 h).imp_of_mem fun {o o'} ho ho' hne => ?_
      obtain ⟨x, -, rfl⟩ := List.mem_map.1 ho
      obtain ⟨x', -, rfl⟩ := List.mem_map.1 ho'
      exact hne

theorem Legal.nodup (h : b.Legal) (now : Int) : ((b.rows now).map Row.fqn).Nodup := by
  rw [rows_eq, List.map_map]
  refine List.pairwise_map.2 (h.distinct.addresses.imp_of_mem fun {o o'} ho ho' hne hfqn => hne ?_)
  have hkind : o.kind = o'.kind := (kind_of_mem ho).trans (kind_of_mem ho').symm
  exact Subject.address_eq_of_fqn (h.plain o ho) (h.plain o' ho') hkind hfqn

theorem length_of_mem_rows {row : Row} (h : row ∈ b.rows now) :
    row.fields.length = b.kind.width := by
  rw [rows_eq] at h
  obtain ⟨o, ho, rfl⟩ := List.mem_map.1 h
  rw [Subject.length_fields, kind_of_mem ho]

theorem Legal.filter_rows (h : b.Legal) (scope : Scope) (now : Int) :
    (b.rows now).filter (fun row => Table.inScope b.kind scope row.fqn) =
      (b.subjects.filter fun o => o.InScope scope).map (Subject.row now) := by
  rw [rows_eq, List.filter_map]
  refine congrArg (List.map _) (List.filter_congr fun o ho => ?_)
  rw [Function.comp_apply, ← kind_of_mem ho, Subject.inScope_row (h.plain o ho)]

/-- Each object that was fetched is counted once, in every view of it. -/
structure Counted (b : Batch) (now : Int) : Prop where
  rows : b.rows now = b.subjects.map (Subject.row now)
  width : ∀ row ∈ b.rows now, row.fields.length = b.kind.header.length
  name : ∀ o ∈ b.subjects, (o.row now).fields[b.kind.nameColumn]? = some o.name
  /-- The key of a row determines its object. -/
  key : ∀ o ∈ b.subjects, ∀ o' ∈ b.subjects, (o.row now).fqn = (o'.row now).fqn → o = o'
  nodup : ((b.rows now).map Row.fqn).Nodup
  /-- Whatever the table before shows, no row is rejected that is in scope, -/
  accepted : ∀ previous scope,
    (Table.ofFetched b.kind scope previous (b.rows now)).entries =
      (b.subjects.filter fun o => o.InScope scope).map fun o =>
        Table.classify previous (o.row now)
  /-- and of the rows that do not stand for something gone there is one for each object. -/
  shown : ∀ previous scope,
    (Table.advance b.kind scope previous (b.rows now)).presentRows =
      (b.subjects.filter fun o => o.InScope scope).map (Subject.row now)

theorem counted (h : b.Legal) (now : Int) : b.Counted now where
  rows := b.rows_eq now
  width _ := length_of_mem_rows
  name o ho := kind_of_mem ho ▸ o.nameField now
  key o ho o' ho' hfqn := by
    have hnodup := h.nodup now
    rw [rows_eq, List.map_map] at hnodup
    exact List.inj_on_of_nodup_map hnodup ho ho' hfqn
  nodup := h.nodup now
  accepted previous scope := by
    rw [Table.entries_ofFetched scope previous (fun _ => length_of_mem_rows) (h.nodup now),
      h.filter_rows, List.map_map]
    rfl
  shown previous scope := by
    rw [Table.presentRows_advance_filter scope previous (fun _ => length_of_mem_rows)
      (h.nodup now), h.filter_rows]

/-- A pod that goes by those names, of which nothing else is known. -/
def bare (ns name : String) : Pod :=
  { (default : Pod) with
    metadata := { (default : Metadata) with name := some name, ns := some ns } }

theorem legal_twins : (pods [bare "dev" "web", bare "ops" "web"]).Legal :=
  ⟨by decide +kernel, by unfold Distinct; decide +kernel⟩

/-- Two pods of one name are told apart by their namespaces. -/
theorem counted_twins :
    (pods [bare "dev" "web", bare "ops" "web"]).Legal ∧
      (Table.advance .pods (.named "ops") none
        ((pods [bare "dev" "web", bare "ops" "web"]).rows 0)).presentRows.map Row.fqn =
          ["ops/web"] := by
  refine ⟨legal_twins, ?_⟩
  have hshown := (counted legal_twins 0).shown none (.named "ops")
  change (Table.advance .pods (.named "ops") none _).presentRows = _ at hshown
  rw [hshown]
  decide +kernel

end Batch

end ClusterConsole.Console
