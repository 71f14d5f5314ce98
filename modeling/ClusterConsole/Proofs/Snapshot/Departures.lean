import ClusterConsole.Console.State
import ClusterConsole.Proofs.Cluster.KeyOrder
import ClusterConsole.Proofs.Forwarding.Lookup
import ClusterConsole.Proofs.Snapshot.Comparison
import ClusterConsole.Proofs.Snapshot.Succession

/-!
# Rows that depart

A table ends with the rows that are gone since the table before (`Table.departed`). They keep
the order in which the fetch before gave them, whatever has come and gone earlier
(`departed_sublist_former`). So they stand in the order of their keys wherever the fetches do,
as those of the cluster's lists and of the forwards (`Obtained.ascending`); the containers of a
pod are fetched as they are declared and the reports as the directory lists them.
-/

namespace ClusterConsole.Snapshot

open ClusterConsole.Resource

/-! ## The order of what is fetched -/

/-- Rows in the order of their keys. -/
def Ascending (rows : List Row) : Prop := rows.Pairwise fun row row' => row.fqn ≤ row'.fqn

/-- What a fetch of a kind may give. -/
inductive Obtained : Kind → List Row → Prop
  | cluster {server : Cluster.Server} {now : Int} {target : Watching.Target} {scope : Scope}
      {rows : List Row} (h : (Cluster.Gateway.fetchRows server now target scope).2 = .ok rows) :
      Obtained target.kind rows
  | forwards {r : Forwarding.Registry} (h : r.Ordered) (file : Benchmark.SettingsFile)
      (time : Int) : Obtained .forwards (r.sessions.map (Console.forwardRow file time))
  | reports (files : Storage.Files) (directory : String) (target : Option String) :
      Obtained .benchmarks (Benchmark.reportRows files directory target)

/-- The lists of the cluster are sorted, and so is the registry. -/
theorem Obtained.ascending {kind : Kind} {rows : List Row} (h : Obtained kind rows)
    (hcontainers : kind ≠ .containers) (hreports : kind ≠ .benchmarks) : Ascending rows := by
  cases h with
  | @cluster server now target scope rows h =>
      obtain ⟨kind, parent⟩ := target
      have hlisted (resource : String) (hkind : Cluster.resource? kind = some resource) :
          Ascending rows := by
        rw [Cluster.Gateway.fetchRows_eq hkind] at h
        obtain ⟨-, -, -, -, -, -, rfl⟩ := Cluster.Gateway.listRows_eq_ok_iff.1 h
        exact Cluster.Gateway.pairwise_sortRows _
      cases kind with
      | containers => exact absurd rfl hcontainers
      | forwards | benchmarks => cases h
      | _ => exact hlisted _ rfl
  | @forwards r h file time =>
      exact List.pairwise_map.2 (h.imp le_of_lt)
  | reports => exact absurd rfl hreports

namespace Table

variable {kind : Kind} {scope : Scope} {previous : Option Table} {rows : List Row} {t u : Table}
  {hs : List Harvest} {g : Harvest} {n : Nat}

/-- The rows of the table that are gone. -/
def departed (t : Table) : List Entry := t.entries.filter fun e => !e.present

/-! ## From one table to the next -/

theorem Sound.of_mem_some (h : t.Sound kind) : ∀ u ∈ some t, u.Sound kind :=
  fun _ hu => Option.some.inj hu ▸ h

theorem departed_advance (h : ∀ t ∈ previous, t.Sound kind) (scope : Scope) (rows : List Row) :
    (advance kind scope previous rows).departed =
      (lost kind scope previous rows).map Entry.gone := by
  have hpresent : ((advance kind scope previous rows).entries.filter Entry.present).filter
      (fun e => !e.present) = [] := by
    simp
  have hgone : ((lost kind scope previous rows).map Entry.gone).filter (fun e => !e.present) =
      (lost kind scope previous rows).map Entry.gone := by
    refine List.filter_eq_self.2 fun e he => ?_
    obtain ⟨prior, -, rfl⟩ := List.mem_map.1 he
    rfl
  rw [departed, (compared_advance h scope rows).layout, List.filter_append, hpresent, hgone,
    List.nil_append]

theorem presentRows_advance_sublist (h : ∀ t ∈ previous, t.Sound kind) (scope : Scope)
    (rows : List Row) : (advance kind scope previous rows).presentRows.Sublist rows := by
  rw [(compared_advance h scope rows).present, acceptedRows]
  exact (firstsBy_sublist _ _).trans List.filter_sublist

/-- What departs keeps the order in which it was present. -/
theorem departed_sublist (h : u.Sound kind) (scope : Scope) (rows : List Row) :
    ((advance kind scope (some u) rows).departed.map Entry.fqn).Sublist
      (u.presentRows.map Row.fqn) := by
  have hkeys : u.presentRows.map Row.fqn = (u.entries.filter Entry.present).map Entry.fqn := by
    rw [presentRows, List.map_map]
    rfl
  have hgone : Entry.fqn ∘ Entry.gone = Entry.fqn := rfl
  rw [departed_advance h.of_mem_some, List.map_map, hgone, hkeys]
  exact List.filter_sublist.map _

/-- Each key is told once, so what departs in ascending order ascends strictly. -/
theorem pairwise_lt_departed (h : t.Sound kind)
    (hle : (t.departed.map Entry.fqn).Pairwise (· ≤ ·)) :
    (t.departed.map Entry.fqn).Pairwise (· < ·) := by
  have hnodup : (t.departed.map Entry.fqn).Nodup := h.nodup.sublist (List.filter_sublist.map _)
  exact hle.imp₂ (fun _ _ => lt_of_le_of_ne) hnodup

/-! ## Through all tables -/

theorem eq_advance_of_getElem? (h : t.Sound kind) (hu : (successive kind t hs)[n]? = some u)
    (hg : hs[n]? = some g) :
    ∃ previous : Table, previous.Sound kind ∧ u = advance kind g.1 (some previous) g.2 := by
  induction hs generalizing t n with
  | nil => cases hg
  | cons g' hs ih =>
      rw [successive] at hu
      cases n with
      | zero =>
          obtain rfl := Option.some.inj hg
          exact ⟨t, h, (Option.some.inj hu).symm⟩
      | succ n => exact ih (Sound.advance kind g'.1 (some t) g'.2) hu hg

theorem exists_advance_of_mem (h : t ∈ successive kind (empty kind scope) hs) :
    ∃ previous : Table, previous.Sound kind ∧ ∃ g : Harvest,
      t = advance kind g.1 (some previous) g.2 := by
  obtain ⟨n, hn⟩ := List.mem_iff_getElem?.1 h
  have hlt := (List.getElem?_eq_some_iff.1 hn).1
  rw [length_successive] at hlt
  obtain ⟨previous, hprevious, heq⟩ :=
    eq_advance_of_getElem? (Sound.empty kind scope) hn (List.getElem?_eq_getElem hlt)
  exact ⟨previous, hprevious, _, heq⟩

/-- What departs keeps the order in which the fetch before gave it. -/
theorem departed_sublist_former
    (ht : (successive kind (empty kind scope) hs)[n + 1]? = some t) (hg : hs[n]? = some g) :
    (t.departed.map Entry.fqn).Sublist (g.2.map Row.fqn) := by
  have hempty := Sound.empty kind scope
  have hlt : n < (successive kind (empty kind scope) hs).length :=
    Nat.lt_of_succ_lt (List.getElem?_eq_some_iff.1 ht).1
  have hu := List.getElem?_eq_getElem hlt
  obtain ⟨hsound, scope', rows, rfl⟩ := getElem?_succ_successive hempty hu ht
  obtain ⟨previous, hprevious, hadvance⟩ := eq_advance_of_getElem? hempty hu hg
  have hrows := presentRows_advance_sublist hprevious.of_mem_some g.1 g.2
  rw [← hadvance] at hrows
  exact (departed_sublist hsound scope' rows).trans (hrows.map _)

theorem ascending_departed (ht : (successive kind (empty kind scope) hs)[n + 1]? = some t)
    (hg : hs[n]? = some g) (hle : Ascending g.2) :
    (t.departed.map Entry.fqn).Pairwise (· < ·) :=
  pairwise_lt_departed (sound_of_mem_successive (List.mem_of_getElem? ht))
    ((List.pairwise_map.2 hle).sublist (departed_sublist_former ht hg))

theorem departed_first (ht : (successive kind (empty kind scope) hs)[0]? = some t) :
    t.departed = [] := by
  cases hs with
  | nil => cases ht
  | cons g hs =>
      obtain rfl := Option.some.inj ht
      exact departed_advance (Sound.empty kind scope).of_mem_some g.1 g.2

/-- The rows that are gone stand behind all others, and in which order. -/
structure Departures (kind : Kind) (harvests : List Harvest) (tables : List Table) : Prop where
  last : ∀ t ∈ tables, t.entries = t.entries.filter Entry.present ++ t.departed
  first : ∀ t, tables[0]? = some t → t.departed = []
  /-- Their order is that of the fetch before, -/
  former : ∀ (n : Nat) t g, tables[n + 1]? = some t → harvests[n]? = some g →
    (t.departed.map Entry.fqn).Sublist (g.2.map Row.fqn)
  /-- so they stand in the order of their keys if that did, -/
  ascending : ∀ (n : Nat) t g, tables[n + 1]? = some t → harvests[n]? = some g →
    Ascending g.2 → (t.departed.map Entry.fqn).Pairwise (· < ·)
  /-- as what is fetched for most kinds does. -/
  sorted : kind ≠ .containers → kind ≠ .benchmarks → (∀ g ∈ harvests, Obtained kind g.2) →
    ∀ t ∈ tables, (t.departed.map Entry.fqn).Pairwise (· < ·)

theorem departures_successive (kind : Kind) (scope : Scope) (hs : List Harvest) :
    Departures kind hs (successive kind (empty kind scope) hs) := by
  constructor
  case last =>
    intro t ht
    obtain ⟨previous, hprevious, g, rfl⟩ := exists_advance_of_mem ht
    rw [departed_advance hprevious.of_mem_some]
    exact (compared_advance hprevious.of_mem_some _ _).layout
  case first => exact fun t ht => departed_first ht
  case former => exact fun n t g ht hg => departed_sublist_former ht hg
  case ascending => exact fun n t g ht hg => ascending_departed ht hg
  case sorted =>
    intro hcontainers hreports hobtained t ht
    obtain ⟨n, hn⟩ := List.mem_iff_getElem?.1 ht
    cases n with
    | zero =>
        rw [departed_first hn]
        exact List.Pairwise.nil
    | succ n =>
        have hlt := (List.getElem?_eq_some_iff.1 hn).1
        rw [length_successive] at hlt
        have hg := List.getElem?_eq_getElem (Nat.lt_of_succ_lt hlt)
        exact ascending_departed hn hg
          ((hobtained _ (List.mem_of_getElem? hg)).ascending hcontainers hreports)

end Table

/-! ## Containers in declared order -/

/-- A pod that declares containers of those names. -/
def podOf (names : List String) : Cluster.Document :=
  .map [("metadata", .map [("name", .text "web-0"), ("namespace", .text "ns")]),
    ("spec", .map [("containers", .list (names.map fun n => .map [("name", .text n)]))])]

/-- The row of such a container. -/
def bareContainer (name : String) : Row :=
  ⟨"ns/web-0|" ++ name, [name, "-", "false", "Pending", "false", "0", "-", "-"]⟩

/-- When a pod is put in the place of another, the containers that are gone stand as the other
has declared them. -/
theorem containers_depart_as_declared :
    Obtained .containers (["b", "a"].map bareContainer) ∧
      Obtained .containers (["c"].map bareContainer) ∧
      ∃ t u, Table.successive .containers (Table.empty .containers .all)
          [(.all, ["b", "a"].map bareContainer), (.all, ["c"].map bareContainer)] = [t, u] ∧
        u.departed.map Entry.fqn = ["ns/web-0|b", "ns/web-0|a"] ∧
        ¬(u.departed.map Entry.fqn).Pairwise (· < ·) := by
  have hboth : (Cluster.Gateway.fetchRows
      (Cluster.Inventory.server ⟨[("pods", [podOf ["b", "a"]])], []⟩) 0
      ⟨.containers, some "ns/web-0"⟩ .all).2 = .ok (["b", "a"].map bareContainer) := by
    decide +kernel
  have hother : (Cluster.Gateway.fetchRows
      (Cluster.Inventory.server ⟨[("pods", [podOf ["c"]])], []⟩) 0
      ⟨.containers, some "ns/web-0"⟩ .all).2 = .ok (["c"].map bareContainer) := by
    decide +kernel
  exact ⟨.cluster hboth, .cluster hother, _, _, rfl, by decide +kernel, by decide +kernel⟩

end ClusterConsole.Snapshot
