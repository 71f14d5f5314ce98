import ClusterConsole.Proofs.Snapshot.Index

/-!
# A table compared with the one before

The rows of a table that was built from a fetch and the table before are known as a list
(`entries_advance`): the first fetched row of each key that fits, compared with what was
shown under its key, and behind them the rows that were shown and are fetched no more. All
that the table says of a row is read off this list (`Compared`), and what is looked up
through the index is what stands in it.
-/

namespace ClusterConsole.Snapshot

open ClusterConsole.Resource

namespace Entry

variable {e prior : Entry} {row : Row} {kind : Kind}

/-! ## Deltas -/

/-- Former texts of as many fields are told field by field. -/
theorem deltasFrom_eq_zipWith {olds fields : List String} (h : olds.length = fields.length) :
    deltasFrom olds fields =
      List.zipWith (fun old field => if old = field then none else some old) olds fields := by
  induction olds generalizing fields with
  | nil =>
      cases fields with
      | nil => rfl
      | cons field fields => cases h
  | cons old olds ih =>
      cases fields with
      | nil => cases h
      | cons field fields => rw [deltasFrom, ih (Nat.succ.inj h), List.zipWith_cons_cons]

theorem length_deltasFrom (olds fields : List String) :
    (deltasFrom olds fields).length = fields.length := by
  induction fields generalizing olds with
  | nil => cases olds <;> rfl
  | cons field fields ih => cases olds <;> simp [deltasFrom, ih]

/-- The fields with what the deltas tell put in their places. -/
def restored (e : Entry) : List String :=
  List.zipWith (fun delta field => delta.getD field) e.deltas e.fields

theorem restored_ofPrior (h : prior.fields.length = row.fields.length) :
    (ofPrior prior row).restored = prior.fields := by
  rw [restored, ofPrior]
  dsimp only
  rw [deltasFrom_eq_zipWith h]
  generalize prior.fields = olds at h
  generalize row.fields = fields at h
  induction olds generalizing fields with
  | nil =>
      cases fields with
      | nil => rfl
      | cons field fields => cases h
  | cons old olds ih =>
      cases fields with
      | nil => cases h
      | cons field fields =>
          rw [List.zipWith_cons_cons, List.zipWith_cons_cons, ih fields (Nat.succ.inj h)]
          by_cases heq : old = field <;> simp [heq]

/-- Of an updated row the fields that differ have deltas, their former texts, and no others. -/
theorem getElem?_deltas_ofPrior (h : prior.fields.length = row.fields.length) {i : Nat}
    (hi : i < row.fields.length) :
    (ofPrior prior row).deltas[i]? =
      some (if prior.field i = row.fields.getD i "" then none else some (prior.field i)) := by
  rw [ofPrior]
  dsimp only
  rw [deltasFrom_eq_zipWith h, List.getElem?_zipWith]
  simp [Entry.field, h, hi]

end Entry

namespace Table

variable {kind : Kind} {scope : Scope} {previous : Option Table} {rows : List Row} {e : Entry}
  {row : Row}

/-! ## The rows of the next table -/

/-- The fetched rows that are shown: of each key the first that is in scope and as wide as
the header. -/
def acceptedRows (kind : Kind) (scope : Scope) (rows : List Row) : List Row :=
  firstsBy Row.fqn (rows.filter fun row =>
    inScope kind scope row.fqn && row.fields.length == kind.width)

theorem mem_acceptedRows_iff :
    row ∈ acceptedRows kind scope rows ↔ firstRow kind scope rows row.fqn = some row := by
  rw [acceptedRows, mem_firstsBy_iff, List.find?_filter, firstRow]
  simp only [Bool.decide_and, Bool.decide_eq_true]

theorem width_of_mem_acceptedRows (h : row ∈ acceptedRows kind scope rows) :
    row.fields.length = kind.width := by
  have hfit := (List.mem_filter.1 ((firstsBy_sublist Row.fqn _).subset h)).2
  exact eq_of_beq (Bool.and_eq_true_iff.1 hfit).2

theorem entries_ofFetched_eq (kind : Kind) (scope : Scope) (previous : Option Table)
    (rows : List Row) :
    (ofFetched kind scope previous rows).entries =
      (acceptedRows kind scope rows).map (classify previous) := by
  have haccepts : (empty kind scope).accepts ∘ classify previous =
      fun row => row.fields.length == kind.width := by
    funext row
    simp [accepts, empty, contains, fields_classify]
  have hkey : Entry.fqn ∘ classify previous = Row.fqn := funext (fqn_classify previous)
  rw [ofFetched_eq, entries_foldl_push_eq, List.filter_map, haccepts, firstsBy_map, hkey,
    List.filter_filter, acceptedRows]
  simp only [empty, List.nil_append, Bool.and_comm]

/-- The rows of the table before that showed objects. -/
def standing (previous : Option Table) : List Entry :=
  ((previous.map (·.entries)).getD []).filter Entry.present

/-- Those of them that are fetched no more. -/
def lost (kind : Kind) (scope : Scope) (previous : Option Table) (rows : List Row) :
    List Entry :=
  (standing previous).filter fun prior =>
    decide (prior.fqn ∉ (acceptedRows kind scope rows).map Row.fqn)

theorem mem_standing_iff : e ∈ standing previous ↔
    ∃ t ∈ previous, e ∈ t.entries ∧ e.present = true := by
  cases previous <;> simp [standing]

/-- The rows of a table that was built from a fetch. -/
theorem entries_advance (h : ∀ t ∈ previous, t.Sound kind) (scope : Scope) (rows : List Row) :
    (advance kind scope previous rows).entries =
      (acceptedRows kind scope rows).map (classify previous) ++
        (lost kind scope previous rows).map Entry.gone := by
  have hcontains : ∀ fqn, (ofFetched kind scope previous rows).contains fqn =
      decide (fqn ∈ (acceptedRows kind scope rows).map Row.fqn) := fun fqn => by
    rw [contains, entries_ofFetched_eq, Bool.eq_iff_iff]
    simp [fqn_classify]
  have hlost : (((previous.map (·.entries)).getD []).filter fun e =>
      e.present && !(ofFetched kind scope previous rows).contains e.fqn) =
        lost kind scope previous rows := by
    rw [lost, standing, List.filter_filter]
    refine List.filter_congr fun e _ => ?_
    rw [hcontains, ← decide_not, Bool.and_comm]
  have hnodup : ((lost kind scope previous rows).map Entry.fqn).Nodup := by
    rw [lost, standing]
    cases previous with
    | none => exact List.nodup_nil
    | some t =>
        exact (h t rfl).nodup.sublist ((List.filter_sublist.trans List.filter_sublist).map _)
  have hgone : Entry.fqn ∘ Entry.gone = Entry.fqn := rfl
  unfold advance
  rw [← List.foldl_map (f := Entry.gone), hlost, entries_foldl_push, entries_ofFetched_eq]
  · intro e he
    obtain ⟨prior, hprior, rfl⟩ := List.mem_map.1 he
    obtain ⟨t, ht, hmem, -⟩ := mem_standing_iff.1 (List.mem_of_mem_filter hprior)
    rw [(Sound.ofFetched kind scope previous rows).kind_eq]
    exact (h t ht).width prior hmem
  · rw [List.map_append, List.map_map, hgone]
    refine List.nodup_append.2 ⟨(Sound.ofFetched kind scope previous rows).nodup, hnodup, ?_⟩
    rintro _ hfqn _ hprior rfl
    rw [entries_ofFetched_eq, List.map_map,
      show Entry.fqn ∘ classify previous = Row.fqn from funext (fqn_classify previous)] at hfqn
    obtain ⟨prior, hmem, heq⟩ := List.mem_map.1 hprior
    exact of_decide_eq_true (List.mem_filter.1 hmem).2 (heq ▸ hfqn)

/-! ## What a row tells of the one before -/

/-- What the table before showed of an object. -/
def Shown (previous : Option Table) (fqn : String) (prior : Entry) : Prop :=
  prior ∈ standing previous ∧ prior.fqn = fqn

theorem present?_eq_some_iff_shown (h : ∀ t ∈ previous, t.Sound kind) {fqn : String}
    {prior : Entry} :
    previous.bind (·.present? fqn) = some prior ↔ Shown previous fqn prior := by
  rw [Shown, mem_standing_iff]
  constructor
  · intro hprior
    obtain ⟨t, ht, hpresent⟩ := Option.bind_eq_some_iff.1 hprior
    obtain ⟨hget, hpresent⟩ := present?_eq_some_iff.1 hpresent
    exact ⟨⟨t, ht, mem_of_get? hget, hpresent⟩, fqn_of_get? hget⟩
  · rintro ⟨⟨t, ht, hmem, hpresent⟩, rfl⟩
    exact Option.bind_eq_some_iff.2
      ⟨t, ht, present?_eq_some_iff.2 ⟨(h t ht).get?_of_mem hmem, hpresent⟩⟩

/-- At most one row was shown of an object. -/
theorem Shown.unique (h : ∀ t ∈ previous, t.Sound kind) {fqn : String} {p q : Entry}
    (hp : Shown previous fqn p) (hq : Shown previous fqn q) : p = q :=
  Option.some.inj
    (((present?_eq_some_iff_shown h).2 hp).symm.trans ((present?_eq_some_iff_shown h).2 hq))

theorem Shown.width (h : ∀ t ∈ previous, t.Sound kind) {fqn : String} {prior : Entry}
    (hprior : Shown previous fqn prior) : prior.fields.length = kind.width := by
  obtain ⟨t, ht, hmem, -⟩ := mem_standing_iff.1 hprior.1
  exact (h t ht).width prior hmem

/-- What a row says of the row that the table before showed under its key. -/
structure Tells (previous : Option Table) (e : Entry) : Prop where
  added : e.present = true → (e.change = .added ↔ ∀ prior, ¬Shown previous e.fqn prior)
  unchanged : e.present = true →
    (e.change = .unchanged ↔ ∃ prior, Shown previous e.fqn prior ∧ prior.fields = e.fields)
  updated : e.present = true →
    (e.change = .updated ↔ ∃ prior, Shown previous e.fqn prior ∧ prior.fields ≠ e.fields)
  length : e.deltas.length = e.fields.length
  untold : e.change ≠ .updated → ∀ delta ∈ e.deltas, delta = none
  /-- Of an updated row the fields that differ are told as they were, and no others, -/
  told : e.change = .updated → ∀ prior, Shown previous e.fqn prior → ∀ i < e.fields.length,
    e.deltas[i]? = some (if prior.field i = e.field i then none else some (prior.field i))
  /-- so that the former fields can be had back. -/
  restored : e.change = .updated → ∀ prior, Shown previous e.fqn prior →
    e.restored = prior.fields

theorem tells_ofNew (hnone : ∀ prior, ¬Shown previous row.fqn prior) :
    Tells previous (Entry.ofNew row) where
  added _ := iff_of_true rfl hnone
  unchanged _ := iff_of_false (fun h => by cases h) fun ⟨prior, hprior, _⟩ => hnone prior hprior
  updated _ := iff_of_false (fun h => by cases h) fun ⟨prior, hprior, _⟩ => hnone prior hprior
  length := List.length_map ..
  untold _ delta hdelta := by
    obtain ⟨_, -, rfl⟩ := List.mem_map.1 hdelta
    rfl
  told h := by cases h
  restored h := by cases h

theorem tells_gone (prior : Entry) : Tells previous prior.gone where
  added h := by cases h
  unchanged h := by cases h
  updated h := by cases h
  length := List.length_map ..
  untold _ delta hdelta := by
    obtain ⟨_, -, rfl⟩ := List.mem_map.1 hdelta
    rfl
  told h := by cases h
  restored h := by cases h

/-- A row that was shown before is compared with the one row that was. -/
theorem tells_ofPrior {prior : Entry} (hprior : Shown previous row.fqn prior)
    (hunique : ∀ p, Shown previous row.fqn p → p = prior)
    (hwidth : prior.fields.length = row.fields.length) :
    Tells previous (Entry.ofPrior prior row) := by
  have hexists : ∀ q : Entry → Prop, (∃ p, Shown previous row.fqn p ∧ q p) ↔ q prior :=
    fun q => ⟨fun ⟨p, hp, hq⟩ => hunique p hp ▸ hq, fun hq => ⟨prior, hprior, hq⟩⟩
  have hchange := Entry.change_ofPrior prior row
  constructor
  case added =>
    refine fun _ => iff_of_false ?_ fun hnone => hnone prior hprior
    rw [hchange]
    split <;> simp
  case unchanged =>
    refine fun _ => Iff.trans ?_ (hexists fun p => p.fields = row.fields).symm
    rw [hchange]
    split <;> simp [*]
  case updated =>
    refine fun _ => Iff.trans ?_ (hexists fun p => p.fields ≠ row.fields).symm
    rw [hchange]
    split <;> simp [*]
  case length => exact Entry.length_deltasFrom _ _
  case untold =>
    intro hne delta hdelta
    have heq : prior.fields = row.fields := by
      by_contra hfields
      exact hne (by rw [hchange, if_neg hfields])
    have hnone := (Bool.and_eq_true_iff.1 ((Entry.deltasFrom_none_iff _ _).2 heq)).1
    exact Option.isNone_iff_eq_none.1 (List.all_eq_true.1 hnone delta hdelta)
  case told =>
    intro _ p hp i hi
    rw [hunique p hp]
    exact Entry.getElem?_deltas_ofPrior hwidth hi
  case restored =>
    intro _ p hp
    rw [hunique p hp]
    exact Entry.restored_ofPrior hwidth

/-- The rows of the next table are those of the fetch, each compared with what was shown of
it before, and those that are gone. -/
theorem tells_of_mem_advance (h : ∀ t ∈ previous, t.Sound kind)
    (he : e ∈ (advance kind scope previous rows).entries) : Tells previous e := by
  rw [entries_advance h] at he
  rcases List.mem_append.1 he with he | he
  · obtain ⟨row, hrow, rfl⟩ := List.mem_map.1 he
    rw [classify]
    cases hprior : previous.bind (·.present? row.fqn) with
    | none =>
        refine tells_ofNew fun prior hshown => ?_
        rw [(present?_eq_some_iff_shown h).2 hshown] at hprior
        cases hprior
    | some prior =>
        have hshown := (present?_eq_some_iff_shown h).1 hprior
        exact tells_ofPrior hshown (fun p hp => hp.unique h hshown)
          ((hshown.width h).trans (width_of_mem_acceptedRows hrow).symm)
  · obtain ⟨prior, -, rfl⟩ := List.mem_map.1 he
    exact tells_gone prior

/-- A table that tells the difference between what was fetched and the table before. -/
structure Compared (kind : Kind) (scope : Scope) (previous : Option Table) (rows : List Row)
    (t : Table) : Prop where
  /-- What is there is of each key the first row that fits, in the order of the fetch. -/
  present : t.presentRows = acceptedRows kind scope rows
  first : ∀ row, row ∈ t.presentRows ↔ firstRow kind scope rows row.fqn = some row
  /-- Behind it stand the rows that were shown and not accepted, in their former order. -/
  layout : t.entries =
    t.entries.filter Entry.present ++ (lost kind scope previous rows).map Entry.gone
  tells : ∀ e ∈ t.entries, Tells previous e
  width : ∀ e ∈ t.entries, e.fields.length = t.header.length
  nodup : (t.entries.map Entry.fqn).Nodup

theorem compared_advance (h : ∀ t ∈ previous, t.Sound kind) (scope : Scope) (rows : List Row) :
    (advance kind scope previous rows).Compared kind scope previous rows := by
  have hsound := Sound.advance kind scope previous rows
  have hpresent : (advance kind scope previous rows).entries.filter Entry.present =
      (acceptedRows kind scope rows).map (classify previous) := by
    rw [entries_advance h, List.filter_append, List.filter_eq_self.2, List.filter_eq_nil_iff.2,
      List.append_nil]
    · intro e he
      obtain ⟨prior, -, rfl⟩ := List.mem_map.1 he
      simp
    · intro e he
      obtain ⟨row, -, rfl⟩ := List.mem_map.1 he
      exact present_classify previous row
  have hrows : (advance kind scope previous rows).presentRows =
      acceptedRows kind scope rows := by
    rw [presentRows, hpresent, List.map_map]
    refine (List.map_congr_left fun row _ => ?_).trans (List.map_id' _)
    simp only [Function.comp_apply, fqn_classify, fields_classify]
  constructor
  case present => exact hrows
  case first =>
    intro row
    rw [hrows, mem_acceptedRows_iff]
  case layout => rw [hpresent, ← entries_advance h]
  case tells => exact fun e he => tells_of_mem_advance h he
  case width =>
    intro e he
    rw [header, hsound.kind_eq]
    exact hsound.width e he
  case nodup => exact hsound.nodup

/-- A row that is fetched with the wrong width counts as gone, and a second row of a key for
nothing. -/
example :
    let former := advance .namespaces .all none
      [⟨"a", ["a", "Active", "1d"]⟩, ⟨"b", ["b", "Active", "1d"]⟩]
    (advance .namespaces .all (some former)
      [⟨"a", ["a", "Terminating", "1d"]⟩, ⟨"b", ["b"]⟩, ⟨"a", ["a", "Active", "1d"]⟩]).entries =
        [⟨"a", .updated, ["a", "Terminating", "1d"], [none, some "Active", none]⟩,
          ⟨"b", .removed, ["b", "Active", "1d"], [none, none, none]⟩] := by
  decide

end Table

namespace Indexed

variable {t : Indexed} {kind : Kind}

/-- The tables of a kind: empty ones, and those that are built from a fetch. -/
inductive Made (kind : Kind) : Indexed → Prop
  | empty (scope : Scope) : Made kind (empty kind scope)
  | advance (scope : Scope) (previous : Option Indexed) (rows : List Row) :
      Made kind (advance kind scope previous rows)

theorem Made.inStep (h : Made kind t) : t.InStep := by
  cases h with
  | empty scope => exact inStep_empty kind scope
  | advance scope previous rows => exact inStep_advance kind scope previous rows

theorem Made.sound (h : Made kind t) : t.table.Sound kind := by
  cases h with
  | empty scope => exact Table.Sound.empty kind scope
  | advance scope previous rows =>
      unfold Indexed.advance
      rw [← List.foldl_map (f := Entry.gone),
        (inStep_ofFetched kind scope previous rows).table_foldl_push, ofFetched_eq,
        (inStep_empty kind scope).table_foldl_push]
      exact ((Table.Sound.empty kind scope).foldl_push _).foldl_push _

/-- A table with its index that tells the difference between what was fetched and the table
before, by its rows and by what is looked up in it. -/
structure Compared (kind : Kind) (scope : Scope) (previous : Option Indexed)
    (rows : List Row) (t : Indexed) : Prop where
  /-- Its rows are those of the table that is kept without an index, -/
  table : t.table = Table.advance kind scope (previous.map Indexed.table) rows
  compared : t.table.Compared kind scope (previous.map Indexed.table) rows
  /-- and with the index or without it a key gives the row that it stands for. -/
  get? : ∀ fqn e, t.get? fqn = some e ↔ e ∈ t.table.entries ∧ e.fqn = fqn
  contains : ∀ fqn, t.contains fqn = true ↔ ∃ e ∈ t.table.entries, e.fqn = fqn
  table_get? : ∀ fqn, t.table.get? fqn = t.get? fqn
  table_contains : ∀ fqn, t.table.contains fqn = t.contains fqn

theorem compares_snapshots {previous : Option Indexed} (h : ∀ t ∈ previous, Made kind t)
    (scope : Scope) (rows : List Row) :
    (advance kind scope previous rows).Compared kind scope previous rows := by
  have hmade : Made kind (advance kind scope previous rows) := .advance scope previous rows
  have htable : (advance kind scope previous rows).table =
      Table.advance kind scope (previous.map Indexed.table) rows :=
    table_advance (fun t ht => (h t ht).inStep) scope rows
  constructor
  case table => exact htable
  case compared =>
    rw [htable]
    refine Table.compared_advance (fun t ht => ?_) scope rows
    obtain ⟨s, hs, rfl⟩ := Option.map_eq_some_iff.1 ht
    exact (h s hs).sound
  case get? =>
    intro fqn e
    rw [hmade.inStep.get?_eq]
    constructor
    · exact fun hget => ⟨Table.mem_of_get? hget, Table.fqn_of_get? hget⟩
    · rintro ⟨he, rfl⟩
      exact hmade.sound.get?_of_mem he
  case contains =>
    intro fqn
    rw [hmade.inStep.contains_eq, Table.contains]
    simp
  case table_get? => exact fun fqn => (hmade.inStep.get?_eq fqn).symm
  case table_contains => exact fun fqn => (hmade.inStep.contains_eq fqn).symm

/-- Two namespaces as they are fetched for the first time. -/
def twoNamespaces : Indexed :=
  advance .namespaces .all none [⟨"a", ["a", "Active", "1d"]⟩, ⟨"b", ["b", "Active", "1d"]⟩]

/-- One of them is fetched twice then, and the other with cells missing. -/
theorem compares_snapshots_twoNamespaces :
    (∀ t ∈ some twoNamespaces, Made .namespaces t) ∧
    (advance .namespaces .all (some twoNamespaces) [⟨"a", ["a", "Terminating", "1d"]⟩,
      ⟨"b", ["b"]⟩, ⟨"a", ["a", "Active", "1d"]⟩]).Compared .namespaces .all
        (some twoNamespaces) [⟨"a", ["a", "Terminating", "1d"]⟩, ⟨"b", ["b"]⟩,
          ⟨"a", ["a", "Active", "1d"]⟩] := by
  have hmade : ∀ t ∈ some twoNamespaces, Made .namespaces t := fun t ht => by
    obtain rfl := Option.some.inj ht
    exact .advance _ _ _
  exact ⟨hmade, compares_snapshots hmade _ _⟩

end Indexed

end ClusterConsole.Snapshot
