import ClusterConsole.Snapshot.Table
import Mathlib.Data.List.Find
import Mathlib.Data.List.Nodup

/-!
# The difference of two fetches

What a table that was built from the one before holds under a key: the entry of the
first fetched row of that key that the table has room for, and if there is none, the
entry of the table before, gone (`get?_advance`).

A table is sound if its keys are apart and its rows are as wide as its header.
-/

namespace ClusterConsole.Snapshot

open ClusterConsole.Resource

/-! ## The first of each key -/

section Firsts

variable {α β γ : Type*} [DecidableEq γ]

/-- The first element of each key, in the order of the list. -/
def firstsBy (key : α → γ) : List α → List α
  | [] => []
  | a :: l => a :: (firstsBy key l).filter fun b => key b != key a

theorem firstsBy_map (key : β → γ) (f : α → β) (l : List α) :
    firstsBy key (l.map f) = (firstsBy (key ∘ f) l).map f := by
  induction l with
  | nil => rfl
  | cons a l ih => rw [List.map_cons, firstsBy, ih, firstsBy, List.map_cons, List.filter_map]; rfl

/-- It does not matter whether some keys are left out before or after. -/
theorem firstsBy_filter (key : α → γ) (p : γ → Bool) (l : List α) :
    firstsBy key (l.filter fun a => p (key a)) =
      (firstsBy key l).filter fun a => p (key a) := by
  induction l with
  | nil => rfl
  | cons a l ih =>
      by_cases ha : p (key a) = true
      · rw [List.filter_cons_of_pos (p := fun a => p (key a)) ha, firstsBy, ih, firstsBy,
          List.filter_cons_of_pos (p := fun a => p (key a)) ha, List.filter_filter,
          List.filter_filter]
        simp only [Bool.and_comm]
      · rw [List.filter_cons_of_neg (p := fun a => p (key a)) ha, ih, firstsBy,
          List.filter_cons_of_neg (p := fun a => p (key a)) ha, List.filter_filter]
        -- what is left out for having the key of `a` would be left out anyway
        refine List.filter_congr fun b _ => ?_
        by_cases hb : key b = key a
        · simp [hb, ha]
        · simp [hb]

theorem firstsBy_sublist (key : α → γ) (l : List α) : (firstsBy key l).Sublist l := by
  induction l with
  | nil => exact .slnil
  | cons a l ih => exact (List.filter_sublist.trans ih).cons_cons a

theorem mem_firstsBy_iff {key : α → γ} {l : List α} {a : α} :
    a ∈ firstsBy key l ↔ (l.find? fun b => key b == key a) = some a := by
  induction l with
  | nil => simp [firstsBy]
  | cons d l ih =>
      rw [firstsBy, List.mem_cons, List.mem_filter, ih]
      by_cases hd : key d = key a
      · simp [hd, eq_comm]
      · have hne : a ≠ d := fun h => hd (h ▸ rfl)
        simp [hd, hne, Ne.symm hd]

theorem firstsBy_eq_self {key : α → γ} {l : List α} (h : (l.map key).Nodup) :
    firstsBy key l = l := by
  induction l with
  | nil => rfl
  | cons a l ih =>
      rw [List.map_cons, List.nodup_cons] at h
      rw [firstsBy, ih h.2, List.filter_eq_self.2]
      intro b hb
      exact bne_iff_ne.2 fun heq => h.1 (heq ▸ List.mem_map_of_mem hb)

end Firsts

namespace Entry

variable {e prior : Entry} {row : Row}

theorem present_iff : e.present = true ↔ e.change ≠ .removed := by
  simp [present]

@[simp]
theorem present_gone (e : Entry) : e.gone.present = false := rfl

theorem deltasFrom_none_iff (olds fields : List String) :
    (deltasFrom olds fields).all Option.isNone && olds.length == fields.length ↔
      olds = fields := by
  induction olds generalizing fields with
  | nil => cases fields <;> simp [deltasFrom]
  | cons old olds ih =>
      cases fields with
      | nil => simp [deltasFrom]
      | cons field fields =>
          have ih := ih fields
          by_cases h : old = field
          · simpa [deltasFrom, h] using ih
          · simp [deltasFrom, h]

theorem change_ofPrior (prior : Entry) (row : Row) :
    (ofPrior prior row).change = if prior.fields = row.fields then .unchanged else .updated := by
  have h := deltasFrom_none_iff prior.fields row.fields
  by_cases heq : prior.fields = row.fields
  · rw [if_pos heq, ofPrior]
    dsimp only
    rw [if_pos (h.2 heq)]
  · rw [if_neg heq, ofPrior]
    dsimp only
    rw [if_neg (mt h.1 heq)]

theorem present_ofPrior (prior : Entry) (row : Row) : (ofPrior prior row).present = true := by
  rw [present_iff, change_ofPrior]
  split <;> simp

end Entry

namespace Table

variable {t previous : Table} {e : Entry} {kind : Kind} {scope : Scope} {rows : List Row}
  {fqn : String}

/-! ## Looking up -/

theorem contains_eq_isSome (t : Table) (fqn : String) : t.contains fqn = (t.get? fqn).isSome := by
  rw [contains, get?, List.any_eq, Bool.eq_iff_iff, List.find?_isSome]
  simp

theorem mem_of_get? (h : t.get? fqn = some e) : e ∈ t.entries := List.mem_of_find?_eq_some h

theorem fqn_of_get? (h : t.get? fqn = some e) : e.fqn = fqn := by
  simpa using List.find?_some h

theorem present?_eq_some_iff : t.present? fqn = some e ↔ t.get? fqn = some e ∧ e.present = true :=
  Option.filter_eq_some_iff

/-- What is under a key in a list whose keys are apart. -/
theorem find?_eq_some_of_mem {α : Type*} {key : α → String} {l : List α} {a : α}
    (hnodup : (l.map key).Nodup) (ha : a ∈ l) : (l.find? fun b => key b == key a) = some a := by
  induction l with
  | nil => simp at ha
  | cons b l ih =>
      rw [List.map_cons, List.nodup_cons] at hnodup
      rcases List.mem_cons.1 ha with rfl | ha
      · simp
      · have hne : key b ≠ key a := fun heq => hnodup.1 (heq ▸ List.mem_map_of_mem ha)
        rw [List.find?_cons_of_neg (by simpa using hne)]
        exact ih hnodup.2 ha

/-- Of entries whose keys are apart at most one is under a key, whether it is looked up
before or after others are left out. -/
theorem find?_filter_of_nodup {es : List Entry} (hnodup : (es.map Entry.fqn).Nodup)
    (p : Entry → Bool) (fqn : String) :
    ((es.filter p).find? fun d => d.fqn == fqn) = (es.find? fun d => d.fqn == fqn).filter p := by
  cases h : es.find? fun d => d.fqn == fqn with
  | none =>
      rw [Option.filter_none, List.find?_eq_none]
      intro d hd
      exact List.find?_eq_none.1 h d (List.mem_of_mem_filter hd)
  | some e =>
      have he := List.mem_of_find?_eq_some h
      obtain rfl : e.fqn = fqn := by simpa using List.find?_some h
      have hsub := List.filter_sublist (p := p) (l := es)
      by_cases hp : p e = true
      · rw [Option.filter_some, if_pos hp]
        exact find?_eq_some_of_mem (hnodup.sublist (hsub.map _)) (List.mem_filter.2 ⟨he, hp⟩)
      · rw [Option.filter_some, if_neg hp, List.find?_eq_none]
        intro d hd hfqn
        have heq : d = e := List.inj_on_of_nodup_map hnodup (List.mem_of_mem_filter hd) he
          (by simpa using hfqn)
        exact hp (heq ▸ (List.mem_filter.1 hd).2)

/-! ## Sound tables -/

structure Sound (t : Table) (kind : Kind) : Prop where
  kind_eq : t.kind = kind
  width : ∀ e ∈ t.entries, e.fields.length = kind.width
  nodup : (t.entries.map Entry.fqn).Nodup

theorem Sound.empty (kind : Kind) (scope : Scope) : (empty kind scope).Sound kind where
  kind_eq := rfl
  width := by simp [Table.empty]
  nodup := List.nodup_nil

theorem Sound.get?_of_mem (h : t.Sound kind) (he : e ∈ t.entries) : t.get? e.fqn = some e :=
  find?_eq_some_of_mem h.nodup he

theorem kind_push (t : Table) (e : Entry) : (t.push e).kind = t.kind := by
  unfold push
  split <;> rfl

theorem get?_push (t : Table) (e : Entry) (fqn : String) :
    (t.push e).get? fqn =
      (t.get? fqn).or (if e.fields.length = t.kind.width ∧ e.fqn = fqn then some e else none) := by
  unfold push
  split
  · rename_i hacc
    rw [accepts, Bool.and_eq_true, beq_iff_eq] at hacc
    simp only [get?, List.find?_append, List.find?_cons, List.find?_nil, hacc.1, true_and]
    by_cases hfqn : e.fqn = fqn
    · simp [hfqn]
    · simp [hfqn, beq_eq_false_iff_ne.2 hfqn]
  · rename_i hacc
    rw [accepts, Bool.and_eq_true, beq_iff_eq, not_and, Bool.not_eq_true', Bool.not_eq_false,
      contains_eq_isSome] at hacc
    split
    · rename_i h
      obtain ⟨d, hd⟩ := Option.isSome_iff_exists.1 (hacc h.1)
      rw [← h.2, hd, Option.some_or]
    · rw [Option.or_none]

theorem Sound.push (h : t.Sound kind) (e : Entry) : (t.push e).Sound kind := by
  unfold Table.push
  split
  · rename_i hacc
    rw [accepts, Bool.and_eq_true, beq_iff_eq, Bool.not_eq_true'] at hacc
    refine ⟨h.kind_eq, fun d hd => ?_, ?_⟩
    · rcases List.mem_append.1 hd with hd | hd
      · exact h.width d hd
      · rw [List.mem_singleton.1 hd, hacc.1, h.kind_eq]
    · rw [List.map_append, List.map_singleton]
      refine List.nodup_append.2 ⟨h.nodup, List.nodup_singleton _, fun a ha b hb heq => ?_⟩
      obtain ⟨d, hd, rfl⟩ := List.mem_map.1 ha
      have hany : t.contains e.fqn = true := List.any_eq_true.2
        ⟨d, hd, by simpa using heq.trans (List.mem_singleton.1 hb)⟩
      rw [hacc.2] at hany
      cases hany
  · exact h

/-! ## Appending many entries -/

/-- The first of some entries that has the key and the width. -/
def fit? (kind : Kind) (fqn : String) (es : List Entry) : Option Entry :=
  es.find? fun e => e.fields.length == kind.width && e.fqn == fqn

theorem get?_foldl_push (es : List Entry) (t : Table) (fqn : String) :
    (es.foldl push t).get? fqn = (t.get? fqn).or (fit? t.kind fqn es) := by
  induction es generalizing t with
  | nil => simp [fit?]
  | cons e es ih =>
      have hfit : fit? t.kind fqn (e :: es) =
          (if e.fields.length = t.kind.width ∧ e.fqn = fqn then some e else none).or
            (fit? t.kind fqn es) := by
        rw [fit?, List.find?_cons]
        by_cases h : e.fields.length = t.kind.width ∧ e.fqn = fqn
        · simp [h]
        · rw [if_neg h, Option.none_or]
          have hfalse : (e.fields.length == t.kind.width && e.fqn == fqn) = false := by
            simpa [Bool.and_eq_true] using h
          rw [hfalse]
          rfl
      rw [List.foldl_cons, ih, kind_push, get?_push, Option.or_assoc, hfit]

theorem Sound.foldl_push (h : t.Sound kind) (es : List Entry) :
    (es.foldl Table.push t).Sound kind := by
  induction es generalizing t with
  | nil => exact h
  | cons e es ih => exact ih (h.push e)

/-! ## The next table -/

/-- The first fetched row of the key that is in scope and as wide as the header. -/
def firstRow (kind : Kind) (scope : Scope) (rows : List Row) (fqn : String) : Option Row :=
  rows.find? fun row =>
    inScope kind scope row.fqn && row.fields.length == kind.width && row.fqn == fqn

/-- What the objects that a fetch accepted look like, by their keys. -/
def accepted (kind : Kind) (scope : Scope) (rows : List Row) (fqn : String) :
    Option (List String) :=
  (firstRow kind scope rows fqn).map Row.fields

/-- What a table shows of the objects that exist, by their keys. -/
def shown (t : Table) (fqn : String) : Option (List String) := (t.present? fqn).map Entry.fields

theorem classify_of_none {row : Row} (h : previous.present? row.fqn = none) :
    classify (some previous) row = Entry.ofNew row := by
  simp [classify, h]

theorem classify_of_some {row : Row} {prior : Entry} (h : previous.present? row.fqn = some prior) :
    classify (some previous) row = Entry.ofPrior prior row := by
  simp [classify, h]

theorem fqn_classify (previous : Option Table) (row : Row) :
    (classify previous row).fqn = row.fqn := by
  unfold classify
  split <;> rfl

theorem fields_classify (previous : Option Table) (row : Row) :
    (classify previous row).fields = row.fields := by
  unfold classify
  split <;> rfl

theorem present_classify (previous : Option Table) (row : Row) :
    (classify previous row).present = true := by
  unfold classify
  split
  · rfl
  · exact Entry.present_ofPrior _ row

theorem fqn_of_firstRow {row : Row} (h : firstRow kind scope rows fqn = some row) :
    row.fqn = fqn := by
  have hrow := List.find?_some h
  simp only [Bool.and_eq_true, beq_iff_eq] at hrow
  exact hrow.2

/-- A row that fits stands for its key, or a row before it does. -/
theorem firstRow_ne_none {row : Row} (hrow : row ∈ rows)
    (hscope : inScope kind scope row.fqn = true) (hwidth : row.fields.length = kind.width) :
    firstRow kind scope rows row.fqn ≠ none := by
  intro hnone
  have hnot := List.find?_eq_none.1 hnone row hrow
  simp [hscope, hwidth] at hnot

/-- Of rows whose keys are apart each one that fits stands for its key. -/
theorem firstRow_eq_some_of_mem {row : Row} (hnodup : (rows.map Row.fqn).Nodup)
    (hrow : row ∈ rows) (hscope : inScope kind scope row.fqn = true)
    (hwidth : row.fields.length = kind.width) :
    firstRow kind scope rows row.fqn = some row := by
  obtain ⟨first, hfirst⟩ := Option.ne_none_iff_exists'.1 (firstRow_ne_none hrow hscope hwidth)
  have heq := List.inj_on_of_nodup_map hnodup (List.mem_of_find?_eq_some hfirst) hrow
    (fqn_of_firstRow hfirst)
  rw [hfirst, heq]

theorem ofFetched_eq (kind : Kind) (scope : Scope) (previous : Option Table) (rows : List Row) :
    ofFetched kind scope previous rows =
      ((rows.filter fun row => inScope kind scope row.fqn).map (classify previous)).foldl push
        (empty kind scope) := by
  rw [ofFetched, List.foldl_map]

theorem get?_ofFetched (kind : Kind) (scope : Scope) (previous : Option Table) (rows : List Row)
    (fqn : String) :
    (ofFetched kind scope previous rows).get? fqn =
      (firstRow kind scope rows fqn).map (classify previous) := by
  rw [ofFetched_eq, get?_foldl_push]
  have hempty : (empty kind scope).get? fqn = none := rfl
  have hkind : (empty kind scope).kind = kind := rfl
  rw [hempty, hkind, Option.none_or, fit?, List.find?_map, List.find?_filter, firstRow]
  congr 1
  refine congrArg (fun p => rows.find? p) (funext fun row => ?_)
  rw [Bool.eq_iff_iff]
  simp [fqn_classify, fields_classify, and_assoc]

theorem Sound.ofFetched (kind : Kind) (scope : Scope) (previous : Option Table) (rows : List Row) :
    (ofFetched kind scope previous rows).Sound kind := by
  rw [ofFetched_eq]
  exact (Sound.empty kind scope).foldl_push _

theorem Sound.advance (kind : Kind) (scope : Scope) (previous : Option Table) (rows : List Row) :
    (advance kind scope previous rows).Sound kind := by
  unfold Table.advance
  rw [← List.foldl_map (f := Entry.gone)]
  exact (Sound.ofFetched kind scope previous rows).foldl_push _

/-- What the next table holds under a key. -/
theorem get?_advance (h : previous.Sound kind) (scope : Scope) (rows : List Row) (fqn : String) :
    (advance kind scope (some previous) rows).get? fqn =
      ((firstRow kind scope rows fqn).map (classify (some previous))).or
        ((previous.present? fqn).map Entry.gone) := by
  have hcurrent := get?_ofFetched kind scope (some previous) rows fqn
  have hkind := (Sound.ofFetched kind scope (some previous) rows).kind_eq
  unfold advance
  rw [← List.foldl_map (f := Entry.gone)]
  simp only [Option.map_some, Option.getD_some]
  rw [get?_foldl_push, hkind, hcurrent]
  cases hrow : (firstRow kind scope rows fqn).map (classify (some previous)) with
  | some e => simp
  | none =>
      rw [hrow] at hcurrent
      -- no row was accepted, so nothing stands in the way of the former entry
      have hfree : (ofFetched kind scope (some previous) rows).contains fqn = false := by
        rw [contains_eq_isSome, hcurrent]
        rfl
      have hwidth : ∀ es : List Entry, (∀ e ∈ es, e.fields.length = kind.width) →
          fit? kind fqn (es.map Entry.gone) =
            (es.find? fun e => e.fqn == fqn).map Entry.gone := by
        intro es hes
        rw [fit?, List.find?_map]
        congr 1
        refine List.find?_congr fun e he => ?_
        simp [Entry.gone, Entry.plain, hes e he]
      rw [Option.none_or, Option.none_or,
        hwidth _ fun e he => h.width e (List.mem_of_mem_filter he), find?_filter_of_nodup h.nodup,
        present?, get?]
      congr 1
      cases hfind : previous.entries.find? fun e => e.fqn == fqn with
      | none => rfl
      | some e =>
          have hfqn : e.fqn = fqn := by simpa using List.find?_some hfind
          simp [Option.filter_some, hfqn, hfree]

/-- Whatever was there before, the objects that a table shows are those of the fetch. -/
theorem present?_advance (kind : Kind) (scope : Scope) (previous : Option Table)
    (rows : List Row) (fqn : String) :
    (advance kind scope previous rows).present? fqn =
      (firstRow kind scope rows fqn).map (classify previous) := by
  unfold advance
  rw [← List.foldl_map (f := Entry.gone), present?, get?_foldl_push, get?_ofFetched]
  cases firstRow kind scope rows fqn with
  | some row => simp [Option.filter_some, present_classify]
  | none =>
      rw [Option.map_none, Option.none_or, Option.filter_eq_none_iff]
      intro e he
      obtain ⟨d, -, rfl⟩ := List.mem_map.1 (List.mem_of_find?_eq_some he)
      simp

/-- The next table shows exactly the objects that the fetch accepted. -/
theorem shown_advance (kind : Kind) (scope : Scope) (previous : Option Table)
    (rows : List Row) : (advance kind scope previous rows).shown = accepted kind scope rows := by
  funext fqn
  rw [shown, present?_advance, accepted, Option.map_map]
  congr 1
  funext row
  exact fields_classify _ row

/-! ## Rows that all fit -/

/-- The rows of the objects that exist. -/
def presentRows (t : Table) : List Row :=
  (t.entries.filter Entry.present).map fun e => ⟨e.fqn, e.fields⟩

/-- Of what is pushed the first of each key comes to the table, if the key is free and the
width is right. -/
theorem entries_foldl_push_eq (es : List Entry) (t : Table) :
    (es.foldl push t).entries = t.entries ++ firstsBy Entry.fqn (es.filter t.accepts) := by
  induction es generalizing t with
  | nil => simp [firstsBy]
  | cons e es ih =>
      rw [List.foldl_cons, ih]
      by_cases hacc : t.accepts e = true
      · have hpush : t.push e = { t with entries := t.entries ++ [e] } := if_pos hacc
        have haccepts : (t.push e).accepts = fun d => d.fqn != e.fqn && t.accepts d := by
          funext d
          rw [hpush]
          simp only [accepts, contains, List.any_append, List.any_cons, List.any_nil,
            Bool.or_false, Bool.not_or, bne, BEq.comm (a := d.fqn)]
          rw [← Bool.and_assoc, Bool.and_comm]
        rw [List.filter_cons_of_pos hacc, firstsBy, haccepts, ← List.filter_filter,
          firstsBy_filter Entry.fqn (· != e.fqn), hpush, List.append_assoc,
          List.singleton_append]
      · have hpush : t.push e = t := if_neg hacc
        rw [List.filter_cons_of_neg hacc, hpush]

theorem entries_foldl_push {es : List Entry} (hwidth : ∀ e ∈ es, e.fields.length = t.kind.width)
    (hnodup : ((t.entries ++ es).map Entry.fqn).Nodup) :
    (es.foldl push t).entries = t.entries ++ es := by
  rw [List.map_append, List.nodup_append] at hnodup
  have haccepts : ∀ e ∈ es, t.accepts e = true := by
    intro e he
    have hfree : t.contains e.fqn = false := by
      simp only [contains, List.any_eq_false, beq_iff_eq]
      intro d hd heq
      exact hnodup.2.2 _ (List.mem_map_of_mem hd) _ (List.mem_map_of_mem he) heq
    simp [accepts, hwidth e he, hfree]
  rw [entries_foldl_push_eq, List.filter_eq_self.2 haccepts, firstsBy_eq_self hnodup.2.1]

/-- What is gone does not count among the objects that exist. -/
theorem presentRows_foldl_push_gone (es : List Entry) (t : Table) :
    ((es.map Entry.gone).foldl push t).presentRows = t.presentRows := by
  induction es generalizing t with
  | nil => rfl
  | cons e es ih =>
      have hpush : (t.push e.gone).presentRows = t.presentRows := by
        simp only [push]
        split
        · simp [presentRows, List.filter_append]
        · rfl
      rw [List.map_cons, List.foldl_cons, ih, hpush]

/-- What is pushed is all that comes to a table. -/
theorem mem_foldl_push {es : List Entry} {t : Table} (he : e ∈ (es.foldl push t).entries) :
    e ∈ t.entries ∨ e ∈ es := by
  induction es generalizing t with
  | nil => exact .inl he
  | cons d es ih =>
      rcases ih he with hpushed | hmem
      · simp only [push] at hpushed
        split at hpushed
        · rcases List.mem_append.1 hpushed with hmem | hlast
          · exact .inl hmem
          · exact .inr (List.mem_singleton.1 hlast ▸ List.mem_cons_self)
        · exact .inl hpushed
      · exact .inr (List.mem_cons_of_mem d hmem)

/-- An entry of a table comes from a row that was fetched, or it is gone and no row of its
key was. -/
theorem mem_advance {scope : Scope} {previous : Option Table} {rows : List Row}
    (he : e ∈ (advance kind scope previous rows).entries) :
    (∃ row, inScope kind scope row.fqn = true ∧ e = classify previous row) ∨
      ∃ d : Entry, firstRow kind scope rows d.fqn = none ∧ e = d.gone := by
  rw [advance, ← List.foldl_map (f := Entry.gone)] at he
  rcases mem_foldl_push he with hfetched | hgone
  · rw [ofFetched_eq] at hfetched
    rcases mem_foldl_push hfetched with hnone | hmem
    · cases hnone
    · obtain ⟨row, hrow, rfl⟩ := List.mem_map.1 hmem
      exact .inl ⟨row, (List.mem_filter.1 hrow).2, rfl⟩
  · obtain ⟨d, hd, rfl⟩ := List.mem_map.1 hgone
    have hfree := (Bool.and_eq_true_iff.1 (List.mem_filter.1 hd).2).2
    rw [Bool.not_eq_true', contains_eq_isSome, get?_ofFetched, Option.isSome_map,
      Option.isSome_eq_false_iff, Option.isNone_iff_eq_none] at hfree
    exact .inr ⟨d, hfree, rfl⟩

/-- What a table shows as being there belongs to its scope. -/
theorem inScope_of_mem_advance {scope : Scope} {previous : Option Table} {rows : List Row}
    (he : e ∈ (advance kind scope previous rows).entries) (hpresent : e.present = true) :
    inScope kind scope e.fqn = true := by
  obtain ⟨row, hscope, rfl⟩ | ⟨d, -, rfl⟩ := mem_advance he
  · rwa [fqn_classify]
  · cases hpresent

/-- What a table shows as gone was not fetched. -/
theorem firstRow_of_mem_advance {previous : Option Table} {rows : List Row}
    (he : e ∈ (advance kind scope previous rows).entries) (hgone : e.present = false) :
    firstRow kind scope rows e.fqn = none := by
  obtain ⟨row, -, rfl⟩ | ⟨d, hnone, rfl⟩ := mem_advance he
  · rw [present_classify] at hgone
    cases hgone
  · exact hnone

/-- What a table has shown and is not fetched any more is shown as gone. -/
theorem gone_mem_advance {prior : Entry} (h : previous.Sound kind)
    (hprior : previous.present? fqn = some prior) (hnone : firstRow kind scope rows fqn = none) :
    prior.gone ∈ (advance kind scope (some previous) rows).entries := by
  have hget := get?_advance h scope rows fqn
  rw [hnone, hprior, Option.map_none, Option.none_or, Option.map_some] at hget
  exact mem_of_get? hget

/-- Of rows that all fit none is rejected. -/
theorem entries_ofFetched (scope : Scope) (previous : Option Table)
    (hwidth : ∀ row ∈ rows, row.fields.length = kind.width) (hnodup : (rows.map Row.fqn).Nodup) :
    (ofFetched kind scope previous rows).entries =
      (rows.filter fun row => inScope kind scope row.fqn).map (classify previous) := by
  rw [ofFetched_eq, entries_foldl_push]
  · rfl
  · intro e he
    obtain ⟨row, hrow, rfl⟩ := List.mem_map.1 he
    rw [fields_classify]
    exact hwidth row (List.mem_of_mem_filter hrow)
  · have hkeys : Entry.fqn ∘ classify previous = Row.fqn := funext (fqn_classify previous)
    rw [empty, List.nil_append, List.map_map, hkeys]
    exact hnodup.sublist (List.filter_sublist.map _)

/-- A table of rows that all fit shows those in scope and no others, in the order in which
they came. -/
theorem presentRows_advance_filter (scope : Scope) (previous : Option Table)
    (hwidth : ∀ row ∈ rows, row.fields.length = kind.width) (hnodup : (rows.map Row.fqn).Nodup) :
    (advance kind scope previous rows).presentRows =
      rows.filter fun row => inScope kind scope row.fqn := by
  rw [advance, ← List.foldl_map (f := Entry.gone), presentRows_foldl_push_gone, presentRows,
    entries_ofFetched scope previous hwidth hnodup, List.filter_eq_self.2, List.map_map]
  · refine (List.map_congr_left fun row _ => ?_).trans (List.map_id' _)
    simp only [Function.comp_apply, fqn_classify, fields_classify]
  · intro e he
    obtain ⟨row, -, rfl⟩ := List.mem_map.1 he
    exact present_classify previous row

theorem presentRows_advance (previous : Option Table)
    (hscope : ∀ row ∈ rows, inScope kind scope row.fqn = true)
    (hwidth : ∀ row ∈ rows, row.fields.length = kind.width)
    (hnodup : (rows.map Row.fqn).Nodup) :
    (advance kind scope previous rows).presentRows = rows := by
  rw [presentRows_advance_filter scope previous hwidth hnodup, List.filter_eq_self.2 hscope]

end Table

end ClusterConsole.Snapshot
