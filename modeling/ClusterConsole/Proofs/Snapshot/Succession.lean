import ClusterConsole.Proofs.Snapshot.Diff
import Mathlib.Computability.Language

/-!
# Tables in succession

Each of the tables that come of a row of fetches is built from the one before. What
they say of one object is told by `Turn`: from table to table it arrives, stays as it
was or in another form, leaves, or is away. So the changes that are told of it are the
beginning of some lifetimes in a row, and whoever takes up all entries knows after each
table what that fetch has accepted (`changeLog_successive`).
-/

namespace ClusterConsole.Snapshot

open ClusterConsole.Resource
open scoped Computability

/-! ## Lifetimes -/

/-- The changes that are told of an object from its arrival to its end. -/
def lifetime : Language Change :=
  {[.added]} * ({[.updated]} + {[.unchanged]})∗ * {[.removed]}

/-- What may be told from now on of an object that exists, or does not. -/
def prospect : Bool → Language Change
  | false => lifetime∗
  | true => ({[.updated]} + {[.unchanged]})∗ * {[.removed]} * lifetime∗

/-- What one table tells of an object that existed before, or did not, and whether it
exists then. -/
inductive Turn : Bool → Option Change → Bool → Prop where
  | away : Turn false none false
  | arrives : Turn false (some .added) true
  | changes : Turn true (some .updated) true
  | stays : Turn true (some .unchanged) true
  | leaves : Turn true (some .removed) false

theorem prospect_false : prospect false = 1 + {[.added]} * prospect true := by
  calc lifetime∗ = 1 + lifetime * lifetime∗ := (Language.one_add_self_mul_kstar_eq_kstar _).symm
    _ = 1 + {[.added]} * prospect true := by simp only [lifetime, prospect, mul_assoc]

theorem prospect_true : prospect true =
    {[.removed]} * prospect false + ({[.updated]} + {[.unchanged]}) * prospect true := by
  have hstay := Language.one_add_self_mul_kstar_eq_kstar
    ({[Change.updated]} + {[Change.unchanged]} : Language Change)
  calc prospect true
      = (1 + ({[.updated]} + {[.unchanged]}) * ({[.updated]} + {[.unchanged]})∗) *
          ({[.removed]} * lifetime∗) := by rw [hstay, prospect, mul_assoc]
    _ = {[.removed]} * lifetime∗ + ({[.updated]} + {[.unchanged]}) *
          (({[.updated]} + {[.unchanged]})∗ * {[.removed]} * lifetime∗) := by
        rw [add_mul, one_mul, mul_assoc, mul_assoc]

theorem cons_mem_prospect {before after : Bool} {c : Change} {word : List Change}
    (hturn : Turn before (some c) after) (hword : word ∈ prospect after) :
    c :: word ∈ prospect before := by
  have hcons : ∀ {l : Language Change}, [c] ∈ l → c :: word ∈ l * prospect after :=
    fun hc => Language.append_mem_mul hc hword
  cases hturn with
  | arrives =>
      rw [prospect_false]
      exact .inr (hcons rfl)
  | changes =>
      rw [prospect_true]
      exact .inr (hcons (.inl rfl))
  | stays =>
      rw [prospect_true]
      exact .inr (hcons (.inr rfl))
  | leaves =>
      rw [prospect_true]
      exact .inl (hcons rfl)

theorem exists_mem_prospect (before : Bool) : ∃ rest, rest ∈ prospect before := by
  have hnil : [] ∈ prospect false := Language.nil_mem_kstar _
  cases before with
  | false => exact ⟨[], hnil⟩
  | true => exact ⟨[.removed], cons_mem_prospect .leaves hnil⟩

/-! ## Taking up what is told -/

/-- What someone knows of the objects, by their keys. -/
abbrev Known := String → Option (List String)

/-- Takes up an entry: an unchanged one has to agree with what is known. -/
def Entry.takeUp? (m : Known) (e : Entry) : Option Known :=
  match e.change with
  | .added | .updated => some (Function.update m e.fqn (some e.fields))
  | .unchanged => if m e.fqn = some e.fields then some m else none
  | .removed => some (Function.update m e.fqn none)

/-- What is known of the object once the entry was taken up. -/
def Entry.told (e : Entry) : Option (List String) := if e.present then some e.fields else none

theorem Entry.takeUp?_eq {m : Known} {e : Entry}
    (h : e.change = .unchanged → m e.fqn = some e.fields) :
    e.takeUp? m = some (Function.update m e.fqn e.told) := by
  cases hc : e.change with
  | unchanged =>
      have htold : e.told = m e.fqn := by simp [told, present, hc, h hc]
      simp [takeUp?, hc, h hc, htold]
  | _ => simp [takeUp?, told, present, hc]

/-- Entries whose keys are apart do not get into each other's way. -/
theorem foldlM_takeUp? {es : List Entry} (hnodup : (es.map Entry.fqn).Nodup) {m : Known}
    (h : ∀ e ∈ es, e.change = .unchanged → m e.fqn = some e.fields) :
    es.foldlM Entry.takeUp? m = some fun fqn =>
      ((es.find? fun e => e.fqn == fqn).map Entry.told).getD (m fqn) := by
  induction es generalizing m with
  | nil => rfl
  | cons e es ih =>
      rw [List.map_cons, List.nodup_cons] at hnodup
      have hne : ∀ d ∈ es, d.fqn ≠ e.fqn := fun d hd heq =>
        hnodup.1 (heq ▸ List.mem_map_of_mem hd)
      rw [List.foldlM_cons, Entry.takeUp?_eq (h e List.mem_cons_self)]
      refine (ih hnodup.2 fun d hd hc => ?_).trans ?_
      · rw [Function.update_of_ne (hne d hd)]
        exact h d (List.mem_cons_of_mem _ hd) hc
      · congr 1
        funext fqn
        by_cases hfqn : e.fqn = fqn
        · subst hfqn
          have hnone : (es.find? fun d => d.fqn == e.fqn) = none := by
            rw [List.find?_eq_none]
            exact fun d hd => by simpa using hne d hd
          simp [hnone]
        · have hfalse : (e.fqn == fqn) = false := beq_eq_false_iff_ne.2 hfqn
          rw [List.find?_cons, hfalse, Function.update_of_ne (Ne.symm hfqn)]

namespace Table

variable {t u : Table} {kind : Kind} {fqn : String} {c : Change}

/-- Takes up all entries of a table. -/
def replay? (m : Known) (t : Table) : Option Known := t.entries.foldlM Entry.takeUp? m

/-- What the table tells of the object under the key. -/
def change? (t : Table) (fqn : String) : Option Change := (t.get? fqn).map Entry.change

/-- Whether the table shows an object under the key that exists. -/
def shows (t : Table) (fqn : String) : Bool := (t.present? fqn).isSome

theorem shows_eq_true (h : t.change? fqn = some c) (hc : c ≠ .removed) : t.shows fqn = true := by
  obtain ⟨e, he, rfl⟩ := Option.map_eq_some_iff.1 h
  rw [shows, Option.isSome_iff_exists]
  exact ⟨e, present?_eq_some_iff.2 ⟨he, Entry.present_iff.2 hc⟩⟩

theorem shows_eq_false (h : t.change? fqn = some .removed) : t.shows fqn = false := by
  obtain ⟨e, he, hc⟩ := Option.map_eq_some_iff.1 h
  rw [shows, Option.isSome_eq_false_iff, Option.isNone_iff_eq_none, present?, he]
  simp [Option.filter_some, Entry.present, hc]

/-! ## One table after the other -/

theorem turn_advance (h : t.Sound kind) (scope : Scope) (rows : List Row) (fqn : String) :
    Turn (t.shows fqn) ((advance kind scope (some t) rows).change? fqn)
      ((advance kind scope (some t) rows).shows fqn) := by
  rw [change?, shows, shows, get?_advance h, present?_advance]
  cases hrow : firstRow kind scope rows fqn with
  | none =>
      cases t.present? fqn with
      | none => exact .away
      | some prior => exact .leaves
  | some row =>
      have hfqn := fqn_of_firstRow hrow
      cases hprior : t.present? fqn with
      | none =>
          rw [← hfqn] at hprior
          rw [Option.map_some, classify_of_none hprior]
          exact .arrives
      | some prior =>
          rw [← hfqn] at hprior
          simp only [Option.map_some, classify_of_some hprior, Option.some_or,
            Entry.change_ofPrior]
          split
          · exact .stays
          · exact .changes

theorem shown_eq_bind_told (t : Table) (fqn : String) :
    t.shown fqn = (t.get? fqn).bind Entry.told := by
  rw [shown, present?]
  cases t.get? fqn with
  | none => rfl
  | some e => cases hp : e.present <;> simp [Option.filter_some, Entry.told, hp]

/-- Whoever knows what one table shows learns from the next what that fetch accepted. -/
theorem replay?_advance (h : t.Sound kind) (scope : Scope) (rows : List Row) :
    (advance kind scope (some t) rows).replay? t.shown = some (accepted kind scope rows) := by
  have hnext := Sound.advance kind scope (some t) rows
  rw [replay?, foldlM_takeUp? hnext.nodup fun e he hc => ?_]
  · rw [← shown_advance kind scope (some t)]
    congr 1
    funext fqn
    rw [shown_eq_bind_told (advance kind scope (some t) rows)]
    change (((advance kind scope (some t) rows).get? fqn).map Entry.told).getD (t.shown fqn) = _
    cases hget : (advance kind scope (some t) rows).get? fqn with
    | some e => rfl
    | none =>
        -- the table says nothing of what did not exist before either
        rw [get?_advance h] at hget
        have hnone := Option.map_eq_none_iff.1 (Option.or_eq_none_iff.1 hget).2
        rw [shown, hnone]
        rfl
  · have hget := hnext.get?_of_mem he
    rw [get?_advance h] at hget
    cases hrow : firstRow kind scope rows e.fqn with
    | none =>
        rw [hrow, Option.map_none, Option.none_or] at hget
        obtain ⟨prior, -, rfl⟩ := Option.map_eq_some_iff.1 hget
        cases hc
    | some row =>
        have hfqn := fqn_of_firstRow hrow
        rw [hrow, Option.map_some, Option.some_or, Option.some_inj] at hget
        cases hprior : t.present? e.fqn with
        | none =>
            rw [← hfqn] at hprior
            rw [← hget, classify_of_none hprior] at hc
            cases hc
        | some prior =>
            rw [shown, hprior]
            rw [← hfqn] at hprior
            rw [← hget, classify_of_some hprior] at hc ⊢
            rw [Entry.change_ofPrior] at hc
            split at hc
            · rename_i hfields
              exact congrArg some hfields
            · cases hc

/-! ## All tables of a row of fetches -/

/-- What a fetch gave: the scope it was made in, and the rows. -/
abbrev Harvest := Scope × List Row

/-- The tables that follow `t`, one for each fetch. -/
def successive (kind : Kind) (t : Table) : List Harvest → List Table
  | [] => []
  | h :: hs =>
      advance kind h.1 (some t) h.2 :: successive kind (advance kind h.1 (some t) h.2) hs

@[simp]
theorem length_successive (kind : Kind) (t : Table) (hs : List Harvest) :
    (successive kind t hs).length = hs.length := by
  induction hs generalizing t with
  | nil => rfl
  | cons h hs ih => simp [successive, ih]

theorem successive_append (kind : Kind) (t : Table) (hs hs' : List Harvest) :
    successive kind t (hs ++ hs') = successive kind t hs ++
      successive kind ((successive kind t hs).getLast?.getD t) hs' := by
  induction hs generalizing t with
  | nil => rfl
  | cons h hs ih =>
      rw [List.cons_append, successive, successive, ih, List.cons_append, List.getLast?_cons,
        Option.getD_some]

theorem take_successive (kind : Kind) (t : Table) (hs : List Harvest) (n : Nat) :
    (successive kind t hs).take n = successive kind t (hs.take n) := by
  induction hs generalizing t n with
  | nil => cases n <;> rfl
  | cons h hs ih =>
      cases n with
      | zero => rfl
      | succ n => rw [successive, List.take_succ_cons, List.take_succ_cons, successive, ih]

theorem sound_of_mem_successive {hs : List Harvest} (hu : u ∈ successive kind t hs) :
    u.Sound kind := by
  induction hs generalizing t with
  | nil => cases hu
  | cons h hs ih =>
      rcases List.mem_cons.1 hu with rfl | hu
      · exact Sound.advance kind h.1 (some t) h.2
      · exact ih hu

/-- Of two neighbours the second is built from the first. -/
theorem getElem?_succ_successive (h : t.Sound kind) {hs : List Harvest} {n : Nat} {u v : Table}
    (hu : (successive kind t hs)[n]? = some u) (hv : (successive kind t hs)[n + 1]? = some v) :
    u.Sound kind ∧ ∃ scope rows, v = advance kind scope (some u) rows := by
  induction hs generalizing t n with
  | nil => simp [successive] at hu
  | cons g hs ih =>
      have hnext := Sound.advance kind g.1 (some t) g.2
      rw [successive] at hu hv
      cases n with
      | succ n => exact ih hnext hu hv
      | zero =>
          obtain rfl := Option.some.inj hu
          refine ⟨hnext, ?_⟩
          cases hs with
          | nil => simp [successive] at hv
          | cons g' hs => exact ⟨g'.1, g'.2, (Option.some.inj hv).symm⟩

theorem exists_append_mem_prospect (h : t.Sound kind) (hs : List Harvest) (fqn : String) :
    ∃ rest, (successive kind t hs).filterMap (change? · fqn) ++ rest ∈
      prospect (t.shows fqn) := by
  induction hs generalizing t with
  | nil => exact exists_mem_prospect _
  | cons g hs ih =>
      obtain ⟨rest, hrest⟩ := ih (Sound.advance kind g.1 (some t) g.2)
      have hturn := turn_advance h g.1 g.2 fqn
      refine ⟨rest, ?_⟩
      rw [successive, List.filterMap_cons]
      cases hc : (advance kind g.1 (some t) g.2).change? fqn with
      | some c =>
          rw [hc] at hturn
          exact cons_mem_prospect hturn hrest
      | none =>
          rw [hc] at hturn
          generalize (advance kind g.1 (some t) g.2).shows fqn = after at hturn hrest
          generalize t.shows fqn = before at hturn ⊢
          cases hturn with
          | away => exact hrest

theorem replay?_successive (h : t.Sound kind) (hs : List Harvest) :
    (successive kind t hs).foldlM replay? t.shown =
      some ((hs.getLast?.map fun g => accepted kind g.1 g.2).getD t.shown) := by
  induction hs generalizing t with
  | nil => rfl
  | cons g hs ih =>
      rw [successive, List.foldlM_cons, replay?_advance h,
        ← shown_advance kind g.1 (some t)]
      refine (ih (Sound.advance kind g.1 (some t) g.2)).trans ?_
      rw [List.getLast?_cons, shown_advance]
      cases hs.getLast? <;> rfl

/-- The tables are a faithful log of the changes between the fetches. -/
structure ChangeLog (kind : Kind) (harvests : List Harvest) (tables : List Table) : Prop where
  length : tables.length = harvests.length
  /-- Each table tells of an object once at most. -/
  keys : ∀ t ∈ tables, (t.entries.map Entry.fqn).Nodup
  /-- What is told of an object is the beginning of some lifetimes in a row. -/
  lives : ∀ fqn, ∃ rest, tables.filterMap (change? · fqn) ++ rest ∈ lifetime∗
  /-- There is no gap in a lifetime. -/
  unbroken : ∀ (n : Nat) t u fqn c, tables[n]? = some t → tables[n + 1]? = some u →
    t.change? fqn = some c → c ≠ .removed → ∃ c', u.change? fqn = some c' ∧ c' ≠ .added
  /-- An object that is gone is told of no more, unless it arrives again. -/
  gone : ∀ (n : Nat) t u fqn, tables[n]? = some t → tables[n + 1]? = some u →
    t.change? fqn = some .removed → u.change? fqn = none ∨ u.change? fqn = some .added
  /-- Whoever takes up the tables as they come knows what each of the fetches accepted. -/
  replayed : ∀ (n : Nat) g, harvests[n]? = some g →
    (tables.take (n + 1)).foldlM replay? (fun _ => none) = some (accepted kind g.1 g.2)

theorem changeLog_successive (kind : Kind) (scope : Scope) (hs : List Harvest) :
    ChangeLog kind hs (successive kind (empty kind scope) hs) where
  length := length_successive kind _ hs
  keys t ht := (sound_of_mem_successive ht).nodup
  lives fqn := exists_append_mem_prospect (Sound.empty kind scope) hs fqn
  unbroken n t u fqn c ht hu hc hne := by
    obtain ⟨hsound, scope', rows, rfl⟩ :=
      getElem?_succ_successive (Sound.empty kind scope) ht hu
    have hturn := turn_advance hsound scope' rows fqn
    rw [shows_eq_true hc hne] at hturn
    generalize (advance kind scope' (some t) rows).shows fqn = after at hturn
    generalize (advance kind scope' (some t) rows).change? fqn = told at hturn ⊢
    cases hturn <;> exact ⟨_, rfl, by decide⟩
  gone n t u fqn ht hu hc := by
    obtain ⟨hsound, scope', rows, rfl⟩ :=
      getElem?_succ_successive (Sound.empty kind scope) ht hu
    have hturn := turn_advance hsound scope' rows fqn
    rw [shows_eq_false hc] at hturn
    generalize (advance kind scope' (some t) rows).shows fqn = after at hturn
    generalize (advance kind scope' (some t) rows).change? fqn = told at hturn ⊢
    cases hturn with
    | away => exact .inl rfl
    | arrives => exact .inr rfl
  replayed n g hg := by
    have hlast : (hs.take (n + 1)).getLast? = some g := by
      rw [List.take_add_one, hg, Option.toList_some, List.getLast?_append]
      rfl
    have hreplay := replay?_successive (Sound.empty kind scope) (hs.take (n + 1))
    rw [hlast] at hreplay
    rw [take_successive]
    exact hreplay

end Table

end ClusterConsole.Snapshot
