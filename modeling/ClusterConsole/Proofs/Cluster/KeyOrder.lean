import ClusterConsole.Proofs.Cluster.Paging
import ClusterConsole.Proofs.Resource.Label
import Mathlib.Data.String.Basic

/-!
# The order of the rows of a cluster

Rows are put in the order of their keys, in which a slash stands between the namespace and the
name. Of the characters of names only the hyphen comes before the slash, so the order of the
keys is that of the pairs of namespace and name, but for one case: a namespace that continues
another behind a hyphen comes before it (`qualified_lt_iff`). So the rows of a fetch stand in the
order of the pairs unless one of their namespaces continues another
(`Gateway.rows_in_key_order`).
-/

namespace ClusterConsole

open ClusterConsole.Console (Subject)
open ClusterConsole.Resource ClusterConsole.Snapshot ClusterConsole.Watching

namespace Text

variable {sep : Char} {a b : List Char}

theorem getD_cutList (sep : Char) (cs : List Char) :
    ((cutList sep cs).map Prod.fst).getD cs = beforeList sep cs := by
  induction cs with
  | nil => rfl
  | cons c cs ih =>
      by_cases hc : c = sep
      · simp [cutList, beforeList, hc]
      · have hrest : beforeList sep (c :: cs) = c :: beforeList sep cs := by simp [beforeList, hc]
        rw [hrest, ← ih, cutList, if_neg hc]
        cases cutList sep cs <;> rfl

end Text

/-! ## The order of keys -/

namespace Resource

variable {c : Char} {a b x y : List Char} {ns ns' name name' : String}

theorem IsLabelChar.lt_slash_iff (h : IsLabelChar c) : c < '/' ↔ c = '-' := by
  have hc := h.toNat_mem
  have hslash : '/'.toNat = 47 := rfl
  have hhyphen : '-'.toNat = 45 := rfl
  rw [Char.lt_def, UInt32.lt_iff_toNat_lt, Char.toNat_val, Char.toNat_val, ← Char.toNat_inj]
  omega

theorem IsLabelChar.slash_lt_iff (h : IsLabelChar c) : '/' < c ↔ c ≠ '-' := by
  have hc := h.toNat_mem
  have hslash : '/'.toNat = 47 := rfl
  have hhyphen : '-'.toNat = 45 := rfl
  rw [Char.lt_def, UInt32.lt_iff_toNat_lt, Char.toNat_val, Char.toNat_val, ne_eq, ← Char.toNat_inj]
  omega

theorem IsLabelChar.ne_slash (h : IsLabelChar c) : c ≠ '/' := by
  rintro rfl
  revert h
  unfold IsLabelChar
  decide

/-- Before the slash a hyphen counts for less than the end, every other character for more. -/
theorem append_slash_lt_iff (ha : ∀ c ∈ a, IsLabelChar c) (hb : ∀ c ∈ b, IsLabelChar c) :
    a ++ '/' :: x < b ++ '/' :: y ↔
      b ++ ['-'] <+: a ∨ (a < b ∧ ¬a ++ ['-'] <+: b) ∨ (a = b ∧ x < y) := by
  induction a generalizing b with
  | nil =>
      cases b with
      | nil => simp
      | cons d b =>
          have hd := hb d List.mem_cons_self
          have hhyphen : ¬d = '-' ↔ ¬ '-' = d := not_congr eq_comm
          simpa [List.cons_lt_cons_iff, hd.slash_lt_iff, hd.ne_slash.symm] using hhyphen
  | cons c a ih =>
      have hc := ha c List.mem_cons_self
      cases b with
      | nil =>
          have hhyphen : c = '-' ↔ '-' = c := eq_comm
          simpa [List.cons_lt_cons_iff, hc.lt_slash_iff, hc.ne_slash] using hhyphen
      | cons d b =>
          have htail := ih (fun e he => ha e (List.mem_cons_of_mem c he))
            (b := b) fun e he => hb e (List.mem_cons_of_mem d he)
          by_cases hcd : c = d
          · subst hcd
            simpa [List.cons_lt_cons_iff] using htail
          · simp [List.cons_lt_cons_iff, hcd, Ne.symm hcd]

/-- The longer name goes on behind the shorter one with a hyphen. -/
def Continues (long short : String) : Prop := short.toList ++ ['-'] <+: long.toList

instance (long short : String) : Decidable (Continues long short) :=
  inferInstanceAs (Decidable (short.toList ++ ['-'] <+: long.toList))

/-- Keys stand in the order of namespace and name, but a namespace that continues another comes
before it. -/
theorem qualified_lt_iff (hns : IsLabel ns) (hns' : IsLabel ns') :
    qualified ns name < qualified ns' name' ↔
      Continues ns ns' ∨ (ns < ns' ∧ ¬Continues ns' ns) ∨ (ns = ns' ∧ name < name') := by
  rw [String.lt_iff_toList_lt, toList_qualified hns.nonempty, toList_qualified hns'.nonempty,
    append_slash_lt_iff hns.chars hns'.chars, String.toList_inj, ← String.lt_iff_toList_lt,
    ← String.lt_iff_toList_lt]
  rfl

end Resource

/-! ## The order of rows -/

/-- The cell of a row under a column. -/
def Snapshot.Row.cell (kind : Kind) (column : String) (row : Row) : String :=
  ((kind.column? column).bind fun i => row.fields[i]?).getD ""

namespace Cluster

variable {inv : Inventory} {server : Server} {kind : Kind} {scope : Scope} {resource : String}
  {now : Int} {rows : List Row} {request : Request} {page : Page} {d : Document} {o o' : Subject}

/-- The row is not behind the other by its namespace and its name. -/
def PairLE (kind : Kind) (row row' : Row) : Prop :=
  Prod.Lex (· < ·) (· ≤ ·) (row.cell kind "NAMESPACE", row.cell kind "NAME")
    (row'.cell kind "NAMESPACE", row'.cell kind "NAME")

/-- The namespace of the row continues that of the other. -/
def RowContinues (kind : Kind) (row row' : Row) : Prop :=
  Continues (row.cell kind "NAMESPACE") (row'.cell kind "NAMESPACE")

/-- Rows in the order of their keys, and what that is for their namespaces and names. -/
structure KeyOrdered (kind : Kind) (rows : List Row) : Prop where
  keys : rows.Pairwise fun row row' => row.fqn ≤ row'.fqn
  /-- Where the pairs do not ascend, a namespace comes before the one that it continues, -/
  pairs : rows.Pairwise fun row row' => PairLE kind row row' ∨ RowContinues kind row row'
  /-- as it always does. -/
  continued : rows.Pairwise fun row row' => ¬RowContinues kind row' row
  /-- Without such namespaces the pairs ascend. -/
  plain : (∀ row ∈ rows, ∀ row' ∈ rows, ¬RowContinues kind row row') →
    rows.Pairwise (PairLE kind)

/-! ### What is in a cluster -/

/-- Namespaces have names that they may have, and what lies in namespaces lies in one. -/
structure Inventory.Placed (inv : Inventory) : Prop where
  label : ∀ resource, ∀ d ∈ inv.inNamespace resource none, ∀ ns ∈ namespaceOf d, IsLabel ns
  placed : ∀ kind resource, resource? kind = some resource → kind.namespaced = true →
    ∀ d ∈ inv.inNamespace resource none, namespaceOf d ≠ none

theorem Inventory.placed_of_forall (h : ∀ r ∈ inv.resources, ∀ d ∈ r.2,
    ∃ ns, namespaceOf d = some ns ∧ IsLabel ns) : inv.Placed := by
  have hall : ∀ resource, ∀ d ∈ inv.inNamespace resource none,
      ∃ ns, namespaceOf d = some ns ∧ IsLabel ns := by
    intro resource d hd
    rw [inNamespace] at hd
    cases hfind : inv.resources.find? fun r => r.1 == resource with
    | none => rw [hfind] at hd; cases hd
    | some r =>
        rw [hfind] at hd
        exact h r (List.mem_of_find?_eq_some hfind) d hd
  constructor
  · intro resource d hd ns hns
    obtain ⟨ns', hns', hlabel⟩ := hall resource d hd
    obtain rfl : ns' = ns := Option.some.inj (hns'.symm.trans hns)
    exact hlabel
  · intro kind resource _ _ d hd
    obtain ⟨ns, hns, -⟩ := hall resource d hd
    exact hns ▸ Option.some_ne_none ns

theorem cell_namespace (hkind : resource? o.kind = some resource)
    (hns : o.kind.namespaced = true) (now : Int) :
    (o.row now).cell o.kind "NAMESPACE" = o.place := by
  cases o with
  | pod | service | deployment => rfl
  | container => cases hkind
  | node | namespace_ | forward | report => cases hns

theorem cell_name (o : Subject) (now : Int) : (o.row now).cell o.kind "NAME" = o.name := by
  have hcolumn : o.kind.column? "NAME" = some o.kind.nameColumn := by cases o <;> rfl
  rw [Row.cell, hcolumn, Option.bind_some, o.nameField, Option.getD_some]

theorem fqn_row_of_resource (hkind : resource? o.kind = some resource) :
    (o.row now).fqn = qualified o.place o.name := by
  rw [o.fqn_row]
  cases o with
  | container => cases hkind
  | forward => cases hkind
  | _ => rfl

/-- What the order of the keys says of two rows. -/
theorem pairLE_or_continues (hkind : o'.kind = o.kind) (hlisted : resource? o.kind = some resource)
    (hns : o.kind.namespaced = true) (hplace : IsLabel o.place) (hplace' : IsLabel o'.place)
    (h : (o.row now).fqn ≤ (o'.row now).fqn) :
    (PairLE o.kind (o.row now) (o'.row now) ∨ RowContinues o.kind (o.row now) (o'.row now)) ∧
      ¬RowContinues o.kind (o'.row now) (o.row now) := by
  have hcells := cell_namespace hlisted hns now
  have hcells' := cell_namespace (hkind ▸ hlisted) (hkind ▸ hns) now
  have hname := cell_name o' now
  rw [hkind] at hcells' hname
  rw [fqn_row_of_resource hlisted, fqn_row_of_resource (hkind ▸ hlisted), ← not_lt,
    qualified_lt_iff hplace' hplace, not_or, not_or] at h
  obtain ⟨hbehind, hfront, hsame⟩ := h
  rw [PairLE, RowContinues, RowContinues, hcells, hcells', hname, cell_name]
  refine ⟨?_, hbehind⟩
  rcases lt_trichotomy o.place o'.place with hlt | heq | hgt
  · exact .inl (.left _ _ hlt)
  · rw [heq]
    exact .inl (.right _ (not_lt.1 fun hlt => hsame ⟨heq.symm, hlt⟩))
  · exact .inr (not_not.1 fun hnot => hfront ⟨hgt, hnot⟩)

theorem Gateway.pairwise_sortRows (rows : List Row) :
    (sortRows rows).Pairwise fun row row' => row.fqn ≤ row'.fqn := by
  have hsorted : (sortRows rows).Pairwise fun row row' => decide (row.fqn ≤ row'.fqn) = true :=
    List.pairwise_mergeSort
      (fun a b c hab hbc => by simpa using le_trans (of_decide_eq_true hab) (of_decide_eq_true hbc))
      (fun a b => by simpa using le_total a.fqn b.fqn) _
  exact hsorted.imp of_decide_eq_true

theorem keyOrdered_sortRows {objects : List Subject} (hlisted : resource? kind = some resource)
    (hns : kind.namespaced = true) (hkind : ∀ o ∈ objects, o.kind = kind)
    (hplace : ∀ o ∈ objects, IsLabel o.place) :
    KeyOrdered kind (Gateway.sortRows (objects.map (Subject.row now))) := by
  have hkeys := Gateway.pairwise_sortRows (objects.map (Subject.row now))
  have hrows : ∀ row ∈ Gateway.sortRows (objects.map (Subject.row now)),
      ∃ o ∈ objects, o.row now = row := fun row hrow =>
    List.mem_map.1 (List.mem_mergeSort.1 hrow)
  have hpairs : (Gateway.sortRows (objects.map (Subject.row now))).Pairwise fun row row' =>
      (PairLE kind row row' ∨ RowContinues kind row row') ∧ ¬RowContinues kind row' row := by
    refine hkeys.imp_of_mem fun {row row'} hrow hrow' hle => ?_
    obtain ⟨o, ho, rfl⟩ := hrows row hrow
    obtain ⟨o', ho', rfl⟩ := hrows row' hrow'
    have hsame := (hkind o' ho').trans (hkind o ho).symm
    obtain rfl := hkind o ho
    exact pairLE_or_continues hsame hlisted hns (hplace o ho) (hplace o' ho') hle
  exact {
    keys := hkeys
    pairs := hpairs.imp And.left
    continued := hpairs.imp And.right
    plain := fun hnone => hpairs.imp_of_mem fun hrow hrow' h =>
      h.1.resolve_right (hnone _ hrow _ hrow') }

/-! ### What a fetch gives -/

/-- The path of a request is what stands in front of the first mark of its target. -/
theorem Request.toList_path {target : String} (h : ofTarget? target = some request) :
    request.path.toList = Text.beforeList '?' (Text.beforeList '#' target.toList) := by
  simp only [ofTarget?] at h
  split at h
  · rw [← Text.getD_cutList]
    split at h
    · rename_i hcut
      obtain rfl := Option.some.inj h
      rw [hcut]
      exact String.toList_ofList
    · rename_i hcut
      obtain rfl := Option.some.inj h
      rw [hcut]
      exact String.toList_ofList
  · cases h

namespace Gateway

/-- However the name of a namespace ends a path, the path leads into one namespace. -/
theorem ns_ne_none_of_named {resource' own : String} {ns : Option String}
    (hrequest : Request.ofTarget? (listTarget resource (.named own)) = some request)
    (h : Inventory.locate request.path = some (resource', ns, none)) : ns ≠ none := by
  have hroot : ∃ root : String,
      Text.split '/' root = "" :: (Inventory.base resource ++ ["namespaces"]) ∧
      "/" ++ Text.join "/" (Inventory.base resource) ++ "/" ++ "namespaces/" = root ++ "/" ∧
      '?' ∉ (root ++ "/").toList ∧ '#' ∉ (root ++ "/").toList := by
    rcases Inventory.base_cases resource with hbase | hbase <;> rw [hbase]
    · exact ⟨"/api/v1/namespaces", by decide +kernel⟩
    · exact ⟨"/apis/apps/v1/namespaces", by decide +kernel⟩
  obtain ⟨root, hsplit, hjoin, hmark, hsign⟩ := hroot
  have htarget : (listTarget resource (.named own)).toList = (root ++ "/").toList ++
      (own ++ "/" ++ resource ++ "?&limit=" ++ toString pageLimit).toList := by
    rw [← String.toList_append, listTarget, listPath, hjoin]
    simp only [String.append_assoc]
  have hpath := Request.toList_path hrequest
  rw [htarget, Text.beforeList_append hsign, Text.beforeList_append hmark] at hpath
  obtain ⟨rest, hrest⟩ : ∃ rest : String, rest.toList = Text.beforeList '?' (Text.beforeList '#'
      (own ++ "/" ++ resource ++ "?&limit=" ++ toString pageLimit).toList) :=
    ⟨String.ofList _, String.toList_ofList⟩
  rw [← hrest, ← String.toList_append, String.toList_inj] at hpath
  have hsteps : (Text.split '/' request.path).drop 1 =
      Inventory.base resource ++ "namespaces" :: Text.split '/' rest := by
    rw [hpath, Text.split_append_slash, hsplit]
    simp
  have hlocated := Inventory.located_of_locate hsteps h
  rintro rfl
  rcases hparts : Text.split '/' rest with _ | ⟨_, _ | ⟨_, _ | ⟨_, parts⟩⟩⟩
  · exact Text.splitList_ne_nil '/' _ (List.map_eq_nil_iff.1 hparts)
  · simp [hparts, Inventory.located] at hlocated
  · simp [hparts, Inventory.located] at hlocated
  · cases parts <;> simp [hparts, Inventory.located] at hlocated

/-- What is listed for a kind with namespaces lies in a namespace that may be one. -/
theorem isLabel_of_mem_list (hserver : Pages inv server) (hinv : inv.Placed)
    (hkind : resource? kind = some resource) (hns : kind.namespaced = true)
    (hrequest : Request.ofTarget? (listTarget resource (askedScope kind scope)) = some request)
    (hlist : server.list request = .ok page) (hd : d ∈ page.items) :
    IsLabel ((Inventory.namespaceOf d).getD "") := by
  obtain ⟨resource', ns, hlocate, hpage⟩ := hserver.list request page hlist
  have hmem : d ∈ inv.inNamespace resource' ns := by
    have hitems := hpage.items_eq
    cases hlimit : request.limit? with
    | none =>
        rw [hlimit, Option.elim_none] at hitems
        exact hitems ▸ hd
    | some n =>
        rw [hlimit, Option.elim_some] at hitems
        exact List.mem_of_mem_take (hitems ▸ hd)
  obtain ⟨own, hown, hall⟩ : ∃ own, Inventory.namespaceOf d = some own ∧
      d ∈ inv.inNamespace resource' none := by
    cases ns with
    | some own =>
        obtain ⟨hall, hown⟩ := List.mem_filter.1 hmem
        exact ⟨own, beq_iff_eq.1 hown, hall⟩
    | none =>
        cases scope with
        | named own =>
            rw [askedScope, if_pos hns] at hrequest
            exact absurd rfl (ns_ne_none_of_named hrequest hlocate)
        | all =>
            have hfits : kind.namespaced = true → Scope.all.FitsPath := by
              intro _ own hall
              cases hall
            obtain ⟨hpath, -⟩ := eq_of_ofTarget? hkind hfits hrequest
            rw [hpath] at hlocate
            obtain ⟨rfl, -⟩ := eq_of_locate_listPath (notMem_resource hkind (by decide)) hlocate
            obtain ⟨own, hown⟩ := Option.ne_none_iff_exists'.1 (hinv.placed kind _ hkind hns d hmem)
            exact ⟨own, hown, hmem⟩
  rw [hown]
  exact hinv.label resource' d hall own hown

/-- Whatever lies in the cluster and whatever the scope is, the rows of pods, services and
deployments come in the order of their keys. -/
theorem rows_in_key_order (hserver : Pages inv server) (hinv : inv.Placed)
    (hkind : resource? kind = some resource) (hns : kind.namespaced = true)
    (parent : Option String) (h : (fetchRows server now ⟨kind, parent⟩ scope).2 = .ok rows) :
    KeyOrdered kind rows := by
  rw [fetchRows_eq hkind] at h
  obtain ⟨request, page, objects, hrequest, hlist, hobjects, rfl⟩ := listRows_eq_ok_iff.1 h
  have hread : ∀ o ∈ objects, ∃ d ∈ page.items, subject? kind d = some o := fun o ho => by
    have hmem : some o ∈ page.items.map (subject? kind) := hobjects ▸ List.mem_map_of_mem ho
    exact List.mem_map.1 hmem
  refine keyOrdered_sortRows hkind hns (fun o ho => ?_) fun o ho => ?_
  · obtain ⟨d, -, hd⟩ := hread o ho
    exact kind_of_subject? hd
  · obtain ⟨d, hmem, hd⟩ := hread o ho
    rw [place_of_subject? hd hns]
    exact isLabel_of_mem_list hserver hinv hkind hns hrequest hlist hmem

/-- A cluster with a pod in each of two namespaces, one of which continues the other. -/
def shops : Inventory := ⟨[("pods", [bare "shop-eu" "web", bare "shop" "web"])], []⟩

theorem fetchRows_shops : (fetchRows shops.paged 0 (.all .pods) .all).2 =
    .ok [bareRow "shop-eu" "web", bareRow "shop" "web"] := by
  have hpods : resource? .pods = some "pods" := rfl
  have hrequest : Request.ofTarget? (listTarget "pods" .all) =
      some ⟨"/api/v1/pods", "&limit=500"⟩ := by decide +kernel
  have hlocate : Inventory.locate "/api/v1/pods" = some ("pods", none, none) := by decide +kernel
  have hpage : shops.paged.list ⟨"/api/v1/pods", "&limit=500"⟩ =
      .ok (Inventory.firstPage (some pageLimit) [bare "shop-eu" "web", bare "shop" "web"]) := by
    simp only [Inventory.paged, Inventory.server, hlocate, Request.limit?, Option.bind_some,
      limitOf?_query]
    rfl
  have hsorted : sortRows [bareRow "shop-eu" "web", bareRow "shop" "web"] =
      [bareRow "shop-eu" "web", bareRow "shop" "web"] :=
    List.mergeSort_of_pairwise (by decide +kernel)
  rw [Target.all, fetchRows_eq hpods]
  refine listRows_eq_ok_iff.2 ⟨_, _,
    [.pod (bare "shop-eu" "web").pod, .pod (bare "shop" "web").pod], hrequest, hpage, ?_,
    hsorted.symm⟩
  simp [Inventory.firstPage, pageLimit, subject?_bare]

theorem placed_shops : shops.Placed := by
  refine Inventory.placed_of_forall fun r hr d hd => ?_
  obtain rfl := List.mem_singleton.1 hr
  rcases List.mem_cons.1 hd with rfl | hd
  · exact ⟨"shop-eu", rfl, by simp [IsLabelChar], by decide, by decide, by decide, by decide⟩
  · obtain rfl := List.mem_singleton.1 hd
    exact ⟨"shop", rfl, by simp [IsLabelChar], by decide, by decide, by decide, by decide⟩

theorem rows_in_key_order_shops :
    ∃ rows, (fetchRows shops.paged 0 (.all .pods) .all).2 = .ok rows ∧ KeyOrdered .pods rows :=
  ⟨_, fetchRows_shops, rows_in_key_order (Inventory.pages_paged shops) placed_shops rfl rfl none
    fetchRows_shops⟩

/-- The namespace that continues the other comes first, so the pairs do not ascend. -/
theorem longer_namespace_comes_first :
    Pages shops shops.paged ∧ shops.Placed ∧
      ∃ rows, (fetchRows shops.paged 0 (.all .pods) .all).2 = .ok rows ∧
        ¬rows.Pairwise (PairLE .pods) := by
  refine ⟨Inventory.pages_paged shops, placed_shops, _, fetchRows_shops, fun h => ?_⟩
  have hpair := List.rel_of_pairwise_cons h List.mem_cons_self
  have hnot : ¬("shop-eu" < "shop" ∨ "shop-eu" = "shop" ∧ "web" ≤ "web") := by decide
  exact hnot (Prod.lex_def.1 hpair)

end Gateway

end Cluster

end ClusterConsole
