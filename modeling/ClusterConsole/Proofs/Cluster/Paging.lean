import ClusterConsole.Cluster.Gateway
import ClusterConsole.Proofs.Console.Census
import ClusterConsole.Proofs.Storage.Listing
import Mathlib.Data.List.TakeWhile

/-!
# Lists in pages

A server that answers lists in pages (`Pages`) holds back what is beyond the limit and gives
a sign to continue with. A fetch sets a limit and does not look at the sign, so it gives the
rows of the first page, and a watcher takes these for all there is (`Faithful`). If there are
no more items than the limit allows, they are; if there are more, the rest looks to it as if
it were gone (`Overview`).

The name of a scope goes into the path as it is. Names that fit into it lead to the list
that was asked for or to none (`Gateway.eq_of_locate_listPath`); a question mark or a number
sign ends the path early.
-/

namespace ClusterConsole

open ClusterConsole.Console (Subject)
open ClusterConsole.Resource ClusterConsole.Snapshot ClusterConsole.Status ClusterConsole.Watching

/-! ## Reading all or nothing -/

section

variable {α β γ : Type} {f : α → Option β} {xs : List α} {ys : List β}

theorem mapM_eq_some_iff : xs.mapM f = some ys ↔ xs.map f = ys.map some := by
  induction xs generalizing ys with
  | nil =>
      rw [List.mapM_nil, List.map_nil, eq_comm (a := []), List.map_eq_nil_iff, eq_comm (b := [])]
      exact Option.some_inj
  | cons x xs ih =>
      rw [List.mapM_cons, List.map_cons]
      constructor
      · intro h
        obtain ⟨y, hy, h⟩ := Option.bind_eq_some_iff.1 h
        obtain ⟨ys', hys, h⟩ := Option.bind_eq_some_iff.1 h
        obtain rfl := Option.some.inj h
        rw [hy, ih.1 hys, List.map_cons]
      · intro h
        obtain ⟨y, ys', rfl, hy, hys⟩ := List.map_eq_cons_iff.1 h.symm
        rw [← hy, ih.2 hys.symm]
        rfl

theorem mapM_map (f : α → Option β) (g : β → γ) (xs : List α) :
    xs.mapM (fun x => (f x).map g) = (xs.mapM f).map (List.map g) := by
  induction xs with
  | nil => rfl
  | cons x xs ih =>
      rw [List.mapM_cons, List.mapM_cons, ih]
      cases f x with
      | none => rfl
      | some y => cases xs.mapM f <;> rfl

end

namespace Resource.Scope

/-- The namespace that the scope is confined to. -/
def ns? : Scope → Option String
  | all => none
  | named ns => some ns

/-- Nothing in the scope's name ends the path that the name is put into. -/
def FitsPath (scope : Scope) : Prop := ∀ ns, scope = named ns → '?' ∉ ns.toList ∧ '#' ∉ ns.toList

end Resource.Scope

namespace Cluster

/-! ## Servers that answer in pages -/

/-- The limit that a query sets, the first one if there are several. -/
def limitOf? (query : String) : Option Nat :=
  (Text.split '&' query).findSome? fun part =>
    (Text.cut '=' part).bind fun p => if p.1 = "limit" then Number.digits? p.2.toList else none

/-- The most items that a list is asked for. -/
def Request.limit? (r : Request) : Option Nat := r.query.bind limitOf?

/-- The page holds the items, or as many of the first ones as the limit allows, and then there
is a sign to continue with. -/
structure Fits (limit : Option Nat) (items : List Document) (page : Page) : Prop where
  items_eq : page.items = limit.elim items items.take
  continues : page.continueWith.isSome = true ↔ ∃ n, limit = some n ∧ n < items.length

/-- The server answers from the inventory, in pages if a limit is set. -/
structure Pages (inv : Inventory) (server : Server) : Prop where
  list : ∀ request page, server.list request = .ok page → ∃ resource ns,
    Inventory.locate request.path = some (resource, ns, none) ∧
      Fits request.limit? (inv.inNamespace resource ns) page

namespace Inventory

variable {inv : Inventory}

/-- The first page of a list. -/
def firstPage (limit : Option Nat) (items : List Document) : Page :=
  match limit with
  | some n => ⟨items.take n, if n < items.length then some "more" else none⟩
  | none => ⟨items, none⟩

theorem fits_firstPage (limit : Option Nat) (items : List Document) :
    Fits limit items (firstPage limit items) := by
  cases limit with
  | none => exact ⟨rfl, nofun, nofun⟩
  | some n =>
      refine ⟨rfl, ?_⟩
      by_cases hn : n < items.length <;> simp [firstPage, hn]

/-- The server that answers from the inventory in pages. -/
def paged (inv : Inventory) : Server where
  list request := (inv.server.list request).map fun page => firstPage request.limit? page.items
  get := inv.server.get

theorem list_server_eq_ok {request : Request} {page : Page}
    (h : inv.server.list request = .ok page) :
    ∃ resource ns, locate request.path = some (resource, ns, none) ∧
      page.items = inv.inNamespace resource ns := by
  simp only [server] at h
  split at h
  · rename_i resource ns hlocate
    split at h
    · cases h
    · obtain rfl := Except.ok.inj h
      exact ⟨resource, ns, hlocate, rfl⟩
  · cases h

theorem pages_paged (inv : Inventory) : Pages inv inv.paged where
  list request page h := by
    simp only [paged] at h
    cases hlist : inv.server.list request with
    | error status => rw [hlist] at h; cases h
    | ok whole =>
        rw [hlist] at h
        obtain rfl := Except.ok.inj h
        obtain ⟨resource, ns, hlocate, hitems⟩ := list_server_eq_ok hlist
        exact ⟨resource, ns, hlocate, hitems ▸ fits_firstPage request.limit? whole.items⟩

theorem base_cases (resource : String) :
    base resource = ["api", "v1"] ∨ base resource = ["apis", "apps", "v1"] := by
  rw [base]
  split
  · exact .inr rfl
  · exact .inl rfl

/-- What the steps behind the root of a path ask for. -/
def located (steps : List String) : Option (String × Option String × Option String) :=
  match steps with
  | [resource] => some (resource, none, none)
  | ["namespaces", name] => some ("namespaces", none, some name)
  | ["namespaces", ns, resource] => some (resource, some ns, none)
  | ["namespaces", ns, resource, name] => some (resource, some ns, some name)
  | _ => none

theorem located_of_locate {path resource : String} {steps : List String}
    {found : String × Option String × Option String}
    (hpath : (Text.split '/' path).drop 1 = base resource ++ steps)
    (h : locate path = some found) : located steps = some found := by
  rw [locate, hpath] at h
  rcases base_cases resource with hbase | hbase
  · rw [hbase] at h
    exact (Option.filter_eq_some_iff.1 h).1
  · rw [hbase] at h
    exact (Option.filter_eq_some_iff.1 h).1

end Inventory

/-! ## The resources of a kind -/

/-- What a server calls the resources of a kind. -/
def resource? : Kind → Option String
  | .pods => some "pods"
  | .services => some "services"
  | .deployments => some "deployments"
  | .nodes => some "nodes"
  | .namespaces => some "namespaces"
  | .containers | .forwards | .benchmarks => none

/-- The scope that the resources of a kind are asked for in. -/
def askedScope (kind : Kind) (scope : Scope) : Scope := if kind.namespaced then scope else .all

/-- What a document of a kind describes. -/
def subject? : Kind → Document → Option Subject
  | .pods, d => (Pod.ofDocument? d).map .pod
  | .services, d => (Service.ofDocument? d).map .service
  | .deployments, d => (Deployment.ofDocument? d).map .deployment
  | .nodes, d => (Node.ofDocument? d).map .node
  | .namespaces, d => (Namespace.ofDocument? d).map .namespace_
  | .containers, _ | .forwards, _ | .benchmarks, _ => none

variable {inv : Inventory} {server : Server} {kind : Kind} {scope : Scope} {resource : String}
  {now : Int} {items : List Document} {rows : List Row} {request : Request} {d : Document}
  {o : Subject} {c : Char}

theorem notMem_resource (h : resource? kind = some resource) (hc : c.isLower = false) :
    c ∉ resource.toList := by
  have hlower : ∀ c ∈ resource.toList, c.isLower = true := by
    cases kind <;> simp only [resource?, Option.some.injEq, reduceCtorEq] at h
    all_goals subst h; exact List.all_eq_true.1 (by decide)
  intro hmem
  rw [hlower c hmem] at hc
  cases hc

theorem fitsPath_askedScope (h : kind.namespaced = true → scope.FitsPath) :
    (askedScope kind scope).FitsPath := by
  rw [askedScope]
  split
  · exact h ‹_›
  · exact fun ns hns => nomatch hns

theorem kind_of_subject? (h : subject? kind d = some o) : o.kind = kind := by
  cases kind <;> simp only [subject?, Option.map_eq_some_iff, reduceCtorEq] at h
  all_goals obtain ⟨a, -, rfl⟩ := h; rfl

theorem eq_of_read? {α : Type} {s : Shape} {f : Document → α} {a : α}
    (h : s.read? f d = some a) : a = f d := by
  simp only [Shape.read?] at h
  split at h
  · exact (Option.some.inj h).symm
  · cases h

/-- An object lies where its document says. -/
theorem place_of_subject? (h : subject? kind d = some o) (hkind : kind.namespaced = true) :
    o.place = (Inventory.namespaceOf d).getD "" := by
  cases kind with
  | pods | services | deployments =>
      obtain ⟨a, ha, rfl⟩ := Option.map_eq_some_iff.1 h
      obtain rfl := eq_of_read? ha
      rfl
  | containers => cases h
  | nodes | namespaces | forwards | benchmarks => cases hkind

theorem inScope_of_mem (hd : d ∈ inv.inNamespace resource (askedScope kind scope).ns?)
    (ho : subject? kind d = some o) : o.InScope scope := by
  intro hkind
  rw [kind_of_subject? ho] at hkind
  rw [place_of_subject? ho hkind]
  cases scope with
  | all => rfl
  | named ns =>
      rw [askedScope, if_pos hkind] at hd
      have hns : Inventory.namespaceOf d = some ns := by
        simpa using (List.mem_filter.1 hd).2
      simp [hns, Scope.contains]

namespace Gateway

/-! ## What is asked for -/

/-- A path has the characters of its parts. -/
theorem notMem_listPath (hroot : c ∉ "/apis/v1/namespaces".toList) (hresource : c ∉ resource.toList)
    (hscope : ∀ ns, scope = .named ns → c ∉ ns.toList) :
    c ∉ (listPath resource scope).toList := by
  have hbase : c ∉ ("/" ++ Text.join "/" (Inventory.base resource) ++ "/").toList := by
    rcases Inventory.base_cases resource with h | h
    · have hjoin : "/" ++ Text.join "/" ["api", "v1"] ++ "/" = "/api/v1/" := by decide
      rw [h, hjoin]
      simp_all
    · have hjoin : "/" ++ Text.join "/" ["apis", "apps", "v1"] ++ "/" = "/apis/apps/v1/" := by
        decide
      rw [h, hjoin]
      simp_all
  cases scope <;> simp_all [listPath]

theorem toList_listTarget (resource : String) (scope : Scope) :
    (listTarget resource scope).toList =
      (listPath resource scope).toList ++ '?' :: "&limit=500".toList := by
  have hlimit : toString pageLimit = "500" := by decide
  simp [listTarget, hlimit]

theorem limitOf?_query : limitOf? "&limit=500" = some pageLimit := by decide +kernel

/-- A target whose path has no mark in it is sent as it is. -/
theorem ofTarget?_listTarget (hmark : '?' ∉ (listPath resource scope).toList)
    (hsign : '#' ∉ (listPath resource scope).toList)
    (h : Request.ofTarget? (listTarget resource scope) = some request) :
    request = ⟨listPath resource scope, some "&limit=500"⟩ := by
  have hbefore : Text.beforeList '#' (listTarget resource scope).toList =
      (listTarget resource scope).toList := by
    have hquery : '#' ∉ '?' :: "&limit=500".toList := by decide
    rw [Text.beforeList, List.takeWhile_eq_self_iff]
    intro c hc
    rw [decide_eq_true_iff]
    rintro rfl
    rw [toList_listTarget] at hc
    exact (List.mem_append.1 hc).elim hsign hquery
  simp only [Request.ofTarget?, hbefore] at h
  split at h
  · rw [toList_listTarget, Text.cutList_append hmark] at h
    simp only [String.ofList_toList] at h
    exact (Option.some.inj h).symm
  · cases h

/-- The steps of the path to a list. -/
theorem split_listPath (hslash : '/' ∉ resource.toList) (scope : Scope) :
    (Text.split '/' (listPath resource scope)).drop 1 = Inventory.base resource ++
      match scope with
      | .all => [resource]
      | .named ns => "namespaces" :: (Text.split '/' ns ++ [resource]) := by
  have hroot : ∃ root : String, Text.split '/' root = "" :: Inventory.base resource ∧
      "/" ++ Text.join "/" (Inventory.base resource) = root := by
    refine ⟨_, ?_, rfl⟩
    rcases Inventory.base_cases resource with h | h <;> rw [h] <;> decide +kernel
  obtain ⟨root, hsplit, hjoin⟩ := hroot
  cases scope with
  | all =>
      rw [listPath, hjoin, Text.split_append_slash, hsplit, Text.split_of_notMem hslash]
      rfl
  | named ns =>
      have hpath : listPath resource (.named ns) =
          root ++ "/" ++ "namespaces" ++ "/" ++ ns ++ "/" ++ resource := by
        have hlast : "namespaces/" = "namespaces" ++ "/" := by decide
        simp only [listPath, hjoin, hlast, String.append_assoc]
      have hword : Text.split '/' "namespaces" = ["namespaces"] := by decide +kernel
      rw [hpath, Text.split_append_slash, Text.split_append_slash, Text.split_append_slash, hsplit,
        hword, Text.split_of_notMem hslash]
      simp

/-- A path that leads to a list leads to the one that was asked for. -/
theorem eq_of_locate_listPath {resource' : String} {ns : Option String}
    (hslash : '/' ∉ resource.toList)
    (h : Inventory.locate (listPath resource scope) = some (resource', ns, none)) :
    resource' = resource ∧ ns = scope.ns? := by
  have hlocated := Inventory.located_of_locate (split_listPath hslash scope) h
  cases scope with
  | all =>
      have hsame : resource = resource' ∧ none = ns := by simpa [Inventory.located] using hlocated
      exact ⟨hsame.1.symm, hsame.2.symm⟩
  | named own =>
      dsimp only at hlocated
      -- a name with a slash in it makes more steps, and they lead to one resource or nowhere
      match hparts : Text.split '/' own with
      | [] => exact absurd (List.map_eq_nil_iff.1 hparts) (Text.splitList_ne_nil '/' _)
      | [part] =>
          rw [hparts] at hlocated
          have hsame : resource = resource' ∧ some part = ns := by
            simpa [Inventory.located] using hlocated
          rw [Text.eq_of_split hparts] at hsame
          exact ⟨hsame.1.symm, hsame.2.symm⟩
      | [_, _] => simp [hparts, Inventory.located] at hlocated
      | _ :: _ :: _ :: parts => cases parts <;> simp [hparts, Inventory.located] at hlocated

/-- A request for a list asks for the first items of it. -/
theorem eq_of_ofTarget? (hkind : resource? kind = some resource)
    (hscope : kind.namespaced = true → scope.FitsPath)
    (h : Request.ofTarget? (listTarget resource (askedScope kind scope)) = some request) :
    request.path = listPath resource (askedScope kind scope) ∧
      request.limit? = some pageLimit := by
  have hfits := fitsPath_askedScope hscope
  have hmark := notMem_listPath (by decide) (notMem_resource hkind (by decide))
    fun ns hns => (hfits ns hns).1
  have hsign := notMem_listPath (by decide) (notMem_resource hkind (by decide))
    fun ns hns => (hfits ns hns).2
  obtain rfl := ofTarget?_listTarget hmark hsign h
  exact ⟨rfl, limitOf?_query⟩

/-! ## What is answered -/

theorem listRows_map {α β : Type} {read? : Document → Option α} {g : α → β} {row : α → Row}
    {row' : β → Row} (h : ∀ a, row' (g a) = row a) :
    listRows server resource scope (fun d => (read? d).map g) row' =
      listRows server resource scope read? row := by
  simp only [listRows, list]
  cases Request.ofTarget? (listTarget resource scope) with
  | none => rfl
  | some request =>
      dsimp only
      cases server.list request with
      | error status => rfl
      | ok page =>
          dsimp only
          rw [mapM_map]
          cases page.items.mapM read? with
          | none => rfl
          | some objects => simp [Except.map, Function.comp_def, h]

/-- The kinds that are listed differ in what they are called and in what is read. -/
theorem fetchRows_eq (h : resource? kind = some resource) (parent : Option String) :
    fetchRows server now ⟨kind, parent⟩ scope =
      listRows server resource (askedScope kind scope) (subject? kind) (Subject.row now) := by
  have hlist {α : Type} (read? : Document → Option α) (g : α → Subject) (asked : Scope) :
      listRows server resource asked read? (fun a => (g a).row now) =
        listRows server resource asked (fun d => (read? d).map g) (Subject.row now) :=
    (listRows_map fun _ => rfl).symm
  cases kind with
  | pods =>
      obtain rfl := Option.some.inj h
      exact hlist Pod.ofDocument? .pod scope
  | services =>
      obtain rfl := Option.some.inj h
      exact hlist Service.ofDocument? .service scope
  | deployments =>
      obtain rfl := Option.some.inj h
      exact hlist Deployment.ofDocument? .deployment scope
  | nodes =>
      obtain rfl := Option.some.inj h
      exact hlist Node.ofDocument? .node .all
  | namespaces =>
      obtain rfl := Option.some.inj h
      exact hlist Namespace.ofDocument? .namespace_ .all
  | containers | forwards | benchmarks => cases h

theorem listRows_eq_ok_iff {α : Type} {read? : Document → Option α} {row : α → Row} :
    (listRows server resource scope read? row).2 = .ok rows ↔ ∃ request page,
      ∃ objects : List α, Request.ofTarget? (listTarget resource scope) = some request ∧
      server.list request = .ok page ∧ page.items.map read? = objects.map some ∧
      rows = sortRows (objects.map row) := by
  simp only [listRows, list]
  constructor
  · intro h
    split at h
    · cases h
    · rename_i request hrequest
      dsimp only at h
      split at h
      · cases h
      · rename_i page hpage
        split at h
        · cases h
        · rename_i objects hobjects
          exact ⟨request, page, objects, hrequest, hpage, mapM_eq_some_iff.1 hobjects,
            (Except.ok.inj h).symm⟩
  · rintro ⟨request, page, objects, hrequest, hpage, hobjects, rfl⟩
    simp only [hrequest, hpage, mapM_eq_some_iff.2 hobjects]
    rfl

/-! ## Clusters of pods -/

/-- A pod of which only the names are known. -/
def bare (ns name : String) : Document :=
  .map [("metadata", .map [("name", .text name), ("namespace", .text ns)])]

/-- The row of such a pod. -/
def bareRow (ns name : String) : Row := (bare ns name).pod.row 0

/-- A cluster in which there are such pods in one namespace, and nothing else. -/
def ofPods (ns : String) (names : List String) : Inventory := ⟨[("pods", names.map (bare ns))], []⟩

theorem subject?_bare (ns name : String) :
    subject? .pods (bare ns name) = some (.pod (bare ns name).pod) := by
  have hshape : Shape.pod.accepts (bare ns name) = true := rfl
  rw [subject?, Pod.ofDocument?, Shape.read?, if_pos hshape]
  rfl

theorem inNamespace_ofPods (ns : String) (names : List String) :
    (ofPods ns names).inNamespace "pods" (some ns) = names.map (bare ns) := by
  refine List.filter_eq_self.2 fun d hd => ?_
  obtain ⟨name, -, rfl⟩ := List.mem_map.1 hd
  exact beq_self_eq_true _

/-- Whatever the scope is, a request that gets to the pods of the namespace gives the first
of them. -/
theorem fetchRows_ofPods {ns : String} (names : List String)
    (hrequest : Request.ofTarget? (listTarget "pods" scope) = some request)
    (hlocate : Inventory.locate request.path = some ("pods", some ns, none))
    (hlimit : request.limit? = some pageLimit) :
    (fetchRows (ofPods ns names).paged 0 (.all .pods) scope).2 =
      .ok (sortRows ((names.take pageLimit).map (bareRow ns))) := by
  have hpage : (ofPods ns names).paged.list request =
      .ok (Inventory.firstPage (some pageLimit) (names.map (bare ns))) := by
    have hrefusal : (ofPods ns names).refusal? "pods" = none := rfl
    simp only [Inventory.paged, Inventory.server, hlocate, hlimit, hrefusal, inNamespace_ofPods]
    rfl
  have hpods : resource? .pods = some "pods" := rfl
  rw [Target.all, fetchRows_eq hpods]
  refine listRows_eq_ok_iff.2 ⟨request, _,
    (names.take pageLimit).map fun name => .pod (bare ns name).pod, hrequest, hpage, ?_, ?_⟩
  · rw [Inventory.firstPage, ← List.map_take, List.map_map, List.map_map]
    exact List.map_congr_left fun name _ => subject?_bare ns name
  · rw [List.map_map]
    rfl

theorem fetchRows_ofPods_dev (names : List String) :
    (fetchRows (ofPods "dev" names).paged 0 (.all .pods) (.named "dev")).2 =
      .ok (sortRows ((names.take pageLimit).map (bareRow "dev"))) := by
  have hrequest : Request.ofTarget? (listTarget "pods" (.named "dev")) =
      some ⟨"/api/v1/namespaces/dev/pods", "&limit=500"⟩ := by decide +kernel
  exact fetchRows_ofPods names hrequest (by decide +kernel) (by decide +kernel)

/-- The names of more pods than one page holds. -/
def crowd : List String := (List.range pageLimit).map (fun i => "pod-" ++ toString i) ++ ["web"]

theorem firstRow_crowd (scope : Scope) :
    Table.firstRow .pods scope (sortRows ((crowd.take pageLimit).map (bareRow "dev"))) "dev/web" =
      none := by
  refine List.find?_eq_none.2 fun row hrow => ?_
  rw [crowd, List.take_left' (by simp), sortRows, List.mem_mergeSort, List.map_map] at hrow
  obtain ⟨i, -, rfl⟩ := List.mem_map.1 hrow
  have hfqn : (bareRow "dev" ("pod-" ++ toString i)).fqn = "dev/" ++ ("pod-" ++ toString i) := rfl
  have hne : "dev/" ++ ("pod-" ++ toString i) ≠ "dev/web" := fun h => by
    simpa using congrArg String.toList h
  simp only [Function.comp_apply, Bool.and_eq_true, beq_iff_eq, not_and]
  exact fun _ h => hne (hfqn.symm.trans h)

/-! ## The first page -/

/-- The rows are those of the items, one for each. -/
def Shows (now : Int) (kind : Kind) (items : List Document) (rows : List Row) : Prop :=
  ∃ objects : List Subject, items.map (subject? kind) = objects.map some ∧
    rows.Perm (objects.map (Subject.row now))

theorem Shows.mem (h : Shows now kind items rows) (hd : d ∈ items) (ho : subject? kind d = some o) :
    o.row now ∈ rows := by
  obtain ⟨objects, hobjects, hperm⟩ := h
  have hmem : some o ∈ objects.map some := hobjects ▸ ho ▸ List.mem_map_of_mem hd
  exact hperm.mem_iff.2 (List.mem_map_of_mem (by simpa using hmem))

theorem Shows.exists_of_mem {row : Row} (h : Shows now kind items rows) (hrow : row ∈ rows) :
    ∃ d ∈ items, ∃ o, subject? kind d = some o ∧ o.row now = row := by
  obtain ⟨objects, hobjects, hperm⟩ := h
  obtain ⟨o, ho, rfl⟩ := List.mem_map.1 (hperm.mem_iff.1 hrow)
  obtain ⟨d, hd, hread⟩ := List.mem_map.1 (hobjects ▸ List.mem_map_of_mem ho)
  exact ⟨d, hd, o, hread, rfl⟩

/-- A fetch gives the rows of the first items that were asked for. -/
theorem shows_first_page (hserver : Pages inv server) (hkind : resource? kind = some resource)
    {parent : Option String} (hscope : kind.namespaced = true → scope.FitsPath)
    (h : (fetchRows server now ⟨kind, parent⟩ scope).2 = .ok rows) :
    Shows now kind ((inv.inNamespace resource (askedScope kind scope).ns?).take pageLimit)
      rows := by
  rw [fetchRows_eq hkind] at h
  obtain ⟨request, page, objects, hrequest, hlist, hobjects, rfl⟩ := listRows_eq_ok_iff.1 h
  obtain ⟨hpath, hlimit⟩ := eq_of_ofTarget? hkind hscope hrequest
  obtain ⟨resource', ns, hlocate, hpage⟩ := hserver.list request page hlist
  rw [hpath] at hlocate
  obtain ⟨rfl, rfl⟩ := eq_of_locate_listPath (notMem_resource hkind (by decide)) hlocate
  have hitems := hpage.items_eq
  rw [hlimit, Option.elim_some] at hitems
  exact ⟨objects, hitems ▸ hobjects, List.mergeSort_perm _ _⟩

/-- To whoever looks at the rows, the items are what there is. -/
structure Faithful (now : Int) (kind : Kind) (scope : Scope) (items : List Document)
    (rows : List Row) : Prop where
  shows : Shows now kind items rows
  /-- What a watcher then shows as gone is none of the items, -/
  removed : ∀ {L : Type} (w : Watcher L), w.target.kind = kind →
    ∀ e ∈ (w.conclude scope (.ok rows)).1.snapshot.entries, e.present = false →
      ∀ d ∈ items, ∀ o, subject? kind d = some o → o.Plain → (o.row now).fqn ≠ e.fqn
  /-- and what it has shown and is none of them is then shown as gone. -/
  lost : ∀ {L : Type} (w : Watcher L), w.target.kind = kind → w.snapshot.Sound kind →
    ∀ fqn prior, w.snapshot.present? fqn = some prior →
      (∀ d ∈ items, ∀ o, subject? kind d = some o → (o.row now).fqn ≠ fqn) →
        prior.gone ∈ (w.conclude scope (.ok rows)).1.snapshot.entries

theorem Shows.faithful (h : Shows now kind items rows)
    (hscope : ∀ d ∈ items, ∀ o, subject? kind d = some o → o.InScope scope) :
    Faithful now kind scope items rows where
  shows := h
  removed w hw e he hgone d hd o ho hplain hfqn := by
    subst hw
    have hkind := kind_of_subject? ho
    have hinScope : Table.inScope w.target.kind scope (o.row now).fqn = true := by
      rw [← hkind, Subject.inScope_row hplain, decide_eq_true_iff]
      exact hscope d hd o ho
    have hwidth : (o.row now).fields.length = w.target.kind.width := by
      rw [Subject.length_fields, hkind]
    exact Table.firstRow_ne_none (h.mem hd ho) hinScope hwidth
      (hfqn ▸ Table.firstRow_of_mem_advance he hgone)
  lost w hw hsound fqn prior hprior hnone := by
    subst hw
    refine Table.gone_mem_advance hsound hprior (List.find?_eq_none.2 fun row hrow => ?_)
    obtain ⟨d, hd, o, ho, rfl⟩ := h.exists_of_mem hrow
    simp [hnone d hd o ho]

/-- What a fetch gives of the items that were asked for: a picture of those on the first page,
and so of all of them if it holds them all. -/
structure Overview (now : Int) (kind : Kind) (scope : Scope) (items : List Document)
    (rows : List Row) : Prop where
  first : Faithful now kind scope (items.take pageLimit) rows
  whole : items.length ≤ pageLimit → Faithful now kind scope items rows

/-- Whatever there is in the cluster, a fetch gives the first page of what was asked for. -/
theorem fetch_gives_first_page (hserver : Pages inv server) (hkind : resource? kind = some resource)
    (parent : Option String) (hscope : kind.namespaced = true → scope.FitsPath)
    (h : (fetchRows server now ⟨kind, parent⟩ scope).2 = .ok rows) :
    Overview now kind scope (inv.inNamespace resource (askedScope kind scope).ns?) rows := by
  have hfirst := (shows_first_page hserver hkind hscope h).faithful
    fun d hd o ho => inScope_of_mem (List.mem_of_mem_take hd) ho
  refine ⟨hfirst, fun hlength => ?_⟩
  rwa [List.take_of_length_le hlength] at hfirst

theorem fetch_gives_first_page_dev :
    ∃ rows, (fetchRows (ofPods "dev" ["web"]).paged 0 (.all .pods) (.named "dev")).2 = .ok rows ∧
      Overview 0 .pods (.named "dev") ((ofPods "dev" ["web"]).inNamespace "pods" "dev") rows := by
  have hfits : Scope.FitsPath (.named "dev") := fun ns hns => by
    obtain rfl := Scope.named.inj hns
    decide
  exact ⟨_, fetchRows_ofPods_dev ["web"], fetch_gives_first_page (Inventory.pages_paged _) rfl none
    (fun _ => hfits) (fetchRows_ofPods_dev ["web"])⟩

/-- Of a crowd of pods the last is left out, and a watcher that has shown it shows it as gone.
A mark in the scope takes its end away, and the pods of another namespace are fetched. -/
theorem fetch_leaves_out_the_last :
    (∃ before rows,
      (fetchRows (ofPods "dev" ["web"]).paged 0 (.all .pods) (.named "dev")).2 = .ok before ∧
      (fetchRows (ofPods "dev" crowd).paged 0 (.all .pods) (.named "dev")).2 = .ok rows ∧
      bare "dev" "web" ∈ (ofPods "dev" crowd).inNamespace "pods" "dev" ∧
      rows.length + 1 = ((ofPods "dev" crowd).inNamespace "pods" "dev").length ∧
      let start : Watcher Unit := .new (.all .pods) (.named "dev") 2000
      let w := (start.conclude (.named "dev") (.ok before)).1
      ∃ e ∈ (w.conclude (.named "dev") (.ok rows)).1.snapshot.entries,
        e.fqn = "dev/web" ∧ e.change = .removed) ∧
    (fetchRows (ofPods "dev" ["web"]).paged 0 (.all .pods) (.named "dev/pods?x")).2 =
      .ok [bareRow "dev" "web"] ∧
    (ofPods "dev" ["web"]).inNamespace "pods" (some "dev/pods?x") = [] := by
  refine ⟨⟨_, _, fetchRows_ofPods_dev ["web"], fetchRows_ofPods_dev crowd, ?_, ?_, ?_⟩, ?_, rfl⟩
  · rw [inNamespace_ofPods]
    exact List.mem_map_of_mem (List.mem_append_right _ List.mem_cons_self)
  · simp [inNamespace_ofPods, sortRows, crowd]
  · -- the first fetch has a row of the key, so the table shows it
    have hrow : bareRow "dev" "web" ∈ sortRows ((["web"].take pageLimit).map (bareRow "dev")) :=
      List.mem_mergeSort.2 List.mem_cons_self
    have hscope : Table.inScope .pods (.named "dev") (bareRow "dev" "web").fqn = true := by
      decide +kernel
    obtain ⟨row, hfirst⟩ := Option.ne_none_iff_exists'.1 (Table.firstRow_ne_none hrow hscope rfl)
    have hshown := Table.present?_advance .pods (.named "dev")
      (some (Table.empty .pods (.named "dev")))
      (sortRows ((["web"].take pageLimit).map (bareRow "dev"))) (bareRow "dev" "web").fqn
    rw [hfirst, Option.map_some] at hshown
    have hsound := Table.Sound.advance .pods (.named "dev")
      (some (Table.empty .pods (.named "dev")))
      (sortRows ((["web"].take pageLimit).map (bareRow "dev")))
    have hfqn := Table.fqn_of_get? (Table.present?_eq_some_iff.1 hshown).1
    exact ⟨_, Table.gone_mem_advance hsound hshown (firstRow_crowd _), hfqn, rfl⟩
  · have hrequest : Request.ofTarget? (listTarget "pods" (.named "dev/pods?x")) =
        some ⟨"/api/v1/namespaces/dev/pods", "x/pods?&limit=500"⟩ := by decide +kernel
    rw [fetchRows_ofPods ["web"] hrequest (by decide +kernel) (by decide +kernel)]
    exact congrArg Except.ok (List.mergeSort_singleton _)

end Gateway

end Cluster

end ClusterConsole
