import ClusterConsole.Console.State
import ClusterConsole.Proofs.Benchmark.ReportNames
import Mathlib.Data.List.Induction

/-!
# Layers of settings

All fields of the settings are laid over each other by one rule, `lay`: the later value
counts if it is set. A number and a text differ only in what is set. So the laws of merging
are those of `lay`, and each field of the settings in force for a container is the value of
the last layer that sets it (`prevailing?`).

The override of a container stands under a key that is joined from the path and the name.
A path has no bar, so the key tells the two apart, and no container sees the override of
another (`resolve_eq_of_agreeBut`).
-/

namespace ClusterConsole.Resource

/-- A key tells the path and the container, if the paths have no bar in them. -/
theorem containerKey_inj_of_bar_notMem {path path' container container' : String}
    (hpath : '|' ∉ path.toList) (hpath' : '|' ∉ path'.toList)
    (h : containerKey path container = containerKey path' container') :
    path = path' ∧ container = container' := by
  have hlist := congrArg String.toList h
  have hbar (p c : String) : (containerKey p c).toList = p.toList ++ '|' :: c.toList := by
    simp [containerKey, String.toList_append]
  rw [hbar, hbar] at hlist
  obtain ⟨hp, hc⟩ := Text.append_sep_inj hpath hpath' hlist
  exact ⟨String.toList_inj.1 hp, String.toList_inj.1 hc⟩

end ClusterConsole.Resource

namespace ClusterConsole.Benchmark

open ClusterConsole.Resource

/-! ## One value over another -/

section Over

variable {α : Type} {isSet : α → Bool} {a b : α} {layers later : List α}

/-- The later value, if it is set. -/
def lay (isSet : α → Bool) (base later : α) : α := if isSet later then later else base

theorem lay_of_set (h : isSet b = true) : lay isSet a b = b := if_pos h

theorem lay_of_unset (h : isSet b = false) : lay isSet a b = a := by simp [lay, h]

theorem lay_self (isSet : α → Bool) (a : α) : lay isSet a a = a := ite_self a

theorem lay_assoc (isSet : α → Bool) (a b c : α) :
    lay isSet (lay isSet a b) c = lay isSet a (lay isSet b c) := by
  cases hc : isSet c with
  | true => rw [lay_of_set hc, lay_of_set hc, lay_of_set hc]
  | false => rw [lay_of_unset hc, lay_of_unset hc]

theorem isSet_lay (h : isSet a = true) (b : α) : isSet (lay isSet a b) = true := by
  cases hb : isSet b with
  | true => rwa [lay_of_set hb]
  | false => rwa [lay_of_unset hb]

theorem isSet_foldl_lay (h : isSet a = true) (later : List α) :
    isSet (later.foldl (lay isSet) a) = true := by
  induction later generalizing a with
  | nil => exact h
  | cons b later ih => exact ih (isSet_lay h b)

/-- Of some layers, the lowest first, the last value that is set; the lowest if none is. -/
def prevailing? (isSet : α → Bool) (layers : List α) : Option α :=
  (layers.filter isSet).getLast?.or layers.head?

theorem prevailing?_concat (hne : layers ≠ []) (a : α) :
    prevailing? isSet (layers ++ [a]) =
      if isSet a then some a else prevailing? isSet layers := by
  have hhead : (layers ++ [a]).head? = layers.head? := List.head?_append_of_ne_nil layers hne
  cases ha : isSet a <;> simp [prevailing?, ha, hhead]

/-- Laying the values over each other leaves the one that prevails. -/
theorem prevailing?_cons (a : α) (later : List α) :
    prevailing? isSet (a :: later) = some (later.foldl (lay isSet) a) := by
  induction later using List.reverseRecOn with
  | nil => cases ha : isSet a <;> simp [prevailing?, ha]
  | append_singleton later b ih =>
      rw [← List.cons_append, prevailing?_concat (List.cons_ne_nil a later), ih,
        List.foldl_append]
      cases hb : isSet b <;> simp [lay, hb]

end Over

/-! ## The fields of the settings -/

inductive NumberField where
  | concurrency
  | requests

inductive TextField where
  | method
  | path
  | host
  | body

def NumberField.of : NumberField → Settings → Nat
  | concurrency, s => s.concurrency
  | requests, s => s.requests

def TextField.of : TextField → Settings → String
  | method, s => s.method
  | path, s => s.path
  | host, s => s.host
  | body, s => s.body

/-- A number is set if it is not zero. -/
def numberIsSet (n : Nat) : Bool := n != 0

/-- A text is set if it is not blank. -/
def textIsSet (s : String) : Bool := !Text.allBlank s

namespace Settings

variable {a b : Settings}

theorem ext_of (hnumber : ∀ f : NumberField, f.of a = f.of b)
    (htext : ∀ f : TextField, f.of a = f.of b) : a = b := by
  cases a
  cases b
  obtain rfl := hnumber .concurrency
  obtain rfl := hnumber .requests
  obtain rfl := htext .method
  obtain rfl := htext .path
  obtain rfl := htext .host
  obtain rfl := htext .body
  rfl

theorem overNumber_eq (a b : Nat) : overNumber a b = lay numberIsSet a b := by
  by_cases hb : b = 0 <;> simp [overNumber, lay, numberIsSet, hb]

theorem overText_eq (a b : String) : overText a b = lay textIsSet a b := by
  cases hb : Text.allBlank b <;> simp [overText, lay, textIsSet, hb]

theorem number_merge (f : NumberField) (a b : Settings) :
    f.of (a.merge b) = lay numberIsSet (f.of a) (f.of b) := by
  cases f <;> exact overNumber_eq _ _

theorem text_merge (f : TextField) (a b : Settings) :
    f.of (a.merge b) = lay textIsSet (f.of a) (f.of b) := by
  cases f <;> exact overText_eq _ _

theorem merge_assoc (a b c : Settings) : (a.merge b).merge c = a.merge (b.merge c) :=
  ext_of (fun f => by simp only [number_merge, lay_assoc])
    fun f => by simp only [text_merge, lay_assoc]

theorem merge_self (a : Settings) : a.merge a = a :=
  ext_of (fun f => by rw [number_merge, lay_self]) fun f => by rw [text_merge, lay_self]

theorem merge_unset (a : Settings) : a.merge unset = a := by
  refine ext_of (fun f => ?_) fun f => ?_
  · rw [number_merge, lay_of_unset]
    cases f <;> rfl
  · rw [text_merge, lay_of_unset]
    cases f <;> rfl

theorem number_foldl_merge (f : NumberField) (a : Settings) (later : List Settings) :
    f.of (later.foldl merge a) = (later.map f.of).foldl (lay numberIsSet) (f.of a) := by
  rw [List.foldl_map]
  exact (List.foldl_hom f.of fun a b => (number_merge f a b).symm).symm

theorem text_foldl_merge (f : TextField) (a : Settings) (later : List Settings) :
    f.of (later.foldl merge a) = (later.map f.of).foldl (lay textIsSet) (f.of a) := by
  rw [List.foldl_map]
  exact (List.foldl_hom f.of fun a b => (text_merge f a b).symm).symm

end Settings

/-! ## The settings in force -/

namespace SettingsFile

variable {f g : SettingsFile} {path container path' container' key : String}

theorem lookup_cons_ite (key : String) (c : String × Settings) (cs : List (String × Settings)) :
    (c :: cs).lookup key = if key = c.1 then some c.2 else cs.lookup key := by
  obtain ⟨key', s⟩ := c
  rw [List.lookup_cons]
  by_cases hc : key = key'
  · rw [if_pos hc, beq_iff_eq.2 hc]
  · rw [if_neg hc, beq_eq_false_iff_ne.2 hc]

/-- The settings that stand under a key. -/
def under? (f : SettingsFile) (key : String) : Option Settings := f.containers.lookup key

theorem override?_eq_under? (f : SettingsFile) (path container : String) :
    f.override? path container = f.under? (containerKey path container) := by
  obtain ⟨defaults, containers⟩ := f
  simp only [override?, under?]
  induction containers with
  | nil => rfl
  | cons c cs ih =>
      rw [lookup_cons_ite]
      by_cases hc : containerKey path container = c.1
      · simp [← hc]
      · simpa [hc, Ne.symm hc] using ih

/-- What a file says of a container, the lower layer first. -/
def given (f : SettingsFile) (path container : String) : List Settings :=
  f.defaults :: (f.under? (containerKey path container)).toList

/-- The layers that the settings of a container come from, the lowest first. -/
def layers (f : SettingsFile) (path container : String) : List Settings :=
  Settings.builtin :: f.given path container

theorem resolve_eq_foldl (f : SettingsFile) (path container : String) :
    f.resolve path container = (f.given path container).foldl Settings.merge Settings.builtin := by
  rw [resolve, override?_eq_under?, given]
  cases f.under? (containerKey path container) <;> rfl

/-- The file with an override put in for a container. -/
def withOverride (f : SettingsFile) (path container : String) (s : Settings) : SettingsFile :=
  { f with containers := insert (containerKey path container) s f.containers }

theorem lookup_insert_self (key : String) (s : Settings) (cs : List (String × Settings)) :
    (insert key s cs).lookup key = some s := by
  induction cs with
  | nil => simp [insert]
  | cons c cs ih =>
      rw [insert]
      split
      · rw [lookup_cons_ite, if_pos rfl]
      · rename_i hne
        split
        · rw [lookup_cons_ite, if_pos rfl]
        · rw [lookup_cons_ite, if_neg hne, ih]

theorem lookup_insert_of_ne (hne : key' ≠ key) (s : Settings) (cs : List (String × Settings)) :
    (insert key s cs).lookup key' = cs.lookup key' := by
  induction cs with
  | nil => simp [insert, lookup_cons_ite, hne]
  | cons c cs ih =>
      rw [insert]
      split
      · rename_i heq
        rw [lookup_cons_ite, lookup_cons_ite, if_neg hne, if_neg (heq ▸ hne)]
      · split
        · rw [lookup_cons_ite, if_neg hne]
        · rw [lookup_cons_ite, lookup_cons_ite, ih]

theorem layers_withOverride (f : SettingsFile) (path container : String) (s : Settings) :
    (f.withOverride path container s).layers path container =
      [Settings.builtin, f.defaults, s] := by
  simp [layers, given, under?, withOverride, lookup_insert_self]

/-- How the settings in force for a container come from the layers, the last of which is
the override that is put in for it. -/
structure Layered (f : SettingsFile) (path container : String) : Prop where
  overridden : ∀ s, (f.withOverride path container s).layers path container =
    [Settings.builtin, f.defaults, s]
  number : ∀ field : NumberField, some (field.of (f.resolve path container)) =
    prevailing? numberIsSet ((f.layers path container).map field.of)
  text : ∀ field : TextField, some (field.of (f.resolve path container)) =
    prevailing? textIsSet ((f.layers path container).map field.of)
  concurrency_pos : 1 ≤ (f.resolve path container).concurrency
  requests_pos : 1 ≤ (f.resolve path container).requests
  method_notBlank : Text.allBlank (f.resolve path container).method = false
  path_notBlank : Text.allBlank (f.resolve path container).path = false

theorem number_pos_of_builtin (field : NumberField) (f : SettingsFile) (path container : String) :
    1 ≤ field.of (f.resolve path container) := by
  have hset : numberIsSet (field.of Settings.builtin) = true := by cases field <;> rfl
  have hresolve := isSet_foldl_lay hset ((f.given path container).map field.of)
  rw [← Settings.number_foldl_merge, ← resolve_eq_foldl, numberIsSet, bne_iff_ne] at hresolve
  exact Nat.one_le_iff_ne_zero.2 hresolve

theorem text_notBlank_of_builtin (field : TextField)
    (hset : textIsSet (field.of Settings.builtin) = true) (f : SettingsFile)
    (path container : String) : Text.allBlank (field.of (f.resolve path container)) = false := by
  have hresolve := isSet_foldl_lay hset ((f.given path container).map field.of)
  rw [← Settings.text_foldl_merge, ← resolve_eq_foldl, textIsSet] at hresolve
  simpa using hresolve

theorem layered (f : SettingsFile) (path container : String) : f.Layered path container where
  overridden s := layers_withOverride f path container s
  number field := by
    rw [layers, List.map_cons, prevailing?_cons, resolve_eq_foldl, Settings.number_foldl_merge]
  text field := by
    rw [layers, List.map_cons, prevailing?_cons, resolve_eq_foldl, Settings.text_foldl_merge]
  concurrency_pos := number_pos_of_builtin .concurrency f path container
  requests_pos := number_pos_of_builtin .requests f path container
  method_notBlank := text_notBlank_of_builtin .method (by decide) f path container
  path_notBlank := text_notBlank_of_builtin .path (by decide) f path container

/-! ## The overrides of other containers -/

/-- The files differ at most in what stands under one key. -/
structure AgreeBut (key : String) (f g : SettingsFile) : Prop where
  defaults : f.defaults = g.defaults
  under : ∀ key', key' ≠ key → f.under? key' = g.under? key'

theorem agreeBut_withOverride (f : SettingsFile) (path container : String) (s : Settings) :
    AgreeBut (containerKey path container) (f.withOverride path container s) f :=
  ⟨rfl, fun _ hne => lookup_insert_of_ne hne s f.containers⟩

/-- What stands under the key of one container is nothing to another. -/
theorem resolve_eq_of_agreeBut (h : AgreeBut (containerKey path container) f g)
    (hpath : '|' ∉ path.toList) (hpath' : '|' ∉ path'.toList)
    (hne : (path', container') ≠ (path, container)) :
    f.resolve path' container' = g.resolve path' container' := by
  have hkey : containerKey path' container' ≠ containerKey path container := by
    intro heq
    obtain ⟨rfl, rfl⟩ := containerKey_inj_of_bar_notMem hpath' hpath heq
    exact hne rfl
  rw [resolve, resolve, override?_eq_under?, override?_eq_under?, h.under _ hkey, h.defaults]

end SettingsFile

/-! ## The locator of a forward -/

open ClusterConsole.Console (forwardUrl)

/-- The text is the locator of a path on a local port. The path starts with a slash, with one
of its own or with one that is put before it. -/
def Locates (url : String) (port : Nat) (path : String) : Prop :=
  ∃ rest, url = "http://localhost:" ++ toString port ++ rest ∧ rest.toList.head? = some '/' ∧
    (rest = Text.trim path ∨
      rest = "/" ++ Text.trim path ∧ (Text.trim path).toList.head? ≠ some '/')

theorem locates_forwardUrl (s : Forwarding.Session) (settings : Settings) :
    Locates (forwardUrl s settings) s.mapping.localPort settings.path := by
  unfold forwardUrl
  dsimp only
  split
  · exact ⟨_, rfl, ‹_›, .inl rfl⟩
  · exact ⟨_, rfl, by simp [String.toList_append], .inr ⟨rfl, ‹_›⟩⟩

/-- Settings are layered field by field, and whatever the file and the container they come
out fit for a run. No override is seen by another container. -/
theorem settings_layer_field_by_field :
    (∀ (f : SettingsFile) (path container : String), f.Layered path container) ∧
      (∀ a b c : Settings, (a.merge b).merge c = a.merge (b.merge c)) ∧
      (∀ a : Settings, a.merge a = a) ∧ (∀ a : Settings, a.merge Settings.unset = a) ∧
      (∀ (s : Forwarding.Session) (settings : Settings),
        Locates (forwardUrl s settings) s.mapping.localPort settings.path) ∧
      ∀ (f : SettingsFile) (path container path' container' : String),
        '|' ∉ path.toList → '|' ∉ path'.toList → (path', container') ≠ (path, container) →
          (∀ g, SettingsFile.AgreeBut (containerKey path container) f g →
            f.resolve path' container' = g.resolve path' container') ∧
          ∀ s, (f.withOverride path container s).resolve path' container' =
            f.resolve path' container' := by
  refine ⟨SettingsFile.layered, Settings.merge_assoc, Settings.merge_self, Settings.merge_unset,
    locates_forwardUrl, fun f path container path' container' hpath hpath' hne => ⟨?_, ?_⟩⟩
  · intro g h
    exact SettingsFile.resolve_eq_of_agreeBut h hpath hpath' hne
  · intro s
    exact SettingsFile.resolve_eq_of_agreeBut (f.agreeBut_withOverride path container s) hpath
      hpath' hne

end ClusterConsole.Benchmark
