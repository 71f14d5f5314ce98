import ClusterConsole.Proofs.Storage.Listing
import Mathlib.Data.List.Induction

/-!
# Writing over

Texts are written into one directory, one after the other, each under a name of its own
making. What was written last under a name stands there (`LastUnder`), and a text stays for
good if its name is not used again. `Filled` says what stands in the directory; a writing
keeps it (`Filled.concat`), and so does whatever leaves the directory alone (`Filled.congr`).
-/

namespace ClusterConsole.Storage

variable {ι : Type} {name text : ι → String} {entries : List ι} {e u : ι}

/-- The last of the entries that go by its name. -/
def LastUnder (name : ι → String) (entries : List ι) (e : ι) : Prop :=
  ∃ before later, entries = before ++ e :: later ∧ ∀ u ∈ later, name u ≠ name e

namespace LastUnder

theorem mem (h : LastUnder name entries e) : e ∈ entries := by
  obtain ⟨before, later, rfl, -⟩ := h
  simp

theorem concat_iff :
    LastUnder name (entries ++ [u]) e ↔ e = u ∨ (LastUnder name entries e ∧ name u ≠ name e) := by
  constructor
  · rintro ⟨before, later, heq, hlater⟩
    rcases List.eq_nil_or_concat later with rfl | ⟨later, v, rfl⟩
    · exact .inl (List.cons.inj (List.append_inj' heq rfl).2).1.symm
    · rw [List.concat_eq_append] at heq hlater
      rw [← List.cons_append, ← List.append_assoc] at heq
      obtain ⟨rfl, hv⟩ := List.append_inj' heq rfl
      obtain rfl : u = v := (List.cons.inj hv).1
      exact .inr ⟨⟨before, later, rfl, fun w hw => hlater w (List.mem_append_left _ hw)⟩,
        hlater u (List.mem_append_right _ List.mem_cons_self)⟩
  · rintro (rfl | ⟨⟨before, later, rfl, hlater⟩, hu⟩)
    · exact ⟨entries, [], rfl, nofun⟩
    · refine ⟨before, later ++ [u], by simp, fun w hw => ?_⟩
      rcases List.mem_append.1 hw with hw | hw
      · exact hlater w hw
      · rwa [List.mem_singleton.1 hw]

/-- Under each name that was used there is a last entry. -/
theorem exists_of_mem (name : ι → String) (h : e ∈ entries) :
    ∃ u, LastUnder name entries u ∧ name u = name e := by
  induction entries using List.reverseRecOn with
  | nil => cases h
  | append_singleton entries v ih =>
      by_cases hv : name v = name e
      · exact ⟨v, concat_iff.2 (.inl rfl), hv⟩
      · have he : e ∈ entries := by
          rcases List.mem_append.1 h with h | h
          · exact h
          · exact absurd (congrArg name (List.mem_singleton.1 h)).symm hv
        obtain ⟨u, hu, hue⟩ := ih he
        exact ⟨u, concat_iff.2 (.inr ⟨hu, hue ▸ hv⟩), hue⟩

end LastUnder

namespace Files

/-- What stands in a directory after the entries were written into it: under their names what
was written last, and nothing else that was not there before. -/
structure Filled (f : Files) (name text : ι → String) (entries : List ι) (f' : Files)
    (ps : List String) : Prop where
  latest : ∀ e, LastUnder name entries e →
    f'.at? (ps ++ [name e]) = some (.file (some (text e)))
  rest : ∀ part n, f'.at? (ps ++ [part]) = some n → f.at? (ps ++ [part]) = some n ∨
    ∃ e, LastUnder name entries e ∧ name e = part ∧ n = .file (some (text e))

variable {f f₁ f₂ : Files} {ps : List String} {path part : String} {s : String}

namespace Filled

theorem nothing (f : Files) (name text : ι → String) (ps : List String) :
    f.Filled name text [] f ps where
  latest _ he := nomatch he.mem
  rest _ _ hn := .inl hn

theorem congr (h : f.Filled name text entries f₁ ps)
    (hsame : ∀ part, f₂.at? (ps ++ [part]) = f₁.at? (ps ++ [part])) :
    f.Filled name text entries f₂ ps where
  latest e he := (hsame _).trans (h.latest e he)
  rest part n hn := h.rest part n ((hsame part).symm.trans hn)

theorem concat (h : f.Filled name text entries f₁ ps)
    (hself : f₂.at? (ps ++ [name u]) = some (.file (some (text u))))
    (hrest : ∀ part, part ≠ name u → f₂.at? (ps ++ [part]) = f₁.at? (ps ++ [part])) :
    f.Filled name text (entries ++ [u]) f₂ ps where
  latest e he := by
    rcases LastUnder.concat_iff.1 he with rfl | ⟨he, hne⟩
    · exact hself
    · rw [hrest _ hne.symm, h.latest e he]
  rest part n hn := by
    by_cases hpart : part = name u
    · subst hpart
      exact .inr ⟨u, LastUnder.concat_iff.2 (.inl rfl), rfl,
        Option.some.inj (hn.symm.trans hself)⟩
    · rw [hrest part hpart] at hn
      rcases h.rest part n hn with hn | ⟨e, he, rfl, rfl⟩
      · exact .inl hn
      · exact .inr ⟨e, LastUnder.concat_iff.2 (.inr ⟨he, Ne.symm hpart⟩), rfl, rfl⟩

end Filled

/-- A text in a directory that can be entered is read as it stands there. -/
theorem Entered.read (h : f.Entered path ps) (hpath : path ≠ "") (hpart : Path.IsName part)
    (hnameable : Files.nameable (Path.join path part) = true)
    (hat : f.at? (ps ++ [part]) = some (.file (some s))) :
    f.read (Path.join path part) = .ok s := by
  have hplace : place? (Path.join path part) = some (ps ++ [part]) := by
    rw [place?_join hpath hpart, h.place, Option.map_some]
  have hfree : f.blocked (ps ++ [part]) = false := by
    rw [blocked, List.any_eq_false]
    intro i hi
    have hle : i ≤ ps.length := by
      rw [List.mem_range, List.length_append, List.length_singleton] at hi
      omega
    rw [List.take_append_of_le_length hle, h.open_ i hle]
    decide
  have hfind : f.find (Path.join path part) = .ok (.file (some s)) := by
    simp [find, hnameable, hplace, hfree, hat, Path.not_namesDirectory_join hpath hpart]
  rw [Files.read, hfind]

end Files

end ClusterConsole.Storage
