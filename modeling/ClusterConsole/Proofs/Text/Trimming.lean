import ClusterConsole.Text.Cut
import Mathlib.Data.List.DropRight
import Mathlib.Data.List.Infix

/-!
# Trimmed texts

A text is trimmed if it neither starts nor ends with a blank. Trimming gives such a text and
leaves it alone, and so are the words of a line when they are joined by single blanks. A text
that grows at its end by a character has all of the trimmed text in its trimmed one
(`trimList_infix_concat`), blank or not.
-/

namespace ClusterConsole.Text

variable {c : Char} {cs ds : List Char} {s : String} {w : String} {ws : List String}

/-! ## Trimmed lists -/

/-- There is no blank at either end. -/
def Trimmed (cs : List Char) : Prop :=
  (∀ c ∈ cs.head?, isBlank c = false) ∧ ∀ c ∈ cs.getLast?, isBlank c = false

theorem trimList_eq (cs : List Char) :
    trimList cs = (cs.dropWhile isBlank).rdropWhile isBlank := rfl

theorem Trimmed.dropWhile_eq (h : Trimmed cs) : cs.dropWhile isBlank = cs := by
  cases cs with
  | nil => rfl
  | cons c cs => rw [List.dropWhile_cons, h.1 c rfl]; rfl

theorem Trimmed.trimList_eq (h : Trimmed cs) : trimList cs = cs := by
  rw [Text.trimList_eq, h.dropWhile_eq, List.rdropWhile_eq_self_iff]
  intro hne
  rw [h.2 _ (List.getLast?_eq_some_getLast hne)]
  exact Bool.false_ne_true

theorem trimmed_trimList (cs : List Char) : Trimmed (trimList cs) := by
  rw [trimList_eq]
  constructor
  · -- what is left begins as what is left without the blanks in front
    intro c hc
    obtain ⟨tail, htail⟩ := List.rdropWhile_prefix isBlank (cs.dropWhile isBlank)
    have hhead : (cs.dropWhile isBlank).head? = some c := by
      rw [← htail, List.head?_append, Option.mem_def.1 hc]
      rfl
    have hnot := List.head?_dropWhile_not isBlank cs
    rw [hhead] at hnot
    exact hnot
  · intro c hc
    have hne : (cs.dropWhile isBlank).rdropWhile isBlank ≠ [] := by
      intro hnil
      rw [hnil] at hc
      cases hc
    rw [Option.mem_def, List.getLast?_eq_some_getLast hne] at hc
    have hnot := List.rdropWhile_last_not isBlank _ hne
    rw [Option.some.inj hc] at hnot
    exact eq_false_of_ne_true hnot

theorem toList_trim (s : String) : (trim s).toList = trimList s.toList := by
  rw [trim, String.toList_ofList]

theorem trim_eq_self_iff : trim s = s ↔ Trimmed s.toList := by
  constructor
  · intro h
    rw [← h, toList_trim]
    exact trimmed_trimList _
  · intro h
    rw [trim, h.trimList_eq, String.ofList_toList]

@[simp]
theorem trim_trim (s : String) : trim (trim s) = trim s := by
  rw [trim_eq_self_iff, toList_trim]
  exact trimmed_trimList _

@[simp]
theorem trim_empty : trim "" = "" := by decide

/-- A text without blanks is trimmed. -/
theorem trimmed_of_forall (h : ∀ c ∈ cs, isBlank c = false) : Trimmed cs :=
  ⟨fun c hc => h c (List.mem_of_head? hc), fun c hc => h c (List.mem_of_getLast? hc)⟩

/-- Trimmed texts with anything between them are trimmed. -/
theorem Trimmed.append (hcs : Trimmed cs) (hds : Trimmed ds) (hcs' : cs ≠ []) (hds' : ds ≠ [])
    (between : List Char) : Trimmed (cs ++ between ++ ds) := by
  constructor
  · rw [List.append_assoc, List.head?_append_of_ne_nil _ hcs']
    exact hcs.1
  · rw [List.getLast?_append_of_ne_nil _ hds']
    exact hds.2

/-! ## Trimming around a character -/

theorem trimEndList_append_cons (hc : isBlank c = false) (cs ds : List Char) :
    trimEndList (cs ++ c :: ds) = cs ++ c :: trimEndList ds := by
  rw [trimEndList, trimEndList, List.reverse_append, List.reverse_cons, List.append_assoc,
    List.dropWhile_append]
  cases ds.reverse.dropWhile isBlank with
  | nil => simp [hc]
  | cons d ds => simp

theorem trimStartList_append_cons (hc : isBlank c = false) (cs ds : List Char) :
    trimStartList (cs ++ c :: ds) = trimStartList cs ++ c :: ds := by
  rw [trimStartList, trimStartList, List.dropWhile_append]
  cases cs.dropWhile isBlank with
  | nil => simp [hc]
  | cons d cs => rfl

/-- On either side of a character that is no blank the text is trimmed at its own end. -/
theorem trimList_append_cons (hc : isBlank c = false) (cs ds : List Char) :
    trimList (cs ++ c :: ds) = trimStartList cs ++ c :: trimEndList ds := by
  rw [trimList, trimStartList_append_cons hc, trimEndList_append_cons hc]

theorem trimList_trimEndList (cs : List Char) : trimList (trimEndList cs) = trimList cs := by
  induction cs using List.reverseRecOn with
  | nil => rfl
  | append_singleton cs c ih =>
      cases hc : isBlank c with
      | false => rw [trimEndList_append_cons hc cs []]; rfl
      | true =>
          have hend : trimEndList (cs ++ [c]) = trimEndList cs :=
            List.rdropWhile_concat_pos isBlank cs c hc
          have hfront : trimList (cs ++ [c]) = trimList cs := by
            rcases h : cs.dropWhile isBlank with _ | ⟨d, ds⟩ <;>
              simp [trimList, trimStartList, List.dropWhile_append, h, hc, trimEndList]
          rw [hend, ih, hfront]

/-! ## A text that grows -/

theorem trimList_concat (cs : List Char) (c : Char) : trimList (cs ++ [c]) =
    if isBlank c then trimList cs else cs.dropWhile isBlank ++ [c] := by
  have hdrop : (cs ++ [c]).dropWhile isBlank =
      if isBlank c = true ∧ cs.dropWhile isBlank = [] then [] else
        cs.dropWhile isBlank ++ [c] := by
    rw [List.dropWhile_append]
    cases cs.dropWhile isBlank <;> cases hc : isBlank c <;> simp [hc]
  rw [trimList_eq, hdrop, trimList_eq]
  cases hc : isBlank c with
  | true =>
      by_cases hnil : cs.dropWhile isBlank = []
      · simp [hnil]
      · simp [hnil, List.rdropWhile_concat_pos isBlank _ _ hc]
  | false => simp [List.rdropWhile_concat_neg isBlank _ c (by simp [hc])]

/-- Typing a character takes nothing from the trimmed text. -/
theorem trimList_infix_concat (cs : List Char) (c : Char) :
    trimList cs <:+: trimList (cs ++ [c]) := by
  rw [trimList_concat]
  split
  · exact List.infix_refl _
  · rw [trimList_eq]
    exact ((List.rdropWhile_prefix isBlank _).trans (List.prefix_append _ _)).isInfix

/-- A character that is erased adds nothing to the trimmed text. -/
theorem trimList_dropLast_infix_self (cs : List Char) : trimList cs.dropLast <:+: trimList cs := by
  rcases List.eq_nil_or_concat cs with rfl | ⟨cs, c, rfl⟩
  · exact List.infix_refl _
  · rw [List.concat_eq_append, List.dropLast_concat]
    exact trimList_infix_concat cs c

/-! ## Words -/

theorem mem_wordsFrom {run word : List Char} (hrun : ∀ c ∈ run, isBlank c = false)
    (h : word ∈ wordsFrom run cs) : word ≠ [] ∧ ∀ c ∈ word, isBlank c = false := by
  have hwhole (run : List Char) (hrun : ∀ c ∈ run, isBlank c = false)
      (hne : ¬run.isEmpty = true) : run.reverse ≠ [] ∧ ∀ c ∈ run.reverse, isBlank c = false := by
    refine ⟨by simpa using hne, fun c hc => hrun c (List.mem_reverse.1 hc)⟩
  induction cs generalizing run with
  | nil =>
      rw [wordsFrom] at h
      split at h
      · cases h
      · rw [List.mem_singleton.1 h]
        exact hwhole run hrun ‹_›
  | cons c cs ih =>
      rw [wordsFrom] at h
      split at h
      · split at h
        · exact ih (by simp) h
        · rcases List.mem_cons.1 h with rfl | h
          · exact hwhole run hrun ‹_›
          · exact ih (by simp) h
      · rename_i hc
        refine ih (fun d hd => ?_) h
        rcases List.mem_cons.1 hd with rfl | hd
        · exact eq_false_of_ne_true hc
        · exact hrun d hd

/-- A word is not empty, and there is no blank in it. -/
def IsWord (w : String) : Prop := w.toList ≠ [] ∧ ∀ c ∈ w.toList, isBlank c = false

theorem isWord_of_mem_words (h : w ∈ words s) : IsWord w := by
  obtain ⟨word, hword, rfl⟩ := List.mem_map.1 h
  rw [IsWord, String.toList_ofList]
  exact mem_wordsFrom (by simp) hword

theorem toList_join_cons_cons (sep w w' : String) (ws : List String) :
    (join sep (w :: w' :: ws)).toList =
      w.toList ++ sep.toList ++ (join sep (w' :: ws)).toList := by
  simp [join, String.intercalate_cons_cons]

/-- Words that are joined make a trimmed text. -/
theorem trim_join (h : ∀ w ∈ ws, IsWord w) (sep : String) :
    trim (join sep ws) = join sep ws := by
  have hjoined : ∀ w ws, (∀ v ∈ w :: ws, IsWord v) →
      (join sep (w :: ws)).toList ≠ [] ∧ Trimmed (join sep (w :: ws)).toList := by
    intro w ws h
    induction ws generalizing w with
    | nil =>
        have hw := h w List.mem_cons_self
        rw [join, String.intercalate_singleton]
        exact ⟨hw.1, trimmed_of_forall hw.2⟩
    | cons w' ws ih =>
        have hw := h w List.mem_cons_self
        have hws := ih w' fun v hv => h v (List.mem_cons_of_mem w hv)
        rw [toList_join_cons_cons]
        exact ⟨by simp [hw.1], (trimmed_of_forall hw.2).append hws.2 hw.1 hws.1 sep.toList⟩
  rw [trim_eq_self_iff]
  cases ws with
  | nil => exact trimmed_of_forall (by simp [join])
  | cons w ws => exact (hjoined w ws h).2

/-! ## Searching -/

theorem occursList_iff : occursList cs ds = true ↔ cs <:+: ds := by
  induction ds with
  | nil => simp [occursList, List.infix_nil]
  | cons d ds ih =>
      rw [occursList, Bool.or_eq_true, ih, List.isPrefixOf_iff_prefix, List.infix_cons_iff]

theorem occurs_iff {part : String} : occurs part s = true ↔ part.toList <:+: s.toList :=
  occursList_iff

theorem beforeList_append {sep : Char} (h : sep ∉ cs) (ds : List Char) :
    beforeList sep (cs ++ ds) = cs ++ beforeList sep ds :=
  List.takeWhile_append_of_pos fun _ hc => decide_eq_true fun heq => h (heq ▸ hc)

end ClusterConsole.Text
