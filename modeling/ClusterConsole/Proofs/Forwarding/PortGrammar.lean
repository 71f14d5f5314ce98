import ClusterConsole.Forwarding.Mapping
import ClusterConsole.Proofs.Number.Written
import ClusterConsole.Proofs.Text.Trimming

/-!
# The grammar of port mappings

An operator types a mapping freely: blanks stand around it and around its sides, a protocol
follows a port behind a slash, one port serves for both ends. `Mapping.Spelled` is the grammar
of these texts. It is said by what a text is made of and not by how it is read: what is left
without blanks (`Text.TrimsTo`), what stands before a separator (`Text.UpTo`), and what is a
numeral (`Number.Numeral`).

A text is read as the mapping that it spells, and as none if it spells none
(`Mapping.reads_its_grammar`). So a text spells one mapping at most, and a mapping that is
written and read is the same mapping.
-/

namespace ClusterConsole.Text

variable {sep : Char} {cs core front back head : List Char}

/-! ## Trimmed texts and their parts -/

/-- What is left of a list without the blanks at its ends. -/
structure TrimsTo (cs core : List Char) : Prop where
  trimmed : Trimmed core
  blanks : ∃ front back, cs = front ++ core ++ back ∧
    (∀ c ∈ front, isBlank c = true) ∧ ∀ c ∈ back, isBlank c = true

theorem trimsTo_trimList (cs : List Char) : TrimsTo cs (trimList cs) where
  trimmed := trimmed_trimList cs
  blanks := by
    refine ⟨cs.takeWhile isBlank, (cs.dropWhile isBlank).rtakeWhile isBlank, ?_,
      fun c hc => List.mem_takeWhile_imp hc, fun c hc => List.mem_rtakeWhile_imp hc⟩
    rw [trimList_eq, List.append_assoc, List.rdropWhile_append_rtakeWhile,
      List.takeWhile_append_dropWhile]

theorem trimList_blanks (hfront : ∀ c ∈ front, isBlank c = true)
    (hback : ∀ c ∈ back, isBlank c = true) (hcore : Trimmed core) :
    trimList (front ++ core ++ back) = core := by
  rw [trimList_eq, List.append_assoc, List.dropWhile_append_of_pos hfront]
  rcases core with _ | ⟨c, core⟩
  · rw [List.nil_append, List.dropWhile_eq_nil_iff.2 hback, List.rdropWhile_nil]
  · have hc : isBlank c = false := hcore.1 c rfl
    have hend : ((c :: core) ++ back).rdropWhile isBlank = (c :: core).rdropWhile isBlank := by
      rw [List.rdropWhile, List.reverse_append,
        List.dropWhile_append_of_pos fun d hd => hback d (List.mem_reverse.1 hd)]
      rfl
    have htrim := hcore.trimList_eq
    rw [trimList_eq, List.dropWhile_cons_of_neg (by simp [hc])] at htrim
    rw [List.cons_append, List.dropWhile_cons_of_neg (by simp [hc]), ← List.cons_append, hend,
      htrim]

theorem trimsTo_iff : TrimsTo cs core ↔ trimList cs = core := by
  constructor
  · rintro ⟨htrimmed, front, back, rfl, hfront, hback⟩
    exact trimList_blanks hfront hback htrimmed
  · rintro rfl
    exact trimsTo_trimList cs

/-- What stands before the first separator; all of the list, if there is none. -/
structure UpTo (sep : Char) (cs head : List Char) : Prop where
  notMem : sep ∉ head
  rest : cs = head ∨ ∃ rest, cs = head ++ sep :: rest

theorem upTo_beforeList (sep : Char) (cs : List Char) : UpTo sep cs (beforeList sep cs) where
  notMem hmem := by simpa using List.mem_takeWhile_imp hmem
  rest := by
    have hsplit : beforeList sep cs ++ cs.dropWhile (· ≠ sep) = cs :=
      List.takeWhile_append_dropWhile
    have hstop := List.head?_dropWhile_not (· ≠ sep) cs
    cases hrest : cs.dropWhile (· ≠ sep) with
    | nil =>
        rw [hrest, List.append_nil] at hsplit
        exact .inl hsplit.symm
    | cons c rest =>
        rw [hrest] at hsplit hstop
        obtain rfl : c = sep := by simpa using hstop
        exact .inr ⟨rest, hsplit.symm⟩

theorem upTo_iff : UpTo sep cs head ↔ beforeList sep cs = head := by
  constructor
  · rintro ⟨hnot, hrest⟩
    have hall : ∀ c ∈ head, decide (c ≠ sep) = true := fun c hc =>
      decide_eq_true fun heq => hnot (heq ▸ hc)
    rcases hrest with rfl | ⟨rest, rfl⟩
    · exact List.takeWhile_eq_self_iff.2 hall
    · rw [beforeList, List.takeWhile_append_of_pos hall]
      simp
  · rintro rfl
    exact upTo_beforeList sep cs

end ClusterConsole.Text

namespace ClusterConsole.Number

variable {bound n : Nat} {cs : List Char}

/-! ## Numerals -/

/-- One or more digits, a plus sign before them or none, and their value. -/
inductive Numeral : List Char → Nat → Prop where
  | plain {ds : List Char} (hne : ds ≠ []) (hds : ∀ c ∈ ds, c.isDigit = true) :
      Numeral ds (Nat.ofDigitChars 10 ds 0)
  | signed {ds : List Char} (hne : ds ≠ []) (hds : ∀ c ∈ ds, c.isDigit = true) :
      Numeral ('+' :: ds) (Nat.ofDigitChars 10 ds 0)

theorem unsigned?_eq_some_iff : unsigned? bound cs = some n ↔ Numeral cs n ∧ n < bound := by
  constructor
  · intro h
    unfold unsigned? at h
    split at h
    all_goals
      obtain ⟨hne, hds, rfl, hlt⟩ := digitsBelow?_eq_some_iff.1 h
    · exact ⟨.signed hne hds, hlt⟩
    · exact ⟨.plain hne hds, hlt⟩
  · rintro ⟨hnumeral, hlt⟩
    cases hnumeral with
    | signed hne hds => exact digitsBelow?_eq_some_iff.2 ⟨hne, hds, rfl, hlt⟩
    | plain hne hds =>
        unfold unsigned?
        split
        · -- a plus sign is no digit
          exact absurd (hds '+' List.mem_cons_self) (by decide)
        · exact digitsBelow?_eq_some_iff.2 ⟨hne, hds, rfl, hlt⟩

end ClusterConsole.Number

namespace ClusterConsole.Forwarding

open ClusterConsole.Number ClusterConsole.Text

variable {n : Nat} {cs : List Char} {m : Mapping}

/-! ## Mappings -/

/-- The numbers of ports. -/
def IsPort (n : Nat) : Prop := 1 ≤ n ∧ n ≤ 65535

theorem port?_eq_some_iff : port? cs = some n ↔ Numeral cs n ∧ IsPort n := by
  have hrange : n < portBound ∧ n ≠ 0 ↔ IsPort n := by
    simp only [portBound, IsPort]
    omega
  rw [port?, Option.filter_eq_some_iff, unsigned?_eq_some_iff, decide_eq_true_iff, and_assoc,
    hrange]

namespace Mapping

/-- One side of a mapping: what stands before the first slash is a port, blanks put aside. -/
structure Side (cs : List Char) (n : Nat) : Prop where
  isPort : IsPort n
  spelled : ∃ inner head numeral, TrimsTo cs inner ∧ UpTo '/' inner head ∧
    TrimsTo head numeral ∧ Numeral numeral n

/-- The mappings that a text stands for: two sides around the first colon, or one text for
both sides. -/
inductive Spelled (cs : List Char) : Mapping → Prop where
  | both {inner : List Char} {l r : Nat} (htrim : TrimsTo cs inner) (hcolon : ':' ∉ inner)
      (hl : Side inner l) (hr : Side inner r) : Spelled cs ⟨l, r⟩
  | pair {a b : List Char} {l r : Nat} (htrim : TrimsTo cs (a ++ ':' :: b)) (hcolon : ':' ∉ a)
      (hl : Side a l) (hr : Side b r) : Spelled cs ⟨l, r⟩

theorem side?_eq_some_iff : side? cs = some n ↔ Side cs n := by
  rw [side?, port?_eq_some_iff]
  constructor
  · rintro ⟨hnumeral, hport⟩
    exact ⟨hport, _, _, _, trimsTo_trimList cs, upTo_beforeList '/' _, trimsTo_trimList _,
      hnumeral⟩
  · rintro ⟨hport, inner, head, numeral, hinner, hhead, htrim, hnumeral⟩
    rw [trimsTo_iff.1 hinner, upTo_iff.1 hhead, trimsTo_iff.1 htrim]
    exact ⟨hnumeral, hport⟩

/-- Both sides have to be ports. -/
theorem sides_eq_some_iff {a b : List Char} :
    ((side? a).bind fun l => (side? b).map fun r => (⟨l, r⟩ : Mapping)) = some m ↔
      Side a m.localPort ∧ Side b m.remotePort := by
  simp only [Option.bind_eq_some_iff, Option.map_eq_some_iff, side?_eq_some_iff]
  constructor
  · rintro ⟨l, hl, r, hr, rfl⟩
    exact ⟨hl, hr⟩
  · rintro ⟨hl, hr⟩
    exact ⟨m.localPort, hl, m.remotePort, hr, rfl⟩

theorem read?_eq_some_iff {source : String} :
    read? source = some m ↔ Spelled source.toList m := by
  have htrim : TrimsTo source.toList (trimList source.toList) := trimsTo_trimList _
  rw [read?]
  cases hcut : cutList ':' (trimList source.toList) with
  | none =>
      have hcolon := cutList_eq_none_iff.1 hcut
      simp only [Option.getD_none, sides_eq_some_iff]
      constructor
      · rintro ⟨hl, hr⟩
        exact .both htrim hcolon hl hr
      · intro h
        cases h with
        | both htrim' hcolon' hl hr =>
            obtain rfl := trimsTo_iff.1 htrim'
            exact ⟨hl, hr⟩
        | pair htrim' hcolon' hl hr =>
            rw [trimsTo_iff.1 htrim'] at hcolon
            exact absurd (List.mem_append_right _ List.mem_cons_self) hcolon
  | some sides =>
      obtain ⟨a, b⟩ := sides
      obtain ⟨hsplit, hcolon⟩ := cutList_eq_some hcut
      simp only [Option.getD_some, sides_eq_some_iff]
      constructor
      · rintro ⟨hl, hr⟩
        exact .pair (hsplit ▸ htrim) hcolon hl hr
      · intro h
        cases h with
        | both htrim' hcolon' hl hr =>
            rw [← trimsTo_iff.1 htrim', hsplit] at hcolon'
            exact absurd (List.mem_append_right _ List.mem_cons_self) hcolon'
        | pair htrim' hcolon' hl hr =>
            rw [trimsTo_iff.1 htrim', cutList_append hcolon'] at hcut
            obtain ⟨rfl, rfl⟩ := Prod.mk.inj (Option.some.inj hcut)
            exact ⟨hl, hr⟩

theorem Spelled.isPort (h : Spelled cs m) : IsPort m.localPort ∧ IsPort m.remotePort := by
  cases h with
  | both _ _ hl hr => exact ⟨hl.isPort, hr.isPort⟩
  | pair _ _ hl hr => exact ⟨hl.isPort, hr.isPort⟩

/-- A port that is written is a side of a mapping. -/
theorem side_toString (h : IsPort n) : Side (toString n).toList n where
  isPort := h
  spelled := by
    have hword := isWord_toString n
    have htrim : TrimsTo (toString n).toList (toString n).toList :=
      trimsTo_iff.2 (trimmed_of_forall hword.2).trimList_eq
    have hslash : '/' ∉ (toString n).toList := fun hmem =>
      absurd (isDigit_of_mem_toString hmem) (by decide)
    have hnumeral : Numeral (toString n).toList n :=
      (unsigned?_eq_some_iff.1 (unsigned?_toString n.lt_succ_self)).1
    exact ⟨_, _, _, htrim, ⟨hslash, .inl rfl⟩, htrim, hnumeral⟩

/-- What is written of a mapping between ports spells it. -/
theorem spelled_text (hl : IsPort m.localPort) (hr : IsPort m.remotePort) :
    Spelled m.text.toList m := by
  have htext : m.text.toList =
      (toString m.localPort).toList ++ ':' :: (toString m.remotePort).toList := by
    simp [text]
  have hblank : ∀ c ∈ m.text.toList, isBlank c = false := by
    simp only [htext, List.mem_append, List.mem_cons]
    rintro c (hc | rfl | hc)
    · exact (isWord_toString _).2 c hc
    · decide
    · exact (isWord_toString _).2 c hc
  have hcolon : ':' ∉ (toString m.localPort).toList := fun hmem =>
    absurd (isDigit_of_mem_toString hmem) (by decide)
  have htrim : TrimsTo m.text.toList m.text.toList :=
    trimsTo_iff.2 (trimmed_of_forall hblank).trimList_eq
  exact .pair (htext ▸ htrim) hcolon (side_toString hl) (side_toString hr)

/-- Texts are read as the mappings that they spell. -/
structure ReadsGrammar : Prop where
  reads : ∀ (source : String) (m : Mapping),
    read? source = some m ↔ Spelled source.toList m
  refuses : ∀ source : String, read? source = none ↔ ∀ m, ¬ Spelled source.toList m
  inRange : ∀ (source : String) (m : Mapping), read? source = some m →
    IsPort m.localPort ∧ IsPort m.remotePort
  /-- What is written of any two ports reads back as they are, -/
  written : ∀ l r, IsPort l → IsPort r → read? (text ⟨l, r⟩) = some ⟨l, r⟩
  /-- and so does what is written of a mapping that was read. -/
  again : ∀ (source : String) (m : Mapping), read? source = some m → read? m.text = some m

theorem reads_its_grammar : ReadsGrammar where
  reads _ _ := read?_eq_some_iff
  refuses source := by
    rw [Option.eq_none_iff_forall_ne_some]
    exact forall_congr' fun m => not_congr read?_eq_some_iff
  inRange _ _ h := (read?_eq_some_iff.1 h).isPort
  written l r hl hr := read?_eq_some_iff.2 (spelled_text hl hr)
  again source m h := by
    obtain ⟨hl, hr⟩ := (read?_eq_some_iff.1 h).isPort
    exact read?_eq_some_iff.2 (spelled_text hl hr)

/-- Zeros in front count for nothing and neither does what follows a slash, but the first colon
divides the text even there; the number after the last port is none. -/
example : read? " +0080 : 65535/a:b " = some ⟨80, 65535⟩ ∧ read? "9000/a:b" = none ∧
    read? "80:65536" = none := by decide

end Mapping

end ClusterConsole.Forwarding
