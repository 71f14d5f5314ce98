import ClusterConsole.Cluster.Rows
import ClusterConsole.Forwarding.Mapping
import ClusterConsole.Proofs.Number.Written
import ClusterConsole.Proofs.Storage.Listing
import ClusterConsole.Proofs.Text.Casing
import ClusterConsole.Resource.Kind

/-!
# The default port of a forward

The ports that a container declares are written into one cell, and the default port of a
forward is looked for in that cell. Between the two stand only a comma for each entry, a colon
behind a name and a slash before a protocol. What is written of an entry reads back as its
number if the entry is usable, and as nothing otherwise (`DeclaredPort.tcpPort?_text`), however
its name looks; so the port that is found is that of the first usable entry
(`Container.defaultPort_row`).
-/

namespace ClusterConsole.Text

variable {sep : Char} {s t : String} {parts : List String}

/-- Texts without the separator are the parts of the text that they are joined to. -/
theorem splitList_join (hne : parts ≠ []) (h : ∀ p ∈ parts, sep ∉ p.toList) :
    splitList sep (join (String.singleton sep) parts).toList = parts.map String.toList := by
  induction parts with
  | nil => exact absurd rfl hne
  | cons p parts ih =>
      have hp := splitList_of_notMem (h p List.mem_cons_self)
      cases parts with
      | nil => simpa [join] using hp
      | cons q parts =>
          have htail := ih (List.cons_ne_nil _ _) fun r hr => h r (List.mem_cons_of_mem p hr)
          rw [toList_join_cons_cons, String.toList_singleton, List.append_assoc,
            List.singleton_append, splitList_append, hp, htail]
          rfl

end ClusterConsole.Text

namespace ClusterConsole.Number

variable {c : Char} {i : Int}

theorem toList_toString_negSucc (n : Nat) :
    (toString (Int.negSucc n)).toList = '-' :: (toString (n + 1)).toList := by
  have hsign : toString (Int.negSucc n) = "-" ++ toString (n + 1) := rfl
  rw [hsign, String.toList_append]
  rfl

theorem mem_toString_int (h : c ∈ (toString i).toList) : c = '-' ∨ c.isDigit = true := by
  cases i with
  | ofNat n => exact .inr (isDigit_of_mem_toString h)
  | negSucc n =>
      rw [toList_toString_negSucc] at h
      exact (List.mem_cons.1 h).imp_right isDigit_of_mem_toString

theorem isWord_toString_int (i : Int) : Text.IsWord (toString i) := by
  constructor
  · cases i with
    | ofNat n => exact toList_toString_ne_nil n
    | negSucc n =>
        rw [toList_toString_negSucc]
        exact List.cons_ne_nil _ _
  · intro c hc
    rcases mem_toString_int hc with rfl | hdigit
    · decide
    · exact Text.isBlank_of_isDigit hdigit

end ClusterConsole.Number

namespace ClusterConsole.Forwarding

open ClusterConsole.Number

variable {sep : Char} {cs ds : List Char}

theorem afterLast_of_notMem (h : sep ∉ cs) : afterLast sep cs = cs := by
  have hall : cs.reverse.takeWhile (· ≠ sep) = cs.reverse :=
    List.takeWhile_eq_self_iff.2 fun c hc =>
      decide_eq_true fun heq => h (heq ▸ List.mem_reverse.1 hc)
  rw [afterLast, Text.beforeList, hall, List.reverse_reverse]

theorem afterLast_append_cons (h : sep ∉ ds) : afterLast sep (cs ++ sep :: ds) = ds := by
  have hall : ∀ c ∈ ds.reverse, decide (c ≠ sep) = true := fun c hc =>
    decide_eq_true fun heq => h (heq ▸ List.mem_reverse.1 hc)
  rw [afterLast, Text.beforeList, List.reverse_append, List.reverse_cons, List.append_assoc,
    List.takeWhile_append_of_pos hall]
  simp

/-- A number that is written reads back as a port if it is one. -/
theorem port?_toString (i : Int) :
    port? (toString i).toList = if 1 ≤ i ∧ i ≤ 65535 then some i.toNat else none := by
  cases i with
  | ofNat n =>
      have hread : unsigned? portBound (toString (Int.ofNat n)).toList =
          if n < portBound then some n else none := unsigned?_toString_eq portBound n
      have hport : (n < portBound ∧ n ≠ 0) ↔ 1 ≤ Int.ofNat n ∧ Int.ofNat n ≤ 65535 := by
        simp only [portBound, Int.ofNat_eq_natCast]
        omega
      rw [port?, hread, ← if_congr hport rfl rfl, ite_and]
      split <;> simp [Option.filter]
  | negSucc n =>
      have hport : ¬(1 ≤ Int.negSucc n ∧ Int.negSucc n ≤ 65535) := by omega
      rw [port?, toList_toString_negSucc, if_neg hport]
      rfl

end ClusterConsole.Forwarding

namespace ClusterConsole.Cluster

open ClusterConsole.Forwarding ClusterConsole.Number ClusterConsole.Resource

namespace DeclaredPort

variable {p : DeclaredPort}

/-- A port that a forward can lead to. -/
structure Usable (p : DeclaredPort) : Prop where
  tcp : ∀ t ∈ p.protocol, Text.sameFolded (Text.trim t) "TCP" = true
  number : 1 ≤ p.number ∧ p.number ≤ 65535

instance : Decidable p.Usable :=
  decidable_of_iff ((∀ t ∈ p.protocol, Text.sameFolded (Text.trim t) "TCP" = true) ∧
    1 ≤ p.number ∧ p.number ≤ 65535) ⟨fun h => ⟨h.1, h.2⟩, fun h => ⟨h.1, h.2⟩⟩

/-- The texts of the port leave the signs alone by which the cell is read. -/
structure Plain (p : DeclaredPort) : Prop where
  name : ∀ t ∈ p.name, ',' ∉ t.toList
  protocol : ∀ t ∈ p.protocol, ',' ∉ t.toList ∧ ':' ∉ t.toList

theorem Plain.protocolOr (h : p.Plain) :
    ',' ∉ (protocolOr p.protocol).toList ∧ ':' ∉ (protocolOr p.protocol).toList := by
  cases hp : p.protocol with
  | none => decide
  | some t => exact h.protocol t hp

/-- The port as it is written behind its name. -/
def bare (p : DeclaredPort) : List Char :=
  (toString p.number).toList ++ '/' :: (protocolOr p.protocol).toList

theorem toList_text (p : DeclaredPort) : p.text.toList =
    (match nonEmpty p.name with
      | some name => name.toList ++ [':']
      | none => []) ++ p.bare := by
  unfold text bare
  cases nonEmpty p.name <;> simp

theorem comma_notMem_text (h : p.Plain) : ',' ∉ p.text.toList := by
  have hnumber : ',' ∉ (toString p.number).toList := fun hmem =>
    absurd (mem_toString_int hmem) (by decide)
  have hbare : ',' ∉ p.bare := by
    simp only [bare, List.mem_append, List.mem_cons, hnumber, h.protocolOr.1]
    decide
  rw [toList_text]
  cases hname : nonEmpty p.name with
  | none => exact hbare
  | some name =>
      have hcomma := h.name name (Option.mem_def.2 (Option.filter_eq_some_iff.1 hname).1)
      simp [hcomma, hbare]

theorem text_ne_nil (p : DeclaredPort) : p.text.toList ≠ [] := by
  rw [toList_text]
  simp [bare]

/-- Of the trimmed entry the number and the protocol are left, whatever the name was. -/
theorem afterLast_trimList_text (h : p.Plain) : afterLast ':' (Text.trimList p.text.toList) =
    (toString p.number).toList ++ '/' :: Text.trimEndList (protocolOr p.protocol).toList := by
  have hcolon : ':' ∉
      (toString p.number).toList ++ '/' :: Text.trimEndList (protocolOr p.protocol).toList := by
    have hnumber : ':' ∉ (toString p.number).toList := fun hmem =>
      absurd (mem_toString_int hmem) (by decide)
    have hprotocol : ':' ∉ Text.trimEndList (protocolOr p.protocol).toList := fun hmem =>
      h.protocolOr.2 ((List.rdropWhile_prefix Text.isBlank _).subset hmem)
    simp only [List.mem_append, List.mem_cons, hnumber, hprotocol]
    decide
  have hslash : Text.isBlank '/' = false := by decide
  rw [toList_text]
  cases nonEmpty p.name with
  | none =>
      have hstart : Text.trimStartList (toString p.number).toList = (toString p.number).toList :=
        List.dropWhile_eq_self_iff.2 fun hpos =>
          ne_true_of_eq_false ((isWord_toString_int p.number).2 _ (List.getElem_mem hpos))
      rw [List.nil_append, bare, Text.trimList_append_cons hslash, hstart,
        afterLast_of_notMem hcolon]
  | some name =>
      rw [List.append_assoc, List.singleton_append, bare,
        Text.trimList_append_cons (by decide), Text.trimEndList_append_cons hslash,
        afterLast_append_cons hcolon]

/-- What is written of a port reads back as its number if the port is usable. -/
theorem tcpPort?_text (h : p.Plain) :
    tcpPort? p.text.toList = if p.Usable then some p.number.toNat else none := by
  have hslash : '/' ∉ (toString p.number).toList := fun hmem =>
    absurd (mem_toString_int hmem) (by decide)
  have hnumber : Text.trimList (toString p.number).toList = (toString p.number).toList :=
    (Text.trimmed_of_forall (isWord_toString_int p.number).2).trimList_eq
  have htcp : (Text.trimList (protocolOr p.protocol).toList).map Char.toUpper = ['T', 'C', 'P'] ↔
      ∀ t ∈ p.protocol, Text.sameFolded (Text.trim t) "TCP" = true := by
    cases p.protocol with
    | none => simp [protocolOr]; decide
    | some t =>
        simp only [Option.mem_some_iff, forall_eq', Text.sameFolded_iff, Text.toList_trim]
        rfl
  rw [tcpPort?, afterLast_trimList_text h, Text.cutList_append hslash]
  simp only [Option.getD_some, Text.trimList_trimEndList, hnumber, htcp, port?_toString]
  by_cases htcp : ∀ t ∈ p.protocol, Text.sameFolded (Text.trim t) "TCP" = true
  · rw [if_pos htcp]
    exact if_congr ⟨fun hn => ⟨htcp, hn⟩, Usable.number⟩ rfl rfl
  · rw [if_neg htcp, if_neg fun hu => htcp hu.tcp]

end DeclaredPort

/-- What is found is the number of the first usable port, and nothing if there is none. -/
structure FirstUsable (ports : List DeclaredPort) (found : Option Nat) : Prop where
  some_iff : ∀ n, found = some n ↔ ∃ before p after, ports = before ++ p :: after ∧
    (∀ q ∈ before, ¬q.Usable) ∧ p.Usable ∧ p.number = (n : Int)
  none_iff : found = none ↔ ∀ p ∈ ports, ¬p.Usable

variable {ports : List DeclaredPort}

theorem splitList_joined (hne : ports ≠ []) (h : ∀ p ∈ ports, p.Plain) :
    Text.splitList ',' (joined (ports.map DeclaredPort.text)).toList =
      ports.map fun p => p.text.toList := by
  have hsplit : Text.splitList ',' (Text.join "," (ports.map DeclaredPort.text)).toList =
      (ports.map DeclaredPort.text).map String.toList := by
    refine Text.splitList_join (by simpa using hne) fun t ht => ?_
    obtain ⟨p, hp, rfl⟩ := List.mem_map.1 ht
    exact DeclaredPort.comma_notMem_text (h p hp)
  rw [List.map_map] at hsplit
  have hjoin : Text.join "," (ports.map DeclaredPort.text) ≠ "" := by
    intro hempty
    rw [hempty] at hsplit
    -- an empty text has one part, which is empty, and no port is written so
    have hnil : [] ∈ ports.map (String.toList ∘ DeclaredPort.text) := by
      rw [← hsplit]
      exact List.mem_singleton_self _
    obtain ⟨p, -, hp⟩ := List.mem_map.1 hnil
    exact p.text_ne_nil hp
  rw [joined, if_neg hjoin]
  exact hsplit

theorem firstTcpPort?_joined (h : ∀ p ∈ ports, p.Plain) :
    firstTcpPort? (joined (ports.map DeclaredPort.text)) =
      ports.findSome? fun p => if p.Usable then some p.number.toNat else none := by
  by_cases hne : ports = []
  · subst hne
    decide
  · have hread : (ports.map fun p => tcpPort? p.text.toList) =
        ports.map fun p => if p.Usable then some p.number.toNat else none :=
      List.map_congr_left fun p hp => DeclaredPort.tcpPort?_text (h p hp)
    have hfind := congrArg (List.findSome? id) hread
    rw [List.findSome?_map, List.findSome?_map, Function.id_comp, Function.id_comp] at hfind
    rw [firstTcpPort?, splitList_joined hne h, List.findSome?_map, Function.comp_def, hfind]

theorem firstUsable_joined (h : ∀ p ∈ ports, p.Plain) :
    FirstUsable ports (firstTcpPort? (joined (ports.map DeclaredPort.text))) := by
  have hnone (p : DeclaredPort) :
      (if p.Usable then some p.number.toNat else none) = none ↔ ¬p.Usable := by
    simp
  rw [firstTcpPort?_joined h]
  constructor
  · intro n
    have hsome (p : DeclaredPort) :
        (if p.Usable then some p.number.toNat else none) = some n ↔
          p.Usable ∧ p.number = (n : Int) := by
      rw [Option.ite_none_right_eq_some, Option.some_inj]
      refine and_congr_right fun hu => ?_
      have := hu.number
      omega
    simp only [List.findSome?_eq_some_iff, hnone, hsome]
    constructor
    · rintro ⟨before, p, after, hports, hp, hbefore⟩
      exact ⟨before, p, after, hports, hbefore, hp.1, hp.2⟩
    · rintro ⟨before, p, after, hports, hbefore, hu, hn⟩
      exact ⟨before, p, after, hports, ⟨hu, hn⟩, hbefore⟩
  · simp only [List.findSome?_eq_none_iff, hnone]

namespace Container

/-- The default port is read from the cell under PORTS in the row of a container, and it is the
number of the first usable port that the container declares. -/
theorem defaultPort_row (now : Int) (path podAge : String) (init : Bool)
    (status : Option ContainerStatus) (c : Container) (h : ∀ p ∈ c.ports, p.Plain) :
    ∃ column cell, Kind.containers.column? "PORTS" = some column ∧
      (c.row now path podAge init status).fields[column]? = some cell ∧
      (c.ports = [] → cell = "-") ∧ FirstUsable c.ports (firstTcpPort? cell) := by
  refine ⟨6, joined (c.ports.map DeclaredPort.text), by decide, rfl, fun hnil => ?_,
    firstUsable_joined h⟩
  rw [hnil]
  decide

/-- A container with a name for each port, the first of them for another protocol. -/
def twoPorts : Container :=
  ⟨"web", none, [⟨some "metrics", 9090, some "UDP"⟩, ⟨some "http:8", 8080, some " tcp"⟩]⟩

theorem defaultPort_row_twoPorts : (∀ p ∈ twoPorts.ports, p.Plain) ∧
    ∃ column cell, Kind.containers.column? "PORTS" = some column ∧
      (twoPorts.row 0 "ns/web-0" "1d" false none).fields[column]? = some cell ∧
      (twoPorts.ports = [] → cell = "-") ∧
      FirstUsable twoPorts.ports (firstTcpPort? cell) := by
  have hplain : ∀ p ∈ twoPorts.ports, p.Plain := by
    simp only [twoPorts, List.forall_mem_cons]
    refine ⟨⟨by simp, by simp⟩, ⟨by simp, by simp⟩, by simp⟩
  exact ⟨hplain, defaultPort_row 0 "ns/web-0" "1d" false none twoPorts hplain⟩

end Container

end ClusterConsole.Cluster
