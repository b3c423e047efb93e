import Mathlib.Algebra.Ring.Parity
import MetricLayer.Proofs.Formula.Dependencies
import MetricLayer.Proofs.RowExpression

/-!
# Where references stand

The references of a text are its groups: names in braces, outside quotes, each with the
bytes that it takes. A text has references if and only if every brace outside quotes opens
or closes a group (`exists_scan_iff`), and then they are all of them, in order
(`Grouped.mem_iff`, `Grouped.pairwise`). A row expression is compiled to its own bytes but
for those of its groups (`splice_of_grouped`). `references_exact` puts this together.
-/

namespace MetricLayer

open Text (byteLength)

/-! ## Quotes and braces -/

/-- Whether what follows `cs` is outside quotes, where `cs` begins inside of them or not. -/
def Outside (quoted : Bool) (cs : List Char) : Prop := Even (cs.count '\'' + quoted.toNat)

/-- Every brace outside quotes opens or closes a name in braces. -/
structure Braced (quoted : Bool) (cs : List Char) : Prop where
  opens : ∀ before after, cs = before ++ '{' :: after → Outside quoted before →
    ∃ name rest, isName (String.ofList name) = true ∧ after = name ++ '}' :: rest
  closes : ∀ before after, cs = before ++ '}' :: after → Outside quoted before →
    ∃ start name, isName (String.ofList name) = true ∧ before = start ++ '{' :: name

/-- A reference is a name in braces outside quotes, at its bytes, where the text begins
inside of them or not and its first byte stands at `position`. -/
def IsGroup (quoted : Bool) (position : Nat) (cs : List Char) (r : Reference) : Prop :=
  ∃ before after, cs = before ++ '{' :: r.name.toList ++ '}' :: after ∧
    Outside quoted before ∧ isName r.name = true ∧ r.start = position + byteLength before ∧
    r.stop = r.start + byteLength ('{' :: r.name.toList ++ ['}'])

variable {quoted : Bool} {position : Nat} {c : Char} {cs name : List Char} {r : Reference}
  {references : List Reference}

theorem outside_nil : Outside quoted [] ↔ quoted = false := by
  cases quoted <;> simp [Outside]

theorem outside_quote : Outside quoted ('\'' :: cs) ↔ Outside (!quoted) cs := by
  cases quoted <;> simp [Outside, Nat.even_add_one]

theorem outside_append (h : '\'' ∉ name) : Outside quoted (name ++ cs) ↔ Outside quoted cs := by
  rw [Outside, List.count_append, List.count_eq_zero.2 h, Nat.zero_add, Outside]

theorem outside_cons (h : c ≠ '\'') : Outside quoted (c :: cs) ↔ Outside quoted cs :=
  outside_append (show '\'' ∉ [c] by simpa using h.symm)

/-! ## Which texts have references -/

/-- Braces are opened and closed behind a character that does neither as they are with it. -/
theorem braced_cons_iff (hc : quoted = false → c ≠ '{' ∧ c ≠ '}') {next : Bool}
    (hnext : ∀ before, Outside quoted (c :: before) ↔ Outside next before) :
    Braced quoted (c :: cs) ↔ Braced next cs := by
  constructor
  · refine fun h => ⟨fun before after hcs houtside => ?_, fun before after hcs houtside => ?_⟩
    · exact h.opens (c :: before) after (hcs ▸ rfl) ((hnext before).2 houtside)
    · obtain ⟨start, name, hname, hbefore⟩ :=
        h.closes (c :: before) after (hcs ▸ rfl) ((hnext before).2 houtside)
      cases start with
      | nil =>
        -- a brace in quotes does not open a group: its name ends no quotes
        obtain ⟨rfl, rfl⟩ := List.cons.inj hbefore
        have hquoted := (hnext before).2 houtside
        rw [outside_cons (by decide), ← List.append_nil before,
          outside_append (notMem_of_isName hname).1, outside_nil] at hquoted
        exact absurd rfl (hc hquoted).1
      | cons e start =>
        obtain ⟨rfl, rfl⟩ := List.cons.inj hbefore
        exact ⟨start, name, hname, rfl⟩
  · refine fun h => ⟨fun before after hcs houtside => ?_, fun before after hcs houtside => ?_⟩
    · cases before with
      | nil => exact absurd (List.cons.inj hcs).1 (hc (outside_nil.1 houtside)).1
      | cons e before =>
        obtain ⟨rfl, rfl⟩ := List.cons.inj hcs
        exact h.opens before after rfl ((hnext before).1 houtside)
    · cases before with
      | nil => exact absurd (List.cons.inj hcs).1 (hc (outside_nil.1 houtside)).2
      | cons e before =>
        obtain ⟨rfl, rfl⟩ := List.cons.inj hcs
        obtain ⟨start, name, hname, rfl⟩ := h.closes before after rfl ((hnext before).1 houtside)
        exact ⟨c :: start, name, hname, rfl⟩

/-- A character behind the beginning of a text is behind all of it or inside. -/
theorem append_eq_append_cons {before after xs ys : List Char}
    (h : xs ++ ys = before ++ c :: after) :
    (∃ before', before = xs ++ before' ∧ ys = before' ++ c :: after) ∨
      ∃ rest, xs = before ++ c :: rest ∧ after = rest ++ ys := by
  rcases List.append_eq_append_iff.1 h with ⟨before', hbefore, hys⟩ | ⟨rest, hxs, hafter⟩
  · exact .inl ⟨before', hbefore, hys⟩
  · cases rest with
    | nil => exact .inl ⟨[], by simpa using hxs.symm, hafter.symm⟩
    | cons e rest =>
      obtain ⟨rfl, rfl⟩ := List.cons.inj hafter
      exact .inr ⟨rest, hxs, rfl⟩

/-- The one brace that opens in a group is its first character. -/
theorem eq_nil_of_group (hopen : '{' ∉ name) {before rest : List Char}
    (h : '{' :: name ++ ['}'] = before ++ '{' :: rest) : before = [] ∧ rest = name ++ ['}'] := by
  obtain ⟨hbefore, -, hrest⟩ :=
    (List.append_cons_inj_of_notMem List.not_mem_nil (by simp [hopen])).1 h
  exact ⟨hbefore.symm, hrest.symm⟩

/-- Braces are opened and closed behind a group as they are with it. -/
theorem braced_group_iff (hname : isName (String.ofList name) = true) :
    Braced false ('{' :: name ++ '}' :: cs) ↔ Braced false cs := by
  obtain ⟨hquote, hopen, hclose⟩ := notMem_of_isName hname
  have houtside (before : List Char) :
      Outside false ('{' :: name ++ ['}'] ++ before) ↔ Outside false before :=
    outside_append (by simp [hquote])
  have hlast {before rest : List Char} (h : '{' :: name ++ ['}'] = before ++ '}' :: rest) :
      before = '{' :: name :=
    ((List.append_cons_inj_of_notMem (by simp [hclose]) (by simp)).1 h).1.symm
  rw [List.append_cons]
  constructor
  · refine fun h => ⟨fun before after hcs hbefore => ?_, fun before after hcs hbefore => ?_⟩
    · exact h.opens ('{' :: name ++ ['}'] ++ before) after (by simp [hcs])
        ((houtside before).2 hbefore)
    · obtain ⟨start, other, hother, heq⟩ :=
        h.closes ('{' :: name ++ ['}'] ++ before) after (by simp [hcs])
          ((houtside before).2 hbefore)
      rcases append_eq_append_cons heq with ⟨start, -, hstart⟩ | ⟨rest, hgroup, rfl⟩
      · exact ⟨start, other, hother, hstart⟩
      · rw [(eq_nil_of_group hopen hgroup).2] at hother
        exact absurd (by simp) (notMem_of_isName hother).2.2
  · refine fun h => ⟨fun before after hcs hbefore => ?_, fun before after hcs hbefore => ?_⟩ <;>
      rcases append_eq_append_cons hcs with ⟨before, rfl, hrest⟩ | ⟨rest, hgroup, rfl⟩
    · exact h.opens before after hrest ((houtside before).1 hbefore)
    · exact ⟨name, cs, hname, by rw [(eq_nil_of_group hopen hgroup).2]; simp⟩
    · obtain ⟨start, other, hother, rfl⟩ :=
        h.closes before after hrest ((houtside before).1 hbefore)
      exact ⟨'{' :: name ++ ['}'] ++ start, other, hother, by simp⟩
    · exact ⟨[], name, hname, hlast hgroup⟩

theorem Grouped.braced (h : Grouped quoted position cs references) : Braced quoted cs := by
  induction h with
  | nil => exact ⟨by simp, by simp⟩
  | quote _ ih => exact (braced_cons_iff (fun _ => by decide) fun _ => outside_quote).2 ih
  | text hc hbrace _ ih => exact (braced_cons_iff hbrace fun _ => outside_cons hc).2 ih
  | group hname _ ih => exact (braced_group_iff hname).2 ih

theorem Braced.exists_grouped {quoted : Bool} {position : Nat} {cs : List Char}
    (h : Braced quoted cs) : ∃ references, Grouped quoted position cs references := by
  match cs with
  | [] => exact ⟨[], .nil⟩
  | c :: cs =>
    by_cases hquote : c = '\''
    · subst hquote
      obtain ⟨references, hrest⟩ :=
        ((braced_cons_iff (fun _ => by decide) fun _ => outside_quote).1 h).exists_grouped
      exact ⟨references, .quote hrest⟩
    by_cases hbrace : quoted = false → c ≠ '{' ∧ c ≠ '}'
    · obtain ⟨references, hrest⟩ :=
        ((braced_cons_iff hbrace fun _ => outside_cons hquote).1 h).exists_grouped
      exact ⟨references, .text hquote hbrace hrest⟩
    obtain rfl : quoted = false := (Classical.not_imp.1 hbrace).1
    by_cases hclose : c = '}'
    · subst hclose
      obtain ⟨start, name, -, hnil⟩ := h.closes [] cs rfl (outside_nil.2 rfl)
      simp at hnil
    · obtain rfl : c = '{' := by
        by_contra hopen
        exact hbrace fun _ => ⟨hopen, hclose⟩
      obtain ⟨name, rest, hname, rfl⟩ := h.opens [] cs rfl (outside_nil.2 rfl)
      obtain ⟨references, hrest⟩ := ((braced_group_iff hname).1 h).exists_grouped
      exact ⟨_, .group hname hrest⟩
termination_by cs.length

theorem exists_scan_iff : (∃ references, Reference.scan position quoted none cs = .ok references) ↔
    Braced quoted cs := by
  simp only [scan_eq_ok_iff]
  exact ⟨fun ⟨_, h⟩ => h.braced, fun h => h.exists_grouped⟩

/-! ## Which references a text has -/

theorem isGroup_cons_iff (hc : quoted = false → c ≠ '{') {next : Bool}
    (hnext : ∀ before, Outside quoted (c :: before) ↔ Outside next before) :
    IsGroup quoted position (c :: cs) r ↔ IsGroup next (position + c.utf8Size) cs r := by
  constructor
  · rintro ⟨before, after, hcs, houtside, hname, hstart, hstop⟩
    cases before with
    | nil => exact absurd (List.cons.inj hcs).1 (hc (outside_nil.1 houtside))
    | cons e before =>
      obtain ⟨rfl, rfl⟩ := List.cons.inj hcs
      exact ⟨before, after, rfl, (hnext before).1 houtside, hname,
        by rw [hstart, byteLength, Nat.add_assoc], hstop⟩
  · rintro ⟨before, after, rfl, houtside, hname, hstart, hstop⟩
    exact ⟨c :: before, after, rfl, (hnext before).2 houtside, hname,
      by rw [hstart, byteLength, Nat.add_assoc], hstop⟩

/-- Names are told apart by the brace that closes them. -/
theorem eq_of_closed {other rest after : List Char} (hname : '}' ∉ name) (hother : '}' ∉ other)
    (h : name ++ '}' :: rest = other ++ '}' :: after) : name = other ∧ rest = after := by
  rcases append_eq_append_cons h with ⟨before, rfl, hrest⟩ | ⟨between, rfl, -⟩
  · cases before with
    | nil => exact ⟨by simp, (List.cons.inj hrest).2⟩
    | cons e before =>
      obtain ⟨rfl, -⟩ := List.cons.inj hrest
      exact absurd (by simp) hother
  · exact absurd (by simp) hname

theorem isGroup_group_iff (hname : isName (String.ofList name) = true) :
    IsGroup false position ('{' :: name ++ '}' :: cs) r ↔
      r = ⟨String.ofList name, position, position + byteLength ('{' :: name ++ ['}'])⟩ ∨
        IsGroup false (position + byteLength ('{' :: name ++ ['}'])) cs r := by
  obtain ⟨hquote, hopen, hclose⟩ := notMem_of_isName hname
  have houtside (before : List Char) :
      Outside false ('{' :: name ++ ['}'] ++ before) ↔ Outside false before :=
    outside_append (by simp [hquote])
  rw [List.append_cons]
  constructor
  · rintro ⟨before, after, hcs, hbefore, hother, hstart, hstop⟩
    have hcs : '{' :: name ++ ['}'] ++ cs = before ++ '{' :: (r.name.toList ++ '}' :: after) := by
      rw [hcs, List.append_assoc, List.cons_append]
    rcases append_eq_append_cons hcs with ⟨before, rfl, rfl⟩ | ⟨rest, hgroup, hafter⟩
    · refine .inr ⟨before, after, by simp, (houtside before).1 hbefore, hother, ?_, hstop⟩
      rw [hstart, Text.byteLength_append ('{' :: name ++ ['}']), Nat.add_assoc]
    · obtain ⟨rfl, rfl⟩ := eq_nil_of_group hopen hgroup
      rw [List.append_assoc] at hafter
      have hother : isName (String.ofList r.name.toList) = true := by simpa using hother
      obtain ⟨hsame, -⟩ := eq_of_closed (notMem_of_isName hother).2.2 hclose hafter
      obtain ⟨other, start, stop⟩ := r
      dsimp only at hsame hstart hstop
      subst hsame hstart hstop
      simp [byteLength]
  · rintro (rfl | ⟨before, after, rfl, hbefore, hother, hstart, hstop⟩)
    · exact ⟨[], cs, by simp, outside_nil.2 rfl, hname, by simp [byteLength], by simp⟩
    · refine ⟨'{' :: name ++ ['}'] ++ before, after, by simp, (houtside before).2 hbefore, hother,
        ?_, hstop⟩
      rw [hstart, Text.byteLength_append ('{' :: name ++ ['}']), Nat.add_assoc]

/-- The references of a text are all its groups. -/
theorem Grouped.mem_iff (h : Grouped quoted position cs references) :
    r ∈ references ↔ IsGroup quoted position cs r := by
  induction h with
  | nil => simp [IsGroup]
  | quote _ ih => rw [ih, isGroup_cons_iff (fun _ => by decide) fun _ => outside_quote]
  | text hc hbrace _ ih =>
    rw [ih, isGroup_cons_iff (fun hquoted => (hbrace hquoted).1) fun _ => outside_cons hc]
  | group hname _ ih => rw [List.mem_cons, ih, isGroup_group_iff hname]

theorem IsGroup.start_lt_stop (h : IsGroup quoted position cs r) : r.start < r.stop := by
  obtain ⟨-, -, -, -, -, -, hstop⟩ := h
  have := '{'.utf8Size_pos
  rw [hstop, List.cons_append, byteLength]
  omega

/-- References come in the order in which they stand. -/
theorem Grouped.pairwise (h : Grouped quoted position cs references) :
    references.Pairwise fun r r' => r.stop ≤ r'.start := by
  induction h with
  | nil => exact .nil
  | quote _ ih => exact ih
  | text _ _ _ ih => exact ih
  | group _ hrest ih => exact List.pairwise_cons.2 ⟨hrest.le_start, ih⟩

/-! ## Bytes -/

theorem size_utf8Encode (cs : List Char) : cs.utf8Encode.size = byteLength cs := by
  rw [← String.toByteArray_ofList, String.size_toByteArray, String.utf8ByteSize_ofList]
  induction cs with
  | nil => rfl
  | cons c cs ih => rw [String.utf8Len_cons, ih, byteLength, Nat.add_comm]

theorem toByteArray_eq (s : String) : s.toByteArray = s.toList.utf8Encode := by
  rw [← String.toByteArray_ofList, String.ofList_toList]

/-- The bytes of characters are where those before them end. -/
theorem extract_utf8Encode (before middle after : List Char) :
    (before ++ (middle ++ after)).utf8Encode.extract (byteLength before)
      (byteLength before + byteLength middle) = middle.utf8Encode := by
  have hfrom (first second : ByteArray) (n : Nat) :
      (first ++ second).extract first.size (first.size + n) = second.extract 0 n :=
    ByteArray.extract_append_size_add (i := 0)
  rw [List.utf8Encode_append, List.utf8Encode_append, ← size_utf8Encode, ← size_utf8Encode, hfrom,
    ByteArray.extract_append_eq_left rfl]

/-- The bytes of a group. -/
theorem IsGroup.extract_eq {s : String} (h : IsGroup false 0 s.toList r) :
    s.toByteArray.extract r.start r.stop = ("\x7b" ++ r.name ++ "\x7d").toByteArray := by
  obtain ⟨before, after, hs, -, -, hstart, hstop⟩ := h
  have hgroup : "\x7b" ++ r.name ++ "\x7d" = String.ofList ('{' :: r.name.toList ++ ['}']) := by
    rw [← String.toList_inj]
    simp
  have hbytes : s.toByteArray =
      (before ++ ('{' :: r.name.toList ++ ['}'] ++ after)).utf8Encode := by
    rw [toByteArray_eq, hs]
    simp
  rw [hbytes, hgroup, hstop, hstart, Nat.zero_add, extract_utf8Encode, String.toByteArray_ofList]

/-- What is written for a text: its bytes from `position`, but for those of its references
what `write` makes of their names. -/
def splice (write : String → String) (bytes : ByteArray) (position : Nat) :
    List Reference → ByteArray
  | [] => bytes.extract position bytes.size
  | r :: rest =>
    bytes.extract position r.start ++ (write r.name).toByteArray ++ splice write bytes r.stop rest

/-- Bytes before the next reference are kept. -/
theorem splice_eq_append {write : String → String} {bytes : ByteArray} {position next : Nat}
    (hle : position ≤ next) (hsize : next ≤ bytes.size)
    (hstart : ∀ r ∈ references, next ≤ r.start) :
    splice write bytes position references =
      bytes.extract position next ++ splice write bytes next references := by
  cases references with
  | nil => exact ByteArray.extract_eq_extract_append_extract next hle hsize
  | cons r rest =>
    rw [splice, splice, ByteArray.extract_eq_extract_append_extract next hle
      (hstart r List.mem_cons_self)]
    simp only [ByteArray.append_assoc]

theorem add_byteLength {before : List Char} (h : position = byteLength before)
    (middle : List Char) : position + byteLength middle = byteLength (before ++ middle) := by
  rw [h, Text.byteLength_append]

/-- A character that stands before all references is kept. -/
theorem splice_keep {write : String → String} {before out : List Char}
    (hposition : position = byteLength before)
    (hstart : ∀ r ∈ references, position + c.utf8Size ≤ r.start)
    (hrest : splice write (before ++ [c] ++ cs).utf8Encode (position + c.utf8Size) references =
      out.utf8Encode) :
    splice write (before ++ c :: cs).utf8Encode position references = (c :: out).utf8Encode := by
  have hsize : position + c.utf8Size ≤ (before ++ c :: cs).utf8Encode.size := by
    rw [size_utf8Encode, Text.byteLength_append, byteLength, ← hposition]
    omega
  have hchar : (before ++ c :: cs).utf8Encode.extract position (position + c.utf8Size) =
      [c].utf8Encode := by
    rw [hposition]
    exact extract_utf8Encode before [c] cs
  rw [← List.append_cons] at hrest
  rw [splice_eq_append (Nat.le_add_right _ _) hsize hstart, hrest, hchar]
  exact List.utf8Encode_cons.symm

theorem splice_of_grouped {write : String → String} (h : Grouped quoted position cs references)
    {before : List Char} (hposition : position = byteLength before) :
    splice write (before ++ cs).utf8Encode position references =
      (RowExpression.substitute write position references cs).utf8Encode := by
  induction h generalizing before with
  | @nil _ position =>
    have hsize : position = (before ++ []).utf8Encode.size := by
      rw [size_utf8Encode, List.append_nil, hposition]
    rw [splice, ← hsize, ByteArray.extract_same]
    rfl
  | quote h ih =>
    rw [RowExpression.substitute_keep h.le_start]
    exact splice_keep hposition h.le_start (ih (add_byteLength hposition ['\'']))
  | @text _ _ c _ _ _ _ h ih =>
    rw [RowExpression.substitute_keep h.le_start]
    exact splice_keep hposition h.le_start (ih (add_byteLength hposition [c]))
  | group hname _ ih =>
    have hrest := ih (add_byteLength hposition _)
    rw [List.append_assoc, ← List.append_cons] at hrest
    rw [splice, ByteArray.extract_same, ByteArray.empty_append, hrest,
      RowExpression.substitute_braces, List.utf8Encode_append, ← toByteArray_eq]

/-! ## The references of an expression -/

namespace RowExpression

variable {d : Sql.Dialect} {compiled : Compiled}

/-- **References and what becomes of them.** A text has references if and only if every
brace outside quotes, the last of which may be open, opens or closes a name in braces.
They are then all such names in the order in which they stand, each with its bytes. What
an expression is compiled to are its own bytes with the quoted names in the place of these;
and it depends on each of them once, in the order of their first occurrences. -/
theorem references_exact (s : String) :
    ((∃ references, extractReferences s = .ok references) ↔ Braced false s.toList) ∧
    (∀ references, extractReferences s = .ok references →
      (∀ r, r ∈ references ↔ IsGroup false 0 s.toList r) ∧
      references.Pairwise (fun r r' => r.stop ≤ r'.start) ∧
      ∀ r ∈ references, r.start < r.stop ∧
        s.toByteArray.extract r.start r.stop = ("\x7b" ++ r.name ++ "\x7d").toByteArray) ∧
    ∀ d compiled, compile d s = .ok compiled →
      ∃ references, extractReferences s = .ok references ∧
        compiled.sql.toByteArray = splice d.quoteName s.toByteArray 0 references ∧
        (∀ name, name ∈ compiled.dependsOn ↔ ∃ r ∈ references, r.name = name) ∧
        compiled.dependsOn.Pairwise fun first second =>
          (references.map (·.name)).idxOf first < (references.map (·.name)).idxOf second := by
  refine ⟨exists_scan_iff, fun references h => ?_, fun d compiled h => ?_⟩
  · have hgrouped := extractReferences_eq_ok_iff.1 h
    refine ⟨fun r => hgrouped.mem_iff, hgrouped.pairwise, fun r hr => ?_⟩
    have hgroup := hgrouped.mem_iff.1 hr
    exact ⟨hgroup.start_lt_stop, hgroup.extract_eq⟩
  · obtain ⟨references, accepts⟩ := exists_accepts h
    refine ⟨references, accepts.extracted, ?_, fun name => ?_, ?_⟩
    · have hgrouped := extractReferences_eq_ok_iff.1 accepts.extracted
      have hsplice : splice d.quoteName ([] ++ s.toList).utf8Encode 0 references =
          (substitute d.quoteName 0 references s.toList).utf8Encode :=
        splice_of_grouped hgrouped rfl
      rw [accepts.sql_eq, String.toByteArray_ofList, ← hsplice, List.nil_append, toByteArray_eq]
    · rw [accepts.dependsOn_eq, uniqueNames, List.mem_eraseDups, List.mem_map]
    · rw [accepts.dependsOn_eq]
      exact pairwise_idxOf_eraseDups _

/-- Two bytes for a letter, quotes written twice and quotes that are open at the end. -/
theorem references_exact_of_open_quotes :
    let s := "{price} || 'è {x}''s' || {tax} || {price} || '\x7bé"
    Braced false s.toList ∧
      ∃ references compiled, extractReferences s = .ok references ∧
        references = [⟨"price", 0, 7⟩, ⟨"tax", 26, 31⟩, ⟨"price", 35, 42⟩] ∧
        compile .bigQuery s = .ok compiled ∧ compiled.dependsOn = ["price", "tax"] ∧
        compiled.sql = "`price` || 'è {x}''s' || `tax` || `price` || '\x7bé" ∧
        compiled.sql.toByteArray =
          splice (Sql.Dialect.quoteName .bigQuery) s.toByteArray 0 references := by
  intro s
  obtain ⟨hbraced, -, hcompiled⟩ := references_exact s
  obtain ⟨references, hreferences, hspans⟩ := Except.exists_of_any (x := extractReferences s)
    (p := fun references =>
      references = [⟨"price", 0, 7⟩, ⟨"tax", 26, 31⟩, ⟨"price", 35, 42⟩]) (by decide +kernel)
  obtain ⟨compiled, hcompile, hsql⟩ := Except.exists_of_any (x := compile .bigQuery s)
    (p := fun compiled => compiled.dependsOn = ["price", "tax"] ∧
      compiled.sql = "`price` || 'è {x}''s' || `tax` || `price` || '\x7bé") (by decide +kernel)
  obtain ⟨hdepends, hsql⟩ := of_decide_eq_true hsql
  obtain ⟨references', hreferences', hsplice, -, -⟩ := hcompiled .bigQuery compiled hcompile
  obtain rfl := Except.ok.inj (hreferences.symm.trans hreferences')
  exact ⟨hbraced.1 ⟨references, hreferences⟩, references, compiled, hreferences,
    of_decide_eq_true hspans, hcompile, hdepends, hsql, hsplice⟩

end RowExpression

end MetricLayer
