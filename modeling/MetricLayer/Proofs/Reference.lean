import MetricLayer.Proofs.Formula.Lexemes

/-!
# What the scan of references accepts

The groups of a text are the names in braces outside its quotes. A text is accepted
just if no brace outside quotes is left over beside its groups, and then the references
are those of the groups (`Grouped`, `scan_eq_ok_iff`). That an open reference goes on to
the brace that closes it is shown here for both directions (`scan_opened_iff`); what else
is shown of references is shown by induction on `Grouped`.
-/

namespace MetricLayer

open Reference (scan close)
open Text (byteLength)

/-- The references of the groups of a text in which no brace outside quotes is left over. The
text begins inside quotes if `quoted`, and its first byte stands at `position`. -/
inductive Grouped : (quoted : Bool) → (position : Nat) → List Char → List Reference → Prop
  | nil {quoted : Bool} {position : Nat} : Grouped quoted position [] []
  | quote {quoted : Bool} {position : Nat} {cs : List Char} {references : List Reference} :
    Grouped (!quoted) (position + '\''.utf8Size) cs references →
    Grouped quoted position ('\'' :: cs) references
  | text {quoted : Bool} {position : Nat} {c : Char} {cs : List Char}
    {references : List Reference} :
    c ≠ '\'' → (quoted = false → c ≠ '{' ∧ c ≠ '}') →
    Grouped quoted (position + c.utf8Size) cs references →
    Grouped quoted position (c :: cs) references
  | group {position : Nat} {name cs : List Char} {references : List Reference} :
    isName (String.ofList name) = true →
    Grouped false (position + byteLength ('{' :: name ++ ['}'])) cs references →
    Grouped false position ('{' :: name ++ '}' :: cs)
      (⟨String.ofList name, position, position + byteLength ('{' :: name ++ ['}'])⟩ :: references)

variable {quoted : Bool} {position : Nat} {cs name : List Char} {references : List Reference}

theorem Grouped.le_start (h : Grouped quoted position cs references) :
    ∀ r ∈ references, position ≤ r.start := by
  induction h with
  | nil => simp
  | quote _ ih => exact fun r hr => Nat.le_trans (Nat.le_add_right _ _) (ih r hr)
  | text _ _ _ ih => exact fun r hr => Nat.le_trans (Nat.le_add_right _ _) (ih r hr)
  | group _ _ ih =>
    intro r hr
    rcases List.mem_cons.1 hr with rfl | hr
    · exact Nat.le_refl _
    · exact Nat.le_trans (Nat.le_add_right _ _) (ih r hr)

/-- A name has no quotes and no braces. -/
theorem notMem_of_isName (h : isName (String.ofList name) = true) :
    '\'' ∉ name ∧ '{' ∉ name ∧ '}' ∉ name := by
  have hchar (c : Char) (hc : Text.isNameChar c = false) : c ∉ name := fun hmem => by
    have := isNameChar_of_isName h c (by simpa using hmem)
    rw [hc] at this
    cases this
  exact ⟨hchar _ (by decide), hchar _ (by decide), hchar _ (by decide)⟩

/-! ## Open references -/

theorem close_eq_ok_iff {s : String} {start : Nat} {r : Reference} :
    close s start position = .ok r ↔ isName s = true ∧ r = ⟨s, start, position + 1⟩ := by
  constructor
  · intro h
    unfold close at h
    split at h
    · cases h
    · split at h
      · rename_i hname
        exact ⟨hname, (Except.ok.inj h).symm⟩
      · cases h
  · rintro ⟨hname, rfl⟩
    rw [close, isBlankText_of_isName hname, hname]
    rfl

/-- The brace that closes a reference ends its name. -/
theorem scan_close_iff {start : Nat} {read : List Char} :
    scan position false (some (start, read)) ('}' :: cs) = .ok references ↔
      isName (String.ofList read.reverse) = true ∧ ∃ more,
        references = ⟨String.ofList read.reverse, start, position + byteLength ['}']⟩ :: more ∧
        scan (position + byteLength ['}']) false none cs = .ok more := by
  have hscan : scan position false (some (start, read)) ('}' :: cs) =
      (close (String.ofList read.reverse) start position).bind fun r =>
        (scan (position + byteLength ['}']) false none cs).bind fun rest => .ok (r :: rest) := rfl
  rw [hscan, Except.bind_eq_ok]
  simp only [Except.bind_eq_ok, Except.ok.injEq, close_eq_ok_iff]
  constructor
  · rintro ⟨r, ⟨hname, rfl⟩, more, hmore, rfl⟩
    exact ⟨hname, more, rfl, hmore⟩
  · rintro ⟨hname, more, rfl, hmore⟩
    exact ⟨_, ⟨hname, rfl⟩, more, hmore, rfl⟩

/-- Where a reference is open, the scan takes its name up to the brace that closes it. -/
theorem scan_opened_iff {start : Nat} {read : List Char} :
    scan position false (some (start, read)) cs = .ok references ↔
      ∃ inner rest more, cs = inner ++ '}' :: rest ∧
        isName (String.ofList (read.reverse ++ inner)) = true ∧
        references = ⟨String.ofList (read.reverse ++ inner), start,
          position + byteLength (inner ++ ['}'])⟩ :: more ∧
        scan (position + byteLength (inner ++ ['}'])) false none rest = .ok more := by
  induction cs generalizing position read with
  | nil => simp [scan]
  | cons c cs ih =>
    by_cases hclose : c = '}'
    · subst hclose
      rw [scan_close_iff]
      constructor
      · rintro ⟨hname, more, rfl, hmore⟩
        exact ⟨[], cs, more, rfl, by simpa using hname, by simp, hmore⟩
      · rintro ⟨inner, rest, more, hcs, hname, rfl, hmore⟩
        cases inner with
        | nil =>
          obtain ⟨-, rfl⟩ := List.cons.inj hcs
          exact ⟨by simpa using hname, more, by simp, hmore⟩
        | cons e inner =>
          obtain ⟨rfl, -⟩ := List.cons.inj hcs
          exact absurd (by simp) (notMem_of_isName hname).2.2
    by_cases hopen : c = '{'
    · subst hopen
      refine ⟨by simp [scan], ?_⟩
      rintro ⟨inner, rest, more, hcs, hname, -⟩
      cases inner with
      | nil => cases hcs
      | cons e inner =>
        obtain ⟨rfl, -⟩ := List.cons.inj hcs
        exact absurd (by simp) (notMem_of_isName hname).2.1
    have hscan : scan position false (some (start, read)) (c :: cs) =
        scan (position + c.utf8Size) false (some (start, c :: read)) cs := by
      simp [scan, hclose, hopen]
    rw [hscan, ih]
    constructor
    · rintro ⟨inner, rest, more, rfl, hname, rfl, hmore⟩
      refine ⟨c :: inner, rest, more, rfl, by simpa using hname, ?_, ?_⟩
      · simp [byteLength, Nat.add_assoc]
      · simpa [byteLength, Nat.add_assoc] using hmore
    · rintro ⟨inner, rest, more, hcs, hname, rfl, hmore⟩
      cases inner with
      | nil => exact absurd (List.cons.inj hcs).1 hclose
      | cons e inner =>
        obtain ⟨rfl, rfl⟩ := List.cons.inj hcs
        refine ⟨inner, rest, more, rfl, by simpa using hname, ?_, ?_⟩
        · simp [byteLength, Nat.add_assoc]
        · simpa [byteLength, Nat.add_assoc] using hmore

/-- The scan of a group. -/
theorem scan_group_iff :
    scan position false none ('{' :: cs) = .ok references ↔
      ∃ name rest more, cs = name ++ '}' :: rest ∧ isName (String.ofList name) = true ∧
        references = ⟨String.ofList name, position,
          position + byteLength ('{' :: name ++ ['}'])⟩ :: more ∧
        scan (position + byteLength ('{' :: name ++ ['}'])) false none rest = .ok more := by
  have hscan : scan position false none ('{' :: cs) =
      scan (position + '{'.utf8Size) false (some (position, [])) cs := by
    simp [scan]
  rw [hscan, scan_opened_iff]
  simp only [List.reverse_nil, List.nil_append, List.cons_append, byteLength, Nat.add_assoc]

/-! ## Whole texts -/

/-- The scan lists the references of groups. -/
theorem scan_of_grouped (h : Grouped quoted position cs references) :
    scan position quoted none cs = .ok references := by
  induction h with
  | nil => rfl
  | quote _ ih => simpa [scan] using ih
  | @text quoted position c cs references hc hbrace _ ih =>
    cases quoted with
    | false => simpa [scan, hc, hbrace] using ih
    | true => simpa [scan, hc] using ih
  | @group position name cs references hname _ ih =>
    exact scan_group_iff.2 ⟨name, cs, references, rfl, hname, rfl, ih⟩

theorem grouped_of_scan {quoted : Bool} {position : Nat} {cs : List Char}
    {references : List Reference} (h : scan position quoted none cs = .ok references) :
    Grouped quoted position cs references := by
  match cs with
  | [] =>
    obtain rfl := Except.ok.inj h
    exact .nil
  | c :: cs =>
    by_cases hquote : c = '\''
    · subst hquote
      exact .quote (grouped_of_scan (by simpa [scan] using h))
    cases quoted with
    | true => exact .text hquote (by simp) (grouped_of_scan (by simpa [scan, hquote] using h))
    | false =>
      by_cases hopen : c = '{'
      · subst hopen
        obtain ⟨name, rest, more, rfl, hname, rfl, hmore⟩ := scan_group_iff.1 h
        exact .group hname (grouped_of_scan hmore)
      by_cases hclose : c = '}'
      · subst hclose
        simp [scan] at h
      exact .text hquote (fun _ => ⟨hopen, hclose⟩)
        (grouped_of_scan (by simpa [scan, hquote, hopen, hclose] using h))
termination_by cs.length

/-- A text is accepted with the references of its groups. -/
theorem scan_eq_ok_iff :
    scan position quoted none cs = .ok references ↔ Grouped quoted position cs references :=
  ⟨grouped_of_scan, scan_of_grouped⟩

theorem extractReferences_eq_ok_iff {s : String} :
    extractReferences s = .ok references ↔ Grouped false 0 s.toList references :=
  scan_eq_ok_iff

end MetricLayer
