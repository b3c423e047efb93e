import MetricLayer.Sql.Dialect
import MetricLayer.Sql.Guard

/-!
# String literals and groups

Where the string literals of a text end differs between dialects: in one a quote
written twice stands for a quote, in the other a backslash takes away the meaning
of the character after it. A `Reading` is what has to be known of the text behind:
how it stands with literals (`Quoting`), and how many parentheses outside of them
are open. What is `Contained` is read to its end in parentheses, whatever comes
after them (`group?_eq_some_iff`).

The guard takes each quote for the end of what the last one began. If no quote is
escaped it counts the same parentheses (`depth?_eq_map_read?`), but a literal may
be open at the end.
-/

namespace MetricLayer.Sql

variable {d : Dialect} {c : Char} {cs rest : List Char}

/-- Where a reader stands with the string literals of a text. -/
inductive Quoting where
  | outside
  | inside
  /-- Behind a quote that ends a literal if no other quote comes next. -/
  | closing
  /-- Inside, behind a backslash. -/
  | escaped
  deriving DecidableEq, Repr

namespace Quoting

def next (d : Dialect) : Quoting → Char → Quoting
  | .outside, c | .closing, c => if c == '\'' then .inside else .outside
  | .escaped, _ => .inside
  | .inside, c =>
    match d with
    | .duckDb => if c == '\'' then .closing else .inside
    | .bigQuery => if c == '\'' then .outside else if c == '\\' then .escaped else .inside

/-- Whether a literal was begun that has not ended. -/
def isOpen : Quoting → Bool
  | .outside | .closing => false
  | .inside | .escaped => true

end Quoting

structure Reading where
  quoting : Quoting
  /-- The parentheses outside of literals that are open. -/
  depth : Nat
  deriving DecidableEq, Repr

namespace Reading

def start : Reading := ⟨.outside, 0⟩

/-- What is known after `c`, unless `c` closes a parenthesis that nothing opened. -/
def next? (d : Dialect) (r : Reading) (c : Char) : Option Reading :=
  let quoting := r.quoting.next d c
  if quoting = .outside ∧ c = '(' then some ⟨quoting, r.depth + 1⟩
  else if quoting = .outside ∧ c = ')' then
    if r.depth = 0 then none else some ⟨quoting, r.depth - 1⟩
  else some ⟨quoting, r.depth⟩

end Reading

def read? (d : Dialect) (r : Reading) (cs : List Char) : Option Reading := cs.foldlM (·.next? d) r

/-- Every parenthesis outside of literals has its other one. -/
def Balanced (d : Dialect) (cs : List Char) : Prop :=
  (read? d .start cs).any (·.depth = 0) = true

/-- Every literal that begins in `cs` ends there. -/
def EndsOutside (d : Dialect) (cs : List Char) : Prop :=
  (cs.foldl (Quoting.next d) .outside).isOpen = false

/-- Whatever begins in `cs` ends there, and nothing ends that does not begin. -/
def Contained (d : Dialect) (cs : List Char) : Prop := Balanced d cs ∧ EndsOutside d cs

/-- Whether a quote of `cs` stands behind a backslash that takes its meaning away. -/
def escapesQuote (d : Dialect) (quoting : Quoting) : List Char → Bool
  | [] => false
  | c :: cs => (quoting == .escaped && c == '\'') || escapesQuote d (quoting.next d c) cs

/-- The text up to the parenthesis that closes a group, and the text after it. -/
def groupFrom? (d : Dialect) (r : Reading) : List Char → Option (List Char × List Char)
  | [] => none
  | c :: cs =>
    match r.next? d c with
    | none => some ([], cs)
    | some r => (groupFrom? d r cs).map fun (inner, rest) => (c :: inner, rest)

/-- The text in parentheses that a text begins with, and the text after it. -/
def group? (d : Dialect) : List Char → Option (List Char × List Char)
  | '(' :: cs => groupFrom? d .start cs
  | _ => none

instance : Decidable (Balanced d cs) := inferInstanceAs (Decidable (_ = _))
instance : Decidable (EndsOutside d cs) := inferInstanceAs (Decidable (_ = _))
instance : Decidable (Contained d cs) := inferInstanceAs (Decidable (_ ∧ _))

/-! ## One character -/

variable {r r' : Reading}

theorem Quoting.next_eq_outside_iff {quoting : Quoting} (hc : c ≠ '\'') :
    quoting.next d c = .outside ↔ quoting.isOpen = false := by
  cases quoting with
  | inside => cases d <;> by_cases c = '\\' <;> simp [Quoting.next, Quoting.isOpen, *]
  | escaped | outside | closing => simp [Quoting.next, Quoting.isOpen, hc]

/-- A quote that has its meaning begins a literal or ends one. -/
theorem Quoting.isOpen_next {quoting : Quoting} (h : quoting = .escaped → c ≠ '\'') :
    (quoting.next d c).isOpen = (quoting.isOpen ^^ (c == '\'')) := by
  by_cases hc : c = '\''
  · cases quoting with
    | escaped => exact absurd hc (h rfl)
    | inside => cases d <;> simp [Quoting.next, Quoting.isOpen, hc]
    | outside | closing => simp [Quoting.next, Quoting.isOpen, hc]
  · cases quoting with
    | inside => cases d <;> by_cases c = '\\' <;> simp [Quoting.next, Quoting.isOpen, *]
    | escaped | outside | closing => simp [Quoting.next, Quoting.isOpen, hc]

namespace Reading

theorem next?_eq_none_iff :
    r.next? d c = none ↔ r.quoting.next d c = .outside ∧ c = ')' ∧ r.depth = 0 := by
  simp only [next?]
  split
  · rename_i h
    simp [h.2]
  · split
    · rename_i h
      obtain ⟨h, rfl⟩ := h
      simp [h]
    · rename_i h
      simp only [reduceCtorEq, false_iff]
      exact fun ⟨h1, h2, _⟩ => h ⟨h1, h2⟩

theorem quoting_of_next? (h : r.next? d c = some r') : r'.quoting = r.quoting.next d c := by
  simp only [next?] at h
  split at h
  · rw [← Option.some.inj h]
  · split at h
    · split at h
      · cases h
      · rw [← Option.some.inj h]
    · rw [← Option.some.inj h]

end Reading

/-! ## Texts -/

@[simp] theorem read?_nil : read? d r [] = some r := rfl

@[simp] theorem read?_cons : read? d r (c :: cs) = (r.next? d c).bind (read? d · cs) := rfl

theorem read?_append : read? d r (cs ++ rest) = (read? d r cs).bind (read? d · rest) :=
  List.foldlM_append

theorem quoting_of_read? (h : read? d r cs = some r') :
    r'.quoting = cs.foldl (Quoting.next d) r.quoting := by
  induction cs generalizing r with
  | nil => rw [← Option.some.inj h, List.foldl_nil]
  | cons c cs ih =>
    obtain ⟨s, hs, h⟩ := Option.bind_eq_some_iff.1 h
    rw [ih h, Reading.quoting_of_next? hs, List.foldl_cons]

theorem contained_iff :
    Contained d cs ↔ ∃ r, read? d .start cs = some r ∧ r.depth = 0 ∧ r.quoting.isOpen = false := by
  simp only [Contained, Balanced, EndsOutside, Option.any_eq_true, decide_eq_true_eq]
  constructor
  · rintro ⟨⟨r, hr, hdepth⟩, hopen⟩
    exact ⟨r, hr, hdepth, by rw [quoting_of_read? hr]; exact hopen⟩
  · rintro ⟨r, hr, hdepth, hopen⟩
    exact ⟨⟨r, hr, hdepth⟩, by rw [quoting_of_read? hr] at hopen; exact hopen⟩

theorem groupFrom?_eq_some_iff :
    groupFrom? d r (cs ++ ')' :: rest) = some (cs, rest) ↔
      ∃ r', read? d r cs = some r' ∧ r'.depth = 0 ∧ r'.quoting.isOpen = false := by
  induction cs generalizing r with
  | nil =>
    have hclose : r.next? d ')' = none ↔ r.depth = 0 ∧ r.quoting.isOpen = false := by
      rw [Reading.next?_eq_none_iff, Quoting.next_eq_outside_iff (by decide)]
      simp [and_comm]
    simp only [List.nil_append, groupFrom?, read?_nil, Option.some.injEq, exists_eq_left', ← hclose]
    cases r.next? d ')' <;> simp
  | cons c cs ih =>
    simp only [List.cons_append, groupFrom?, read?_cons]
    cases h : r.next? d c with
    | none => simp
    | some s =>
      have := ih (r := s)
      simp [← this, Prod.ext_iff]

/-- A text is contained if in parentheses it is read as a group, whatever comes
after them. -/
theorem group?_eq_some_iff :
    (∀ rest, group? d ('(' :: cs ++ ')' :: rest) = some (cs, rest)) ↔ Contained d cs := by
  rw [contained_iff]
  exact ⟨fun h => groupFrom?_eq_some_iff.1 (h []), fun h _ => groupFrom?_eq_some_iff.2 h⟩

/-- The guard counts the parentheses of a text in which no quote is escaped. -/
theorem depth?_eq_map_read? (h : escapesQuote d r.quoting cs = false) :
    Guard.depth? r.depth r.quoting.isOpen cs = (read? d r cs).map (·.depth) := by
  induction cs generalizing r with
  | nil => rfl
  | cons c cs ih =>
    simp only [escapesQuote, Bool.or_eq_false_iff, Bool.and_eq_false_iff, beq_eq_false_iff_ne]
      at h
    obtain ⟨hc, h⟩ := h
    have hopen := Quoting.isOpen_next (d := d) fun he => hc.resolve_left (· he)
    have hnext (depth : Nat) : Guard.depth? depth (r.quoting.isOpen ^^ (c == '\'')) cs =
        (read? d ⟨r.quoting.next d c, depth⟩ cs).map (·.depth) := by
      rw [← hopen]
      exact ih (r := ⟨_, depth⟩) h
    by_cases hquote : c = '\''
    · subst hquote
      simpa [Guard.depth?, Reading.next?] using hnext r.depth
    · have hout : r.quoting.next d c = .outside ↔ _ := Quoting.next_eq_outside_iff hquote
      have hquote' : (c == '\'') = false := by simpa using hquote
      rw [hquote', Bool.xor_false] at hnext
      cases hquoted : r.quoting.isOpen with
      | true =>
        rw [hquoted] at hout hnext
        simpa [Guard.depth?, Reading.next?, hquote, hout] using hnext r.depth
      | false =>
        rw [hquoted] at hnext
        simp only [hout.2 hquoted] at hnext
        simp only [Guard.depth?, hquote', read?_cons, Reading.next?, hout.2 hquoted]
        by_cases hopening : c = '('
        · simpa [hopening] using hnext (r.depth + 1)
        · by_cases hclosing : c = ')'
          · cases hdepth : r.depth with
            | zero => simp [hclosing]
            | succ depth => simpa [hclosing] using hnext depth
          · simpa [hopening, hclosing] using hnext r.depth

/-! ## Texts that read alike -/

/-- Two texts that mean the same to a reader of literals and groups. -/
structure ReadAlike (d : Dialect) (s t : List Char) : Prop where
  read (r : Reading) : read? d r s = read? d r t
  quoting (quoting : Quoting) : s.foldl (Quoting.next d) quoting = t.foldl (Quoting.next d) quoting
  escapes (quoting : Quoting) : escapesQuote d quoting s = escapesQuote d quoting t

/-- What neither begins nor ends anything, nor can be escaped to an effect. -/
def IsPlain (c : Char) : Prop := c ∉ ['\'', '\\', '(', ')']

instance : DecidablePred IsPlain := fun c => inferInstanceAs (Decidable (c ∉ _))

/-- Where a reader stands after plain characters. -/
def Quoting.onward : Quoting → Quoting
  | .outside | .closing => .outside
  | .inside | .escaped => .inside

theorem escapesQuote_append {quoting : Quoting} :
    escapesQuote d quoting (cs ++ rest) =
      (escapesQuote d quoting cs || escapesQuote d (cs.foldl (Quoting.next d) quoting) rest) := by
  induction cs generalizing quoting with
  | nil => rfl
  | cons c cs ih => simp [escapesQuote, ih, Bool.or_assoc]

section Plain

variable {quoting : Quoting}

theorem Quoting.next_plain (h : IsPlain c) : quoting.next d c = quoting.onward := by
  simp only [IsPlain, List.mem_cons, List.not_mem_nil, or_false, not_or] at h
  cases quoting <;> simp [Quoting.next, Quoting.onward, h]
  cases d <;> rfl

theorem Reading.next?_plain (h : IsPlain c) :
    r.next? d c = some ⟨r.quoting.onward, r.depth⟩ := by
  rw [Reading.next?, Quoting.next_plain h]
  simp only [IsPlain, List.mem_cons, List.not_mem_nil, or_false, not_or] at h
  simp [h]

theorem foldl_next_plain (hne : cs ≠ []) (h : ∀ c ∈ cs, IsPlain c) :
    cs.foldl (Quoting.next d) quoting = quoting.onward := by
  induction cs generalizing quoting with
  | nil => exact absurd rfl hne
  | cons c cs ih =>
    rw [List.foldl_cons, Quoting.next_plain (h c List.mem_cons_self)]
    cases cs with
    | nil => rfl
    | cons e cs =>
      rw [ih (List.cons_ne_nil _ _) fun e he => h e (List.mem_cons_of_mem _ he)]
      cases quoting <;> rfl

theorem read?_plain (hne : cs ≠ []) (h : ∀ c ∈ cs, IsPlain c) :
    read? d r cs = some ⟨r.quoting.onward, r.depth⟩ := by
  induction cs generalizing r with
  | nil => exact absurd rfl hne
  | cons c cs ih =>
    rw [read?_cons, Reading.next?_plain (h c List.mem_cons_self), Option.bind_some]
    cases cs with
    | nil => rfl
    | cons e cs =>
      rw [ih (List.cons_ne_nil _ _) fun e he => h e (List.mem_cons_of_mem _ he)]
      cases r.quoting <;> rfl

theorem escapesQuote_plain (h : ∀ c ∈ cs, IsPlain c) : escapesQuote d quoting cs = false := by
  induction cs generalizing quoting with
  | nil => rfl
  | cons c cs ih =>
    have hc : c ≠ '\'' := fun hc => h c List.mem_cons_self (by simp [hc])
    simp [escapesQuote, hc, ih fun e he => h e (List.mem_cons_of_mem _ he)]

end Plain

namespace ReadAlike

variable {s s' t t' : List Char}

theorem refl (s : List Char) : ReadAlike d s s := ⟨fun _ => rfl, fun _ => rfl, fun _ => rfl⟩

theorem append (h : ReadAlike d s t) (h' : ReadAlike d s' t') :
    ReadAlike d (s ++ s') (t ++ t') where
  read r := by simp only [read?_append, h.read, h'.read]
  quoting quoting := by simp only [List.foldl_append, h.quoting, h'.quoting]
  escapes quoting := by simp only [escapesQuote_append, h.quoting, h.escapes, h'.escapes]

theorem of_plain (hs : s ≠ []) (ht : t ≠ []) (hsplain : ∀ c ∈ s, IsPlain c)
    (htplain : ∀ c ∈ t, IsPlain c) : ReadAlike d s t where
  read r := by rw [read?_plain hs hsplain, read?_plain ht htplain]
  quoting quoting := by rw [foldl_next_plain hs hsplain, foldl_next_plain ht htplain]
  escapes quoting := by rw [escapesQuote_plain hsplain, escapesQuote_plain htplain]

theorem balanced_iff (h : ReadAlike d s t) : Balanced d s ↔ Balanced d t := by
  rw [Balanced, Balanced, h.read]

theorem endsOutside_iff (h : ReadAlike d s t) : EndsOutside d s ↔ EndsOutside d t := by
  rw [EndsOutside, EndsOutside, h.quoting]

end ReadAlike

theorem escapesQuote_duckDb {quoting : Quoting} (h : quoting ≠ .escaped) :
    escapesQuote .duckDb quoting cs = false := by
  induction cs generalizing quoting with
  | nil => rfl
  | cons c cs ih =>
    have hnext : quoting.next .duckDb c ≠ .escaped := by
      cases quoting <;> simp [Quoting.next] <;> split <;> decide
    simp [escapesQuote, h, ih hnext]

end MetricLayer.Sql
