import Mathlib.Data.List.Induction
import MetricLayer.Proofs.Sql.DuckDb
import MetricLayer.Proofs.Sql.Escapes

/-!
# Quoted names

`Dialect.nextToken?` is the token at the start of a text as the warehouse of the
dialect splits it, with the text after it. A quoted name comes back from it with
all that was written after the name, as long as no quote follows at once and no
quote of the dialect takes an escape that `quoteName` leaves out: where quotes
double, every name does; where a backslash escapes, the names without a backslash
do, and no others (`nextToken_quoteName_iff`). Names are told apart in their quotes
all the same, and so are the paths of tables (`quoteTable_injective`).
-/

namespace MetricLayer.Sql.Dialect

/-- The token that starts with `c`, with the number of characters after `c` that
belong to it. -/
def tokenAt? : Dialect → Char → List Char → Option (Token × Nat)
  | .bigQuery => Sql.tokenAt?
  | .duckDb => tokenInDuckDb?

/-- The token at the start of a text, with the text after it. -/
def nextToken? (d : Dialect) : List Char → Option (Token × List Char)
  | [] => none
  | c :: cs => (d.tokenAt? c cs).map fun (token, length) => (token, cs.drop length)

/-- What stands before the closing quote of a name, and the number of characters
up to and with that quote. -/
def inName? : Dialect → List Char → Option (List Char × Nat)
  | .bigQuery => quoted? (nameQuote .bigQuery)
  | .duckDb => doubled? (nameQuote .duckDb)

/-- What `quoteName` writes after the first quote. -/
def closedName (d : Dialect) (name : String) : List Char :=
  name.toList.flatMap d.escapeInName ++ [d.nameQuote]

theorem toList_quoteName (d : Dialect) (name : String) :
    (d.quoteName name).toList = d.nameQuote :: d.closedName name :=
  String.toList_ofList

theorem tokenAt?_nameQuote (d : Dialect) (cs : List Char) :
    d.tokenAt? d.nameQuote cs =
      (d.inName? cs).map fun (inner, length) => (.name (String.ofList inner), length) := by
  cases d <;> rfl

theorem nextToken?_quoteName (d : Dialect) (name : String) (rest : List Char) :
    d.nextToken? ((d.quoteName name).toList ++ rest) =
      (d.inName? (d.closedName name ++ rest)).map fun (inner, length) =>
        (.name (String.ofList inner), (d.closedName name ++ rest).drop length) := by
  rw [toList_quoteName, List.cons_append, nextToken?, tokenAt?_nameQuote, Option.map_map]
  rfl

/-- A name is read back from its quotes exactly if the closing quote that is found
is the one that was written. -/
theorem nextToken?_quoteName_eq_iff {d : Dialect} {name : String} {rest : List Char} :
    d.nextToken? ((d.quoteName name).toList ++ rest) = some (.name name, rest) ↔
      ∃ length, d.inName? (d.closedName name ++ rest) = some (name.toList, length) ∧
        (d.closedName name ++ rest).take length = d.closedName name := by
  rw [nextToken?_quoteName, Option.map_eq_some_iff]
  constructor
  · rintro ⟨⟨inner, length⟩, hinner, heq⟩
    obtain ⟨hname, hrest⟩ := Prod.mk.inj heq
    have hname : inner = name.toList := by
      rw [← Token.name.inj hname, String.toList_ofList]
    have hsplit := List.take_append_drop length (d.closedName name ++ rest)
    rw [hrest] at hsplit
    exact ⟨length, hname ▸ hinner, List.append_cancel_right hsplit⟩
  · rintro ⟨length, hinner, htake⟩
    have hsplit := List.take_append_drop length (d.closedName name ++ rest)
    rw [htake] at hsplit
    exact ⟨(name.toList, length), hinner,
      Prod.ext (congrArg Token.name String.ofList_toList) (List.append_cancel_left hsplit)⟩

/-! ## Names that come back -/

theorem inName?_closedName {d : Dialect} {name : String} {rest : List Char}
    (hrest : rest.head? ≠ some d.nameQuote) (hname : d = .bigQuery → '\\' ∉ name.toList) :
    d.inName? (d.closedName name ++ rest) = some (name.toList, (d.closedName name).length) := by
  rw [closedName, List.append_assoc, List.singleton_append, List.length_append]
  cases d with
  | bigQuery =>
    refine quoted?_flatMap (by decide) (fun c hc => ?_) rest
    by_cases hquote : c = nameQuote .bigQuery
    · exact .inl (by simp [escapeInName, hquote])
    · exact .inr ⟨by simp [escapeInName, hquote], hquote,
        fun hslash => hname rfl (hslash ▸ hc)⟩
  | duckDb =>
    exact doubled?_flatMap (by decide) (fun c hc => if_neg (by simpa using hc)) name.toList hrest

/-! ## Names that do not -/

/-- A reader that finds the written quote has found one backslash for each quote in
the name, where it takes two more for each backslash there. -/
theorem not_mem_of_inName? {name : String} {rest : List Char} {length : Nat}
    (h : inName? .bigQuery (closedName .bigQuery name ++ rest) = some (name.toList, length))
    (htake : (closedName .bigQuery name ++ rest).take length = closedName .bigQuery name) :
    '\\' ∉ name.toList := by
  have hread := escapesIn_of_quoted? h (by decide)
  rw [htake] at hread
  have hwritten := slashesIn_quoteName name
  rw [slashesIn, toList_quoteName, List.count_cons_of_ne (by decide)] at hwritten
  have hcount : name.toList.count '\\' = 0 := by
    rw [show nameQuote .bigQuery = '\x60' from rfl] at hread
    omega
  exact List.count_eq_zero.1 hcount

/-- A quoted name in front of a text that does not go on with a quote is one token,
the name itself, with that text after it, exactly if no backslash in the name is
taken for an escape. -/
theorem nextToken_quoteName_iff {d : Dialect} {name : String} {rest : List Char}
    (hrest : rest.head? ≠ some d.nameQuote) :
    d.nextToken? ((d.quoteName name).toList ++ rest) = some (.name name, rest) ↔
      (d = .bigQuery → '\\' ∉ name.toList) := by
  rw [nextToken?_quoteName_eq_iff]
  constructor
  · rintro ⟨length, hinner, htake⟩ rfl
    exact not_mem_of_inName? hinner htake
  · intro hname
    exact ⟨(d.closedName name).length, inName?_closedName hrest hname, List.take_left⟩

/-- A name with quotes in it, before an alias. -/
theorem nextToken_quoteName_of_quotes :
    " AS x".toList.head? ≠ some (nameQuote .duckDb) ∧
      nextToken? .duckDb ((quoteName .duckDb "a\"b\\").toList ++ " AS x".toList) =
        some (.name "a\"b\\", " AS x".toList) :=
  have hrest : " AS x".toList.head? ≠ some (nameQuote .duckDb) := by decide +kernel
  ⟨hrest, (nextToken_quoteName_iff hrest).2 nofun⟩

/-- After a backslash the closing quote belongs to the name, which goes on to the
next quote in the statement. -/
theorem nextToken_quoteName_of_slash :
    ") AS `x` FROM t".toList.head? ≠ some (nameQuote .bigQuery) ∧
      nextToken? .bigQuery ((quoteName .bigQuery "net\\").toList ++ ") AS `x` FROM t".toList) =
        some (.name "net`) AS ", "x` FROM t".toList) := by
  decide +kernel

/-! ## Names told apart -/

theorem escapeInName_eq (d : Dialect) (c : Char) :
    ∃ escape, d.escapeInName c = escape ++ [c] := by
  by_cases hquote : c = d.nameQuote
  · subst hquote
    cases d with
    | bigQuery => exact ⟨['\\'], by decide⟩
    | duckDb => exact ⟨['"'], by decide⟩
  · exact ⟨[], by simp [escapeInName, hquote]⟩

/-- What is written for a name can be read from its end, where each character stands
behind its escape. -/
theorem flatMap_escapeInName_injective (d : Dialect) :
    Function.Injective fun name : List Char => name.flatMap d.escapeInName := by
  have hconcat (name : List Char) (c : Char) : (name ++ [c]).flatMap d.escapeInName =
      name.flatMap d.escapeInName ++ d.escapeInName c := by
    rw [List.flatMap_append, List.flatMap_singleton]
  have hlast (name : List Char) (c : Char) :
      ((name ++ [c]).flatMap d.escapeInName).getLast? = some c := by
    obtain ⟨escape, heq⟩ := d.escapeInName_eq c
    rw [hconcat, heq, ← List.append_assoc, List.getLast?_concat]
  intro name name' h
  dsimp only at h
  induction name using List.reverseRecOn generalizing name' with
  | nil =>
    induction name' using List.reverseRecOn with
    | nil => rfl
    | append_singleton name' c' => cases (congrArg List.getLast? h).trans (hlast name' c')
  | append_singleton name c ih =>
    induction name' using List.reverseRecOn with
    | nil => cases (congrArg List.getLast? h).symm.trans (hlast name c)
    | append_singleton name' c' =>
      have heq := hlast name c
      rw [h, hlast] at heq
      obtain rfl := Option.some.inj heq
      rw [hconcat, hconcat] at h
      rw [ih (List.append_cancel_right h)]

theorem quoteChars_injective (d : Dialect) : Function.Injective d.quoteChars := by
  intro name name' h
  have hlist := String.ofList_injective h
  exact d.flatMap_escapeInName_injective (List.append_cancel_right (List.cons.inj hlist).2)

theorem quoteName_injective (d : Dialect) : Function.Injective d.quoteName :=
  fun _ _ h => String.toList_inj.1 (d.quoteChars_injective h)

/-- The quoted parts of a path have no points. -/
theorem point_notMem_quoteChars {part : List Char} (h : '.' ∉ part) :
    '.' ∉ (quoteChars .duckDb part).toList := by
  have hescape (c : Char) (hc : '.' ∈ escapeInName .duckDb c) : c = '.' := by
    rw [escapeInName.eq_def] at hc
    split at hc
    · rename_i hquote
      rw [beq_iff_eq.1 hquote] at hc
      simp [nameQuote] at hc
    · exact (List.mem_singleton.1 hc).symm
  rw [quoteChars, String.toList_ofList]
  intro hmem
  rw [List.mem_append, List.mem_cons, List.mem_flatMap, List.mem_singleton] at hmem
  rcases hmem with (hquote | ⟨c, hc, hmem⟩) | hquote
  · exact absurd hquote (by decide)
  · exact h (hescape c hmem ▸ hc)
  · exact absurd hquote (by decide)

/-- Tables of different names are different in SQL. -/
theorem quoteTable_injective (d : Dialect) : Function.Injective d.quoteTable := by
  intro table table' h
  cases d with
  | bigQuery => exact quoteName_injective .bigQuery h
  | duckDb =>
    have hparts (table : String) : ((quoteTable .duckDb table).toList).splitOn '.' =
        (Text.splitOn '.' table.toList).map fun part => (quoteChars .duckDb part).toList := by
      have hlist : (quoteTable .duckDb table).toList = ['.'].intercalate
          ((Text.splitOn '.' table.toList).map fun part => (quoteChars .duckDb part).toList) := by
        rw [quoteTable, String.toList_intercalate, List.map_map]
        rfl
      rw [hlist, List.splitOn_intercalate]
      · intro quoted hquoted
        obtain ⟨part, hpart, rfl⟩ := List.mem_map.1 hquoted
        exact point_notMem_quoteChars (Text.notMem_of_mem_splitOn hpart)
      · simpa using Text.splitOn_ne_nil '.' table.toList
    have hsame : Text.splitOn '.' table.toList = Text.splitOn '.' table'.toList := by
      have hquoted := congrArg (fun quoted => quoted.toList.splitOn '.') h
      refine List.map_injective_iff.2 (fun part part' heq => ?_)
        ((hparts table).symm.trans (hquoted.trans (hparts table')))
      exact quoteChars_injective .duckDb (String.toList_inj.1 heq)
    rw [← String.toList_inj, ← Text.intercalate_splitOn '.' table.toList, hsame,
      Text.intercalate_splitOn]

end MetricLayer.Sql.Dialect
