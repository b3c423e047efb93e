import Mathlib.Data.List.TakeWhile
import MetricLayer.Json.Reader
import MetricLayer.Json.Text

/-!
# Values survive being written and read

A value is written compactly, read into tokens and put together again. The tokens
of its text are those of the value (`lexes_toText`), whatever ends the text behind
it, and from them the reader makes the value (`foldlM_tokens`). So the text of a
value without floating numbers is read as the value by either rules
(`read?_toText`), provided that its objects keep their fields in order, as `ofFields`
puts them.
-/

namespace MetricLayer.Json

/-! ## Values and their tokens -/

mutual

/-- Values whose text is exact: integers are natural numbers of 64 bits, and objects
keep their fields in increasing order. -/
def IsPlain : Json → Prop
  | .integer n => ∃ k : Nat, n = k ∧ k < UInt64.size
  | .float _ => False
  | .list items => ItemsPlain items
  | .object fields => (fields.map (·.1)).Pairwise (· < ·) ∧ FieldsPlain fields
  | _ => True

def ItemsPlain : List Json → Prop
  | [] => True
  | v :: rest => v.IsPlain ∧ ItemsPlain rest

def FieldsPlain : List (String × Json) → Prop
  | [] => True
  | (_, v) :: rest => v.IsPlain ∧ FieldsPlain rest

end

mutual

def tokens : Json → List Token
  | .list [] => [.openList, .closeList]
  | .list (v :: rest) => .openList :: v.tokens ++ moreItems rest ++ [.closeList]
  | .object [] => [.openObject, .closeObject]
  | .object ((name, v) :: rest) =>
    .openObject :: .scalar (.text name) :: .colon :: v.tokens ++ moreFields rest ++ [.closeObject]
  | .null => [.scalar .null]
  | .bool b => [.scalar (.bool b)]
  | .integer n => [.scalar (.integer n)]
  | .float x => [.scalar (.float x)]
  | .text s => [.scalar (.text s)]

/-- The items of a list after the first. -/
def moreItems : List Json → List Token
  | [] => []
  | v :: rest => .comma :: v.tokens ++ moreItems rest

/-- The fields of an object after the first. -/
def moreFields : List (String × Json) → List Token
  | [] => []
  | (name, v) :: rest =>
    .comma :: .scalar (.text name) :: .colon :: v.tokens ++ moreFields rest

end

/-! ## Numbers -/

theorem toDigits_ne_zero {n : Nat} (h : 0 < n) : (Nat.toDigits 10 n).head? ≠ some '0' := by
  induction n using Nat.strongRecOn with
  | ind n ih =>
    by_cases hn : n < 10
    · rw [Nat.toDigits_of_lt_base hn]
      simp [Nat.digitChar_eq_zero]
      omega
    · rw [Nat.toDigits_of_base_le (by decide) (by omega), List.head?_append]
      have hhead := ih (n / 10) (by omega) (by omega)
      cases hdigits : (Nat.toDigits 10 (n / 10)).head? with
      | none => simp [Nat.toDigits_ne_nil] at hdigits
      | some c => rw [hdigits] at hhead; exact hhead

theorem number?_toDigits {n : Nat} (h : n < UInt64.size) :
    number? (Nat.toDigits 10 n) = some (.integer n) := by
  have hdigit : ∀ c ∈ Nat.toDigits 10 n, c.isDigit = true := fun c =>
    Nat.isDigit_of_mem_toDigits (by decide) (by decide)
  have hvalue : numeral (Nat.toDigits 10 n) = n := Nat.ofDigitChars_ten_toDigits
  have hzero : ¬((Nat.toDigits 10 n).length > 1 ∧ (Nat.toDigits 10 n).head? = some '0') := by
    rintro ⟨hlength, hhead⟩
    rcases Nat.eq_zero_or_pos n with rfl | hn
    · simp at hlength
    · exact toDigits_ne_zero hn hhead
  have hne : Nat.toDigits 10 n ≠ [] := Nat.toDigits_ne_nil
  generalize Nat.toDigits 10 n = cs at *
  obtain ⟨c, cs, rfl⟩ := List.exists_cons_of_ne_nil hne
  have hc := hdigit c List.mem_cons_self
  have hsign : c ≠ '-' := fun h => by rw [h] at hc; cases hc
  have htake : (c :: cs).takeWhile Char.isDigit = c :: cs := List.takeWhile_eq_self_iff.2 hdigit
  have hdrop : (c :: cs).dropWhile Char.isDigit = [] := List.dropWhile_eq_nil_iff.2 hdigit
  have hint : Int64.minValue.toInt ≤ (n : Int) := by
    have : Int64.minValue.toInt ≤ 0 := by decide
    omega
  have hdigits : digitsAfter? (c :: cs) = some (c :: cs, []) := by
    rw [digitsAfter?, if_pos hc, htake, hdrop]
  unfold number?
  split
  rename_i negative digits hmatch
  split at hmatch
  · exact absurd (List.cons.inj ‹_›).1 hsign
  obtain ⟨rfl, rfl⟩ := Prod.mk.inj hmatch
  rw [hdigits]
  have hsize : ((n : Int) < (UInt64.size : Nat)) := by exact_mod_cast h
  have hlow := decide_eq_true hint
  have hhigh := decide_eq_true hsize
  have hexponent : exponent? [] = some none := rfl
  simp only [Option.bind_eq_bind, Option.bind_some]
  rw [if_neg (by simpa using hzero), hexponent, Option.bind_some, List.append_nil, hvalue,
    if_neg Bool.false_ne_true, hlow, hhigh]
  rfl

/-! ## Characters -/

theorem joinUnits?_toNat (cs : List Char) : joinUnits? (cs.map Char.toNat) = some cs := by
  -- the number of a character is never half of a pair
  have hhalf (c : Char) : ¬(0xD800 ≤ c.toNat ∧ c.toNat < 0xE000) := fun h => by
    rcases c.valid with hc | hc
    · exact absurd (show c.toNat < 0xD800 from hc) (by omega)
    · exact absurd (show 0xDFFF < c.toNat from hc.1) (by omega)
  induction cs with
  | nil => rfl
  | cons c cs ih =>
    have hc := hhalf c
    cases cs with
    | nil => simp [joinUnits?, hc, Char.ofNat_toNat]
    | cons e cs =>
      rw [List.map_cons] at ih
      rw [List.map_cons, List.map_cons, joinUnits?, if_neg (by simp; omega), if_neg (by simp; omega),
        ih, Char.ofNat_toNat]
      rfl

theorem hexValue?_hexDigit {n : Nat} (h : n < 16) : hexValue? (hexDigit n) = some n := by
  revert n
  decide

theorem tokensFrom?_step {lexing lexing' : Lexing} {c : Char} {tokens : List Token}
    (h : lexing.next? c = some (tokens, lexing')) (cs : List Char) :
    tokensFrom? lexing (c :: cs) = (tokensFrom? lexing' cs).map (tokens ++ ·) := by
  rw [tokensFrom?, h]
  change (tokensFrom? lexing' cs).bind (fun more => some (tokens ++ more)) = _
  cases tokensFrom? lexing' cs <;> rfl

theorem tokensFrom?_move {lexing lexing' : Lexing} {c : Char}
    (h : lexing.next? c = some ([], lexing')) (cs : List Char) :
    tokensFrom? lexing (c :: cs) = tokensFrom? lexing' cs := by
  rw [tokensFrom?_step h]
  simp

theorem tokensFrom?_escape {c e : Char} (he : escapeOf? e = some c.toNat) (hu : e ≠ 'u')
    (units : List Nat) (cs : List Char) :
    tokensFrom? (.inText units) ('\\' :: e :: cs) =
      tokensFrom? (.inText (c.toNat :: units)) cs := by
  rw [tokensFrom?_move rfl]
  refine tokensFrom?_move ?_ cs
  simp [Lexing.next?, hu, he]

/-- The code of a control character. -/
theorem tokensFrom?_code {c : Char} (h : c.toNat < 0x20) (units : List Nat) (cs : List Char) :
    tokensFrom? (.inText units)
        ('\\' :: 'u' :: '0' :: '0' :: hexDigit (c.toNat / 16) :: hexDigit (c.toNat % 16) :: cs) =
      tokensFrom? (.inText (c.toNat :: units)) cs := by
  have hhigh := hexValue?_hexDigit (show c.toNat / 16 < 16 by omega)
  have hlow := hexValue?_hexDigit (show c.toNat % 16 < 16 by omega)
  have hvalue : 16 * (c.toNat / 16) + c.toNat % 16 = c.toNat := Nat.div_add_mod _ _
  rw [tokensFrom?_move rfl, tokensFrom?_move rfl, tokensFrom?_move rfl, tokensFrom?_move rfl]
  rw [tokensFrom?_move (by simp [Lexing.next?, hhigh]; rfl)]
  refine tokensFrom?_move ?_ cs
  simp [Lexing.next?, hlow, hvalue]

/-- Between quotes what a character is written as is read as the character. -/
theorem tokensFrom?_escapeChar (c : Char) (units : List Nat) (cs : List Char) :
    tokensFrom? (.inText units) (escapeChar c ++ cs) =
      tokensFrom? (.inText (c.toNat :: units)) cs := by
  have hletter {e l : Char} (he : escapeOf? l = some e.toNat) (hl : l ≠ 'u') (hc : (c == e) = true) :
      tokensFrom? (.inText units) (['\\', l] ++ cs) = tokensFrom? (.inText (c.toNat :: units)) cs := by
    rw [beq_iff_eq.1 hc]
    exact tokensFrom?_escape he hl units cs
  rw [escapeChar]
  split
  · exact hletter rfl (by decide) ‹_›
  split
  · exact hletter rfl (by decide) ‹_›
  split
  · exact hletter rfl (by decide) ‹_›
  split
  · exact hletter rfl (by decide) ‹_›
  split
  · exact hletter rfl (by decide) ‹_›
  split
  · exact hletter rfl (by decide) ‹_›
  split
  · exact hletter rfl (by decide) ‹_›
  split
  · exact tokensFrom?_code ‹_› units cs
  · exact tokensFrom?_move (by simp [Lexing.next?, *]) cs

/-- A text in quotes is one token. -/
theorem tokensFrom?_quoted (s : List Char) (units : List Nat) (rest : List Char) :
    tokensFrom? (.inText units) (s.flatMap escapeChar ++ '"' :: rest) =
      (joinUnits? (units.reverse ++ s.map Char.toNat)).bind fun chars =>
        (tokensFrom? .between rest).map (.scalar (.text (String.ofList chars)) :: ·) := by
  induction s generalizing units with
  | nil =>
    rw [List.flatMap_nil, List.nil_append, List.map_nil, List.append_nil]
    cases hunits : joinUnits? units.reverse with
    | none => simp [tokensFrom?, Lexing.next?, hunits]
    | some chars =>
      have hnext : Lexing.next? '"' (.inText units) =
          some ([.scalar (.text (String.ofList chars))], .between) := by
        simp [Lexing.next?, hunits]
      rw [tokensFrom?_step hnext]
      rfl
  | cons c s ih =>
    rw [List.flatMap_cons, List.append_assoc, tokensFrom?_escapeChar, ih]
    simp

theorem tokensFrom?_quote (s : String) (rest : List Char) :
    tokensFrom? .between ((quote s).toList ++ rest) =
      (tokensFrom? .between rest).map (.scalar (.text s) :: ·) := by
  have hquote : (quote s).toList = '"' :: (s.toList.flatMap escapeChar ++ ['"']) := by
    simp [quote]
  rw [hquote, List.cons_append, List.append_assoc, tokensFrom?_move rfl, List.singleton_append,
    tokensFrom?_quoted, List.reverse_nil, List.nil_append, joinUnits?_toNat, Option.bind_some,
    String.ofList_toList]

/-! ## Texts of values -/

/-- What may stand behind a value: nothing, or the mark that ends it. -/
def Ends (rest : List Char) : Prop := ∀ c ∈ rest.head?, c = ',' ∨ c = ']' ∨ c = '\x7d' ∨ c = ':'

/-- The characters are those of the tokens, whatever ends them. -/
def Lexes (cs : List Char) (tokens : List Token) : Prop :=
  ∀ rest, Ends rest →
    tokensFrom? .between (cs ++ rest) = (tokensFrom? .between rest).map (tokens ++ ·)

theorem Ends.start {c : Char} {cs : List Char} (h : Ends (c :: cs)) :
    ∃ token, Lexing.start c = ([token], .between) := by
  obtain rfl | rfl | rfl | rfl := h c rfl
  exacts [⟨_, rfl⟩, ⟨_, rfl⟩, ⟨_, rfl⟩, ⟨_, rfl⟩]

theorem Lexes.nil : Lexes [] [] := fun rest _ => by simp

theorem Lexes.append {cs more : List Char} {tokens others : List Token} (h : Lexes cs tokens)
    (hmore : Lexes more others) (hends : ∀ rest, Ends rest → Ends (more ++ rest)) :
    Lexes (cs ++ more) (tokens ++ others) := by
  intro rest hrest
  rw [List.append_assoc, h _ (hends rest hrest), hmore rest hrest, Option.map_map]
  congr 1
  funext ts
  exact (List.append_assoc ..).symm

/-- A mark is a token by itself, whatever follows. -/
theorem Lexes.cons {c : Char} {token : Token} {cs : List Char} {tokens : List Token}
    (hc : Lexing.start c = ([token], .between)) (h : Lexes cs tokens) :
    Lexes (c :: cs) (token :: tokens) := by
  intro rest hrest
  have hnext : Lexing.next? c .between = some ([token], .between) := congrArg some hc
  rw [List.cons_append, tokensFrom?_step hnext, h rest hrest, Option.map_map]
  rfl

theorem Lexes.quoted (s : String) : Lexes (quote s).toList [.scalar (.text s)] :=
  fun rest _ => tokensFrom?_quote s rest

theorem start_of_isAlphanum {c : Char} (h : c.isAlphanum = true) :
    Lexing.start c = ([], .inBare [c]) := by
  have hne {d : Char} (hd : d.isAlphanum = false) : c ≠ d := by
    rintro rfl
    exact Bool.noConfusion (h.symm.trans hd)
  simp [Lexing.start, hne]

/-- A scalar without quotes goes on until a mark. -/
theorem Lexes.bare {c : Char} {cs : List Char} {v : Json} (hv : bareScalar? (c :: cs) = some v)
    (halphanum : ∀ d ∈ c :: cs, d.isAlphanum = true) : Lexes (c :: cs) [.scalar v] := by
  have hbare : ∀ d ∈ c :: cs, Lexing.start d = ([], .inBare [d]) := fun d hd =>
    start_of_isAlphanum (halphanum d hd)
  intro rest hrest
  -- the characters are collected last first
  have hcollect (chars more : List Char) (hmore : ∀ d ∈ more, Lexing.start d = ([], .inBare [d])) :
      tokensFrom? (.inBare chars) (more ++ rest) =
        tokensFrom? (.inBare (more.reverse ++ chars)) rest := by
    induction more generalizing chars with
    | nil => rfl
    | cons d more ih =>
      have hd := hmore d List.mem_cons_self
      have hnext : Lexing.next? d (.inBare chars) = some ([], .inBare (d :: chars)) := by
        simp [Lexing.next?, hd]
      rw [List.cons_append, tokensFrom?_move hnext,
        ih (d :: chars) fun e he => hmore e (List.mem_cons_of_mem d he)]
      simp
  have hstart : Lexing.next? c .between = some ([], .inBare [c]) :=
    congrArg some (hbare c List.mem_cons_self)
  rw [List.cons_append, tokensFrom?_move hstart,
    hcollect [c] cs fun d hd => hbare d (List.mem_cons_of_mem c hd)]
  have hread : bareScalar? (cs.reverse ++ [c]).reverse = some v := by simpa using hv
  cases rest with
  | nil =>
    rw [tokensFrom?, Lexing.end?, hread]
    rfl
  | cons e rest =>
    obtain ⟨token, htoken⟩ := hrest.start
    have hnext : Lexing.next? e (.inBare (cs.reverse ++ [c])) =
        some ([.scalar v, token], .between) := by
      simp only [Lexing.next?, htoken, hread]
      rfl
    have hend : Lexing.next? e .between = some ([token], .between) := congrArg some htoken
    rw [tokensFrom?_step hnext, tokensFrom?_step hend, Option.map_map]
    rfl

theorem Lexes.natural {n : Nat} (h : n < UInt64.size) :
    Lexes (toString (n : Int)).toList [.scalar (.integer n)] := by
  have htext : (toString (n : Int)).toList = Nat.toDigits 10 n := Nat.toList_repr
  have hdigit : ∀ c ∈ Nat.toDigits 10 n, c.isDigit = true := fun c =>
    Nat.isDigit_of_mem_toDigits (by decide) (by decide)
  have hread := number?_toDigits h
  rw [htext]
  obtain ⟨c, cs, hcs⟩ := List.exists_cons_of_ne_nil (Nat.toDigits_ne_nil (n := n) (b := 10))
  rw [hcs] at hdigit hread ⊢
  refine Lexes.bare ?_ fun d hd => by
    simp [Char.isAlphanum, hdigit d hd]
  -- the names of scalars begin with a letter
  have hname {name : List Char} (hletter : ∀ d ∈ name.head?, d.isDigit = false) (hne : name ≠ []) :
      (c :: cs == name) = false := by
    rw [beq_eq_false_iff_ne]
    rintro rfl
    exact Bool.noConfusion ((hdigit c List.mem_cons_self).symm.trans (hletter c rfl))
  rw [bareScalar?, hname (by simp) (by simp), hname (by simp) (by simp), hname (by simp) (by simp)]
  exact hread

theorem itemTexts_eq (items : List Json) : itemTexts items = items.map toText := by
  induction items with
  | nil => rfl
  | cons v items ih => rw [itemTexts, ih, List.map_cons]

theorem fieldTexts_eq (fields : List (String × Json)) :
    fieldTexts fields = fields.map fun f => quote f.1 ++ ":" ++ f.2.toText := by
  induction fields with
  | nil => rfl
  | cons f fields ih => rw [fieldTexts, ih, List.map_cons]

/-- Texts joined with commas, those after the first each behind its comma. -/
theorem toList_intercalate_comma (s : String) (more : List String) :
    (",".intercalate (s :: more)).toList = s.toList ++ more.flatMap fun t => ',' :: t.toList := by
  rw [String.toList_intercalate]
  induction more generalizing s with
  | nil => simp
  | cons t more ih =>
    have hrest := ih t
    rw [List.map_cons] at hrest
    rw [List.map_cons, List.map_cons, List.intercalate_cons_cons, hrest]
    simp

theorem ends_cons {c : Char} {cs : List Char} (h : c = ',' ∨ c = ']' ∨ c = '\x7d' ∨ c = ':') :
    Ends (c :: cs) := fun _ hd => Option.some.inj hd ▸ h

theorem Lexes.field {cs : List Char} {tokens : List Token} (h : Lexes cs tokens) (name : String) :
    Lexes ((quote name).toList ++ ':' :: cs) (.scalar (.text name) :: .colon :: tokens) :=
  (Lexes.quoted name).append (.cons rfl h) fun _ _ => ends_cons (by simp)

theorem Lexes.close {c : Char} {token : Token} {cs : List Char} {tokens : List Token}
    (h : Lexes cs tokens) (hc : Lexing.start c = ([token], .between))
    (hmark : c = ',' ∨ c = ']' ∨ c = '\x7d' ∨ c = ':') :
    Lexes (cs ++ [c]) (tokens ++ [token]) :=
  h.append (.cons hc .nil) fun _ _ => ends_cons hmark

theorem ends_flatMap {α : Type} {items : List α} {text : α → List Char} {rest : List Char}
    (h : Ends rest) : Ends ((items.flatMap fun x => ',' :: text x) ++ rest) := by
  cases items with
  | nil => exact h
  | cons x items => exact ends_cons (by simp)

mutual

/-- The text of a value is cut into the tokens of the value. -/
theorem lexes_toText : ∀ v : Json, v.IsPlain → Lexes v.toText.toList v.tokens
  | .null, _ => by
    rw [toText, tokens]
    exact show Lexes ['n', 'u', 'l', 'l'] [.scalar .null] from .bare rfl (by simp)
  | .bool true, _ => by
    rw [toText, tokens]
    exact show Lexes ['t', 'r', 'u', 'e'] [.scalar (.bool true)] from .bare rfl (by simp)
  | .bool false, _ => by
    rw [toText, tokens]
    exact show Lexes ['f', 'a', 'l', 's', 'e'] [.scalar (.bool false)] from .bare rfl (by simp)
  | .integer _, ⟨k, rfl, hk⟩ => by
    rw [toText, tokens]
    exact Lexes.natural hk
  | .text s, _ => by
    rw [toText, tokens]
    exact Lexes.quoted s
  | .list [], _ => by
    rw [tokens]
    exact .cons rfl (.cons rfl .nil)
  | .list (v :: rest), ⟨hv, hrest⟩ => by
    have htext : (Json.list (v :: rest)).toText.toList =
        '[' :: (v.toText.toList ++ rest.flatMap (fun u => ',' :: u.toText.toList)) ++ [']'] := by
      rw [toText, itemTexts_eq, List.map_cons, String.toList_append, String.toList_append,
        toList_intercalate_comma, List.flatMap_map]
      rfl
    rw [htext, tokens]
    have hitems := (lexes_toText v hv).append (lexes_moreItems rest hrest) fun _ => ends_flatMap
    exact (Lexes.cons (c := '[') rfl hitems).close rfl (by simp)
  | .object [], _ => by
    rw [tokens]
    exact .cons rfl (.cons rfl .nil)
  | .object ((name, v) :: rest), ⟨_, hv, hrest⟩ => by
    have htext : (Json.object ((name, v) :: rest)).toText.toList =
        '\x7b' :: ((quote name).toList ++ ':' :: (v.toText.toList ++
          rest.flatMap (fun f => ',' :: ((quote f.1).toList ++ ':' :: f.2.toText.toList)))) ++
          ['\x7d'] := by
      rw [toText, fieldTexts_eq, List.map_cons, String.toList_append, String.toList_append,
        toList_intercalate_comma, List.flatMap_map]
      simp
    rw [htext, tokens]
    have hfields := (lexes_toText v hv).append (lexes_moreFields rest hrest) fun _ => ends_flatMap
    exact (Lexes.cons (c := '\x7b') rfl (hfields.field name)).close rfl (by simp)

theorem lexes_moreItems : ∀ items : List Json, ItemsPlain items →
    Lexes (items.flatMap fun v => ',' :: v.toText.toList) (moreItems items)
  | [], _ => .nil
  | v :: rest, ⟨hv, hrest⟩ =>
    .cons rfl ((lexes_toText v hv).append (lexes_moreItems rest hrest) fun _ => ends_flatMap)

theorem lexes_moreFields : ∀ fields : List (String × Json), FieldsPlain fields →
    Lexes (fields.flatMap fun f => ',' :: ((quote f.1).toList ++ ':' :: f.2.toText.toList))
      (moreFields fields)
  | [], _ => .nil
  | (name, v) :: rest, ⟨hv, hrest⟩ => by
    have hfields := (lexes_toText v hv).append (lexes_moreFields rest hrest) fun _ => ends_flatMap
    have hmore := Lexes.cons (c := ',') rfl (hfields.field name)
    simpa [moreFields] using hmore

end

theorem tokens?_toText {v : Json} (h : v.IsPlain) : tokens? v.toText.toList = some v.tokens := by
  have htokens := lexes_toText v h [] (fun _ hc => by cases hc)
  rw [List.append_nil] at htokens
  rw [tokens?, htokens]
  simp [tokensFrom?, Lexing.end?]

/-! ## Fields in order -/

theorem insertField_of_lt {name : String} (v : Json) {fields : List (String × Json)}
    (h : ∀ f ∈ fields, f.1 < name) : insertField name v fields = fields ++ [(name, v)] := by
  induction fields with
  | nil => rfl
  | cons f fields ih =>
    have hf := h f List.mem_cons_self
    rw [insertField, if_neg (String.lt_asymm hf), if_pos hf,
      ih fun g hg => h g (List.mem_cons_of_mem f hg), List.cons_append]

theorem sortFields_of_pairwise {fields : List (String × Json)}
    (h : (fields.map (·.1)).Pairwise (· < ·)) : sortFields fields = fields := by
  have hfold (fields done : List (String × Json))
      (h : ((done ++ fields).map (·.1)).Pairwise (· < ·)) :
      fields.foldl (fun sorted f => insertField f.1 f.2 sorted) done = done ++ fields := by
    induction fields generalizing done with
    | nil => simp
    | cons f fields ih =>
      have hlt : ∀ g ∈ done, g.1 < f.1 := fun g hg => by
        rw [List.map_append, List.pairwise_append] at h
        exact h.2.2 g.1 (List.mem_map_of_mem hg) f.1 (by simp)
      rw [List.foldl_cons, insertField_of_lt f.2 hlt, ih _ (by simpa using h)]
      simp
  exact hfold fields [] h

/-! ## Tokens of values -/

section Reading

variable {rules : Rules}

theorem foldlM_step {reading reading' : Reading} {token : Token}
    (h : reading.next? rules token = some reading') (ts : List Token) :
    (token :: ts).foldlM (Reading.next? rules) reading = ts.foldlM (Reading.next? rules) reading' := by
  rw [List.foldlM_cons, h]
  rfl

mutual

/-- Where a value may come, its tokens are read as the value. -/
theorem foldlM_tokens : ∀ v : Json, v.IsPlain → ∀ (stack : List Frame) (orClose : Bool)
    (ts : List Token), (v.tokens ++ ts).foldlM (Reading.next? rules) ⟨stack, .value orClose⟩ =
      ts.foldlM (Reading.next? rules) ⟨stack, .nothing v⟩
  | .null, _, _, _, _ => foldlM_step rfl _
  | .bool _, _, _, _, _ => foldlM_step rfl _
  | .integer _, _, _, _, _ => foldlM_step rfl _
  | .text _, _, _, _, _ => foldlM_step rfl _
  | .list [], _, _, _, _ => (foldlM_step rfl _).trans (foldlM_step rfl _)
  | .list (v :: rest), ⟨hv, hrest⟩, stack, _, ts => by
    rw [tokens, List.append_assoc, List.cons_append, List.cons_append, foldlM_step rfl,
      List.append_assoc, foldlM_tokens v hv]
    exact foldlM_moreItems rest hrest stack [] v ts
  | .object [], _, _, _, _ => (foldlM_step rfl _).trans (foldlM_step rfl _)
  | .object ((name, v) :: rest), ⟨hsorted, hv, hrest⟩, stack, _, ts => by
    have hnames : (((name, v) :: rest).map (·.1)).Nodup :=
      hsorted.imp fun hlt => String.ne_of_lt hlt
    have hfields := foldlM_moreFields rest hrest stack [] name v ts hnames
    rw [List.reverse_nil, List.nil_append, ofFields, sortFields_of_pairwise hsorted] at hfields
    rw [← hfields, tokens]
    simp only [List.cons_append, List.append_assoc]
    rw [foldlM_step rfl, foldlM_step rfl, foldlM_step rfl, foldlM_tokens v hv]
    rfl

theorem foldlM_moreItems : ∀ items : List Json, ItemsPlain items → ∀ (stack : List Frame)
    (done : List Json) (v : Json) (ts : List Token),
    (moreItems items ++ .closeList :: ts).foldlM (Reading.next? rules)
        ⟨.items done :: stack, .nothing v⟩ =
      ts.foldlM (Reading.next? rules) ⟨stack, .nothing (.list (done.reverse ++ v :: items))⟩
  | [], _, _, done, v, ts => by
    rw [moreItems, List.nil_append, foldlM_step rfl, List.reverse_cons]
  | u :: items, ⟨hu, hitems⟩, stack, done, v, ts => by
    rw [moreItems, List.append_assoc, List.cons_append, foldlM_step rfl, foldlM_tokens u hu,
      foldlM_moreItems items hitems stack (v :: done) u ts]
    simp

theorem foldlM_moreFields : ∀ fields : List (String × Json), FieldsPlain fields →
    ∀ (stack : List Frame) (done : List (String × Json)) (name : String) (v : Json)
      (ts : List Token), ((done.reverse ++ (name, v) :: fields).map (·.1)).Nodup →
    (moreFields fields ++ .closeObject :: ts).foldlM (Reading.next? rules)
        ⟨.field done name :: stack, .nothing v⟩ =
      ts.foldlM (Reading.next? rules)
        ⟨stack, .nothing (ofFields (done.reverse ++ (name, v) :: fields))⟩
  | [], _, _, done, name, v, ts, _ => by
    rw [moreFields, List.nil_append, foldlM_step rfl, List.reverse_cons]
  | (other, u) :: fields, ⟨hu, hfields⟩, stack, done, name, v, ts, hnames => by
    -- the next name was not read yet
    have hnew : ((name, v) :: done).any (·.1 == other) = false := by
      rw [List.any_eq_false]
      intro f hf heq
      rw [List.map_append, List.map_cons, List.map_cons, List.nodup_append] at hnames
      rcases List.mem_cons.1 hf with rfl | hf
      · have hne := (List.nodup_cons.1 hnames.2.1).1
        exact hne (List.mem_cons.2 (.inl (beq_iff_eq.1 heq)))
      · have hmem := List.mem_map_of_mem (f := (·.1)) (List.mem_reverse.2 hf)
        exact hnames.2.2 f.1 hmem other (by simp) (beq_iff_eq.1 heq)
    have hname : Reading.next? rules ⟨.fields ((name, v) :: done) :: stack, .name (rules == .relaxed)⟩
        (.scalar (.text other)) = some ⟨.field ((name, v) :: done) other :: stack, .colon⟩ := by
      rw [Reading.next?, hnew]
      rfl
    rw [moreFields]
    simp only [List.cons_append, List.append_assoc]
    rw [foldlM_step rfl, foldlM_step hname, foldlM_step rfl, foldlM_tokens u hu,
      foldlM_moreFields fields hfields stack ((name, v) :: done) other u ts (by simpa using hnames)]
    simp

end

/-- What is written of a value is read as the value. -/
theorem read?_toText {v : Json} (h : v.IsPlain) : read? rules v.toText = some v := by
  have hread := @foldlM_tokens rules v h [] false []
  rw [List.append_nil] at hread
  rw [read?, tokens?_toText h]
  change (v.tokens.foldlM (Reading.next? rules) ⟨[], .value false⟩).bind Reading.end? = some v
  rw [hread]
  rfl

end Reading

end MetricLayer.Json
