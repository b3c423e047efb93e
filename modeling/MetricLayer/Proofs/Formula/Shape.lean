import MetricLayer.Proofs.Formula.References

/-!
# The shape of a formula

Which operands stand under which operators. Every formula has a level: the
precedence of its operator, 3 for a negation and 4 for what stands by itself. A
formula that has been read is `Shaped`: left operands bind at least as tightly as
their operator and right operands tighter, a sign stands before a signed operand,
and numbers are numbers. `Reading.shaped_next` keeps this for everything that is
still open, and `shaped_of_read` is what comes of it.
-/

namespace MetricLayer

theorem ArithOp.precedence_lt (op : ArithOp) : op.precedence < 3 := by cases op <;> decide

namespace Formula

/-- How tightly a formula is bound together. -/
def level : Formula → Nat
  | .binary op _ _ => op.precedence
  | .negate _ => 3
  | .reference _ | .number _ | .literal _ | .group _ | .call _ _ => 4

theorem level_pos (f : Formula) : 1 ≤ f.level := by
  cases f with
  | binary op => cases op <;> exact Nat.le_of_ble_eq_true rfl
  | _ => exact Nat.le_of_ble_eq_true rfl

/-- Operators and signs have operands that bind as tightly as they need to. -/
inductive Shaped : Formula → Prop where
  | reference (name : String) : Shaped (.reference name)
  | number {digits : String} (number : IsNumber digits) : Shaped (.number digits)
  | literal (value : String) : Shaped (.literal value)
  | negate {f : Formula} (operand : Shaped f) (signed : 3 ≤ f.level) : Shaped (.negate f)
  | group {f : Formula} (inner : Shaped f) : Shaped (.group f)
  | binary {op : ArithOp} {l r : Formula} (left : Shaped l) (right : Shaped r)
      (leftLevel : op.precedence ≤ l.level) (rightLevel : op.precedence < r.level) :
      Shaped (.binary op l r)
  | call {name : String} {fs : List Formula} (arguments : ∀ f ∈ fs, Shaped f) :
      Shaped (.call name fs)

theorem Shaped.operands {op : ArithOp} {l r : Formula} (h : (Formula.binary op l r).Shaped) :
    l.Shaped ∧ r.Shaped := by
  cases h with
  | binary left right _ _ => exact ⟨left, right⟩

/-- Whether an operand of the level `n` may stand on top of what is open. -/
def Opens (n : Nat) : List Frame → Prop
  | .negate :: _ => 3 ≤ n
  | .binary op _ :: _ => op.precedence < n
  | _ => True

/-- Every operator that waits has a left operand as it must be. -/
def ShapedStack : List Frame → Prop
  | [] => True
  | .binary op left :: below =>
    left.Shaped ∧ op.precedence ≤ left.level ∧ Opens op.precedence below ∧ ShapedStack below
  | .call _ done :: below => (∀ f ∈ done, f.Shaped) ∧ ShapedStack below
  | .negate :: below | .group _ :: below => ShapedStack below

def Reading.Shaped (r : Reading) : Prop :=
  ShapedStack r.stack ∧ match r.expecting with
    | .operator operand => operand.Shaped ∧ 3 ≤ operand.level
    | _ => True

theorem opens_of_le {n : Nat} (h : 3 ≤ n) (stack : List Frame) : Opens n stack := by
  unfold Opens
  split
  · exact h
  · rename_i op _ _
    exact Nat.lt_of_lt_of_le op.precedence_lt h
  · trivial

namespace Reading

theorem shaped_complete {operand : Formula} {stack : List Frame} (h : operand.Shaped)
    (hlevel : 3 ≤ operand.level) (hstack : ShapedStack stack) :
    (complete operand stack).Shaped := by
  fun_induction complete operand stack with
  | case1 operand below ih => exact ih (.negate h hlevel) (Nat.le_refl 3) hstack
  | case2 operand stack => exact ⟨hstack, h, hlevel⟩

/-- After the operators of at least the precedence `p`, the operand binds as
tightly, and what is left open takes an operand of this level. -/
theorem shaped_reduce {p : Nat} (hp : p < 3) {operand : Formula} {stack : List Frame}
    (h : operand.Shaped) (hlevel : p ≤ operand.level) (hopens : Opens operand.level stack)
    (hstack : ShapedStack stack) :
    (reduce p operand stack).2.Shaped ∧ p ≤ (reduce p operand stack).2.level ∧
      Opens p (reduce p operand stack).1 ∧ ShapedStack (reduce p operand stack).1 := by
  fun_induction reduce p operand stack with
  | case1 operand below ih =>
    exact ih (.negate h hopens) (Nat.le_of_lt hp) (opens_of_le (Nat.le_refl 3) below) hstack
  | case2 operand op left below hle ih =>
    obtain ⟨hleft, hleftLevel, hbelow, hrest⟩ := hstack
    exact ih (.binary hleft h hleftLevel hopens) hle hbelow hrest
  | case3 operand op left below hlt => exact ⟨h, hlevel, Nat.lt_of_not_le hlt, hstack⟩
  | case4 operand stack hnegate hbinary =>
    refine ⟨h, hlevel, ?_, hstack⟩
    unfold Opens
    split
    · exact (hnegate _ ‹_›).elim
    · exact (hbinary _ _ _ ‹_›).elim
    · trivial

theorem Begins.shaped {stack : List Frame} {t : Placed} {r : Reading} (h : Begins stack t r)
    (hnumber : ∀ digits, t.token = .number digits → IsNumber digits)
    (hstack : ShapedStack stack) : r.Shaped := by
  cases h with
  | operand operand =>
    cases operand with
    | reference name => exact shaped_complete (.reference name) (Nat.le_succ 3) hstack
    | number digits => exact shaped_complete (.number (hnumber digits rfl)) (Nat.le_succ 3) hstack
    | literal value => exact shaped_complete (.literal value) (Nat.le_succ 3) hstack
  | name | group | negate | plus => exact ⟨hstack, trivial⟩

theorem Closes.shaped {f : Formula} {stack : List Frame} {t : Placed} {r : Reading}
    (h : Closes f stack t r) (hf : f.Shaped) (hstack : ShapedStack stack) : r.Shaped := by
  cases h with
  | group => exact shaped_complete (.group hf) (Nat.le_succ 3) hstack
  | call =>
    refine shaped_complete (.call fun g hg => ?_) (Nat.le_succ 3) hstack.2
    rcases List.mem_cons.1 (List.mem_reverse.1 hg) with rfl | hg
    · exact hf
    · exact hstack.1 g hg
  | comma => exact ⟨⟨List.forall_mem_cons.2 ⟨hf, hstack.1⟩, hstack.2⟩, trivial⟩

theorem shaped_next {r r' : Reading} {t : Placed} (h : r.next t = .ok r')
    (hnumber : ∀ digits, t.token = .number digits → IsNumber digits) (hr : r.Shaped) :
    r'.Shaped := by
  cases next_eq_ok_iff.1 h with
  | operand begins | argument begins => exact begins.shaped hnumber hr.1
  | noArgument =>
    exact shaped_complete (.call fun f hf => hr.1.1 f (List.mem_reverse.1 hf)) (Nat.le_succ 3)
      hr.1.2
  | arguments => exact ⟨⟨List.forall_mem_nil _, hr.1⟩, trivial⟩
  | @operator stack f op =>
    obtain ⟨hstack, hf, hlevel⟩ := hr
    have hop := op.precedence_lt
    exact ⟨shaped_reduce hop hf (Nat.le_trans (Nat.le_of_lt hop) hlevel) (opens_of_le hlevel stack)
      hstack, trivial⟩
  | @closing stack f _ _ closes =>
    obtain ⟨hstack, hf, hlevel⟩ := hr
    obtain ⟨hshaped, -, -, hrest⟩ :=
      shaped_reduce (p := 0) (by decide) hf (Nat.zero_le _) (opens_of_le hlevel stack) hstack
    exact closes.shaped hshaped hrest

theorem shaped_foldlM {r r' : Reading} {tokens : List Placed}
    (h : tokens.foldlM next r = .ok r')
    (hnumber : ∀ t ∈ tokens, ∀ digits, t.token = .number digits → IsNumber digits)
    (hr : r.Shaped) : r'.Shaped := by
  induction tokens generalizing r with
  | nil =>
    obtain rfl := Except.ok.inj h
    exact hr
  | cons t tokens ih =>
    simp only [List.foldlM_cons, bind, Except.bind_eq_ok] at h
    obtain ⟨r₁, hnext, hrest⟩ := h
    rw [List.forall_mem_cons] at hnumber
    exact ih hrest hnumber.2 (shaped_next hnext hnumber.1 hr)

theorem shaped_finish {r : Reading} {f : Formula} (h : r.finish = .ok f) (hr : r.Shaped) :
    f.Shaped := by
  obtain ⟨stack, expecting⟩ := r
  unfold finish at h
  cases expecting with
  | operand | argument => cases h
  | callOf name position => cases h
  | operator operand =>
    obtain ⟨hstack, hoperand, hlevel⟩ := hr
    obtain ⟨hshaped, -⟩ :=
      shaped_reduce (p := 0) (by decide) hoperand (Nat.zero_le _) (opens_of_le hlevel stack) hstack
    dsimp only at h
    split at h
    · cases h
    · cases h
    · rename_i formula hreduce
      obtain rfl := Except.ok.inj h
      simpa [hreduce] using hshaped

end Reading

/-- A formula that has been read is shaped. -/
theorem shaped_of_read {s : String} {f : Formula} (h : read s = .ok f) : f.Shaped := by
  simp only [read, bind, Except.bind_eq_ok] at h
  obtain ⟨placed, htokens, h⟩ := h
  split at h <;> [cases h; skip]
  obtain ⟨reading, hfold, hfinish⟩ := Except.bind_eq_ok.1 h
  refine Reading.shaped_finish hfinish (Reading.shaped_foldlM hfold (fun t ht digits hdigits => ?_)
    ⟨trivial, trivial⟩)
  have hvalid := (spells_of_tokensFrom htokens).2 t ht
  rwa [hdigits] at hvalid

end Formula

end MetricLayer
