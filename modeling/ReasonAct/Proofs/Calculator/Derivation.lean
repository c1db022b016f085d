import ReasonAct.Calculator.Grammar
/-!
The grammar of expressions, apart from any way to read them:

    expr  := term (('+' | '-') term)*
    term  := unary (('*' | '/' | '%') unary)*
    unary := '-' unary | power
    power := atom ('^' unary)?
    atom  := NUMBER | '(' expr ')'

A derivation has tokens, a depth and at most one value. No other derivation has the same tokens.
-/
set_option autoImplicit false

namespace ReasonAct.Calculator

inductive Grade where
  | sum
  | product
  deriving DecidableEq, Repr

def Operator.grade? : Operator → Option Grade
  | .plus | .minus => some .sum
  | .times | .divide | .modulo => some .product
  | .power => none

inductive Part where
  | atom
  | power
  | unary
  | chain (g : Grade)
  deriving DecidableEq, Repr

abbrev Part.term : Part := .chain .product

abbrev Part.expr : Part := .chain .sum

def Grade.operand : Grade → Part
  | .sum => .term
  | .product => .unary

mutual

/-- Every constructor is one side of one rule. -/
inductive Derivation (α : Type) : Part → Type where
  | number (x : α) : Derivation α .atom
  | group (e : Derivation α .expr) : Derivation α .atom
  | bare (b : Derivation α .atom) : Derivation α .power
  | raised (b : Derivation α .atom) (e : Derivation α .unary) : Derivation α .power
  | negative (u : Derivation α .unary) : Derivation α .unary
  | unsigned (p : Derivation α .power) : Derivation α .unary
  | chain {g : Grade} (first : Derivation α g.operand) (more : Links α g) : Derivation α (.chain g)

inductive Links (α : Type) : Grade → Type where
  | nil {g : Grade} : Links α g
  | cons {g : Grade} (op : Operator) (h : op.grade? = some g) (x : Derivation α g.operand)
      (more : Links α g) : Links α g

end

variable {α : Type}

mutual

def Derivation.tokens : {p : Part} → Derivation α p → List (Token α)
  | _, .number x => [.number x]
  | _, .group e => .openParen :: (e.tokens ++ [.closeParen])
  | _, .bare b => b.tokens
  | _, .raised b e => b.tokens ++ .operator .power :: e.tokens
  | _, .negative u => .operator .minus :: u.tokens
  | _, .unsigned p => p.tokens
  | _, .chain first more => first.tokens ++ more.tokens

def Links.tokens : {g : Grade} → Links α g → List (Token α)
  | _, .nil => []
  | _, .cons op _ x more => .operator op :: (x.tokens ++ more.tokens)

end

mutual

/-- How many signed operands, exponents and groups lie around the innermost place. -/
def Derivation.depth : {p : Part} → Derivation α p → Nat
  | _, .number _ => 0
  | _, .group e => e.depth + 1
  | _, .bare b => b.depth
  | _, .raised b e => max b.depth (e.depth + 1)
  | _, .negative u => u.depth + 1
  | _, .unsigned p => p.depth
  | _, .chain first more => max first.depth more.depth

def Links.depth : {g : Grade} → Links α g → Nat
  | _, .nil => 0
  | _, .cons _ _ x more => max x.depth more.depth

end

/-- The outcome of an operation. There is none when the divisor is zero. -/
def Arithmetic.apply (a : Arithmetic α) : Operator → α → α → Option α
  | .plus, x, y => some (a.add x y)
  | .minus, x, y => some (a.sub x y)
  | .times, x, y => some (a.mul x y)
  | .divide, x, y => if a.isZero y then none else some (a.div x y)
  | .modulo, x, y => if a.isZero y then none else some (a.mod x y)
  | .power, x, y => some (a.pow x y)

mutual

def Derivation.value (a : Arithmetic α) : {p : Part} → Derivation α p → Option α
  | _, .number x => some x
  | _, .group e => e.value a
  | _, .bare b => b.value a
  | _, .raised b e => do a.apply .power (← b.value a) (← e.value a)
  | _, .negative u => (u.value a).map a.neg
  | _, .unsigned p => p.value a
  | _, .chain first more => do more.value a (← first.value a)

def Links.value (a : Arithmetic α) : {g : Grade} → Links α g → α → Option α
  | _, .nil, x => some x
  | _, .cons op _ y more, x => do more.value a (← a.apply op x (← y.value a))

end

/-- The operators with which a part can go on, where it might have ended. -/
def Part.continues : Part → Operator → Bool
  | .atom, _ => false
  | .power, op | .unary, op => op.grade? = none
  | .chain .product, op => op.grade? ≠ some .sum
  | .chain .sum, _ => true

/-- A part that stands before `rest` ends there. -/
def Closed (p : Part) (rest : List (Token α)) : Prop :=
  ∀ op ts, rest = .operator op :: ts → p.continues op = false

theorem closed_nil (p : Part) : Closed p ([] : List (Token α)) := fun _ _ h => nomatch h

theorem closed_atom (rest : List (Token α)) : Closed .atom rest := fun _ _ _ => rfl

theorem closed_closeParen (p : Part) (rest : List (Token α)) : Closed p (.closeParen :: rest) :=
  fun _ _ h => nomatch h

section Closed

variable {g : Grade} {op : Operator} {rest : List (Token α)}

theorem Grade.continues_chain (h : op.grade? = some g) : (Part.chain g).continues op = true := by
  cases g <;> simp [Part.continues,h]

theorem Grade.not_continues_operand (h : op.grade? = some g) : g.operand.continues op = false := by
  cases g <;> simp [Grade.operand,Part.continues,h]

theorem Closed.operand (h : Closed (.chain g) rest) : Closed g.operand rest := by
  intro op ts hr
  have hc := h op ts hr
  cases g <;> cases op <;> simp_all [Grade.operand,Part.continues,Operator.grade?]

theorem Closed.links (h : Closed (.chain g) rest) (more : Links α g) :
    Closed g.operand (more.tokens ++ rest) := by
  cases more with
  | nil => exact h.operand
  | cons op hop x more =>
    intro op' ts heq
    simp only [Links.tokens,List.cons_append] at heq
    obtain ⟨hhead,-⟩ := List.cons.inj heq
    obtain rfl := Token.operator.inj hhead
    exact Grade.not_continues_operand hop

theorem Closed.not_link {ts : List (Token α)} (h : Closed (.chain g) rest)
    (hop : op.grade? = some g) : rest ≠ .operator op :: ts := by
  intro hr
  have hc := h op ts hr
  rw [Grade.continues_chain hop] at hc
  contradiction

end Closed

theorem Derivation.power_head (d : Derivation α .power) (rest ts : List (Token α)) (op : Operator) :
    d.tokens ++ rest ≠ .operator op :: ts := by
  cases d with
  | bare b => cases b <;> simp [tokens]
  | raised b e => cases b <;> simp [tokens]

mutual

/-- What stands before the same end has one derivation only. -/
theorem Derivation.unique : ∀ {p : Part} (d d' : Derivation α p) {rest rest' : List (Token α)},
    Closed p rest → Closed p rest' → d.tokens ++ rest = d'.tokens ++ rest' →
      d = d' ∧ rest = rest'
  | _, .number x, d', rest, rest', _, _, h => by
    cases d' with
    | number y => simpa [Derivation.tokens] using h
    | group e' => simp [Derivation.tokens] at h
  | _, .group e, d', rest, rest', _, _, h => by
    cases d' with
    | number y => simp [Derivation.tokens] at h
    | group e' =>
      simp only [Derivation.tokens,List.cons_append,List.append_assoc,List.cons.injEq,true_and] at h
      obtain ⟨rfl,hrest⟩ := e.unique e' (closed_closeParen _ _) (closed_closeParen _ _) h
      exact ⟨rfl,by simpa using hrest⟩
  | _, .bare b, d', rest, rest', hc, hc', h => by
    cases d' with
    | bare b' =>
      obtain ⟨rfl,hrest⟩ := b.unique b' (closed_atom _) (closed_atom _) h
      exact ⟨rfl,hrest⟩
    | raised b' e' =>
      simp only [Derivation.tokens,List.append_assoc] at h
      obtain ⟨-,hrest⟩ := b.unique b' (closed_atom _) (closed_atom _) h
      exact absurd (hc _ _ hrest) (by simp [Part.continues,Operator.grade?])
  | _, .raised b e, d', rest, rest', hc, hc', h => by
    cases d' with
    | bare b' =>
      simp only [Derivation.tokens,List.append_assoc] at h
      obtain ⟨-,hrest⟩ := b.unique b' (closed_atom _) (closed_atom _) h
      exact absurd (hc' _ _ hrest.symm) (by simp [Part.continues,Operator.grade?])
    | raised b' e' =>
      simp only [Derivation.tokens,List.append_assoc] at h
      obtain ⟨rfl,hpower⟩ := b.unique b' (closed_atom _) (closed_atom _) h
      obtain ⟨rfl,hrest⟩ := e.unique e' hc hc' (List.cons.inj hpower).2
      exact ⟨rfl,hrest⟩
  | _, .negative u, d', rest, rest', hc, hc', h => by
    cases d' with
    | negative u' =>
      obtain ⟨rfl,hrest⟩ := u.unique u' hc hc' (List.cons.inj h).2
      exact ⟨rfl,hrest⟩
    | unsigned p' => exact absurd h.symm (p'.power_head _ _ _)
  | _, .unsigned p, d', rest, rest', hc, hc', h => by
    cases d' with
    | negative u' => exact absurd h (p.power_head _ _ _)
    | unsigned p' =>
      obtain ⟨rfl,hrest⟩ := p.unique p' hc hc' h
      exact ⟨rfl,hrest⟩
  | _, .chain first more, d', rest, rest', hc, hc', h => by
    cases d' with
    | chain first' more' =>
      simp only [Derivation.tokens,List.append_assoc] at h
      obtain ⟨rfl,hmore⟩ := first.unique first' (hc.links more) (hc'.links more') h
      obtain ⟨rfl,hrest⟩ := more.unique more' hc hc' hmore
      exact ⟨rfl,hrest⟩

theorem Links.unique : ∀ {g : Grade} (l l' : Links α g) {rest rest' : List (Token α)},
    Closed (.chain g) rest → Closed (.chain g) rest' → l.tokens ++ rest = l'.tokens ++ rest' →
      l = l' ∧ rest = rest'
  | _, .nil, l', rest, rest', hc, _, h => by
    cases l' with
    | nil => exact ⟨rfl,h⟩
    | cons op hop x more => exact absurd h (hc.not_link hop)
  | _, .cons op hop x more, l', rest, rest', hc, hc', h => by
    cases l' with
    | nil => exact absurd h.symm (hc'.not_link hop)
    | cons op' hop' x' more' =>
      simp only [Links.tokens,List.cons_append,List.append_assoc,List.cons.injEq,
        Token.operator.injEq] at h
      obtain ⟨rfl,h⟩ := h
      obtain ⟨rfl,hmore⟩ := x.unique x' (hc.links more) (hc'.links more') h
      obtain ⟨rfl,hrest⟩ := more.unique more' hc hc' hmore
      exact ⟨rfl,hrest⟩

end

theorem Derivation.tokens_injective {d d' : Derivation α .expr} (h : d.tokens = d'.tokens) :
    d = d' := by
  have happ : d.tokens ++ [] = d'.tokens ++ [] := by rw [h]
  exact (d.unique d' (closed_nil _) (closed_nil _) happ).1

end ReasonAct.Calculator
