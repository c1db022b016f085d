import ReasonAct.Calculator.Token
/-!
Expressions over any arithmetic. Sums and products group to the left, powers to the right, and a
sign binds looser than a power. Every signed operand, exponent and group takes one unit of room,
so that the recursion is on the room that is left.
-/
set_option autoImplicit false

namespace ReasonAct.Calculator

/-- The operations an expression needs, with no law assumed of them. -/
structure Arithmetic (α : Type) where
  add : α → α → α
  sub : α → α → α
  mul : α → α → α
  div : α → α → α
  mod : α → α → α
  pow : α → α → α
  neg : α → α
  isZero : α → Bool
  isFinite : α → Bool

variable {α : Type}

abbrev Reader (α : Type) := List (Token α) → Except (Fault α) (α × List (Token α))

def Arithmetic.sumStep (a : Arithmetic α) : Operator → Option (α → α → Except (Fault α) α)
  | .plus => some fun x y => .ok (a.add x y)
  | .minus => some fun x y => .ok (a.sub x y)
  | _ => none

def Arithmetic.productStep (a : Arithmetic α) : Operator → Option (α → α → Except (Fault α) α)
  | .times => some fun x y => .ok (a.mul x y)
  | .divide => some fun x y => if a.isZero y then .error .divisionByZero else .ok (a.div x y)
  | .modulo => some fun x y => if a.isZero y then .error .divisionByZero else .ok (a.mod x y)
  | _ => none

/-- `operand (op operand)*`, grouped to the left; no more rounds than tokens. -/
def chainFrom (step : Operator → Option (α → α → Except (Fault α) α)) (operand : Reader α) :
    Nat → α → Reader α
  | 0, x, ts => .ok (x, ts)
  | rounds + 1, x, ts =>
    match ts with
    | .operator op :: rest =>
      match step op with
      | none => .ok (x, ts)
      | some f => do
        let (y, rest) ← operand rest
        let z ← f x y
        chainFrom step operand rounds z rest
    | _ => .ok (x, ts)

def chain (step : Operator → Option (α → α → Except (Fault α) α)) (operand : Reader α) :
    Reader α := fun ts => do
  let (x, rest) ← operand ts
  chainFrom step operand rest.length x rest

/-- The two readers that a nested place may call. -/
structure Level (α : Type) where
  unary : Reader α
  expr : Reader α

def atom (inner : Level α) : Reader α
  | .number x :: ts => .ok (x, ts)
  | .openParen :: ts => do
    let (x, rest) ← inner.expr ts
    match rest with
    | .closeParen :: rest => .ok (x, rest)
    | _ => .error .unclosed
  | t :: _ => .error (.unexpected t)
  | [] => .error .unfinished

def power (a : Arithmetic α) (inner : Level α) : Reader α := fun ts => do
  let (x, rest) ← atom inner ts
  match rest with
  | .operator .power :: rest => do
    let (y, rest) ← inner.unary rest
    .ok (a.pow x y, rest)
  | _ => .ok (x, rest)

def unary (a : Arithmetic α) (inner : Level α) : Reader α
  | .operator .minus :: ts => do
    let (x, rest) ← inner.unary ts
    .ok (a.neg x, rest)
  | ts => power a inner ts

def expr (a : Arithmetic α) (inner : Level α) : Reader α :=
  chain a.sumStep (chain a.productStep (unary a inner))

/-- The readers when so many nested places may still open. -/
def level (a : Arithmetic α) : Nat → Level α
  | 0 => ⟨fun _ => .error .tooDeep, fun _ => .error .tooDeep⟩
  | room + 1 => let inner := level a room; ⟨unary a inner, expr a inner⟩

def nestingLimit : Nat := 256

def value (a : Arithmetic α) (ts : List (Token α)) : Except (Fault α) α := do
  let (x, rest) ← (level a (nestingLimit + 1)).expr ts
  match rest with
  | t :: _ => .error (.trailing t)
  | [] => if a.isFinite x then .ok x else .error .notFinite

end ReasonAct.Calculator
