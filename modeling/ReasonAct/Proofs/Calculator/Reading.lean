import ReasonAct.Calculator.Evaluate
import ReasonAct.Proofs.Calculator.Derivation
set_option autoImplicit false

namespace ReasonAct.Calculator

variable {α : Type} {a : Arithmetic α} {bound : Nat} {inner : Level α}

theorem bind_eq_ok {ε β γ : Type} {x : Except ε β} {f : β → Except ε γ} {z : γ} :
    (x >>= f) = .ok z ↔ ∃ y, x = .ok y ∧ f y = .ok z := by
  cases x with
  | error e => simp [bind,Except.bind]
  | ok y => simp [bind,Except.bind]

/-- What a reader finds has a derivation of its part, and it takes each derivation that ends where
the tokens do not go on with the part. -/
structure Follows (a : Arithmetic α) (p : Part) (bound : Nat) (read : Reader α) : Prop where
  finds : ∀ {ts v rest}, read ts = .ok (v, rest) →
    ∃ d : Derivation α p, d.tokens ++ rest = ts ∧ d.depth < bound ∧ d.value a = some v
  takes : ∀ {d : Derivation α p} {v rest}, d.depth < bound → d.value a = some v →
    Closed p rest → read (d.tokens ++ rest) = .ok (v, rest)

theorem atom_follows (he : Follows a .expr bound inner.expr) :
    Follows a .atom (bound + 1) (atom inner) where
  finds := by
    intro ts v rest h
    match ts with
    | [] => contradiction
    | .number x :: ts =>
      obtain ⟨rfl,rfl⟩ := Prod.mk.inj (Except.ok.inj h)
      exact ⟨.number x,rfl,Nat.succ_pos _,rfl⟩
    | .openParen :: ts =>
      obtain ⟨⟨x,behind⟩,hx,hclose⟩ := bind_eq_ok.mp h
      obtain ⟨e,rfl,hdepth,hvalue⟩ := he.finds hx
      match behind with
      | .closeParen :: behind =>
        obtain ⟨rfl,rfl⟩ := Prod.mk.inj (Except.ok.inj hclose)
        exact ⟨.group e,by simp [Derivation.tokens],Nat.succ_lt_succ hdepth,hvalue⟩
      | [] | .number _ :: _ | .operator _ :: _ | .openParen :: _ => contradiction
    | .operator _ :: _ | .closeParen :: _ => contradiction
  takes := by
    intro d v rest hdepth hvalue _
    cases d with
    | number x => rw [← Option.some.inj hvalue]; rfl
    | group e =>
      have hread := he.takes (Nat.lt_of_succ_lt_succ hdepth) hvalue (closed_closeParen _ rest)
      simp [Derivation.tokens,atom,hread,bind,Except.bind]

theorem power_follows (he : Follows a .expr bound inner.expr)
    (hu : Follows a .unary bound inner.unary) :
    Follows a .power (bound + 1) (power a inner) where
  finds := by
    intro ts v rest h
    obtain ⟨⟨x,behind⟩,hx,hpower⟩ := bind_eq_ok.mp h
    obtain ⟨b,rfl,hdepth,hvalue⟩ := (atom_follows he).finds hx
    dsimp only at hpower
    split at hpower
    · obtain ⟨⟨y,behind⟩,hy,heq⟩ := bind_eq_ok.mp hpower
      obtain ⟨e,rfl,hdepth',hvalue'⟩ := hu.finds hy
      obtain ⟨rfl,rfl⟩ := Prod.mk.inj (Except.ok.inj heq)
      refine ⟨.raised b e,by simp [Derivation.tokens],?_,?_⟩
      · simp only [Derivation.depth]
        omega
      · simp [Derivation.value,hvalue,hvalue',Arithmetic.apply]
    · obtain ⟨rfl,rfl⟩ := Prod.mk.inj (Except.ok.inj hpower)
      exact ⟨.bare b,rfl,hdepth,hvalue⟩
  takes := by
    intro d v rest hdepth hvalue hclosed
    cases d with
    | bare b =>
      have hread := (atom_follows he).takes hdepth hvalue (closed_atom rest)
      simp only [Derivation.tokens,power,hread,bind,Except.bind]
      split
      · exact absurd (hclosed _ _ rfl) (by simp [Part.continues,Operator.grade?])
      · rfl
    | raised b e =>
      obtain ⟨x,hx,y,hy,rfl⟩ : ∃ x, b.value a = some x ∧ ∃ y, e.value a = some y ∧
          a.pow x y = v := by
        simpa [Derivation.value,Arithmetic.apply,Option.bind_eq_some_iff] using hvalue
      simp only [Derivation.depth] at hdepth
      have hread := (atom_follows he).takes (by omega) hx
        (closed_atom (.operator .power :: (e.tokens ++ rest)))
      have hread' := hu.takes (by omega) hy hclosed
      simp [Derivation.tokens,power,hread,hread',bind,Except.bind]

theorem unary_follows (he : Follows a .expr bound inner.expr)
    (hu : Follows a .unary bound inner.unary) :
    Follows a .unary (bound + 1) (unary a inner) where
  finds := by
    intro ts v rest h
    unfold unary at h
    split at h
    · obtain ⟨⟨x,behind⟩,hx,heq⟩ := bind_eq_ok.mp h
      obtain ⟨u,rfl,hdepth,hvalue⟩ := hu.finds hx
      obtain ⟨rfl,rfl⟩ := Prod.mk.inj (Except.ok.inj heq)
      exact ⟨.negative u,rfl,Nat.succ_lt_succ hdepth,by simp [Derivation.value,hvalue]⟩
    · obtain ⟨p,hts,hdepth,hvalue⟩ := (power_follows he hu).finds h
      exact ⟨.unsigned p,hts,hdepth,hvalue⟩
  takes := by
    intro d v rest hdepth hvalue hclosed
    cases d with
    | negative u =>
      obtain ⟨x,hx,rfl⟩ := Option.map_eq_some_iff.mp hvalue
      have hread := hu.takes (Nat.lt_of_succ_lt_succ hdepth) hx hclosed
      simp [Derivation.tokens,unary,hread,bind,Except.bind]
    | unsigned p =>
      have hread := (power_follows he hu).takes hdepth hvalue hclosed
      simp only [Derivation.tokens]
      unfold unary
      split
      · rename_i hsign
        exact absurd hsign (p.power_head _ _ _)
      · exact hread

section Chain

def Arithmetic.step (a : Arithmetic α) :
    Grade → Operator → Option (α → α → Except (Fault α) α)
  | .sum => a.sumStep
  | .product => a.productStep

variable {g : Grade} {op : Operator} {operand : Reader α}

theorem step_of_ne (h : op.grade? ≠ some g) : a.step g op = none := by
  cases g <;> cases op <;>
    simp_all [Operator.grade?,Arithmetic.step,Arithmetic.sumStep,Arithmetic.productStep]

theorem step_of_eq (h : op.grade? = some g) : ∃ f, a.step g op = some f ∧
    ∀ x y z, f x y = .ok z ↔ a.apply op x y = some z := by
  cases g <;> cases op <;> try contradiction
  all_goals
    refine ⟨_,rfl,?_⟩
    intro x y z
    cases hz : a.isZero y <;> simp [Arithmetic.apply,hz]

theorem chainFrom_finds (h : Follows a g.operand bound operand) (hpos : 0 < bound) {rounds : Nat}
    {x v : α} {ts rest : List (Token α)}
    (hread : chainFrom (a.step g) operand rounds x ts = .ok (v, rest)) :
    ∃ l : Links α g, l.tokens ++ rest = ts ∧ l.depth < bound ∧ l.value a x = some v := by
  have stop {x : α} {ts : List (Token α)}
      (heq : (.ok (x, ts) : Except (Fault α) _) = .ok (v, rest)) :
      ∃ l : Links α g, l.tokens ++ rest = ts ∧ l.depth < bound ∧ l.value a x = some v := by
    obtain ⟨rfl,rfl⟩ := Prod.mk.inj (Except.ok.inj heq)
    exact ⟨.nil,rfl,hpos,rfl⟩
  induction rounds generalizing x ts with
  | zero => exact stop hread
  | succ rounds ih =>
    unfold chainFrom at hread
    split at hread
    · rename_i op behind
      by_cases hop : op.grade? = some g
      · obtain ⟨f,hf,happly⟩ := step_of_eq (a := a) hop
        rw [hf] at hread
        obtain ⟨⟨y,behind⟩,hy,hrest⟩ := bind_eq_ok.mp hread
        obtain ⟨z,hz,hmore⟩ := bind_eq_ok.mp hrest
        obtain ⟨d,rfl,hdepth,hvalue⟩ := h.finds hy
        obtain ⟨l,rfl,hdepth',hvalue'⟩ := ih hmore
        refine ⟨.cons op hop d l,by simp [Links.tokens],Nat.max_lt.mpr ⟨hdepth,hdepth'⟩,?_⟩
        simp [Links.value,hvalue,(happly x y z).mp hz,hvalue']
      · rw [step_of_ne hop] at hread
        exact stop hread
    · exact stop hread

theorem chainFrom_closed {rounds : Nat} {x : α} {rest : List (Token α)}
    (h : Closed (.chain g) rest) :
    chainFrom (a.step g) operand rounds x rest = .ok (x, rest) := by
  cases rounds with
  | zero => rfl
  | succ rounds =>
    match rest with
    | .operator op :: behind =>
      have hop : op.grade? ≠ some g := fun hop => h.not_link hop rfl
      simp [chainFrom,step_of_ne hop]
    | [] | .number _ :: _ | .openParen :: _ | .closeParen :: _ => rfl

/-- There are at least as many rounds as tokens, so that no link is left over. -/
theorem chainFrom_takes (h : Follows a g.operand bound operand) : ∀ (l : Links α g) {rounds : Nat}
    {x v : α} {rest : List (Token α)}, (l.tokens ++ rest).length ≤ rounds → l.depth < bound →
    l.value a x = some v → Closed (.chain g) rest →
      chainFrom (a.step g) operand rounds x (l.tokens ++ rest) = .ok (v, rest)
  | .nil, rounds, x, v, rest, _, _, hvalue, hclosed => by
    obtain rfl := Option.some.inj hvalue
    exact chainFrom_closed hclosed
  | .cons op hop d l, 0, x, v, rest, hle, _, _, _ => by simp [Links.tokens] at hle
  | .cons op hop d l, rounds + 1, x, v, rest, hle, hdepth, hvalue, hclosed => by
    obtain ⟨hd,hl⟩ := Nat.max_lt.mp hdepth
    obtain ⟨f,hf,happly⟩ := step_of_eq (a := a) hop
    obtain ⟨y,hy,hvalue⟩ := Option.bind_eq_some_iff.mp hvalue
    obtain ⟨z,hz,hvalue⟩ := Option.bind_eq_some_iff.mp hvalue
    have hread := h.takes hd hy (hclosed.links l)
    have hle : (l.tokens ++ rest).length ≤ rounds := by
      simp only [Links.tokens,List.cons_append,List.length_cons,List.length_append] at hle ⊢
      omega
    have hmore := chainFrom_takes h l hle hl hvalue hclosed
    simp [Links.tokens,chainFrom,hf,hread,(happly x y z).mpr hz,hmore,bind,Except.bind]

theorem chain_follows (h : Follows a g.operand bound operand) :
    Follows a (.chain g) bound (chain (a.step g) operand) where
  finds := by
    intro ts v rest hread
    obtain ⟨⟨x,behind⟩,hx,hmore⟩ := bind_eq_ok.mp hread
    obtain ⟨d,rfl,hdepth,hvalue⟩ := h.finds hx
    obtain ⟨l,rfl,hdepth',hvalue'⟩ := chainFrom_finds h (Nat.zero_lt_of_lt hdepth) hmore
    refine ⟨.chain d l,by simp [Derivation.tokens],Nat.max_lt.mpr ⟨hdepth,hdepth'⟩,?_⟩
    simp [Derivation.value,hvalue,hvalue']
  takes := by
    intro d v rest hdepth hvalue hclosed
    cases d with
    | chain first l =>
      obtain ⟨hf,hl⟩ := Nat.max_lt.mp hdepth
      obtain ⟨x,hx,hvalue⟩ := Option.bind_eq_some_iff.mp hvalue
      have hread := h.takes hf hx (hclosed.links l)
      have hmore := chainFrom_takes h l (Nat.le_refl _) hl hvalue hclosed
      simp only [Derivation.tokens,List.append_assoc,chain,hread,bind,Except.bind]
      exact hmore

end Chain

theorem expr_follows (he : Follows a .expr bound inner.expr)
    (hu : Follows a .unary bound inner.unary) :
    Follows a .expr (bound + 1) (expr a inner) := by
  have hterm : Follows a .term (bound + 1) (chain a.productStep (unary a inner)) :=
    chain_follows (g := .product) (unary_follows he hu)
  exact chain_follows (g := .sum) hterm

theorem level_follows (a : Arithmetic α) (room : Nat) :
    Follows a .unary room (level a room).unary ∧ Follows a .expr room (level a room).expr := by
  induction room with
  | zero =>
    refine ⟨⟨?_,?_⟩,⟨?_,?_⟩⟩
    · exact fun h => nomatch h
    · exact fun hdepth => absurd hdepth (Nat.not_lt_zero _)
    · exact fun h => nomatch h
    · exact fun hdepth => absurd hdepth (Nat.not_lt_zero _)
  | succ room ih => exact ⟨unary_follows ih.2 ih.1,expr_follows ih.2 ih.1⟩

structure Derives (a : Arithmetic α) (ts : List (Token α)) (d : Derivation α .expr) (v : α) :
    Prop where
  tokens : d.tokens = ts
  nesting : d.depth ≤ nestingLimit
  value : d.value a = some v
  finite : a.isFinite v = true

theorem value_eq_ok_iff {ts : List (Token α)} {v : α} :
    value a ts = .ok v ↔ ∃ d, Derives a ts d v := by
  have hexpr := (level_follows a (nestingLimit + 1)).2
  constructor
  · intro h
    obtain ⟨⟨x,rest⟩,hx,hend⟩ := bind_eq_ok.mp h
    obtain ⟨d,rfl,hdepth,hvalue⟩ := hexpr.finds hx
    match rest with
    | [] =>
      dsimp only at hend
      split at hend
      · rename_i hfinite
        obtain rfl := Except.ok.inj hend
        exact ⟨d,by simp,Nat.le_of_lt_succ hdepth,hvalue,hfinite⟩
      · contradiction
    | t :: rest => contradiction
  · intro ⟨d,h⟩
    have hread := hexpr.takes (Nat.lt_succ_of_le h.nesting) h.value (closed_nil _)
    rw [List.append_nil,h.tokens] at hread
    simp [value,hread,h.finite,bind,Except.bind]

/-- The calculator implements its grammar, which is not ambiguous; what is not in it, or has no
finite value, is an error. -/
theorem value_follows_grammar (a : Arithmetic α) :
    (∀ d d' : Derivation α .expr, d.tokens = d'.tokens → d = d') ∧
    (∀ ts v, value a ts = .ok v ↔ ∃ d, Derives a ts d v) ∧
    (∀ ts, (∀ d v, ¬ Derives a ts d v) → ∃ fault, value a ts = .error fault) ∧
    (∀ s v, evaluate s = .ok v ↔
      ∃ ts d, tokens literalValue s = .ok ts ∧ Derives doubles ts d v) ∧
    ∀ s, (∀ ts d v, tokens literalValue s = .ok ts → ¬ Derives doubles ts d v) →
      ∃ fault, evaluate s = .error fault := by
  have hevaluate (s : String) (v : Float) : evaluate s = .ok v ↔
      ∃ ts d, tokens literalValue s = .ok ts ∧ Derives doubles ts d v := by
    simp [evaluate,bind_eq_ok,value_eq_ok_iff]
  refine ⟨fun _ _ => Derivation.tokens_injective,fun _ _ => value_eq_ok_iff,?_,hevaluate,?_⟩
  · intro ts hnone
    cases h : value a ts with
    | error fault => exact ⟨fault,rfl⟩
    | ok v =>
      obtain ⟨d,hd⟩ := value_eq_ok_iff.mp h
      exact absurd hd (hnone d v)
  · intro s hnone
    cases h : evaluate s with
    | error fault => exact ⟨fault,rfl⟩
    | ok v =>
      obtain ⟨ts,d,hts,hd⟩ := (hevaluate s v).mp h
      exact absurd hd (hnone ts d v hts)

end ReasonAct.Calculator
