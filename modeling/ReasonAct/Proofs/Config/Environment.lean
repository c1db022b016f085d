import ReasonAct.Config.Basic
import ReasonAct.Proofs.Text.Blank
/-!
What the environment makes of a configuration. All variables are taken as they are set, or one of
them is refused; and then the configuration may have changed already.
-/
set_option autoImplicit false

namespace ReasonAct

namespace Config

open Text (isBlank)

/-- A whole number as a variable may hold it: figures behind one plus sign or none, with white
space on both sides. -/
inductive Denotes (raw : String) : Nat → Prop
  | intro {before plus ds after : List Char} (hbefore : ∀ c ∈ before, isBlank c = true)
    (hafter : ∀ c ∈ after, isBlank c = true) (hplus : plus = [] ∨ plus = ['+'])
    (nonempty : ds ≠ []) (figures : ∀ c ∈ ds, c.isDigit = true)
    (text : raw.toList = before ++ (plus ++ ds) ++ after) : Denotes raw (Nat.ofDigitChars 10 ds 0)

theorem envNat?_eq_some_iff {raw : String} {n : Nat} : envNat? raw = some n ↔ Denotes raw n := by
  constructor
  · intro h
    obtain ⟨before,after,hbefore,hafter,htext⟩ := Text.exists_trim raw
    obtain ⟨plus,ds,hplus,htrim,hds⟩ : ∃ plus ds, (plus = [] ∨ plus = ['+']) ∧
        (Text.trim raw).toList = plus ++ ds ∧
        (if ds.isEmpty || !ds.all Char.isDigit then none else some (Nat.ofDigitChars 10 ds 0)) =
          some n := by
      unfold envNat? at h
      dsimp only at h
      split at h
      · rename_i ds heq
        exact ⟨['+'],ds,.inr rfl,heq,h⟩
      · exact ⟨[],(Text.trim raw).toList,.inl rfl,(List.nil_append _).symm,h⟩
    obtain ⟨hfigures,hn⟩ := Option.ite_none_left_eq_some.mp hds
    obtain rfl := Option.some.inj hn
    simp only [Bool.or_eq_true,List.isEmpty_iff,Bool.not_eq_true',not_or,Bool.not_eq_false,
      List.all_eq_true] at hfigures
    exact .intro hbefore hafter hplus hfigures.1 hfigures.2 (htrim ▸ htext)
  · rintro ⟨hbefore,hafter,hplus,hne,hfigures,htext⟩
    rename_i before plus ds after
    have hnum : plus ++ ds ≠ [] := by simp [hne]
    have hhead : isBlank ((plus ++ ds).head hnum) = false := by
      rcases hplus with rfl | rfl
      · exact Text.isBlank_of_isDigit (hfigures _ (List.head_mem _))
      · rfl
    have hlast : isBlank ((plus ++ ds).getLast hnum) = false := by
      rw [List.getLast_append_of_ne_nil _ hne]
      exact Text.isBlank_of_isDigit (hfigures _ (List.getLast_mem _))
    have htrim := Text.toList_trim_eq htext hbefore hafter hnum hhead hlast
    have hall : ds.all Char.isDigit = true := List.all_eq_true.mpr hfigures
    have hsome : (ds.isEmpty || !ds.all Char.isDigit) = false := by simp [hne,hall]
    unfold envNat?
    rw [htrim]
    rcases hplus with rfl | rfl
    · obtain ⟨d,ds,rfl⟩ := List.exists_cons_of_ne_nil hne
      have hd : d ≠ '+' := by
        rintro rfl
        exact absurd (hfigures '+' List.mem_cons_self) (by decide)
      simp_all
    · simp [hsome]

theorem Denotes.unique {raw : String} {n m : Nat} (hn : Denotes raw n) (hm : Denotes raw m) :
    n = m :=
  Option.some.inj ((envNat?_eq_some_iff.mpr hn).symm.trans (envNat?_eq_some_iff.mpr hm))

/-- What a variable says of a number; nothing if it is not set. -/
inductive Says {α : Type} (toNat : α → Nat) : Option String → Option α → Prop
  | unset : Says toNat none none
  | set {raw : String} {x : α} (h : Denotes raw (toNat x)) : Says toNat (some raw) (some x)

def taking (c : Config) (iterations : Option UInt32) (ms : Option UInt64) (dir : Option String) :
    Config :=
  { c with
    agent := { c.agent with
      maxIterations := iterations.getD c.agent.maxIterations
      timeoutMs := ms.or c.agent.timeoutMs }
    workingDir := dir.or c.workingDir }

/-- All that can come of the variables: they are all taken, or one of the two numbers is none. A bad
timeout is found when the number of iterations has been taken. -/
inductive Overridden (lookup : String → Option String) (c : Config) :
    Config × Option ConfigError → Prop
  | taken {iterations : Option UInt32} {ms : Option UInt64}
    (hiterations : Says UInt32.toNat (lookup iterationsVariable) iterations)
    (hms : Says UInt64.toNat (lookup timeoutVariable) ms) :
    Overridden lookup c (c.taking iterations ms (lookup workingDirVariable), none)
  | badIterations {raw : String} (hraw : lookup iterationsVariable = some raw)
    (h : ∀ n : UInt32, ¬ Denotes raw n.toNat) :
    Overridden lookup c (c, some (.invalid
      (iterationsVariable ++ " must be a positive integer, got '" ++ raw ++ "'")))
  | badTimeout {iterations : Option UInt32} {raw : String}
    (hiterations : Says UInt32.toNat (lookup iterationsVariable) iterations)
    (hraw : lookup timeoutVariable = some raw) (h : ∀ ms : UInt64, ¬ Denotes raw ms.toNat) :
    Overridden lookup c (c.taking iterations none none, some (.invalid
      (timeoutVariable ++ " must be an integer, got '" ++ raw ++ "'")))

def settling (set : String → Config → Except ConfigError Config) (o : Option String) (c : Config) :
    Except ConfigError Config := o.elim (.ok c) fun raw => set raw c

theorem settling_some (set : String → Config → Except ConfigError Config) (raw : String)
    (c : Config) : settling set (some raw) c = set raw c := rfl

section Number

variable {α : Type} {toNat : α → Nat} {size : Nat} {ofNat : Nat → α}
  (hof : ∀ {n}, n < size → toNat (ofNat n) = n) (hsize : ∀ x, toNat x < size)

include hof hsize

theorem withNumber_cases (put : Nat → Config → Config) (refusal raw : String) (c : Config) :
    (∃ x : α, Denotes raw (toNat x) ∧
      withNumber size put refusal raw c = .ok (put (toNat x) c)) ∨
    (∀ x : α, ¬ Denotes raw (toNat x)) ∧
      withNumber size put refusal raw c = .error (.invalid (refusal ++ raw ++ "'")) := by
  unfold withNumber
  split
  · rename_i n hn
    obtain ⟨hread,hlt⟩ := Option.filter_eq_some_iff.mp hn
    have heq : toNat (ofNat n) = n := hof (by simpa using hlt)
    refine .inl ⟨ofNat n,?_,by rw [heq]⟩
    rw [heq]
    exact envNat?_eq_some_iff.mp hread
  · rename_i hnone
    refine .inr ⟨fun x hx => ?_,rfl⟩
    rw [envNat?_eq_some_iff.mpr hx,Option.filter_some,
      if_pos (by simpa using hsize x)] at hnone
    contradiction

theorem settle_number {put : Nat → Config → Config} (refusal : String) (o : Option String)
    {take : Option α → Config} {c : Config} (hunset : take none = c)
    (hput : ∀ x, put (toNat x) c = take (some x)) :
    (∃ x, Says toNat o x ∧ settling (withNumber size put refusal) o c = .ok (take x)) ∨
    ∃ raw, o = some raw ∧ (∀ x : α, ¬ Denotes raw (toNat x)) ∧
      settling (withNumber size put refusal) o c =
        .error (.invalid (refusal ++ raw ++ "'")) := by
  cases o with
  | none => exact .inl ⟨none,.unset,congrArg Except.ok hunset.symm⟩
  | some raw =>
    rw [settling_some]
    rcases withNumber_cases hof hsize put refusal raw c with ⟨x,hx,hset⟩ | ⟨hx,hset⟩
    · exact .inl ⟨some x,.set hx,hset.trans (congrArg Except.ok (hput x))⟩
    · exact .inr ⟨raw,rfl,hx,hset⟩

end Number

theorem settle_iterations (o : Option String) (c : Config) :
    (∃ iterations, Says UInt32.toNat o iterations ∧
      settling withIterations o c = .ok (c.taking iterations none none)) ∨
    ∃ raw, o = some raw ∧ (∀ n : UInt32, ¬ Denotes raw n.toNat) ∧
      settling withIterations o c = .error (.invalid
        (iterationsVariable ++ " must be a positive integer, got '" ++ raw ++ "'")) :=
  settle_number UInt32.toNat_ofNat_of_lt' UInt32.toNat_lt_size _ o rfl fun n => by simp [taking]

theorem settle_timeout (o : Option String) (c : Config) :
    (∃ ms, Says UInt64.toNat o ms ∧ settling withTimeout o c = .ok (c.taking none ms none)) ∨
    ∃ raw, o = some raw ∧ (∀ ms : UInt64, ¬ Denotes raw ms.toNat) ∧
      settling withTimeout o c = .error (.invalid
        (timeoutVariable ++ " must be an integer, got '" ++ raw ++ "'")) :=
  settle_number UInt64.toNat_ofNat_of_lt' UInt64.toNat_lt_size _ o rfl fun ms => by simp [taking]

section Settling

variable {lookup : String → Option String} {c c₁ c₂ : Config} {e : ConfigError}

theorem withEnv_of_iterations (h : settling withIterations (lookup iterationsVariable) c = .error e) :
    c.withEnv lookup = (c, some e) := by
  cases hi : lookup iterationsVariable <;> simp_all [settling,withEnv]

theorem withEnv_of_timeout (h : settling withIterations (lookup iterationsVariable) c = .ok c₁)
    (h' : settling withTimeout (lookup timeoutVariable) c₁ = .error e) :
    c.withEnv lookup = (c₁, some e) := by
  cases hi : lookup iterationsVariable <;> cases ht : lookup timeoutVariable <;>
    simp_all [settling,withEnv]

theorem withEnv_of_ok (h : settling withIterations (lookup iterationsVariable) c = .ok c₁)
    (h' : settling withTimeout (lookup timeoutVariable) c₁ = .ok c₂) :
    c.withEnv lookup = (c₂.taking none none (lookup workingDirVariable), none) := by
  cases hi : lookup iterationsVariable <;> cases ht : lookup timeoutVariable <;>
    cases hd : lookup workingDirVariable <;> simp_all [settling,withEnv,taking]

end Settling

theorem withEnv_overridden (lookup : String → Option String) (c : Config) :
    Overridden lookup c (c.withEnv lookup) := by
  rcases settle_iterations (lookup iterationsVariable) c with
    ⟨iterations,hiterations,hset⟩ | ⟨raw,hraw,hbad,hset⟩
  · rcases settle_timeout (lookup timeoutVariable) (c.taking iterations none none) with
      ⟨ms,hms,hset'⟩ | ⟨raw,hraw,hbad,hset'⟩
    · rw [withEnv_of_ok hset hset']
      exact .taken hiterations hms
    · rw [withEnv_of_timeout hset hset']
      exact .badTimeout hiterations hraw hbad
  · rw [withEnv_of_iterations hset]
    exact .badIterations hraw hbad

theorem Says.unique {α : Type} {toNat : α → Nat} (hinj : ∀ x y, toNat x = toNat y → x = y)
    {o : Option String} {x y : Option α} (hx : Says toNat o x) (hy : Says toNat o y) : x = y := by
  cases hx with
  | unset => cases hy; rfl
  | set hx =>
    cases hy with
    | set hy => rw [hinj _ _ (hx.unique hy)]

theorem Says.not_refused {α : Type} {toNat : α → Nat} {raw : String} {o : Option String}
    {x : Option α} (hx : Says toNat o x) (ho : o = some raw)
    (h : ∀ x, ¬ Denotes raw (toNat x)) : False := by
  subst ho
  cases hx with
  | set hx => exact h _ hx

theorem taking_eq_self_iff {c : Config} {iterations : Option UInt32} :
    c.taking iterations none none = c ↔ ∀ n ∈ iterations, n = c.agent.maxIterations := by
  cases iterations with
  | none => simp [taking]
  | some n =>
    obtain ⟨arena,⟨most,timeout,instructions⟩,messages,dir⟩ := c
    simp [taking]

/-- All variables that are set are taken, exactly when those that hold numbers do. Where one does
not, the configuration stays as it was exactly when no other number of iterations had been set; and
nothing else can have changed. -/
theorem overrides_whole_iff (lookup : String → Option String) (c : Config) :
    (∀ c', c.withEnv lookup = (c', none) ↔ ∃ iterations ms,
      Says UInt32.toNat (lookup iterationsVariable) iterations ∧
      Says UInt64.toNat (lookup timeoutVariable) ms ∧
      c' = c.taking iterations ms (lookup workingDirVariable)) ∧
    ∀ c' e, c.withEnv lookup = (c', some e) →
      (∃ iterations, c' = c.taking iterations none none) ∧
      (c' = c ↔ ∀ n, Says UInt32.toNat (lookup iterationsVariable) (some n) →
        n = c.agent.maxIterations) := by
  have huint32 : ∀ x y : UInt32, x.toNat = y.toNat → x = y := fun _ _ => UInt32.toNat.inj
  have huint64 : ∀ x y : UInt64, x.toNat = y.toNat → x = y := fun _ _ => UInt64.toNat.inj
  have h := withEnv_overridden lookup c
  generalize c.withEnv lookup = r at h
  cases h with
  | @taken iterations ms hiterations hms =>
    refine ⟨fun c' => ⟨fun h => ⟨iterations,ms,hiterations,hms,?_⟩,?_⟩,fun c' e h => (by cases h)⟩
    · exact (Prod.mk.inj h).1.symm
    · rintro ⟨iterations',ms',hiterations',hms',rfl⟩
      rw [hiterations.unique huint32 hiterations',hms.unique huint64 hms']
  | badIterations hraw hbad =>
    refine ⟨fun c' => ⟨fun h => (by cases h),?_⟩,?_⟩
    · rintro ⟨iterations,-,hiterations,-⟩
      exact (hiterations.not_refused hraw hbad).elim
    · rintro c' e h
      obtain rfl := (Prod.mk.inj h).1
      exact ⟨⟨none,rfl⟩,fun _ n hn => (hn.not_refused hraw hbad).elim,fun _ => rfl⟩
  | @badTimeout iterations _ hiterations hraw hbad =>
    refine ⟨fun c' => ⟨fun h => (by cases h),?_⟩,?_⟩
    · rintro ⟨_,ms,-,hms,-⟩
      exact (hms.not_refused hraw hbad).elim
    · rintro c' e h
      obtain rfl := (Prod.mk.inj h).1
      refine ⟨⟨iterations,rfl⟩,?_⟩
      rw [taking_eq_self_iff]
      refine ⟨fun hall n hn => hall n (hiterations.unique huint32 hn),?_⟩
      rintro hall n rfl
      exact hall n hiterations

def hasty (name : String) : Option String :=
  if name = iterationsVariable then some "4" else if name = timeoutVariable then some "soon"
  else none

theorem overrides_whole_iff_hasty :
    standard.withEnv hasty = (standard.taking (some 4) none none,
      some (.invalid "FERROACT_TIMEOUT_MS must be an integer, got 'soon'")) ∧
    ¬ ∀ n, Says UInt32.toNat (hasty iterationsVariable) (some n) →
      n = standard.agent.maxIterations := by
  have hrefused : standard.withEnv hasty = (standard.taking (some 4) none none,
      some (.invalid "FERROACT_TIMEOUT_MS must be an integer, got 'soon'")) := by decide +kernel
  have hiff := ((overrides_whole_iff hasty standard).2 _ _ hrefused).2
  refine ⟨hrefused,?_⟩
  rw [← hiff]
  decide

theorem refused_timeout_leaves_iterations :
    ¬ ∀ (c : Config) (lookup : String → Option String) (e : ConfigError),
      (c.withEnv lookup).2 = some e → (c.withEnv lookup).1 = c := by
  intro h
  have hrefused : (standard.withEnv hasty).2.isSome = true := by decide +kernel
  have hchanged : (standard.withEnv hasty).1 ≠ standard := by decide +kernel
  obtain ⟨e,he⟩ := Option.isSome_iff_exists.mp hrefused
  exact hchanged (h standard hasty e he)

end Config
end ReasonAct
