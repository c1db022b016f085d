import Mathlib.Order.Bounds.Basic
import ReasonAct.Provider.Attempt
/-!
Chains of providers that stand in for each other. A chain offers a request to its entries one after
another until one of them settles it, and then makes no further offer.
-/
set_option autoImplicit false

namespace ReasonAct

inductive ProviderError.Transient : ProviderError → Prop
  | network (m : String) : Transient (.network m)
  | timeout (m : String) : Transient (.timeout m)
  | dns (m : String) : Transient (.dns m)
  | backend (m : String) : Transient (.backend m)
  | tooManyRequests (m : String) : Transient (.http 429 m)
  | server {status : UInt16} (h : 500 ≤ status) (m : String) : Transient (.http status m)

theorem ProviderError.isTransient_iff (e : ProviderError) : e.isTransient = true ↔ e.Transient := by
  constructor
  · intro h
    cases e with
    | network m => exact .network m
    | timeout m => exact .timeout m
    | dns m => exact .dns m
    | backend m => exact .backend m
    | http status m =>
      have hstatus : status = 429 ∨ 500 ≤ status := by simpa [isTransient] using h
      rcases hstatus with rfl | hserver
      · exact .tooManyRequests m
      · exact .server hserver m
    | tls m | auth m | noMemory m | notImplemented m => contradiction
  · intro h
    cases h with
    | network m | timeout m | dns m | backend m | tooManyRequests m => rfl
    | server h m => simp [isTransient,h]

variable {σ : Type}

def Provider.recorded {β : Type} (note : ChatRequest → Option Nat → Attempt → β) (p : Provider σ) :
    Provider (σ × List β) := fun request limit s =>
  let (attempt, t) := p request limit s.1
  (attempt, t, s.2 ++ [note request limit attempt])

namespace Fallback

def allowed (request : ChatRequest) (limit : Option Nat) (e : Entry σ) (elapsed : Nat) : Nat :=
  atMost (limit.map (· - elapsed)) (deadline request e.timeoutMs)

def settles : Except ProviderError ChatResponse → Bool
  | .ok _ => true
  | .error e => !e.isTransient

/-- What a chain gets from an entry, and when. An entry that is late by its own limit has failed. -/
inductive Gives (request : ChatRequest) (limit : Option Nat) (e : Entry σ) (elapsed : Nat)
    (s : σ) : Except ProviderError ChatResponse → Nat → σ → Prop
  | answered {outcome t s'}
    (h : e.provider request (some (allowed request limit e elapsed)) s =
      (.answered outcome t, s')) :
    Gives request limit e elapsed s outcome t s'
  | late {s'}
    (h : e.provider request (some (allowed request limit e elapsed)) s = (.abandoned, s'))
    (hown : allowed request limit e elapsed = deadline request e.timeoutMs) :
    Gives request limit e elapsed s (.error (timedOut e.name (deadline request e.timeoutMs)))
      (deadline request e.timeoutMs) s'

/-- How a chain comes to its end, entry by entry. -/
inductive Ends (request : ChatRequest) (limit : Option Nat) :
    List (Entry σ) → ProviderError → Nat → σ → Attempt → σ → Prop
  | nil {last elapsed s} : Ends request limit [] last elapsed s (.answered (.error last) elapsed) s
  | abandoned {e entries last elapsed s s'}
    (h : e.provider request (some (allowed request limit e elapsed)) s = (.abandoned, s'))
    (hlate : allowed request limit e elapsed < deadline request e.timeoutMs) :
    Ends request limit (e :: entries) last elapsed s .abandoned s'
  | settled {e entries last elapsed s outcome t s'}
    (h : Gives request limit e elapsed s outcome t s') (hsettles : settles outcome = true) :
    Ends request limit (e :: entries) last elapsed s (.answered outcome (elapsed+t)) s'
  | onward {e entries last elapsed s err t s' attempt s''}
    (h : Gives request limit e elapsed s (.error err) t s') (ht : err.isTransient = true)
    (hrest : Ends request limit entries err (elapsed+t) s' attempt s'') :
    Ends request limit (e :: entries) last elapsed s attempt s''

section Ends

variable {request : ChatRequest} {limit : Option Nat} {entries : List (Entry σ)}
  {last : ProviderError} {elapsed : Nat} {s s' : σ} {attempt : Attempt}

theorem allowed_le_deadline (request : ChatRequest) (limit : Option Nat) (e : Entry σ)
    (elapsed : Nat) : allowed request limit e elapsed ≤ deadline request e.timeoutMs := by
  cases limit <;> simp only [allowed,Option.map_none,Option.map_some,atMost] <;> omega

theorem tryEach_cons (e : Entry σ) : tryEach request limit (e :: entries) last elapsed s =
    match e.provider request (some (allowed request limit e elapsed)) s with
    | (.answered (.ok r) t, s) => (.answered (.ok r) (elapsed+t), s)
    | (.answered (.error err) t, s) =>
      if err.isTransient then tryEach request limit entries err (elapsed+t) s
      else (.answered (.error err) (elapsed+t), s)
    | (.abandoned, s) =>
      if allowed request limit e elapsed < deadline request e.timeoutMs then (.abandoned, s)
      else tryEach request limit entries (timedOut e.name (deadline request e.timeoutMs))
        (elapsed+deadline request e.timeoutMs) s := rfl

theorem tryEach_ends (request : ChatRequest) (limit : Option Nat) (entries : List (Entry σ))
    (last : ProviderError) (elapsed : Nat) (s : σ) :
    Ends request limit entries last elapsed s (tryEach request limit entries last elapsed s).1
      (tryEach request limit entries last elapsed s).2 := by
  induction entries generalizing last elapsed s with
  | nil => exact .nil
  | cons e entries ih =>
    have hle := allowed_le_deadline request limit e elapsed
    rcases hcall : e.provider request (some (allowed request limit e elapsed)) s with ⟨attempt,s₁⟩
    rw [tryEach_cons,hcall]
    cases attempt with
    | abandoned =>
      by_cases hlate : allowed request limit e elapsed < deadline request e.timeoutMs
      · simp only [hlate,if_true]
        exact .abandoned hcall hlate
      · simp only [hlate,if_false]
        exact .onward (.late hcall (by omega)) rfl (ih _ _ _)
    | answered outcome t =>
      cases outcome with
      | ok r => exact .settled (.answered hcall) rfl
      | error err =>
        cases ht : err.isTransient with
        | true =>
          simp only [ht,if_true]
          exact .onward (.answered hcall) ht (ih _ _ _)
        | false =>
          simp only [ht,Bool.false_eq_true,if_false]
          exact .settled (.answered hcall) (by simp [settles,ht])

theorem Ends.tryEach_eq (h : Ends request limit entries last elapsed s attempt s') :
    tryEach request limit entries last elapsed s = (attempt, s') := by
  induction h with
  | nil => rfl
  | abandoned h hlate => simp only [tryEach_cons,h,hlate,if_true]
  | settled h hsettles =>
    cases h with
    | answered h =>
      rename_i outcome _ _
      cases outcome with
      | ok r => simp only [tryEach_cons,h]
      | error err =>
        have ht : err.isTransient = false := by simpa [settles] using hsettles
        simp only [tryEach_cons,h,ht,Bool.false_eq_true,if_false]
    | late h hown => contradiction
  | onward h ht hrest ih =>
    cases h with
    | answered h => simpa only [tryEach_cons,h,ht,if_true] using ih
    | late h hown =>
      have hnot := Nat.not_lt.mpr (Nat.le_of_eq hown.symm)
      simpa only [tryEach_cons,h,hnot,if_false] using ih

end Ends

/-- A call of a provider: which one it was, what it was asked, and what came of it. -/
structure Call where
  provider : Nat
  request : ChatRequest
  attempt : Attempt

/-- A call of an entry of a chain, known by its place, with the time that it was given. -/
structure Offer extends Call where
  limit : Option Nat

def Entry.recorded (e : Entry σ) (i : Nat) : Entry (σ × List Offer) where
  name := e.name
  provider := Provider.recorded (fun request limit attempt => ⟨⟨i, request, attempt⟩, limit⟩)
    e.provider
  timeoutMs := e.timeoutMs

def recordedFrom (i : Nat) (entries : List (Entry σ)) : List (Entry (σ × List Offer)) :=
  (entries.zipIdx i).map fun x => x.1.recorded x.2

/-- What an attempt at an entry counts for: being late is an error like others. -/
def Entry.outcome (request : ChatRequest) (e : Entry σ) (o : Offer) :
    Except ProviderError ChatResponse :=
  match o.attempt with
  | .answered outcome _ => outcome
  | .abandoned => .error (timedOut e.name (deadline request e.timeoutMs))

/-- The first outcome that settles the request, or else the last one. -/
def verdict (last : ProviderError) (outcomes : List (Except ProviderError ChatResponse)) :
    Except ProviderError ChatResponse :=
  (outcomes.find? settles).getD (outcomes.getLast?.getD (.error last))

/-- How a request went through a chain, the entries of which are numbered from `i` on. Each got it
once at most, in their order, the request as it came and the time that both limits leave. -/
structure Passed (request : ChatRequest) (i : Nat) (entries : List (Entry σ)) (last : ProviderError)
    (offers : List Offer) (outcome : Except ProviderError ChatResponse) : Prop where
  inOrder : offers.map (fun o => (o.provider, o.request, o.limit)) =
    ((entries.zipIdx i).map fun x =>
      (x.2, request, some (deadline request x.1.timeoutMs))).take offers.length
  called : ∀ k < entries.length, k < offers.length ↔
    ∀ o ∈ (List.zipWith (Entry.outcome request) entries offers).take k,
      ∃ e : ProviderError, o = .error e ∧ e.Transient
  answer : outcome = verdict last (List.zipWith (Entry.outcome request) entries offers)

namespace Passed

variable {request : ChatRequest} {i : Nat} {e : Entry σ} {entries : List (Entry σ)}
  {last err : ProviderError} {offers : List Offer} {outcome : Except ProviderError ChatResponse}
  {attempt : Attempt}

def offer (request : ChatRequest) (i : Nat) (e : Entry σ) (attempt : Attempt) : Offer :=
  ⟨⟨i, request, attempt⟩, some (deadline request e.timeoutMs)⟩

theorem nil : Passed request i ([] : List (Entry σ)) last [] (.error last) :=
  ⟨rfl,by simp,rfl⟩

theorem settled (h : settles (e.outcome request (offer request i e attempt)) = true) :
    Passed request i (e :: entries) last [offer request i e attempt]
      (e.outcome request (offer request i e attempt)) := by
  refine ⟨rfl,?_,by simp [verdict,h]⟩
  intro k _
  cases k with
  | zero => simp
  | succ k =>
    have hnot (err : ProviderError)
        (heq : e.outcome request (offer request i e attempt) = .error err) : ¬ err.Transient := by
      rw [heq] at h
      rw [← err.isTransient_iff]
      simpa [settles] using h
    simpa using hnot

theorem cons (herr : e.outcome request (offer request i e attempt) = .error err)
    (ht : err.isTransient = true) (h : Passed request (i+1) entries err offers outcome) :
    Passed request i (e :: entries) last (offer request i e attempt :: offers) outcome := by
  refine ⟨?_,?_,?_⟩
  · simp [h.inOrder,offer]
  · intro k hk
    cases k with
    | zero => simp
    | succ k =>
      have hrest := h.called k (by simpa using hk)
      simpa [herr,err.isTransient_iff.mp ht] using hrest
  · rw [h.answer]
    simp [verdict,herr,settles,ht,List.getLast?_cons]

end Passed

theorem Gives.recorded {request : ChatRequest} {e : Entry σ} {elapsed t : Nat} {s s' : σ}
    {outcome : Except ProviderError ChatResponse}
    (h : Gives request none e elapsed s outcome t s') (i : Nat) (log : List Offer) :
    ∃ attempt, e.outcome request (Passed.offer request i e attempt) = outcome ∧
      Gives request none (e.recorded i) elapsed (s, log) outcome t
        (s', log ++ [Passed.offer request i e attempt]) := by
  have hcalled {attempt : Attempt}
      (h : e.provider request (some (allowed request none e elapsed)) s = (attempt, s')) :
      (e.recorded i).provider request (some (allowed request none (e.recorded i) elapsed))
        (s, log) = (attempt, s', log ++ [Passed.offer request i e attempt]) := by
    have hsame : allowed request none (e.recorded i) elapsed = allowed request none e elapsed := rfl
    rw [hsame]
    simp only [Entry.recorded,Provider.recorded,h]
    rfl
  cases h with
  | answered h => exact ⟨_,rfl,.answered (hcalled h)⟩
  | late h hown => exact ⟨_,rfl,.late (hcalled h) hown⟩

/-- A chain without a limit always answers, and the record of its calls shows how. -/
theorem Ends.recorded {request : ChatRequest} {entries : List (Entry σ)} {last : ProviderError}
    {elapsed : Nat} {attempt : Attempt} {s s' : σ}
    (h : Ends request none entries last elapsed s attempt s') (i : Nat) (log : List Offer) :
    ∃ offers outcome t, attempt = .answered outcome t ∧
      Ends request none (recordedFrom i entries) last elapsed (s, log) attempt (s', log ++ offers) ∧
      Passed request i entries last offers outcome := by
  induction h generalizing i log with
  | nil => exact ⟨[],_,_,rfl,by simpa [recordedFrom] using Ends.nil,.nil⟩
  | abandoned _ hlate => exact absurd hlate (Nat.lt_irrefl _)
  | settled h hsettles =>
    obtain ⟨attempt,hread,hgives⟩ := h.recorded i log
    exact ⟨_,_,_,rfl,.settled hgives hsettles,hread ▸ .settled (hread ▸ hsettles)⟩
  | onward h ht hrest ih =>
    obtain ⟨attempt,hread,hgives⟩ := h.recorded i log
    obtain ⟨offers,outcome,t,hanswer,hends,hpassed⟩ := ih (i+1) _
    rw [List.append_assoc] at hends
    exact ⟨_ :: offers,outcome,t,hanswer,.onward hgives ht hends,.cons hread ht hpassed⟩

end Fallback
end ReasonAct
