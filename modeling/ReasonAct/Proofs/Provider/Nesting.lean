import Mathlib.Data.List.Forall2
import Mathlib.Logic.Relation
import ReasonAct.Proofs.Provider.Chain
import ReasonAct.World.Agent
/-!
Chains inside chains. As long as no deadline expires a chain in the place of an entry asks the same
providers, in the same order and with the same result, as its own entries would in that place.
-/
set_option autoImplicit false

namespace ReasonAct

variable {σ : Type}

namespace Provider

/-- A limit decides whether a provider answers and not what: it answers in time, and the same when
it has more time. -/
structure Timely (p : Provider σ) : Prop where
  inTime : ∀ {request limit s outcome t s'},
    p request (some limit) s = (.answered outcome t, s') → t ≤ limit
  steady : ∀ {request limit s outcome t s'}, p request limit s = (.answered outcome t, s') →
    ∀ limit' : Option Nat, (∀ l ∈ limit', t ≤ l) →
      p request limit' s = (.answered outcome t, s')

/-- A state that is calm after a call was calm before it, and the call was not given up. -/
def Tells (p : Provider σ) (calm : σ → Prop) : Prop :=
  ∀ {request limit s attempt s'}, p request limit s = (attempt, s') → calm s' →
    calm s ∧ attempt ≠ .abandoned

def Records {β : Type} (p' : Provider (σ × List β)) (p : Provider σ) : Prop :=
  ∀ request limit s log, ∃ calls, p' request limit (s, log) =
    ((p request limit s).1, (p request limit s).2, log ++ calls)

theorem Timely.recorded {β : Type} {note : ChatRequest → Option Nat → Attempt → β} {p : Provider σ}
    (hp : Timely p) (hnote : ∀ request limit limit' attempt,
      note request limit attempt = note request limit' attempt) : Timely (p.recorded note) := by
  constructor
  · intro request limit s outcome t s' h
    simp only [Provider.recorded,Prod.mk.injEq] at h
    exact hp.inTime (Prod.ext h.1 rfl)
  · intro request limit s outcome t s' h limit' hlimit
    simp only [Provider.recorded,Prod.mk.injEq] at h ⊢
    obtain ⟨hattempt,rfl⟩ := h
    have hsame := hp.steady (Prod.ext hattempt rfl) limit' hlimit
    simp only [hsame,hattempt,hnote request limit' limit,and_self]

end Provider

open Provider (Timely Tells Records)

namespace Fallback

section Limits

variable {request : ChatRequest} {limit : Option Nat} {e : Entry σ} {elapsed t : Nat}

theorem elapsed_add_le (hlimit : ∀ l ∈ limit, elapsed ≤ l)
    (ht : t ≤ allowed request limit e elapsed) : ∀ l ∈ limit, elapsed+t ≤ l := by
  intro l hl
  have hle := hlimit l hl
  cases hl
  simp only [allowed,Option.map_some,atMost] at ht
  omega

theorem le_allowed (hown : t ≤ deadline request e.timeoutMs)
    (hlimit : ∀ l ∈ limit, elapsed+t ≤ l) : t ≤ allowed request limit e elapsed := by
  cases limit with
  | none => exact hown
  | some l =>
    have hle := hlimit l rfl
    simp only [allowed,Option.map_some,atMost]
    omega

variable {outcome : Except ProviderError ChatResponse} {s s' : σ}

theorem Gives.le_allowed (he : Timely e.provider)
    (h : Gives request limit e elapsed s outcome t s') : t ≤ allowed request limit e elapsed := by
  cases h with
  | answered h => exact he.inTime h
  | late h hown => omega

/-- What an entry gives it gives under any limit that leaves it the time. -/
theorem Gives.steady {limit' : Option Nat} {elapsed' : Nat} (he : Timely e.provider)
    (h : Gives request limit e elapsed s outcome t s') (hlimit : ∀ l ∈ limit', elapsed'+t ≤ l) :
    Gives request limit' e elapsed' s outcome t s' := by
  have hle := allowed_le_deadline request limit e elapsed
  have hown : t ≤ deadline request e.timeoutMs := Nat.le_trans (h.le_allowed he) hle
  have hfits : t ≤ allowed request limit' e elapsed' := Fallback.le_allowed hown hlimit
  cases h with
  | answered h =>
    refine .answered (he.steady h _ ?_)
    intro l hl
    cases hl
    exact hfits
  | late h hsame =>
    have hsame' := Nat.le_antisymm (allowed_le_deadline request limit' e elapsed') hfits
    exact .late (by rw [hsame',← hsame,h]) hsame'

end Limits

section Run

variable {request : ChatRequest} {limit : Option Nat} {e : Entry σ} {entries : List (Entry σ)}
  {last : ProviderError} {elapsed : Nat} {outcome : Except ProviderError ChatResponse} {t : Nat}
  {attempt : Attempt} {s s' : σ}

theorem Ends.inTime (hentries : ∀ e ∈ entries, Timely e.provider)
    (hlimit : ∀ l ∈ limit, elapsed ≤ l)
    (h : Ends request limit entries last elapsed s (.answered outcome t) s') :
    ∀ l ∈ limit, t ≤ l := by
  generalize hattempt : Attempt.answered outcome t = attempt at h
  induction h with
  | nil =>
    cases hattempt
    exact hlimit
  | abandoned _ _ => contradiction
  | settled h _ =>
    cases hattempt
    exact elapsed_add_le hlimit (h.le_allowed (hentries _ List.mem_cons_self))
  | onward h _ _ ih =>
    exact ih (fun e he => hentries e (List.mem_cons_of_mem _ he))
      (elapsed_add_le hlimit (h.le_allowed (hentries _ List.mem_cons_self))) hattempt

theorem Ends.elapsed_le (h : Ends request limit entries last elapsed s (.answered outcome t) s') :
    elapsed ≤ t := by
  generalize hattempt : Attempt.answered outcome t = attempt at h
  induction h with
  | nil =>
    cases hattempt
    exact Nat.le_refl _
  | abandoned _ _ => contradiction
  | settled _ _ =>
    cases hattempt
    exact Nat.le_add_right _ _
  | onward _ _ _ ih => exact Nat.le_trans (Nat.le_add_right _ _) (ih hattempt)

theorem Ends.steady {limit' : Option Nat} (hentries : ∀ e ∈ entries, Timely e.provider)
    (hlimit : ∀ l ∈ limit', t ≤ l)
    (h : Ends request limit entries last elapsed s (.answered outcome t) s') :
    Ends request limit' entries last elapsed s (.answered outcome t) s' := by
  generalize hattempt : Attempt.answered outcome t = attempt at h ⊢
  induction h with
  | nil => exact .nil
  | abandoned _ _ => contradiction
  | settled h hsettles =>
    cases hattempt
    exact .settled (h.steady (hentries _ List.mem_cons_self) hlimit) hsettles
  | onward h ht hrest ih =>
    have hle := (hattempt ▸ hrest).elapsed_le
    refine .onward (h.steady (hentries _ List.mem_cons_self) fun l hl => ?_) ht
      (ih (fun e he => hentries e (List.mem_cons_of_mem _ he)) hattempt)
    exact Nat.le_trans hle (hlimit l hl)

theorem Ends.tells {calm : σ → Prop} (hentries : ∀ e ∈ entries, Tells e.provider calm)
    (h : Ends request limit entries last elapsed s attempt s') (hcalm : calm s') :
    calm s ∧ attempt ≠ .abandoned := by
  induction h with
  | nil => exact ⟨hcalm,nofun⟩
  | abandoned h _ => exact absurd rfl (hentries _ List.mem_cons_self h hcalm).2
  | settled h _ =>
    cases h with
    | answered h => exact ⟨(hentries _ List.mem_cons_self h hcalm).1,nofun⟩
    | late h _ => exact absurd rfl (hentries _ List.mem_cons_self h hcalm).2
  | onward h _ _ ih =>
    have hrest := ih (fun e he => hentries e (List.mem_cons_of_mem _ he)) hcalm
    cases h with
    | answered h => exact ⟨(hentries _ List.mem_cons_self h hrest.1).1,hrest.2⟩
    | late h _ => exact absurd rfl (hentries _ List.mem_cons_self h hrest.1).2

end Run

mutual

def asked (leaf : Nat → Provider σ) : Route → Provider σ
  | .script id _ => leaf id
  | .fallback _ entries => chat (askedEach leaf entries)

def askedEach (leaf : Nat → Provider σ) : List (Route × Nat) → List (Entry σ)
  | [] => []
  | (route, timeoutMs) :: rest => ⟨route.name, asked leaf route, timeoutMs⟩ :: askedEach leaf rest

end

section Asked

variable {leaf : Nat → Provider σ} {P : Provider σ → Prop}

mutual

theorem asked_induct (hleaf : ∀ id, P (leaf id))
    (hchat : ∀ entries : List (Entry σ), (∀ e ∈ entries, P e.provider) → P (chat entries)) :
    ∀ route, P (asked leaf route)
  | .script id _ => by simpa only [asked] using hleaf id
  | .fallback _ entries => by
    simpa only [asked] using hchat _ (askedEach_induct hleaf hchat entries)

theorem askedEach_induct (hleaf : ∀ id, P (leaf id))
    (hchat : ∀ entries : List (Entry σ), (∀ e ∈ entries, P e.provider) → P (chat entries)) :
    ∀ entries, ∀ e ∈ askedEach leaf entries, P e.provider
  | [] => by simp [askedEach]
  | (route, timeoutMs) :: rest => by
    rw [askedEach]
    exact List.forall_mem_cons.mpr
      ⟨asked_induct hleaf hchat route,askedEach_induct hleaf hchat rest⟩

end

end Asked

section Unnesting

variable {request : ChatRequest} {limit limit' : Option Nat} {entries rest : List (Entry σ)}
  {last : ProviderError} {elapsed elapsed' : Nat} {outcome : Except ProviderError ChatResponse}
  {t : Nat} {attempt : Attempt} {s s' s'' : σ}

def Follows (request : ChatRequest) (limit : Option Nat) (entries : List (Entry σ))
    (outcome : Except ProviderError ChatResponse) (elapsed : Nat) (s : σ) (attempt : Attempt)
    (s' : σ) : Prop :=
  settles outcome = true ∧ attempt = .answered outcome elapsed ∧ s' = s ∨
    ∃ err : ProviderError, outcome = .error err ∧ err.isTransient = true ∧
      Ends request limit entries err elapsed s attempt s'

/-- Where a chain has ended within another, the other goes on as behind the chain. -/
theorem Ends.append (hentries : ∀ e ∈ entries, Timely e.provider) (hlast : last.isTransient = true)
    (h : Ends request limit entries last elapsed s (.answered outcome t) s')
    (hlimit : ∀ l ∈ limit', elapsed'+t ≤ l)
    (hfollows : Follows request limit' rest outcome (elapsed'+t) s' attempt s'') :
    Ends request limit' (entries ++ rest) last (elapsed'+elapsed) s attempt s'' := by
  generalize hanswer : Attempt.answered outcome t = answer at h
  induction h with
  | nil =>
    cases hanswer
    rcases hfollows with ⟨hsettles,-⟩ | ⟨err,herr,ht,hrest⟩
    · simp [settles,hlast] at hsettles
    · cases herr
      exact hrest
  | abandoned _ _ => contradiction
  | settled h hsettles =>
    cases hanswer
    rw [← Nat.add_assoc] at hfollows hlimit
    rcases hfollows with ⟨-,rfl,rfl⟩ | ⟨err,rfl,ht,-⟩
    · exact .settled (h.steady (hentries _ List.mem_cons_self) hlimit) hsettles
    · simp [settles,ht] at hsettles
  | onward h ht hrest ih =>
    have hle := (hanswer ▸ hrest).elapsed_le
    have hind := ih (fun e he => hentries e (List.mem_cons_of_mem _ he)) ht hfollows hanswer
    rw [← Nat.add_assoc] at hind
    refine .onward (h.steady (hentries _ List.mem_cons_self) fun l hl => ?_) ht hind
    have hl := hlimit l hl
    omega

theorem Gives.answer {e : Entry σ} {calm : σ → Prop} (he : Tells e.provider calm)
    (h : Gives request limit e elapsed s outcome t s') (hcalm : calm s') :
    e.provider request (some (allowed request limit e elapsed)) s = (.answered outcome t, s') := by
  cases h with
  | answered h => exact h
  | late h _ => exact absurd rfl (he h hcalm).2

end Unnesting

section Record

variable {β : Type} {request : ChatRequest} {limit : Option Nat} {elapsed t : Nat} {s s' : σ}
  {last : ProviderError} {outcome : Except ProviderError ChatResponse} {attempt : Attempt}

def Entry.Records (e' : Entry (σ × List β)) (e : Entry σ) : Prop :=
  e'.name = e.name ∧ e'.timeoutMs = e.timeoutMs ∧ Provider.Records e'.provider e.provider

theorem Entry.Records.call {e' : Entry (σ × List β)} {e : Entry σ} (he : e'.Records e)
    (h : e.provider request (some (allowed request limit e elapsed)) s = (attempt, s'))
    (log : List β) :
    ∃ calls, e'.provider request (some (allowed request limit e' elapsed)) (s, log) =
      (attempt, s', log ++ calls) := by
  obtain ⟨-,htimeout,hcalls⟩ := he
  obtain ⟨calls,hcall⟩ := hcalls request (some (allowed request limit e elapsed)) s log
  rw [h] at hcall
  exact ⟨calls,by simpa only [allowed,htimeout] using hcall⟩

theorem Gives.records {e' : Entry (σ × List β)} {e : Entry σ} (he : e'.Records e)
    (h : Gives request limit e elapsed s outcome t s') (log : List β) :
    ∃ calls, Gives request limit e' elapsed (s, log) outcome t (s', log ++ calls) := by
  cases h with
  | answered h => exact (he.call h log).imp fun _ hcall => .answered hcall
  | late h hown =>
    obtain ⟨calls,hcall⟩ := he.call h log
    rw [← he.1,← he.2.1]
    exact ⟨calls,.late hcall (by simpa only [allowed,he.2.1] using hown)⟩

theorem Ends.records {entries' : List (Entry (σ × List β))} {entries : List (Entry σ)}
    (hentries : List.Forall₂ Entry.Records entries' entries)
    (h : Ends request limit entries last elapsed s attempt s') (log : List β) :
    ∃ calls, Ends request limit entries' last elapsed (s, log) attempt (s', log ++ calls) := by
  induction h generalizing entries' log with
  | nil =>
    cases hentries
    exact ⟨[],by simpa using Ends.nil⟩
  | abandoned h hlate =>
    obtain - | ⟨he,-⟩ := hentries
    obtain ⟨calls,hcall⟩ := he.call h log
    exact ⟨calls,.abandoned hcall (by simpa only [allowed,he.2.1] using hlate)⟩
  | settled h hsettles =>
    obtain - | ⟨he,-⟩ := hentries
    exact (h.records he log).imp fun _ hgives => .settled hgives hsettles
  | onward h ht _ ih =>
    obtain - | ⟨he,hrest⟩ := hentries
    obtain ⟨calls,hgives⟩ := h.records he log
    obtain ⟨more,hends⟩ := ih hrest (log ++ calls)
    rw [List.append_assoc] at hends
    exact ⟨calls ++ more,.onward hgives ht hends⟩

mutual

theorem records_asked {leaf' : Nat → Provider (σ × List β)} {leaf : Nat → Provider σ}
    (h : ∀ id, Records (leaf' id) (leaf id)) :
    ∀ route, Records (asked leaf' route) (asked leaf route)
  | .script id _ => by simpa only [asked] using h id
  | .fallback _ entries => by
    intro request limit s log
    rw [asked,asked]
    obtain ⟨calls,hends⟩ := (tryEach_ends request limit (askedEach leaf entries) empty 0 s).records
      (records_askedEach h entries) log
    exact ⟨calls,hends.tryEach_eq⟩

theorem records_askedEach {leaf' : Nat → Provider (σ × List β)} {leaf : Nat → Provider σ}
    (h : ∀ id, Records (leaf' id) (leaf id)) :
    ∀ entries, List.Forall₂ Entry.Records (askedEach leaf' entries) (askedEach leaf entries)
  | [] => by simp [askedEach]
  | (route, timeoutMs) :: rest => by
    rw [askedEach,askedEach]
    exact .cons ⟨rfl,rfl,records_asked h route⟩ (records_askedEach h rest)

end

end Record

end Fallback

namespace World

open Fallback

mutual

theorem provider_eq_asked : ∀ route, provider route = asked callScript route
  | .script id _ => by rw [provider,asked]
  | .fallback _ entries => by rw [provider,asked,providers_eq_askedEach entries]

theorem providers_eq_askedEach : ∀ entries, providers entries = askedEach callScript entries
  | [] => by rw [providers,askedEach]
  | (route, timeoutMs) :: rest => by
    rw [providers,askedEach,provider_eq_asked route,providers_eq_askedEach rest]

end

end World

namespace Fallback

end Fallback
end ReasonAct
