import ReasonAct.Chat.Request
import ReasonAct.Chat.Response
import ReasonAct.Error
/-!
Calls of models under a time limit, and chains of providers that stand in for each other. Time is
counted in milliseconds from the start of a call.
-/
set_option autoImplicit false

namespace ReasonAct

/-- What became of a call: an answer after some time, or the limit ran out first. -/
inductive Attempt where
  | answered (outcome : Except ProviderError ChatResponse) (elapsed : Nat)
  | abandoned

/-- Answers a request within a limit, if one is set. -/
abbrev Provider (σ : Type) := ChatRequest → Option Nat → σ → Attempt × σ

namespace Fallback

structure Entry (σ : Type) where
  name : String
  provider : Provider σ
  timeoutMs : Nat

def defaultTimeoutMs : Nat := 120000

variable {σ : Type}

/-- The request's limit, or the entry's own if that is shorter. -/
def deadline (request : ChatRequest) (timeoutMs : Nat) : Nat :=
  match request.timeoutMs with
  | some t => min t.toNat timeoutMs
  | none => timeoutMs

def atMost (limit : Option Nat) (n : Nat) : Nat :=
  match limit with
  | some l => min l n
  | none => n

def timedOut (name : String) (ms : Nat) : ProviderError :=
  .timeout ("provider '" ++ name ++ "' timed out after " ++ toString ms ++ "ms")

/-- Tries the entries in order. An error that another provider may not have leads to the next;
`last` is the latest such error, and `elapsed` the time spent. -/
def tryEach (request : ChatRequest) (limit : Option Nat) :
    List (Entry σ) → ProviderError → Nat → σ → Attempt × σ
  | [], last, elapsed, s => (.answered (.error last) elapsed, s)
  | e :: entries, _, elapsed, s =>
    let own := deadline request e.timeoutMs
    let left := limit.map (· - elapsed)
    match e.provider request (some (atMost left own)) s with
    | (.answered (.ok r) t, s) => (.answered (.ok r) (elapsed + t), s)
    | (.answered (.error err) t, s) =>
      if err.isTransient then tryEach request limit entries err (elapsed + t) s
      else (.answered (.error err) (elapsed + t), s)
    | (.abandoned, s) =>
      if atMost left own < own then (.abandoned, s)
      else tryEach request limit entries (timedOut e.name own) (elapsed + own) s

def empty : ProviderError := .backend "no providers in fallback chain"

def chat (entries : List (Entry σ)) : Provider σ := fun request limit s =>
  tryEach request limit entries empty 0 s

end Fallback
end ReasonAct
