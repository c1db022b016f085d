import ReasonAct.Json.Record
set_option autoImplicit false

namespace ReasonAct

/-- `promptTokens` and `completionTokens` are older names for input and output; a model fills
either pair. -/
structure Usage where
  inputTokens : UInt64
  outputTokens : UInt64
  thinkingTokens : UInt64
  reasoningTokens : UInt64
  cacheCreationTokens : UInt64
  cacheReadTokens : UInt64
  promptTokens : UInt64
  completionTokens : UInt64
  totalTokens : UInt64
  deriving DecidableEq, Repr

namespace Usage

def zero : Usage := ⟨0, 0, 0, 0, 0, 0, 0, 0, 0⟩

instance : Inhabited Usage := ⟨zero⟩

/-- The reported total, or else the sum of the single counters. -/
def total (u : Usage) : UInt64 :=
  if 0 < u.totalTokens then u.totalTokens
  else max u.inputTokens u.promptTokens + max u.outputTokens u.completionTokens +
    u.thinkingTokens + u.reasoningTokens

/-- Adds another response. The total grows by that response's own total, so that responses
which fill different counters still sum up. -/
def accumulate (u v : Usage) : Usage where
  inputTokens := u.inputTokens + v.inputTokens
  outputTokens := u.outputTokens + v.outputTokens
  thinkingTokens := u.thinkingTokens + v.thinkingTokens
  reasoningTokens := u.reasoningTokens + v.reasoningTokens
  cacheCreationTokens := u.cacheCreationTokens + v.cacheCreationTokens
  cacheReadTokens := u.cacheReadTokens + v.cacheReadTokens
  promptTokens := u.promptTokens + v.promptTokens
  completionTokens := u.completionTokens + v.completionTokens
  totalTokens := u.totalTokens + v.total

open Json Source

def source (u : Usage) : Source :=
  .object [("input_tokens", .uint64 u.inputTokens), ("output_tokens", .uint64 u.outputTokens),
    ("thinking_tokens", .uint64 u.thinkingTokens), ("reasoning_tokens", .uint64 u.reasoningTokens),
    ("cache_creation_tokens", .uint64 u.cacheCreationTokens),
    ("cache_read_tokens", .uint64 u.cacheReadTokens), ("prompt_tokens", .uint64 u.promptTokens),
    ("completion_tokens", .uint64 u.completionTokens), ("total_tokens", .uint64 u.totalTokens)]

def fieldNames : List String :=
  ["input_tokens", "output_tokens", "thinking_tokens", "reasoning_tokens",
    "cache_creation_tokens", "cache_read_tokens", "prompt_tokens", "completion_tokens",
    "total_tokens"]

def ofSource? (s : Source) : Option Usage := do
  let r ← s.record? fieldNames
  let counter (name : String) : Option UInt64 := r.defaulted name 0 uint64?
  pure ⟨← counter "input_tokens", ← counter "output_tokens", ← counter "thinking_tokens",
    ← counter "reasoning_tokens", ← counter "cache_creation_tokens", ← counter "cache_read_tokens",
    ← counter "prompt_tokens", ← counter "completion_tokens", ← counter "total_tokens"⟩

end Usage
end ReasonAct
