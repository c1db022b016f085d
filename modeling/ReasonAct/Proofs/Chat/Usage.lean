import Mathlib
import ReasonAct.Chat.Usage
/-!
Adding up token counters. As long as no sum leaves the 64 bits of a counter, a running record holds
the sums of what was added to it. Its total is the sum of the totals, whichever counters the single
records fill, and the order in which they come does not matter.
-/
set_option autoImplicit false

namespace ReasonAct.Usage

/-- The counters that are only added up, all but the total. -/
inductive Counter where
  | input
  | output
  | thinking
  | reasoning
  | cacheCreation
  | cacheRead
  | prompt
  | completion
  deriving DecidableEq, Repr

def Counter.of : Counter → Usage → UInt64
  | .input, u => u.inputTokens
  | .output, u => u.outputTokens
  | .thinking, u => u.thinkingTokens
  | .reasoning, u => u.reasoningTokens
  | .cacheCreation, u => u.cacheCreationTokens
  | .cacheRead, u => u.cacheReadTokens
  | .prompt, u => u.promptTokens
  | .completion, u => u.completionTokens

def accumulateAll (us : List Usage) : Usage := us.foldl accumulate zero

def exactTotal (u : Usage) : Nat :=
  if 0 < u.totalTokens then u.totalTokens.toNat
  else max u.inputTokens.toNat u.promptTokens.toNat +
    max u.outputTokens.toNat u.completionTokens.toNat +
    u.thinkingTokens.toNat + u.reasoningTokens.toNat

/-- No sum over the records leaves the 64 bits of a counter. -/
structure Fit (us : List Usage) : Prop where
  counters : ∀ k : Counter, (us.map fun u => (k.of u).toNat).sum < UInt64.size
  totals : (us.map exactTotal).sum < UInt64.size

structure IsSum (us : List Usage) (u : Usage) : Prop where
  total : u.total.toNat = (us.map fun v => v.total.toNat).sum
  totalTokens : u.totalTokens.toNat = (us.map fun v => v.total.toNat).sum
  counters : ∀ k : Counter, (k.of u).toNat = (us.map fun v => (k.of v).toNat).sum

@[simp] theorem of_zero (k : Counter) : k.of zero = 0 := by cases k <;> rfl

@[simp] theorem of_accumulate (k : Counter) (u v : Usage) :
    k.of (u.accumulate v) = k.of u + k.of v := by cases k <;> rfl

@[simp] theorem totalTokens_accumulate (u v : Usage) :
    (u.accumulate v).totalTokens = u.totalTokens + v.total := rfl

theorem ext_counters {u v : Usage} (hk : ∀ k : Counter, k.of u = k.of v)
    (ht : u.totalTokens = v.totalTokens) : u = v := by
  obtain ⟨a,b,c,d,e,f,g,h,t⟩ := u
  obtain ⟨a',b',c',d',e',f',g',h',t'⟩ := v
  obtain rfl : a = a' := hk .input
  obtain rfl : b = b' := hk .output
  obtain rfl : c = c' := hk .thinking
  obtain rfl : d = d' := hk .reasoning
  obtain rfl : e = e' := hk .cacheCreation
  obtain rfl : f = f' := hk .cacheRead
  obtain rfl : g = g' := hk .prompt
  obtain rfl : h = h' := hk .completion
  obtain rfl : t = t' := ht
  rfl

theorem accumulate_right_comm (u v x : Usage) :
    (u.accumulate v).accumulate x = (u.accumulate x).accumulate v := by
  refine ext_counters (fun k => ?_) ?_
  · simp [UInt64.add_assoc,UInt64.add_comm (k.of v)]
  · simp [UInt64.add_assoc,UInt64.add_comm v.total]

theorem accumulateAll_perm {us vs : List Usage} (h : us.Perm vs) :
    accumulateAll us = accumulateAll vs := by
  have : RightCommutative accumulate := ⟨accumulate_right_comm⟩
  exact h.foldl_eq zero

/-- A word of the running record that grows by one word of each record holds their sum, up to
whole words. -/
theorem toNat_accumulateAll {f g : Usage → UInt64} (hzero : f zero = 0)
    (hadd : ∀ u v, f (u.accumulate v) = f u + g v) (us : List Usage) :
    (f (accumulateAll us)).toNat = (us.map fun u => (g u).toNat).sum % UInt64.size := by
  have hfrom (u : Usage) : (f (us.foldl accumulate u)).toNat =
      ((f u).toNat + (us.map fun u => (g u).toNat).sum) % UInt64.size := by
    induction us generalizing u with
    | nil => simp [Nat.mod_eq_of_lt (f u).toNat_lt_size]
    | cons v us ih =>
      rw [List.foldl_cons,ih,hadd,UInt64.toNat_add,List.map_cons,List.sum_cons]
      simp [UInt64.size,Nat.add_assoc]
  simpa [accumulateAll,hzero] using hfrom zero

theorem toNat_of (k : Counter) (us : List Usage) :
    (k.of (accumulateAll us)).toNat = (us.map fun u => (k.of u).toNat).sum % UInt64.size :=
  toNat_accumulateAll (of_zero k) (of_accumulate k) us

theorem toNat_totalTokens (us : List Usage) :
    (accumulateAll us).totalTokens.toNat = (us.map fun u => u.total.toNat).sum % UInt64.size :=
  toNat_accumulateAll rfl totalTokens_accumulate us

theorem toNat_total {u : Usage} (h : u.exactTotal < UInt64.size) :
    u.total.toNat = u.exactTotal := by
  unfold total
  unfold exactTotal at h ⊢
  split
  · rfl
  · rename_i hzero
    rw [if_neg hzero] at h
    simp only [UInt64.size] at h
    simp only [UInt64.toNat_add,UInt64.toNat_max]
    omega

theorem exactTotals_eq {us : List Usage} (h : (us.map exactTotal).sum < UInt64.size) :
    us.map (fun u => u.total.toNat) = us.map exactTotal := by
  induction us with
  | nil => rfl
  | cons u us ih =>
    simp only [List.map_cons,List.sum_cons] at h ⊢
    rw [toNat_total (by omega),ih (by omega)]

theorem totalTokens_isSum {us : List Usage} (h : (us.map exactTotal).sum < UInt64.size) :
    (accumulateAll us).totalTokens.toNat = (us.map fun u => u.total.toNat).sum := by
  rw [toNat_totalTokens,exactTotals_eq h,Nat.mod_eq_of_lt h]

theorem of_eq_zero {u : Usage} (h : u.exactTotal = 0) {k : Counter} (hcreation : k ≠ .cacheCreation)
    (hread : k ≠ .cacheRead) : k.of u = 0 := by
  unfold exactTotal at h
  split at h
  · rename_i hpos
    have hlt : 0 < u.totalTokens.toNat := UInt64.lt_iff_toNat_lt.mp hpos
    omega
  · apply UInt64.toNat_inj.mp
    cases k <;> simp only [Counter.of,UInt64.toNat_zero] <;> first | omega | contradiction

theorem total_eq_zero {u : Usage} (ht : u.totalTokens = 0)
    (hk : ∀ k : Counter, k ≠ .cacheCreation → k ≠ .cacheRead → k.of u = 0) : u.total = 0 := by
  have hinput : u.inputTokens = 0 := hk .input (by simp) (by simp)
  have hprompt : u.promptTokens = 0 := hk .prompt (by simp) (by simp)
  have houtput : u.outputTokens = 0 := hk .output (by simp) (by simp)
  have hcompletion : u.completionTokens = 0 := hk .completion (by simp) (by simp)
  have hthinking : u.thinkingTokens = 0 := hk .thinking (by simp) (by simp)
  have hreasoning : u.reasoningTokens = 0 := hk .reasoning (by simp) (by simp)
  rw [total,ht,hinput,hprompt,houtput,hcompletion,hthinking,hreasoning]
  rfl

/-- The total of the running record is what it has added up, also when that is nothing: then no
counter it would fall back on shows anything. -/
theorem total_accumulateAll {us : List Usage} (h : (us.map exactTotal).sum < UInt64.size) :
    (accumulateAll us).total = (accumulateAll us).totalTokens := by
  by_cases hpos : 0 < (accumulateAll us).totalTokens
  · rw [total,if_pos hpos]
  · have hzero : (accumulateAll us).totalTokens = 0 := by
      simpa [UInt64.lt_iff_toNat_lt,← UInt64.toNat_inj] using hpos
    have hsum := totalTokens_isSum h
    rw [hzero,exactTotals_eq h] at hsum
    have hall : ∀ u ∈ us, u.exactTotal = 0 := by
      simpa using List.sum_eq_zero_iff_forall_eq_nat.mp hsum.symm
    rw [hzero]
    refine total_eq_zero hzero fun k hcreation hread => UInt64.toNat_inj.mp ?_
    have hk : (us.map fun u => (k.of u).toNat).sum = 0 := by
      refine List.sum_eq_zero_iff_forall_eq_nat.mpr fun n hn => ?_
      obtain ⟨u,hu,rfl⟩ := List.mem_map.mp hn
      simp [of_eq_zero (hall u hu) hcreation hread]
    simp [toNat_of,hk]

theorem accumulateAll_isSum {us : List Usage} (h : Fit us) : IsSum us (accumulateAll us) where
  total := by rw [total_accumulateAll h.totals,totalTokens_isSum h.totals]
  totalTokens := totalTokens_isSum h.totals
  counters k := by rw [toNat_of,Nat.mod_eq_of_lt (h.counters k)]

end ReasonAct.Usage
