import ReasonAct.Proofs.Memory.Eviction
set_option autoImplicit false

namespace ReasonAct.Memory

inductive Change where
  | append (m : Message)
  | clear
  deriving DecidableEq

def change (m : Memory) : Change → Except Error Memory
  | .append msg => m.append msg
  | .clear => .ok m.clear

def changeAll (m : Memory) (changes : List Change) : Except Error Memory := changes.foldlM change m

def Change.appended (ms : List Message) : Change → List Message
  | .append m => ms ++ [m]
  | .clear => []

def sinceCleared (changes : List Change) : List Message := changes.foldl Change.appended []

@[simp] theorem changeAll_concat (m : Memory) (changes : List Change) (x : Change) :
    changeAll m (changes ++ [x]) = changeAll m changes >>= fun m => change m x := by
  simp [changeAll]

@[simp] theorem sinceCleared_concat (changes : List Change) (x : Change) :
    sinceCleared (changes ++ [x]) = x.appended (sinceCleared changes) := by simp [sinceCleared]

theorem changeAll_kept (bound : Nat) (changes : List Change) : ∃ taken,
    changeAll (.empty (.kept bound)) changes =
      .ok ⟨.kept bound, held bound (sinceCleared changes), taken⟩ := by
  induction changes using List.reverseRecOn with
  | nil => exact ⟨0,rfl⟩
  | append_singleton changes x ih =>
    obtain ⟨taken,ih⟩ := ih
    rw [changeAll_concat,sinceCleared_concat,ih]
    cases x with
    | append m => exact ⟨taken + 1,by rw [Change.appended,held_concat]; rfl⟩
    | clear => exact ⟨taken,rfl⟩

section Longest

variable {bound : Nat} {all xs kept : List Message}

/-- A suffix that a memory of this bound may hold. -/
structure Holdable (bound : Nat) (all xs : List Message) : Prop where
  suffix : xs <:+ all
  short : xs.length ≤ bound
  led : ¬ Orphaned xs

structure Longest (bound : Nat) (all kept : List Message) : Prop where
  holdable : Holdable bound all kept
  longest : ∀ xs, Holdable bound all xs → xs <:+ kept

theorem Longest.unique {kept' : List Message} (h : Longest bound all kept)
    (h' : Longest bound all kept') : kept = kept' :=
  (h'.longest kept h.holdable).eq_of_length_le (h.longest kept' h'.holdable).length_le

theorem suffix_dropWhile (hs : xs <:+ all) (hx : ¬ Orphaned xs) :
    xs <:+ all.dropWhile (·.role = .tool) := by
  induction all with
  | nil => exact hs
  | cons m all ih =>
    rw [List.dropWhile_cons]
    split
    · rename_i hrole
      rcases List.suffix_cons_iff.mp hs with rfl | hs
      · exact absurd ⟨m,all,rfl,by simpa using hrole⟩ hx
      · exact ih hs
    · exact hs

theorem evict_longest (hb : bound ≠ 0) (hlong : bound < all.length) :
    Longest bound all (evict bound all) := by
  have hevict : evict bound all =
      (all.drop (all.length - bound)).dropWhile (·.role = .tool) := by
    rw [evict,if_neg (by omega)]
  refine ⟨⟨evict_suffix bound all,length_evict_le (by omega) all,?_⟩,?_⟩
  · rw [hevict]
    exact dropWhile_not_orphaned _
  · intro xs hx
    have hdrop : xs <:+ all.drop (all.length - bound) := by
      refine List.suffix_of_suffix_length_le hx.suffix (List.drop_suffix _ _) ?_
      have hshort := hx.short
      rw [List.length_drop]
      omega
    rw [hevict]
    exact suffix_dropWhile hdrop hx.led

end Longest

/-- What a memory of this bound is to hold of `all`. -/
def Retains (bound : Nat) (all kept : List Message) : Prop :=
  if bound = 0 ∨ all.length ≤ bound then kept = all else Longest bound all kept

theorem retains_iff {bound : Nat} {all kept : List Message} :
    Retains bound all kept ↔ kept = evict bound all := by
  unfold Retains
  split
  · rename_i h
    rw [evict,if_pos h]
  · rename_i h
    have hlongest : Longest bound all (evict bound all) := evict_longest (by omega) (by omega)
    exact ⟨fun hkept => hkept.unique hlongest,fun heq => heq ▸ hlongest⟩

theorem held_unbounded (ms : List Message) : held 0 ms = ms := by
  induction ms using List.reverseRecOn with
  | nil => rfl
  | append_singleton ms m ih => simp [ih,evict]

theorem last_suffix (m : Memory) (n : Nat) :
    m.last n <:+ m.messages ∧ (m.last n).length = min n m.messages.length := by
  refine ⟨List.drop_suffix _ _,?_⟩
  rw [last,List.length_drop]
  omega

/-- A bounded memory takes every message. It holds a suffix of what was appended, and of one message
more exactly what it is to hold. -/
theorem newest_retained (bound : Nat) (changes : List Change) :
    ∃ m, changeAll (.empty (.kept bound)) changes = .ok m ∧
      m.messages <:+ sinceCleared changes ∧
      (if bound = 0 then m.messages = sinceCleared changes else m.messages.length ≤ bound) ∧
      (∀ msg, ∃ m', m.append msg = .ok m' ∧
        ∀ kept, Retains bound (m.messages ++ [msg]) kept ↔ kept = m'.messages) ∧
      ∀ n, m.last n <:+ m.messages ∧ (m.last n).length = min n m.messages.length := by
  obtain ⟨taken,h⟩ := changeAll_kept bound changes
  refine ⟨_,h,held_suffix bound _,?_,?_,last_suffix _⟩
  · split
    · rename_i hzero
      rw [hzero]
      exact held_unbounded _
    · exact length_held_le (by omega) _
  · intro msg
    exact ⟨_,rfl,fun _ => retains_iff⟩

example : (changeAll (.empty (.kept 1)) [.append (.user "hi" default),
    .append (.toolResult "a" "1" default)]).toOption.map messages = some [] := by decide

end ReasonAct.Memory
