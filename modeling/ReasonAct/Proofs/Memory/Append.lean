import ReasonAct.Memory.Basic
set_option autoImplicit false

namespace ReasonAct

/-- A memory of such a kind never lets go of a message. -/
def MemoryKind.Unbounded : MemoryKind → Prop
  | .kept bound => bound = 0
  | .forgetful => False
  | .failing _ => True

namespace Memory

def appendAll (m : Memory) (ms : List Message) : Except Error Memory := ms.foldlM append m

@[simp] theorem appendAll_nil (m : Memory) : appendAll m [] = .ok m := rfl

@[simp] theorem appendAll_cons (m : Memory) (msg : Message) (ms : List Message) :
    appendAll m (msg :: ms) = m.append msg >>= fun m => appendAll m ms := rfl

theorem appendAll_append (m : Memory) (xs ys : List Message) :
    appendAll m (xs ++ ys) = appendAll m xs >>= fun m => appendAll m ys := by
  simp [appendAll]

theorem append_kind {m m' : Memory} {msg : Message} (h : m.append msg = .ok m') :
    m'.kind = m.kind := by
  unfold append at h
  split at h
  · obtain rfl := Except.ok.inj h
    rfl
  · obtain rfl := Except.ok.inj h
    rfl
  · split at h
    · obtain rfl := Except.ok.inj h
      rfl
    · simp at h

theorem appendAll_kind {m m' : Memory} {ms : List Message} (h : m.appendAll ms = .ok m') :
    m'.kind = m.kind := by
  induction ms generalizing m with
  | nil =>
    obtain rfl := Except.ok.inj h
    rfl
  | cons msg ms ih =>
    rw [appendAll_cons] at h
    cases ha : m.append msg with
    | error e => simp [ha,bind,Except.bind] at h
    | ok m₁ =>
      rw [ha] at h
      rw [ih h,append_kind ha]

theorem append_unbounded {m m' : Memory} (hm : m.kind.Unbounded) {msg : Message}
    (h : m.append msg = .ok m') : m'.messages = m.messages ++ [msg] := by
  unfold append at h
  cases hk : m.kind with
  | kept bound =>
    simp only [hk,MemoryKind.Unbounded] at hm h
    obtain rfl := Except.ok.inj h
    simp [evict,hm]
  | forgetful => simp [hk,MemoryKind.Unbounded] at hm
  | failing after =>
    simp only [hk] at h
    split at h
    · obtain rfl := Except.ok.inj h
      rfl
    · simp at h

theorem appendAll_unbounded {m m' : Memory} (hm : m.kind.Unbounded) {ms : List Message}
    (h : m.appendAll ms = .ok m') : m'.messages = m.messages ++ ms := by
  induction ms generalizing m with
  | nil =>
    obtain rfl := Except.ok.inj h
    simp
  | cons msg ms ih =>
    rw [appendAll_cons] at h
    cases ha : m.append msg with
    | error e => simp [ha,bind,Except.bind] at h
    | ok m₁ =>
      rw [ha] at h
      have hk : m₁.kind.Unbounded := by rwa [append_kind ha]
      rw [ih hk h,append_unbounded hm ha]
      simp

end Memory
end ReasonAct
