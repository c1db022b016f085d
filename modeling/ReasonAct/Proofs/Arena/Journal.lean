import ReasonAct.Arena.Pool
import ReasonAct.Proofs.Arena.Layout
set_option autoImplicit false

namespace ReasonAct.Arena

namespace Cell

def arena? : Cell → Option Arena
  | .exclusive a => a
  | .shared s => s.inner

section Simp

variable (c : Cell)

@[simp] theorem arena_exclusive (a : Option Arena) : (exclusive a).arena? = a := rfl
@[simp] theorem arena_shared (s : SharedArena) : (shared s).arena? = s.inner := rfl

@[simp] theorem arena_reset : c.reset.arena? = c.arena?.map Arena.reset := by cases c <;> rfl

@[simp] theorem arena_destroy : c.destroy.arena? = none := by cases c <;> rfl

@[simp] theorem arena_share : c.share.arena? = c.arena? := by
  cases c with
  | exclusive a => cases a <;> rfl
  | shared s => rfl

theorem read_eq (h : Handle) : c.read h = c.arena?.bind (·.read h) := by cases c <;> rfl

theorem readText_eq (h : Handle) : c.readText h = c.arena?.bind (·.readText h) := by
  cases c <;> rfl

theorem contains_eq (h : Handle) : c.contains h = c.arena?.any (·.contains h) := by cases c <;> rfl

theorem write_isSome_iff (h : Handle) (data : List UInt8) :
    (c.write h data).isSome = true ↔ (c.read h).isSome = true ∧ data.length = h.len := by
  have hw : (c.write h data).isSome = (c.arena?.bind (·.write h data)).isSome := by
    cases c <;> simp only [write,SharedArena.write,arena_exclusive,arena_shared,Option.isSome_map]
  rw [hw,read_eq]
  cases c.arena? with
  | none => simp
  | some a => exact Arena.write_isSome_iff

end Simp

variable {c c' : Cell} {h : Handle}

theorem issue_eq_some {f : Arena → Option (Handle × Arena)} (hi : c.issue f = some (h, c')) :
    ∃ a a', c.arena? = some a ∧ f a = some (h, a') ∧ c'.arena? = some a' := by
  cases c with
  | exclusive a =>
    obtain ⟨a,rfl,hm⟩ := Option.bind_eq_some_iff.mp hi
    obtain ⟨⟨k,a'⟩,hf,heq⟩ := Option.map_eq_some_iff.mp hm
    obtain ⟨rfl,rfl⟩ := Prod.mk.inj heq
    exact ⟨a,a',rfl,hf,rfl⟩
  | shared s =>
    obtain ⟨⟨k,s'⟩,hs,heq⟩ := Option.map_eq_some_iff.mp hi
    obtain ⟨a,ha,hs⟩ := Option.bind_eq_some_iff.mp hs
    obtain ⟨⟨k',a'⟩,hf,hs⟩ := Option.bind_eq_some_iff.mp hs
    obtain ⟨rfl,rfl⟩ := Prod.mk.inj (Option.some.inj hs)
    obtain ⟨rfl,rfl⟩ := Prod.mk.inj heq
    exact ⟨a,a',ha,hf,rfl⟩

theorem write_eq_some {data : List UInt8} (hw : c.write h data = some c') :
    ∃ a a', c.arena? = some a ∧ a.write h data = some a' ∧ c'.arena? = some a' := by
  cases c with
  | exclusive a =>
    obtain ⟨a',ha,rfl⟩ := Option.map_eq_some_iff.mp hw
    obtain ⟨a,rfl,hf⟩ := Option.bind_eq_some_iff.mp ha
    exact ⟨a,a',rfl,hf,rfl⟩
  | shared s =>
    obtain ⟨s',hs,rfl⟩ := Option.map_eq_some_iff.mp hw
    obtain ⟨a',ha,rfl⟩ := Option.map_eq_some_iff.mp hs
    obtain ⟨a,ha,hf⟩ := Option.bind_eq_some_iff.mp ha
    exact ⟨a,a',ha,hf,rfl⟩

/-- What a cell holds is what the history of its arena says. -/
inductive Tells (c : Cell) (id : Nat) (es : List Change) : Prop
  | there (a : Arena) (at_ : c.arena? = some a) (ids : a.id = id) (holds : a.Holds es)
  | gone (at_ : c.arena? = none) (recorded : Recorded id es) (destroyed : .destroyed ∈ es)
      (stale : since es = [])

namespace Tells

variable {id : Nat} {es : List Change} {a : Arena}

theorem holds (ht : c.Tells id es) (ha : c.arena? = some a) : a.id = id ∧ a.Holds es := by
  cases ht with
  | there b hb hid hs =>
    obtain rfl := Option.some.inj (hb.symm.trans ha)
    exact ⟨hid,hs⟩
  | gone hn => rw [ha] at hn; contradiction

theorem recorded (ht : c.Tells id es) : Recorded id es := by
  cases ht with
  | there a ha hid hs => exact hid ▸ hs.recorded
  | gone _ hr => exact hr

theorem reset (ht : c.Tells id es) : c.reset.Tells id (.reset :: es) := by
  cases ht with
  | there a ha hid hs => exact .there a.reset (by simp [ha]) hid hs.reset
  | gone ha hr hd _ =>
    exact .gone (by simp [ha]) (hr.cons rfl) (List.mem_cons_of_mem _ hd) rfl

theorem destroy (ht : c.Tells id es) : c.destroy.Tells id (.destroyed :: es) :=
  .gone c.arena_destroy (ht.recorded.cons rfl) List.mem_cons_self rfl

theorem share (ht : c.Tells id es) : c.share.Tells id es := by
  cases ht with
  | there a ha hid hs => exact .there a (c.arena_share.trans ha) hid hs
  | gone ha hr hd hn => exact .gone (c.arena_share.trans ha) hr hd hn

end Tells
end Cell

/-- What can be done to arenas. Each time another host may be the one that is asked for memory. -/
inductive Operation where
  | create (host : Host) (capacity blockSize : Nat) (sharing : Sharing)
  | issue (host : Host) (i : Nat) (r : Request)
  | write (i : Nat) (h : Handle) (data : List UInt8)
  | reset (i : Nat)
  | destroy (i : Nat)
  | share (i : Nat)

/-- The arenas, and what was done to which of them, latest first. -/
structure Journal where
  pool : Pool
  log : List (Nat × Change)

namespace Journal

def empty : Journal := ⟨.empty, []⟩

def cell? (j : Journal) (i : Nat) : Option Cell := j.pool.cells[i]?

/-- What was done to one arena. -/
def historyIn (i : Nat) (log : List (Nat × Change)) : List Change :=
  log.filterMap fun (k, e) => if k = i then some e else none

def history (j : Journal) (i : Nat) : List Change := historyIn i j.log

def slices (j : Journal) : List Handle := j.log.filterMap fun (_, e) => e.slice?

def step (j : Journal) : Operation → Journal
  | .create host capacity blockSize sharing =>
    match j.pool.create host capacity blockSize sharing with
    | some p => { j with pool := p }
    | none => j
  | .issue host i r =>
    match j.pool.issue (r.serve host) i with
    | some (h, p) =>
      let found := (p.cells[i]?.bind (·.read h)).getD []
      ⟨p, (i, .issued r h found) :: j.log⟩
    | none => j
  | .write i h data =>
    if h ∈ j.slices then
      match j.pool.write i h data with
      | some p => ⟨p, (i, .wrote h data) :: j.log⟩
      | none => j
    else j
  | .reset i =>
    if i < j.pool.cells.length then ⟨j.pool.update Cell.reset i, (i, .reset) :: j.log⟩ else j
  | .destroy i =>
    if i < j.pool.cells.length then ⟨j.pool.update Cell.destroy i, (i, .destroyed) :: j.log⟩
    else j
  | .share i => { j with pool := j.pool.update Cell.share i }

def runFrom (j : Journal) (ops : List Operation) : Journal := ops.foldl step j

def run (ops : List Operation) : Journal := empty.runFrom ops

theorem run_append (ops more : List Operation) : run (ops ++ more) = (run ops).runFrom more :=
  List.foldl_append

section Simp

variable (i : Nat) (e : Change) (log : List (Nat × Change))

@[simp] theorem historyIn_nil : historyIn i [] = [] := rfl

@[simp] theorem historyIn_same : historyIn i ((i, e) :: log) = e :: historyIn i log := by
  simp [historyIn]

@[simp] theorem historyIn_append (new : List (Nat × Change)) :
    historyIn i (new ++ log) = historyIn i new ++ historyIn i log := List.filterMap_append

theorem mem_historyIn {i : Nat} {e : Change} {log : List (Nat × Change)} :
    e ∈ historyIn i log ↔ (i, e) ∈ log := by
  constructor
  · intro hm
    obtain ⟨⟨k,e'⟩,hm,heq⟩ := List.mem_filterMap.mp hm
    dsimp only at heq
    split at heq
    · rename_i hk
      rw [← hk,← Option.some.inj heq]
      exact hm
    · contradiction
  · intro hm
    exact List.mem_filterMap.mpr ⟨_,hm,if_pos rfl⟩

theorem mem_slices {j : Journal} {h : Handle} : h ∈ j.slices ↔
    ∃ i r found, (i, .issued r h found) ∈ j.log ∧ r.isText = false := by
  constructor
  · intro hm
    obtain ⟨⟨i,e⟩,he,heq⟩ := List.mem_filterMap.mp hm
    cases e with
    | issued r k found =>
      simp only [Change.slice?] at heq
      split at heq
      · contradiction
      · rename_i htext
        obtain rfl := Option.some.inj heq
        exact ⟨i,r,found,he,by simpa using htext⟩
    | _ => contradiction
  · intro ⟨i,r,found,hm,htext⟩
    exact List.mem_filterMap.mpr ⟨_,hm,by simp [Change.slice?,htext]⟩

end Simp

structure Sound (j : Journal) : Prop where
  next : j.pool.next = j.pool.cells.length + 1
  logged : ∀ i e, (i, e) ∈ j.log → i < j.pool.cells.length
  tells : ∀ i c, j.cell? i = some c → c.Tells (i + 1) (j.history i)

namespace Sound

variable {j : Journal}

theorem empty : Sound .empty := ⟨rfl,by simp [Journal.empty],by simp [cell?,Journal.empty,Pool.empty]⟩

theorem recorded (hs : j.Sound) {i : Nat} {e : Change} (he : (i, e) ∈ j.log) :
    ∃ c, j.cell? i = some c ∧ Recorded (i + 1) (j.history i) := by
  have hlt := hs.logged i e he
  have hc : j.cell? i = some j.pool.cells[i] := List.getElem?_eq_getElem hlt
  exact ⟨_,hc,(hs.tells i _ hc).recorded⟩

theorem history_eq_nil (hs : j.Sound) {i : Nat} (hi : j.pool.cells.length ≤ i) :
    j.history i = [] := by
  refine List.eq_nil_iff_forall_not_mem.mpr fun e he => ?_
  exact Nat.not_lt.mpr hi (hs.logged i e (mem_historyIn.mp he))

theorem history_recorded (hs : j.Sound) (i : Nat) : ∃ id, Recorded id (j.history i) := by
  cases hc : j.cell? i with
  | some c => exact ⟨_,(hs.tells i c hc).recorded⟩
  | none =>
    have hnil := hs.history_eq_nil (List.getElem?_eq_none_iff.mp hc)
    exact ⟨0,hnil ▸ Recorded.nil 0⟩

theorem replaced (hs : j.Sound) {i : Nat} {c c' : Cell} (new : List (Nat × Change))
    (hc : j.cell? i = some c) (hnew : ∀ k e, (k, e) ∈ new → k = i)
    (ht : c'.Tells (i + 1) (historyIn i new ++ j.history i)) :
    Sound ⟨{ j.pool with cells := j.pool.cells.set i c' }, new ++ j.log⟩ := by
  have hlt : i < j.pool.cells.length := (List.getElem?_eq_some_iff.mp hc).1
  refine ⟨?_,?_,?_⟩
  · simp [hs.next]
  · intro k e hm
    rw [List.length_set]
    rcases List.mem_append.mp hm with hm | hm
    · exact hnew k e hm ▸ hlt
    · exact hs.logged k e hm
  · intro k c₁ hk
    simp only [cell?,List.getElem?_set] at hk
    simp only [history,historyIn_append]
    split at hk
    · rename_i hki
      subst hki
      obtain rfl : c' = c₁ := by simpa [hlt] using hk
      exact ht
    · rename_i hki
      have hnone : historyIn k new = [] := by
        refine List.filterMap_eq_nil_iff.mpr ?_
        intro ⟨k',e⟩ he
        have heq := hnew k' e he
        simp [heq,hki]
      rw [hnone]
      exact hs.tells k c₁ hk

theorem modified (hs : j.Sound) {i : Nat} {f : Cell → Cell} (new : List (Nat × Change))
    (hnew : ∀ k e, (k, e) ∈ new → k = i) (hi : i < j.pool.cells.length)
    (ht : ∀ c, c.Tells (i + 1) (j.history i) →
      (f c).Tells (i + 1) (historyIn i new ++ j.history i)) :
    Sound ⟨j.pool.update f i, new ++ j.log⟩ := by
  have hc : j.cell? i = some j.pool.cells[i] := List.getElem?_eq_getElem hi
  rw [Pool.update,List.modify_eq_set_get f hi]
  exact hs.replaced new hc hnew (ht _ (hs.tells i _ hc))

theorem created (hs : j.Sound) {host : Host} {capacity blockSize : Nat} {sharing : Sharing}
    {p : Pool} (hc : j.pool.create host capacity blockSize sharing = some p) :
    Sound { j with pool := p } := by
  obtain ⟨a,ha,rfl⟩ := Option.map_eq_some_iff.mp hc
  obtain ⟨hid,hold⟩ := Holds.create ha
  refine ⟨?_,?_,?_⟩
  · simp [hs.next]
  · intro i e hm
    have hlt := hs.logged i e hm
    simp only [List.length_append]
    omega
  · intro i c hi
    simp only [cell?,List.getElem?_append] at hi
    split at hi
    · exact hs.tells i c hi
    · rw [List.getElem?_singleton] at hi
      split at hi
      case isFalse => contradiction
      obtain rfl := Option.some.inj hi
      have hlen : i = j.pool.cells.length := by omega
      have hnil := hs.history_eq_nil (Nat.le_of_eq hlen.symm)
      refine .there a ?_ ?_ ?_
      · cases sharing <;> rfl
      · rw [hid,hs.next,hlen]
      · exact hnil ▸ hold

theorem issued (hs : j.Sound) {host : Host} {i : Nat} {r : Request} {h : Handle} {p : Pool}
    (hi : j.pool.issue (r.serve host) i = some (h, p)) :
    Sound ⟨p, (i, .issued r h ((p.cells[i]?.bind (·.read h)).getD [])) :: j.log⟩ := by
  obtain ⟨c,hc,hi⟩ := Option.bind_eq_some_iff.mp hi
  obtain ⟨⟨k,c'⟩,hissue,hi⟩ := Option.bind_eq_some_iff.mp hi
  obtain ⟨rfl,rfl⟩ := Prod.mk.inj (Option.some.inj hi)
  obtain ⟨a,a',ha,hserve,ha'⟩ := Cell.issue_eq_some hissue
  obtain ⟨hid,hold⟩ := (hs.tells i c hc).holds ha
  obtain ⟨hid',hnew⟩ := hold.serve hserve
  have hlt : i < j.pool.cells.length := (List.getElem?_eq_some_iff.mp hc).1
  have hread : c'.read k = some (a'.bytesOf k) := by
    rw [Cell.read_eq,ha']
    exact (hnew.placed k (by simp)).read_eq
  have hfound : ((j.pool.cells.set i c')[i]?.bind (·.read k)).getD [] = a'.bytesOf k := by
    simp [hlt,hread]
  rw [hfound]
  refine hs.replaced [(i, .issued r k (a'.bytesOf k))] hc ?_ ?_
  · simp
  · rw [historyIn_same]
    exact .there a' ha' (hid'.trans hid) hnew

theorem wrote (hs : j.Sound) {i : Nat} {h : Handle} {data : List UInt8} {p : Pool}
    (hslice : h ∈ j.slices) (hw : j.pool.write i h data = some p) :
    Sound ⟨p, (i, .wrote h data) :: j.log⟩ := by
  obtain ⟨c,hc,hw⟩ := Option.bind_eq_some_iff.mp hw
  obtain ⟨c',hcw,hw⟩ := Option.bind_eq_some_iff.mp hw
  obtain rfl := Option.some.inj hw
  obtain ⟨a,a',ha,hwrite,ha'⟩ := Cell.write_eq_some hcw
  obtain ⟨hid,hold⟩ := (hs.tells i c hc).holds ha
  obtain ⟨k,r,found,hm,htext⟩ := mem_slices.mp hslice
  obtain ⟨hcontains,-,b,-,-,heq⟩ := Holds.write_eq_some hwrite
  obtain ⟨⟨harena,hepoch⟩,-⟩ := contains_iff.mp hcontains
  obtain ⟨c₀,-,hrecord⟩ := hs.recorded hm
  have hki : k = i := by
    have hstamp := hrecord.arena_eq (mem_historyIn.mpr hm)
    omega
  subst hki
  have hm' := mem_historyIn.mpr hm
  have hlive := hold.live_of_epoch (mem_handles.mpr ⟨r,found,hm'⟩) hepoch
  refine hs.replaced [(k, .wrote h data)] hc ?_ ?_
  · simp
  · rw [historyIn_same]
    exact .there a' ha' (by rw [heq,← hid]) (hold.write hlive ⟨r,found,hm',htext⟩ hwrite)

theorem step (hs : j.Sound) (op : Operation) : (j.step op).Sound := by
  cases op with
  | create host capacity blockSize sharing =>
    simp only [Journal.step]
    split
    · rename_i hc
      exact hs.created hc
    · exact hs
  | issue host i r =>
    simp only [Journal.step]
    split
    · rename_i hi
      exact hs.issued hi
    · exact hs
  | write i h data =>
    simp only [Journal.step]
    split
    · rename_i hslice
      split
      · rename_i hw
        exact hs.wrote hslice hw
      · exact hs
    · exact hs
  | reset i =>
    simp only [Journal.step]
    split
    · rename_i hi
      refine hs.modified [(i, .reset)] (by simp) hi ?_
      intro c ht
      rw [historyIn_same]
      exact ht.reset
    · exact hs
  | destroy i =>
    simp only [Journal.step]
    split
    · rename_i hi
      refine hs.modified [(i, .destroyed)] (by simp) hi ?_
      intro c ht
      rw [historyIn_same]
      exact ht.destroy
    · exact hs
  | share i =>
    by_cases hi : i < j.pool.cells.length
    · exact hs.modified [] (by simp) hi fun c ht => ht.share
    · have heq : j.pool.cells.modify i Cell.share = j.pool.cells :=
        List.modify_eq_self (Nat.not_lt.mp hi)
      simp only [Journal.step,Pool.update,heq]
      exact hs

theorem runFrom (hs : j.Sound) (ops : List Operation) : (j.runFrom ops).Sound := by
  induction ops generalizing j with
  | nil => exact hs
  | cons op ops ih => exact ih (hs.step op)

theorem run (ops : List Operation) : (Journal.run ops).Sound := Sound.empty.runFrom ops

end Sound

theorem log_step (j : Journal) (op : Operation) : ∃ new, (j.step op).log = new ++ j.log := by
  cases op with
  | share i => exact ⟨[],rfl⟩
  | write i h data =>
    simp only [step]
    split
    · split
      · exact ⟨[_],rfl⟩
      · exact ⟨[],rfl⟩
    · exact ⟨[],rfl⟩
  | create host capacity blockSize sharing =>
    simp only [step]
    split <;> exact ⟨[],rfl⟩
  | _ =>
    simp only [step]
    split
    · exact ⟨[_],rfl⟩
    · exact ⟨[],rfl⟩

theorem log_runFrom (j : Journal) (ops : List Operation) :
    ∃ new, (j.runFrom ops).log = new ++ j.log := by
  induction ops generalizing j with
  | nil => exact ⟨[],rfl⟩
  | cons op ops ih =>
    obtain ⟨new,hnew⟩ := ih (j.step op)
    obtain ⟨first,hfirst⟩ := log_step j op
    exact ⟨new ++ first,by rw [List.append_assoc,← hfirst]; exact hnew⟩

end Journal
end ReasonAct.Arena
