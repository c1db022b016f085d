import ReasonAct.Proofs.Arena.Journal
import ReasonAct.Proofs.Arena.Placement
set_option autoImplicit false

namespace ReasonAct.Arena

/-- What can become of an arena, beside what was done to it. -/
inductive Reached : Arena → List Change → Prop
  | created {host : Host} {id capacity blockSize : Nat} {a : Arena}
      (h : Arena.create host id capacity blockSize = some a) : Reached a []
  | served {a a' : Arena} {es : List Change} {host : Host} {r : Request} {h : Handle}
      (before : Reached a es) (hr : r.serve host a = some (h, a')) (found : List UInt8) :
      Reached a' (.issued r h found :: es)
  | wrote {a a' : Arena} {es : List Change} {h : Handle} {data : List UInt8}
      (before : Reached a es) (hw : a.write h data = some a') : Reached a' (.wrote h data :: es)
  | reset {a : Arena} {es : List Change} (before : Reached a es) : Reached a.reset (.reset :: es)

/-- How much was handed out since the last reset, in whole words. -/
def handedOut : List Change → Nat
  | .issued r _ _ :: es => roundUp r.size + handedOut es
  | .wrote _ _ :: es => handedOut es
  | [] | .reset :: _ | .destroyed :: _ => 0

def used : List Mark → Nat
  | [] => 0
  | m :: ms => m.used + used ms

section Used

variable {ms : List Mark} {m : Mark} {i : Nat}

theorem used_append (ms ms' : List Mark) : used (ms ++ ms') = used ms + used ms' := by
  induction ms with
  | nil => exact (Nat.zero_add _).symm
  | cons m ms ih => rw [List.cons_append,used,ih,used,Nat.add_assoc]

theorem used_fresh (capacities : List Nat) : used (capacities.map Mark.fresh) = 0 := by
  induction capacities with
  | nil => rfl
  | cons c cs ih =>
    rw [List.map_cons,used,ih]
    rfl

theorem used_set (hm : ms[i]? = some m) (n : Nat) : used (ms.set i (m.take n)) = used ms + n := by
  induction ms generalizing i with
  | nil => simp at hm
  | cons m' ms ih =>
    cases i with
    | zero =>
      obtain rfl := Option.some.inj hm
      simp only [List.set_cons_zero,used,Mark.take]
      omega
    | succ i =>
      have htail := ih (i := i) (by simpa using hm)
      simp only [List.set_cons_succ,used,htail]
      omega

theorem used_eq_zero (h : used ms = 0) : ∀ m ∈ ms, m.used = 0 := by
  induction ms with
  | nil => simp
  | cons m ms ih =>
    obtain ⟨hm,hms⟩ := Nat.add_eq_zero_iff.mp h
    exact List.forall_mem_cons.mpr ⟨hm,ih hms⟩

theorem foldl_used (n : Nat) : (ms.map Mark.used).foldl (· + ·) n = n + used ms := by
  induction ms generalizing n with
  | nil => rfl
  | cons m ms ih => rw [List.map_cons,List.foldl_cons,ih,used,Nat.add_assoc]

end Used

variable {a a' : Arena} {es : List Change} {h : Handle} {size : Nat}

theorem totalUsed_eq (a : Arena) : a.stats.totalUsed = used a.marks := by
  have hmarks : a.blocks.map Block.used = a.marks.map Mark.used := by
    rw [marks,List.map_map]
    rfl
  rw [stats,hmarks,foldl_used,Nat.zero_add]

theorem HandsOut.used (hh : HandsOut a size h a') :
    used a'.marks = Arena.used a.marks + roundUp size := by
  obtain ⟨ms,m,ht,hm,-,hmarks⟩ := hh.place
  obtain ⟨capacities,hgrown⟩ := ht.grown
  rw [hmarks,used_set hm,hgrown,used_append,used_fresh,Nat.add_zero]

theorem HandsOut.current_lt (hh : HandsOut a size h a') : a'.current < a'.marks.length := by
  obtain ⟨ms,m,-,hm,-,hmarks⟩ := hh.place
  rw [hh.current,hmarks,List.length_set]
  exact (List.getElem?_eq_some_iff.mp hm).1

theorem marks_reset (a : Arena) :
    a.reset.marks = (a.marks.map Mark.capacity).map Mark.fresh := by
  simp only [marks,reset,List.map_map]
  rfl

namespace Reached

/-- What is in use was handed out since the last reset, and the current block is in the chain. -/
theorem occupied (hr : Reached a es) :
    a.current < a.marks.length ∧ used a.marks = handedOut es ∧ (since es = [] → a.current = 0) := by
  induction hr with
  | created hc =>
    unfold Arena.create at hc
    dsimp only at hc
    split at hc
    · obtain rfl := Option.some.inj hc
      exact ⟨Nat.zero_lt_one,rfl,fun _ => rfl⟩
    · contradiction
  | served _ hserve found ih =>
    have hh := serve_handsOut hserve
    refine ⟨hh.current_lt,?_,by simp⟩
    rw [hh.used,ih.2.1,handedOut,Nat.add_comm]
  | wrote _ hw ih =>
    obtain ⟨hmarks,hcurrent,-⟩ := marks_write hw
    rw [hmarks,hcurrent]
    exact ⟨ih.1,ih.2.1,by simp⟩
  | reset _ ih =>
    have hpos := ih.1
    refine ⟨?_,?_,fun _ => rfl⟩
    · rw [marks_reset,List.length_map,List.length_map]
      exact Nat.lt_of_le_of_lt (Nat.zero_le _) hpos
    · rw [marks_reset,used_fresh]
      rfl

end Reached

namespace Journal

variable {j : Journal} {i k : Nat}

def Traced (j : Journal) : Prop :=
  ∀ i c a, j.cell? i = some c → c.arena? = some a → Reached a (j.history i)

theorem history_other (hne : i ≠ k) (e : Change) (log : List (Nat × Change)) :
    historyIn k ((i, e) :: log) = historyIn k log := by
  simp [historyIn,hne]

theorem Traced.changed (ht : j.Traced) {c : Cell} {e : Change} (hi : i < j.pool.cells.length)
    (hc : ∀ a, c.arena? = some a → Reached a (e :: j.history i)) :
    Traced ⟨{ j.pool with cells := j.pool.cells.set i c }, (i, e) :: j.log⟩ := by
  intro k c' a hk ha
  simp only [cell?,List.getElem?_set] at hk
  simp only [history]
  split at hk
  · rename_i hki
    subst hki
    obtain rfl : c = c' := by simpa [hi] using hk
    rw [historyIn_same]
    exact hc a ha
  · rename_i hki
    rw [history_other hki]
    exact ht k c' a hk ha

theorem Traced.updated (ht : j.Traced) {f : Cell → Cell} {e : Change}
    (hf : ∀ c a, j.cell? i = some c → (f c).arena? = some a → Reached a (e :: j.history i))
    (hi : i < j.pool.cells.length) : Traced ⟨j.pool.update f i, (i, e) :: j.log⟩ := by
  rw [Pool.update,List.modify_eq_set_get f hi]
  exact ht.changed hi fun a ha => hf _ a (List.getElem?_eq_getElem hi) ha

theorem Traced.step (hs : j.Sound) (ht : j.Traced) (op : Operation) : (j.step op).Traced := by
  cases op with
  | create host capacity blockSize sharing =>
    simp only [Journal.step]
    split
    · rename_i hcreate
      obtain ⟨a,ha,rfl⟩ := Option.map_eq_some_iff.mp hcreate
      intro i c a' hi ha'
      simp only [cell?,List.getElem?_append] at hi
      split at hi
      · exact ht i c a' hi ha'
      · rename_i hlen
        rw [List.getElem?_singleton] at hi
        split at hi
        case isFalse => contradiction
        obtain rfl := Option.some.inj hi
        obtain rfl : a = a' := by
          cases sharing <;> exact Option.some.inj ha'
        have hnil : historyIn i j.log = [] := hs.history_eq_nil (Nat.not_lt.mp hlen)
        rw [history,hnil]
        exact .created ha
    · exact ht
  | issue host i r =>
    simp only [Journal.step]
    split
    · rename_i hissue
      obtain ⟨c,hc,hissue⟩ := Option.bind_eq_some_iff.mp hissue
      obtain ⟨⟨h,c'⟩,hcell,hissue⟩ := Option.bind_eq_some_iff.mp hissue
      obtain ⟨rfl,rfl⟩ := Prod.mk.inj (Option.some.inj hissue)
      obtain ⟨a,a',ha,hserve,ha'⟩ := Cell.issue_eq_some hcell
      refine ht.changed (List.getElem?_eq_some_iff.mp hc).1 fun a₁ ha₁ => ?_
      obtain rfl := Option.some.inj (ha'.symm.trans ha₁)
      exact (ht i c a hc ha).served hserve _
    · exact ht
  | write i h data =>
    simp only [Journal.step]
    split
    · split
      · rename_i hwrite
        obtain ⟨c,hc,hwrite⟩ := Option.bind_eq_some_iff.mp hwrite
        obtain ⟨c',hcell,hwrite⟩ := Option.bind_eq_some_iff.mp hwrite
        obtain rfl := Option.some.inj hwrite
        obtain ⟨a,a',ha,hw,ha'⟩ := Cell.write_eq_some hcell
        refine ht.changed (List.getElem?_eq_some_iff.mp hc).1 fun a₁ ha₁ => ?_
        obtain rfl := Option.some.inj (ha'.symm.trans ha₁)
        exact (ht i c a hc ha).wrote hw
      · exact ht
    · exact ht
  | reset i =>
    simp only [Journal.step]
    split
    · refine ht.updated (fun c a hc ha => ?_) ‹_›
      rw [Cell.arena_reset] at ha
      obtain ⟨a₀,ha₀,rfl⟩ := Option.map_eq_some_iff.mp ha
      exact (ht i c a₀ hc ha₀).reset
    · exact ht
  | destroy i =>
    simp only [Journal.step]
    split
    · refine ht.updated (fun c a hc ha => ?_) ‹_›
      rw [Cell.arena_destroy] at ha
      contradiction
    · exact ht
  | share i =>
    intro k c a hk ha
    simp only [Journal.step,cell?,Pool.update,List.getElem?_modify] at hk
    obtain ⟨c₀,hc₀,rfl⟩ := Option.map_eq_some_iff.mp hk
    refine ht k c₀ a hc₀ ?_
    split at ha
    · rwa [Cell.arena_share] at ha
    · exact ha

theorem runFrom_traced (hs : j.Sound) (ht : j.Traced) (ops : List Operation) :
    (j.runFrom ops).Traced := by
  induction ops generalizing j with
  | nil => exact ht
  | cons op ops ih => exact ih (hs.step op) (ht.step hs op)

theorem run_traced (ops : List Operation) : (run ops).Traced := by
  refine runFrom_traced .empty ?_ ops
  intro i c a hi
  simp [cell?,empty,Pool.empty] at hi

/-- What is asked of an arena is put where there is room, the current block first, and refused only
for want of memory. A refusal at any step leaves the arena as it was. -/
theorem allocations_placed (ops : List Operation) (i : Nat) (c : Cell) (a : Arena)
    (hc : (run ops).cell? i = some c) (ha : c.arena? = some a) :
    (∀ (host : Host) (r : Request),
      IsLeast {n | wordSize ∣ n ∧ r.size ≤ n} (roundUp r.size) ∧
      (r.serve host a = none ↔ sizeLimit ≤ roundUp r.size ∨
        (∀ m ∈ a.marks, m.free < roundUp r.size) ∧
          host (max a.blockSize (roundUp r.size)) = false) ∧
      (∀ h a', r.serve host a = some (h, a') → HandsOut a r.size h a') ∧
      (∀ linked, r.carryOut host linked a = a.orElse (r.serve (fun c => host c && linked) a)) ∧
      ∀ h a₁, a.alloc host r.size = some (h, a₁) →
        ∀ data, data.length = r.size → (a₁.write h data).isSome = true) ∧
    a.stats.totalUsed = handedOut ((run ops).history i) := by
  refine ⟨fun host r => ⟨roundUp_isLeast _,serve_eq_none_iff,fun h a' => serve_handsOut,
    fun linked => carryOut_eq r,?_⟩,?_⟩
  · intro h a₁ halloc data hlen
    exact (write_isSome_of_alloc halloc data).mpr hlen
  · rw [totalUsed_eq]
    exact (run_traced ops i c a hc ha).occupied.2.1

def layered : List Operation :=
  let host : Host := fun _ => true
  [.create host 1024 1024 .exclusive,.issue host 0 (.room 1000),.issue host 0 (.room 2000),
    .issue host 0 (.room 17)]

theorem allocations_placed_layered :
    ∃ c a, (run layered).cell? 0 = some c ∧ c.arena? = some a ∧
      a.marks = [⟨1024, 1024⟩, ⟨2000, 2000⟩] ∧ a.current = 0 ∧ a.stats.totalUsed = 3024 := by
  refine ⟨_,_,rfl,rfl,by decide,by decide,?_⟩
  rw [(allocations_placed layered 0 _ _ rfl rfl).2]
  decide

end Journal
end ReasonAct.Arena
