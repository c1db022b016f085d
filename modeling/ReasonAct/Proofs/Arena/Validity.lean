import ReasonAct.Proofs.Arena.Journal
import ReasonAct.Proofs.Text.Utf8
set_option autoImplicit false

namespace ReasonAct

namespace SharedArena

open Arena (Request Cell)

/-- Every access is refused, and there is nothing left to take back. -/
structure Dead (s : SharedArena) : Prop where
  issue : ∀ host (r : Request), s.issue (r.serve host) = none
  read : ∀ h, s.read h = none
  readText : ∀ h, s.readText h = none
  write : ∀ h data, s.write h data = none
  contains : ∀ h, (Cell.shared s).contains h = false
  stats : s.stats = .zero
  reset : s.reset = s
  destroy : s.destroy = s

theorem dead_of_destroyed {s : SharedArena} (h : s.isDestroyed = true) : Dead s := by
  obtain ⟨id,inner⟩ := s
  obtain rfl : inner = none := Option.isNone_iff_eq_none.mp h
  exact ⟨fun _ _ => rfl,fun _ => rfl,fun _ => rfl,fun _ _ => rfl,fun _ => rfl,rfl,rfl,rfl⟩

end SharedArena

namespace Arena

/-- A handle can be used in an arena in every way or in none. -/
structure Cell.ResolvesIff (c : Cell) (r : Request) (h : Handle) (p : Prop) : Prop where
  contains : c.contains h = true ↔ p
  read : (c.read h).isSome = true ↔ p
  write : ∀ data, data.length = h.len → ((c.write h data).isSome = true ↔ p)
  text : r.isText = true → ((c.readText h).isSome = true ↔ p)

namespace Cell

variable {c : Cell} {r : Request} {h : Handle} {p : Prop}

theorem read_of_not_contains (hc : c.contains h = false) : c.read h = none := by
  rw [contains_eq] at hc
  rw [read_eq]
  cases ha : c.arena? with
  | none => rfl
  | some a =>
    simp only [ha,Option.any_some] at hc
    simp [Arena.read,hc]

theorem write_of_not_contains (hc : c.contains h = false) (data : List UInt8) :
    c.write h data = none := by
  have hw := c.write_isSome_iff h data
  rw [read_of_not_contains hc] at hw
  exact Option.not_isSome_iff_eq_none.mp fun hsome => Bool.noConfusion (hw.mp hsome).1

theorem resolvesIff_of_not (hc : c.contains h = false) (hp : ¬ p) : c.ResolvesIff r h p := by
  have hread := read_of_not_contains hc
  have htext : c.readText h = none := by
    have hbind : c.readText h = (c.read h).bind Text.Utf8.decode? := by
      rw [readText_eq,read_eq]
      cases c.arena? <;> rfl
    rw [hbind,hread]
    rfl
  refine ⟨?_,?_,?_,?_⟩
  · simp [hc,hp]
  · simp [hread,hp]
  · simp [write_of_not_contains hc,hp]
  · simp [htext,hp]

variable {es : List Change} {found : List UInt8}

theorem resolvesIff_of_live {a : Arena} (ha : c.arena? = some a) (hs : a.Holds es)
    (hm : .issued r h found ∈ since es) (hp : p) : c.ResolvesIff r h p := by
  have hplaced := hs.placed h (mem_handles.mpr ⟨r,found,hm⟩)
  have hread : c.read h = some (a.bytesOf h) := by
    rw [read_eq,ha]
    exact hplaced.read_eq
  refine ⟨?_,?_,?_,?_⟩
  · simp [contains_eq,ha,hplaced.contains_eq,hp]
  · simp [hread,hp]
  · intro data hd
    simp [write_isSome_iff,hread,hd,hp]
  · intro htext
    cases r with
    | text s =>
      have hbytes : a.read h = some (Text.Utf8.encode s) := by
        rw [hplaced.read_eq,hs.texts s h found hm]
      simp [readText_eq,ha,Arena.readText,hbytes,hp]
    | _ => contradiction

end Cell

namespace Journal

theorem Sound.resolvesIff {j : Journal} (hs : j.Sound) {i k : Nat} {r : Request} {h : Handle}
    {found : List UInt8} {before after : List (Nat × Change)} {c : Cell}
    (heq : j.log = after ++ (i, .issued r h found) :: before) (hc : j.cell? k = some c) :
    c.ResolvesIff r h (k = i ∧ (i, .reset) ∉ after ∧ (i, .destroyed) ∉ after) := by
  have hhistory : j.history i = historyIn i after ++ .issued r h found :: historyIn i before := by
    rw [history,heq,historyIn_append,historyIn_same]
  have hm : (i, .issued r h found) ∈ j.log := by simp [heq]
  obtain ⟨c₀,hc₀,hrecord⟩ := hs.recorded hm
  have hissue := hrecord.issues r h found _ _ hhistory
  have ht := hs.tells k c hc
  by_cases hk : k = i
  · subst hk
    obtain rfl := Option.some.inj (hc₀.symm.trans hc)
    have hdestroyed : .destroyed ∈ j.history k ↔ (k, .destroyed) ∈ after := by
      simp [hhistory,hissue.intact,mem_historyIn]
    cases ht with
    | gone ha _ hd =>
      refine Cell.resolvesIff_of_not ?_ fun hp => hp.2.2 (hdestroyed.mp hd)
      simp [Cell.contains_eq,ha]
    | there a ha hid hold =>
      have hstamp : h.epoch = a.epoch ↔ (k, .reset) ∉ after := by
        rw [hold.epoch,hrecord.epoch_eq_iff hhistory,mem_historyIn]
      by_cases hepoch : h.epoch = a.epoch
      · have hlive := hrecord.mem_since hold.intact (mem_historyIn.mpr hm)
          (hepoch.trans hold.epoch)
        refine Cell.resolvesIff_of_live ha hold hlive ⟨rfl,hstamp.mp hepoch,?_⟩
        exact fun hd => hold.intact (hdestroyed.mpr hd)
      · refine Cell.resolvesIff_of_not ?_ fun hp => hepoch (hstamp.mpr hp.2.1)
        simp [Cell.contains_eq,ha,Arena.contains,hepoch]
  · refine Cell.resolvesIff_of_not ?_ fun hp => hk hp.1
    cases ht with
    | gone ha => simp [Cell.contains_eq,ha]
    | there a ha hid _ =>
      have hne : h.arena ≠ a.id := by
        rw [hissue.arena,hid]
        omega
      simp [Cell.contains_eq,ha,Arena.contains,hne]

section Destroyed

variable {j : Journal} {i : Nat} {s : SharedArena}

theorem cells_update {f : Cell → Cell} {c : Cell} (hf : f c = c) (hc : j.cell? i = some c)
    (k : Nat) : (j.pool.update f k).cells[i]? = some c := by
  have hc' : j.pool.cells[i]? = some c := hc
  simp only [Pool.update,List.getElem?_modify,hc',Option.map_eq_map,Option.map_some]
  split <;> simp [hf]

theorem cell_step_destroyed (hd : s.isDestroyed = true) (hc : j.cell? i = some (.shared s))
    (op : Operation) : (j.step op).cell? i = some (.shared s) := by
  have hdead := SharedArena.dead_of_destroyed hd
  have hlt : i < j.pool.cells.length := (List.getElem?_eq_some_iff.mp hc).1
  cases op with
  | create host capacity blockSize sharing =>
    simp only [step]
    split
    · rename_i hcreate
      obtain ⟨a,-,rfl⟩ := Option.map_eq_some_iff.mp hcreate
      exact (List.getElem?_append_left hlt).trans hc
    · exact hc
  | issue host k r =>
    simp only [step]
    split
    · rename_i hissue
      obtain ⟨c,hk,hissue⟩ := Option.bind_eq_some_iff.mp hissue
      obtain ⟨⟨h,c'⟩,hcell,hissue⟩ := Option.bind_eq_some_iff.mp hissue
      obtain ⟨rfl,rfl⟩ := Prod.mk.inj (Option.some.inj hissue)
      have hne : k ≠ i := by
        intro heq
        obtain rfl := Option.some.inj ((heq ▸ hk).symm.trans hc)
        simp [Cell.issue,hdead.issue] at hcell
      exact (List.getElem?_set_ne hne).trans hc
    · exact hc
  | write k h data =>
    simp only [step]
    split
    · split
      · rename_i hwrite
        obtain ⟨c,hk,hwrite⟩ := Option.bind_eq_some_iff.mp hwrite
        obtain ⟨c',hcell,hwrite⟩ := Option.bind_eq_some_iff.mp hwrite
        obtain rfl := Option.some.inj hwrite
        have hne : k ≠ i := by
          intro heq
          obtain rfl := Option.some.inj ((heq ▸ hk).symm.trans hc)
          simp [Cell.write,hdead.write] at hcell
        exact (List.getElem?_set_ne hne).trans hc
      · exact hc
    · exact hc
  | reset k =>
    simp only [step]
    split
    · exact cells_update (congrArg Cell.shared hdead.reset) hc k
    · exact hc
  | destroy k =>
    simp only [step]
    split
    · exact cells_update (congrArg Cell.shared hdead.destroy) hc k
    · exact hc
  | share k => exact cells_update rfl hc k

theorem cell_runFrom_destroyed (hd : s.isDestroyed = true) (hc : j.cell? i = some (.shared s))
    (ops : List Operation) : (j.runFrom ops).cell? i = some (.shared s) := by
  induction ops generalizing j with
  | nil => exact hc
  | cons op ops ih => exact ih (cell_step_destroyed hd hc op)

end Destroyed

/-- A handle is good exactly in the arena that issued it, until that is reset or destroyed. What
is over is over for good. -/
theorem handles_good_while_valid (ops : List Operation) :
    (∀ i r h found before after, (run ops).log = after ++ (i, .issued r h found) :: before →
      ∀ k c, (run ops).cell? k = some c →
        c.ResolvesIff r h (k = i ∧ (i, .reset) ∉ after ∧ (i, .destroyed) ∉ after)) ∧
    (∀ i r h found, (i, .issued r h found) ∈ (run ops).log →
      (∀ k c, (run ops).cell? k = some c → c.contains h = false) →
      ∀ more k c, (run (ops ++ more)).cell? k = some c → c.ResolvesIff r h False) ∧
    ∀ i s, (run ops).cell? i = some (.shared s) → s.isDestroyed = true →
      s.Dead ∧ ∀ more, (run (ops ++ more)).cell? i = some (.shared s) := by
  have hs := Sound.run ops
  refine ⟨?_,?_,?_⟩
  · intro i r h found before after heq k c hc
    exact hs.resolvesIff heq hc
  · intro i r h found hm hover more k c hc
    obtain ⟨after,before,heq⟩ := List.append_of_mem hm
    obtain ⟨new,hnew⟩ := log_runFrom (run ops) more
    have hended : ¬ ((i, .reset) ∉ after ∧ (i, .destroyed) ∉ after) := by
      intro hgood
      obtain ⟨c₀,hc₀,-⟩ := hs.recorded hm
      have hcontains := (hs.resolvesIff heq hc₀).contains.mpr ⟨rfl,hgood⟩
      rw [hover i c₀ hc₀] at hcontains
      contradiction
    have hlog : (run (ops ++ more)).log = (new ++ after) ++ (i, .issued r h found) :: before := by
      rw [run_append,hnew,heq,List.append_assoc]
    have hlater := (Sound.run (ops ++ more)).resolvesIff hlog hc
    have hp : (k = i ∧ (i, Change.reset) ∉ new ++ after ∧ (i, Change.destroyed) ∉ new ++ after) ↔
        False := by
      refine iff_false_intro fun hp => hended ⟨?_,?_⟩
      · exact fun hx => hp.2.1 (List.mem_append_right new hx)
      · exact fun hx => hp.2.2 (List.mem_append_right new hx)
    rwa [propext hp] at hlater
  · intro i s hc hd
    refine ⟨SharedArena.dead_of_destroyed hd,?_⟩
    intro more
    rw [run_append]
    exact cell_runFrom_destroyed hd hc more

def outlived : List Operation :=
  [.create (fun _ => true) 0 0 .exclusive, .create (fun _ => true) 0 0 .shared,
    .issue (fun _ => true) 0 (.room 3), .issue (fun _ => true) 1 (.room 3), .share 0, .reset 0,
    .issue (fun _ => true) 0 (.room 3), .destroy 1]

theorem handles_good_while_valid_outlived : ∃ c s, (run outlived).cell? 0 = some c ∧
    (run outlived).cell? 1 = some (.shared s) ∧
    c.contains ⟨1, 1, 0, 0, 3⟩ = true ∧ c.contains ⟨1, 0, 0, 0, 3⟩ = false ∧ s.Dead ∧
    ∀ more k c, (run (outlived ++ more)).cell? k = some c →
      c.ResolvesIff (.room 3) ⟨1, 0, 0, 0, 3⟩ False := by
  obtain ⟨hnow,hlater,hdead⟩ := handles_good_while_valid outlived
  have hfresh := hnow 0 (.room 3) ⟨1, 1, 0, 0, 3⟩ [0, 0, 0] _ [(1, .destroyed)] rfl 0 _ rfl
  have hstale := hnow 0 (.room 3) ⟨1, 0, 0, 0, 3⟩ [0, 0, 0] _ [(1, .destroyed),
    (0, .issued (.room 3) ⟨1, 1, 0, 0, 3⟩ [0, 0, 0]), (0, .reset),
    (1, .issued (.room 3) ⟨2, 0, 0, 0, 3⟩ [0, 0, 0])] rfl
  have hover (k : Nat) (c : Cell) (hc : (run outlived).cell? k = some c) :
      c.contains ⟨1, 0, 0, 0, 3⟩ = false := by
    refine Bool.eq_false_iff.mpr fun htrue => ?_
    exact ((hstale k c hc).contains.mp htrue).2.1 (by decide)
  refine ⟨_,_,rfl,rfl,hfresh.contains.mpr (by decide),hover 0 _ rfl,(hdead 1 _ rfl rfl).1,?_⟩
  exact hlater 0 (.room 3) ⟨1, 0, 0, 0, 3⟩ [0, 0, 0] (by decide) hover

end Journal
end Arena
end ReasonAct
