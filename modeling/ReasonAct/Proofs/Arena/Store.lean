import ReasonAct.Proofs.Arena.Journal
import ReasonAct.Proofs.Text.Utf8
set_option autoImplicit false

namespace ReasonAct.Arena.Journal

/-- Whatever is asked for, and whatever memory is refused, no two pieces meet. -/
theorem allocations_disjoint (ops : List Operation) (i : Nat) :
    (handles ((run ops).history i)).Pairwise (fun h k => 0 < h.len → h ≠ k) ∧
    (∀ r h found, .issued r h found ∈ (run ops).history i → h.len = r.size) ∧
    ∀ c a, (run ops).cell? i = some c → c.arena? = some a →
      a.current < a.blocks.length ∧
      (∀ b ∈ a.blocks, b.used ≤ b.capacity ∧ wordSize ∣ b.used) ∧
      (live ((run ops).history i)).Pairwise Handle.Apart ∧
      ∀ h ∈ live ((run ops).history i), alignUp h.len = some (roundUp h.len) ∧
        wordSize ∣ h.offset ∧ ∃ b, a.blocks[h.block]? = some b ∧ h.stop ≤ b.used := by
  have hs := Sound.run ops
  obtain ⟨id,hrecord⟩ := hs.history_recorded i
  refine ⟨hrecord.distinct,?_,?_⟩
  · intro r h found hm
    obtain ⟨after,before,heq⟩ := List.append_of_mem hm
    exact (hrecord.issues r h found before after heq).size
  · intro c a hc ha
    have hold := ((hs.tells i c hc).holds ha).2
    refine ⟨hold.current,?_,hold.apart,?_⟩
    · intro b hb
      obtain ⟨k,hk⟩ := List.mem_iff_getElem?.mp hb
      have hsound := hold.sound k b hk
      exact ⟨hsound.within,hsound.words⟩
    · intro h hh
      have hp := hold.placed h hh
      exact ⟨hp.size,hp.word,hp.within⟩

def twoBlocks : List Operation :=
  [.create (fun _ => true) 0 0 .exclusive, .issue (fun _ => true) 0 (.room 3),
    .issue (fun _ => true) 0 (.bytes [1, 2]), .share 0, .reset 0,
    .issue (fun _ => true) 0 (.room 1000), .issue (fun _ => true) 0 (.room 100)]

theorem allocations_disjoint_twoBlocks : ∃ c a, (run twoBlocks).cell? 0 = some c ∧
    c.arena? = some a ∧ a.current = 1 ∧ a.current < a.blocks.length ∧
    live ((run twoBlocks).history 0) = [⟨1, 1, 1, 0, 100⟩, ⟨1, 1, 0, 0, 1000⟩] ∧
    (live ((run twoBlocks).history 0)).Pairwise Handle.Apart := by
  have h := (allocations_disjoint twoBlocks 0).2.2 _ _ rfl rfl
  exact ⟨_,_,rfl,rfl,rfl,h.1,rfl,h.2.2.1⟩

/-- A piece is found as it was asked for, and holds what was last written through its handle. What
is refused changes nothing. -/
theorem pieces_hold_contents (ops : List Operation) :
    (∀ i c, (run ops).cell? i = some c →
      (∀ r h found before after, (run ops).history i = after ++ .issued r h found :: before →
        r.Fills (.reset ∉ before) found) ∧
      (∀ h ∈ live ((run ops).history i), ∃ bytes,
        contents h ((run ops).history i) = some bytes ∧ c.read h = some bytes) ∧
      (∀ s h found, .issued (.text s) h found ∈ since ((run ops).history i) →
        c.readText h = some s) ∧
      ∀ h data, (c.write h data).isSome = true ↔
        (c.read h).isSome = true ∧ data.length = h.len) ∧
    (∀ i h data, (run ops).pool.write i h data = none →
      run (ops ++ [.write i h data]) = run ops) ∧
    ∀ host i r, (run ops).pool.issue (r.serve host) i = none →
      run (ops ++ [.issue host i r]) = run ops := by
  have hs := Sound.run ops
  refine ⟨?_,?_,?_⟩
  · intro i c hc
    have ht := hs.tells i c hc
    have hread (h : Handle) (hh : h ∈ live ((run ops).history i)) : ∃ a, c.arena? = some a ∧
        a.Holds ((run ops).history i) ∧ c.read h = some (a.bytesOf h) := by
      cases ht with
      | there a ha _ hold =>
        refine ⟨a,ha,hold,?_⟩
        rw [Cell.read_eq,ha]
        exact (hold.placed h hh).read_eq
      | gone _ _ _ hnil => simp [live,hnil] at hh
    refine ⟨?_,?_,?_,fun h data => c.write_isSome_iff h data⟩
    · intro r h found before after heq
      exact (ht.recorded.issues r h found before after heq).filled
    · intro h hh
      obtain ⟨a,-,hold,hbytes⟩ := hread h hh
      exact ⟨a.bytesOf h,hold.told h hh,hbytes⟩
    · intro s h found hm
      obtain ⟨a,ha,hold,hbytes⟩ := hread h (Holds.live_of_text hm)
      rw [Cell.read_eq,ha] at hbytes
      rw [Cell.readText_eq,ha]
      have htext : a.read h = some (Text.Utf8.encode s) := hold.texts s h found hm ▸ hbytes
      simp [Arena.readText,htext]
  · intro i h data hw
    rw [run_append]
    simp [runFrom,step,hw]
  · intro host i r hi
    rw [run_append]
    simp [runFrom,step,hi]

def overwritten : List Operation :=
  [.create (fun _ => true) 0 0 .exclusive, .issue (fun _ => true) 0 (.bytes [1, 2]),
    .issue (fun _ => true) 0 (.text "né"), .write 0 ⟨1, 0, 0, 0, 2⟩ [7, 8],
    .issue (fun _ => true) 0 (.room 2000)]

theorem pieces_hold_contents_overwritten : ∃ c, (run overwritten).cell? 0 = some c ∧
    contents ⟨1, 0, 0, 0, 2⟩ ((run overwritten).history 0) = some [7, 8] ∧
    c.read ⟨1, 0, 0, 0, 2⟩ = some [7, 8] ∧ c.readText ⟨1, 0, 0, 8, 3⟩ = some "né" ∧
    run (overwritten ++ [.write 0 ⟨1, 0, 0, 0, 2⟩ [9]]) = run overwritten := by
  have hlive : ⟨1, 0, 0, 0, 2⟩ ∈ live ((run overwritten).history 0) := by decide +kernel
  have htext : .issued (.text "né") ⟨1, 0, 0, 8, 3⟩ [110, 195, 169] ∈
      since ((run overwritten).history 0) := by decide +kernel
  have hcontents : contents ⟨1, 0, 0, 0, 2⟩ ((run overwritten).history 0) = some [7, 8] := by
    decide +kernel
  have hrefused : ((run overwritten).pool.write 0 ⟨1, 0, 0, 0, 2⟩ [9]).isNone = true := by
    decide +kernel
  obtain ⟨c,hc⟩ : ∃ c, (run overwritten).cell? 0 = some c :=
    Option.isSome_iff_exists.mp (by decide +kernel)
  obtain ⟨hcells,hwrite,-⟩ := pieces_hold_contents overwritten
  obtain ⟨-,hbytes,hread,-⟩ := hcells 0 c hc
  obtain ⟨bytes,hb,hbytes⟩ := hbytes _ hlive
  obtain rfl := Option.some.inj (hb.symm.trans hcontents)
  exact ⟨c,hc,hcontents,hbytes,hread _ _ _ htext,hwrite _ _ _ (Option.isNone_iff_eq_none.mp hrefused)⟩

end ReasonAct.Arena.Journal
