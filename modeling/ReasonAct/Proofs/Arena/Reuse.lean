import ReasonAct.Proofs.Arena.Occupancy
/-!
What a reset keeps. The blocks stay, and whatever was handed out before is handed out again at the
same places, without any new memory.
-/
set_option autoImplicit false

namespace ReasonAct.Arena

/-- Serves one request after another, until one is refused. Each time another host may be the one
that is asked for memory. -/
def serveAll : List (Host × Request) → Arena → Option (List Handle × Arena)
  | [], a => some ([], a)
  | (host, r) :: asked, a => do
    let (h, a) ← r.serve host a
    let (hs, a) ← serveAll asked a
    pure (h :: hs, a)

def reissue (a : Arena) (h : Handle) : Handle := { h with arena := a.id, epoch := a.epoch }

def capacities (ms : List Mark) : List Nat := ms.map Mark.capacity

/-- An arena that is as another, but has the blocks already that the other gets later. -/
structure Ahead (a b : Arena) (later : List Nat) : Prop where
  marks : b.marks = a.marks ++ later.map Mark.fresh
  current : b.current = a.current
  blockSize : b.blockSize = a.blockSize

section Marks

variable {ms rest : List Mark} {m : Mark} {i n : Nat}

theorem capacities_append (ms rest : List Mark) :
    capacities (ms ++ rest) = capacities ms ++ capacities rest := List.map_append

theorem capacities_fresh (sizes : List Nat) : capacities (sizes.map Mark.fresh) = sizes := by
  rw [capacities,List.map_map]
  exact List.map_id _

theorem capacities_set (hm : ms[i]? = some m) (n : Nat) :
    capacities (ms.set i (m.take n)) = capacities ms := by
  obtain ⟨hlt,rfl⟩ := List.getElem?_eq_some_iff.mp hm
  calc capacities (ms.set i (ms[i].take n))
      = (ms.map Mark.capacity).set i ms[i].capacity := List.map_set
    _ = capacities (ms.set i ms[i]) := List.map_set.symm
    _ = capacities ms := by rw [List.set_getElem_self]

theorem fresh_of_used (h : used ms = 0) : (capacities ms).map Mark.fresh = ms := by
  rw [capacities,List.map_map]
  calc ms.map (Mark.fresh ∘ Mark.capacity)
      = ms.map fun m => m := List.map_congr_left fun m hm =>
        congrArg (Mark.mk m.capacity) (used_eq_zero h m hm).symm
    _ = ms := List.map_id' ms

end Marks

variable {a a' b : Arena} {host : Host} {r r' : Request} {h : Handle} {hs : List Handle}
  {asked again : List (Host × Request)} {later new : List Nat} {n size i : Nat}

theorem Takes.chain_eq {ms : List Mark} (ht : Takes a n i ms)
    (hnew : capacities ms = capacities a.marks ++ new) : ms = a.marks ++ new.map Mark.fresh := by
  obtain ⟨grown,rfl⟩ := ht.grown
  rw [capacities_append,capacities_fresh] at hnew
  rw [List.append_cancel_left hnew]

theorem HandsOut.capacities (hh : HandsOut a size h a') :
    ∃ new, Arena.capacities a'.marks = Arena.capacities a.marks ++ new := by
  obtain ⟨ms,m,ht,hm,-,hmarks⟩ := hh.place
  obtain ⟨new,hgrown⟩ := ht.grown
  exact ⟨new,by rw [hmarks,capacities_set hm,hgrown,capacities_append,capacities_fresh]⟩

theorem HandsOut.of_takes (hh : HandsOut a size h a') {ms : List Mark} {m : Mark}
    (ht : Takes a (roundUp size) i ms) (hm : ms[i]? = some m) :
    h = ⟨a.id, a.epoch, i, m.used, size⟩ ∧ a'.marks = ms.set i (m.take (roundUp size)) := by
  obtain ⟨ms',m',ht',hm',hoffset,hmarks⟩ := hh.place
  obtain ⟨hblock,rfl⟩ := ht'.unique ht
  rw [hblock] at hm' hmarks
  obtain rfl : m' = m := Option.some.inj (hm'.symm.trans hm)
  obtain ⟨harena,hepoch⟩ := hh.stamp
  exact ⟨by rw [← harena,← hepoch,← hblock,← hoffset,← hh.len],hmarks⟩

theorem roundUp_lt_of_serve (hr : r.serve host a = some (h, a')) : roundUp r.size < sizeLimit := by
  refine Nat.not_le.mp fun hlimit => ?_
  rw [serve_eq_none_iff.mpr (.inl hlimit)] at hr
  contradiction

theorem serve_of_takes (ht : Takes a (roundUp r.size) i a.marks)
    (hlimit : roundUp r.size < sizeLimit) (host : Host) :
    ∃ h a', r.serve host a = some (h, a') := by
  have hserved : r.serve host a ≠ none := by
    intro hnone
    rcases serve_eq_none_iff.mp hnone with hbeyond | ⟨hfull,-⟩
    · exact Nat.not_lt.mpr hbeyond hlimit
    · obtain ⟨m,hm,hroom⟩ := ht.room
      exact Nat.not_lt.mpr hroom (hfull m (List.mem_of_getElem? hm))
  obtain ⟨⟨h,a'⟩,hr⟩ := Option.ne_none_iff_exists'.mp hserved
  exact ⟨h,a',hr⟩

theorem serveAll_cons : serveAll ((host, r) :: asked) a = some (hs, a') ↔ ∃ h a₁ ks,
    r.serve host a = some (h, a₁) ∧ serveAll asked a₁ = some (ks, a') ∧ hs = h :: ks := by
  rw [serveAll]
  constructor
  · intro hp
    obtain ⟨⟨h,a₁⟩,hr,hp⟩ := Option.bind_eq_some_iff.mp hp
    obtain ⟨⟨ks,a₂⟩,hall,hp⟩ := Option.bind_eq_some_iff.mp hp
    obtain ⟨rfl,rfl⟩ := Prod.mk.inj (Option.some.inj hp)
    exact ⟨h,a₁,ks,hr,hall,rfl⟩
  · rintro ⟨h,a₁,ks,hr,hall,rfl⟩
    simp [hr,hall]

theorem serveAll_grows (hall : serveAll asked a = some (hs, a')) :
    a'.blockSize = a.blockSize ∧ ∃ new, capacities a'.marks = capacities a.marks ++ new := by
  induction asked generalizing a hs with
  | nil =>
    obtain ⟨-,rfl⟩ := Prod.mk.inj (Option.some.inj hall)
    exact ⟨rfl,[],(List.append_nil _).symm⟩
  | cons p asked ih =>
    obtain ⟨h,a₁,ks,hr,hall,-⟩ := serveAll_cons.mp hall
    have hh := serve_handsOut hr
    obtain ⟨new,hnew⟩ := hh.capacities
    obtain ⟨hsize,more,hmore⟩ := ih hall
    exact ⟨hsize.trans hh.same.2.2,new ++ more,by rw [hmore,hnew,List.append_assoc]⟩

namespace Ahead

/-- The block that one arena takes is the one that the other takes too. If the one puts it behind
the chain, then in the other it is there, and no block before it has room. -/
theorem takes {ms rest : List Mark} (ht : Takes a n i ms) (hmarks : b.marks = ms ++ rest)
    (hcurrent : b.current = a.current) (hin : a.current < a.marks.length) :
    Takes b n i b.marks := by
  have hbefore {k : Nat} (hk : k < a.marks.length) : b.marks[k]? = a.marks[k]? := by
    obtain ⟨new,rfl⟩ := ht.grown
    rw [hmarks,List.append_assoc,List.getElem?_append_left hk]
  cases ht with
  | current hm hroom =>
    rw [← hcurrent] at hm hin ⊢
    exact .current ((hbefore hin).trans hm) hroom
  | earliest hfull hm hroom hfirst =>
    have hi := (List.getElem?_eq_some_iff.mp hm).1
    refine .earliest ?_ ((hbefore hi).trans hm) hroom ?_
    · rw [hcurrent,hbefore hin]
      exact hfull
    · intro k hk
      rw [hbefore (Nat.lt_trans hk hi)]
      exact hfirst k hk
  | appended hfull =>
    have hnone (k : Nat) (hk : k < a.marks.length) (m : Mark) (hm : b.marks[k]? = some m) :
        m.free < n := hfull m (List.mem_of_getElem? ((hbefore hk).symm.trans hm))
    refine .earliest ?_ (m := .fresh (max a.blockSize n)) ?_ (Nat.le_max_right _ _) hnone
    · rw [hcurrent]
      exact hnone _ hin
    · rw [hmarks,List.append_assoc,List.getElem?_append_right (Nat.le_refl _),Nat.sub_self]
      rfl

theorem serve (hb : Ahead a b (new ++ later)) (hin : a.current < a.marks.length)
    (hr : r.serve host a = some (h, a')) (hnew : capacities a'.marks = capacities a.marks ++ new)
    (hsize : r'.size = r.size) (host' : Host) :
    ∃ b', r'.serve host' b = some (b.reissue h, b') ∧ Ahead a' b' later ∧
      b'.id = b.id ∧ b'.epoch = b.epoch := by
  have hh := serve_handsOut hr
  obtain ⟨ms,m,ht,hm,hoffset,hmarks⟩ := hh.place
  have hms : ms = a.marks ++ new.map Mark.fresh :=
    ht.chain_eq (by rw [← capacities_set hm,← hmarks,hnew])
  have hchain : b.marks = ms ++ later.map Mark.fresh := by
    rw [hb.marks,hms,List.map_append,List.append_assoc]
  have hlt := (List.getElem?_eq_some_iff.mp hm).1
  have hm' : b.marks[h.block]? = some m := by rw [hchain,List.getElem?_append_left hlt,hm]
  have ht' : Takes b (roundUp r'.size) h.block b.marks :=
    hsize ▸ takes ht hchain hb.current hin
  obtain ⟨h',b',hr'⟩ := serve_of_takes ht' (hsize ▸ roundUp_lt_of_serve hr) host'
  have hh' := serve_handsOut hr'
  obtain ⟨rfl,hmarks'⟩ := hh'.of_takes ht' hm'
  refine ⟨b',?_,⟨?_,?_,?_⟩,hh'.same.1,hh'.same.2.1⟩
  · rw [hr',hsize,← hoffset,← hh.len]
    rfl
  · rw [hmarks',hchain,List.set_append_left _ _ hlt,hmarks,hsize]
  · rw [hh'.current,hh.current]
  · rw [hh'.same.2.2,hb.blockSize,hh.same.2.2]

end Ahead

theorem Ahead.serveAll (hb : Ahead a b later) (hin : a.current < a.marks.length)
    (hall : Arena.serveAll asked a = some (hs, a'))
    (hlater : capacities a'.marks = capacities a.marks ++ later)
    (hsizes : again.map (·.2.size) = asked.map (·.2.size)) :
    ∃ b', Arena.serveAll again b = some (hs.map b.reissue, b') ∧ b'.marks = a'.marks ∧
      b'.epoch = b.epoch := by
  induction asked generalizing a b hs later again with
  | nil =>
    obtain ⟨rfl,rfl⟩ := Prod.mk.inj (Option.some.inj hall)
    obtain rfl : again = [] := List.map_eq_nil_iff.mp hsizes
    obtain rfl : later = [] := List.self_eq_append_right.mp hlater
    exact ⟨b,rfl,by simpa using hb.marks,rfl⟩
  | cons p asked ih =>
    obtain ⟨h,a₁,ks,hr,hrest,rfl⟩ := serveAll_cons.mp hall
    obtain ⟨⟨host',r'⟩,again,rfl,hsize,hsizes'⟩ := List.map_eq_cons_iff.mp hsizes
    have hh := serve_handsOut hr
    obtain ⟨new,hnew⟩ := hh.capacities
    obtain ⟨-,more,hmore⟩ := serveAll_grows hrest
    obtain rfl : later = new ++ more := by
      rw [hmore,hnew,List.append_assoc] at hlater
      exact (List.append_cancel_left hlater).symm
    obtain ⟨b₁,hr',hb₁,hid,hepoch⟩ := hb.serve hin hr hnew hsize host'
    obtain ⟨b',hall',hmarks,hepoch'⟩ := ih hb₁ hh.current_lt hrest hmore hsizes'
    have hreissue : b₁.reissue = b.reissue := by
      funext k
      rw [reissue,reissue,hid,hepoch]
    refine ⟨b',serveAll_cons.mpr ⟨_,_,_,hr',hall',?_⟩,hmarks,hepoch'.trans hepoch⟩
    rw [hreissue,List.map_cons]

theorem stats_eq (hmarks : b.marks = a.marks) : b.stats = { a.stats with epoch := b.epoch } := by
  have hcapacity (a : Arena) : a.blocks.map Block.capacity = capacities a.marks := by
    rw [capacities,marks,List.map_map]
    rfl
  have hlength : b.blocks.length = a.blocks.length := by
    rw [← length_marks,hmarks,length_marks]
  have hused := totalUsed_eq b
  rw [hmarks,← totalUsed_eq] at hused
  simp only [stats] at *
  rw [hcapacity,hcapacity,hmarks,hlength,hused]

theorem handedOut_eq_zero {es : List Change} (hnew : since es = []) : handedOut es = 0 := by
  cases es with
  | nil => rfl
  | cons e es => cases e <;> first | rfl | simp at hnew

theorem Ahead.reset (hcurrent : a.current = 0) (hused : used a.marks = 0)
    (hlater : capacities a'.marks = capacities a.marks ++ later)
    (hsize : a'.blockSize = a.blockSize) : Ahead a a'.reset later := by
  refine ⟨?_,hcurrent.symm,hsize⟩
  calc a'.reset.marks
      = (capacities a'.marks).map Mark.fresh := marks_reset a'
    _ = (capacities a.marks).map Mark.fresh ++ later.map Mark.fresh := by
        rw [hlater,List.map_append]
    _ = a.marks ++ later.map Mark.fresh := by rw [fresh_of_used hused]

namespace Journal

/-- What an arena served since it was made or reset it serves again behind the next reset, at the
same places and from the blocks it has, though there be no more memory. -/
theorem reset_reuses_blocks (ops : List Operation) (i : Nat) (c : Cell) (a a' : Arena)
    (asked again : List (Host × Request)) (hs : List Handle)
    (hc : (run ops).cell? i = some c) (ha : c.arena? = some a)
    (hnew : since ((run ops).history i) = []) (hasked : a.serveAll asked = some (hs, a'))
    (hsizes : again.map (·.2.size) = asked.map (·.2.size)) :
    ∃ a'', a'.reset.serveAll again = some (hs.map a'.reset.reissue, a'') ∧
      a''.blocks.length = a'.reset.blocks.length ∧ a''.marks = a'.marks ∧
      a''.stats = { a'.stats with epoch := a'.epoch + 1 } := by
  obtain ⟨hin,hused,hcurrent⟩ := (run_traced ops i c a hc ha).occupied
  rw [handedOut_eq_zero hnew] at hused
  obtain ⟨hsize,later,hlater⟩ := serveAll_grows hasked
  have hahead := Ahead.reset (hcurrent hnew) hused hlater hsize
  obtain ⟨a'',hall,hmarks,hepoch⟩ := hahead.serveAll hin hasked hlater hsizes
  refine ⟨a'',hall,?_,hmarks,?_⟩
  · rw [← length_marks,hmarks,length_marks,Arena.reset,List.length_map]
  · rw [stats_eq hmarks,hepoch]
    rfl

def outgrown : List Operation :=
  let host : Host := fun _ => true
  [.create host 1024 1024 .shared,.issue host 0 (.room 1000),.issue host 0 (.room 40),.reset 0]

def outgrownArena : Arena := ⟨1, [⟨1024, 0, []⟩, ⟨1024, 0, []⟩], 0, 1024, 1⟩

def backAndForth (host : Host) : List (Host × Request) :=
  [(host, .room 1024),(host, .room 2000),(host, .room 9)]

theorem reset_reuses_blocks_outgrown :
    (run outgrown).cell? 0 = some (.shared ⟨1, some outgrownArena⟩) ∧
      since ((run outgrown).history 0) = [] ∧ ∃ hs a',
        outgrownArena.serveAll (backAndForth fun _ => true) = some (hs, a') ∧
        a'.blocks.length = 3 ∧ ∃ a'',
          a'.reset.serveAll (backAndForth fun _ => false) = some (hs.map a'.reset.reissue, a'') ∧
          a''.blocks.length = 3 ∧ a''.stats = { a'.stats with epoch := 2 } := by
  refine ⟨rfl,rfl,_,_,rfl,rfl,?_⟩
  obtain ⟨a'',hall,hlength,-,hstats⟩ := reset_reuses_blocks outgrown 0 _ outgrownArena _
    (backAndForth fun _ => true) (backAndForth fun _ => false) _ rfl rfl rfl rfl rfl
  exact ⟨a'',hall,hlength,hstats⟩

end Journal
end ReasonAct.Arena
