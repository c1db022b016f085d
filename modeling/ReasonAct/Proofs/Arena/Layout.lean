import Mathlib.Data.List.Pairwise
import ReasonAct.Proofs.Arena.History
set_option autoImplicit false

namespace ReasonAct

namespace Arena

variable {a a' : Arena} {es : List Change} {h k : Handle}

def bytesOf (a : Arena) (h : Handle) : List UInt8 :=
  (a.blocks[h.block]?.map fun b => b.stretch h.offset h.len).getD []

/-- The handle is of this arena and epoch, and its range was handed out. -/
structure Placed (a : Arena) (h : Handle) : Prop where
  arena : h.arena = a.id
  epoch : h.epoch = a.epoch
  size : alignUp h.len = some (roundUp h.len)
  word : wordSize ∣ h.offset
  within : ∃ b, a.blocks[h.block]? = some b ∧ h.stop ≤ b.used

theorem length_bytesOf {b : Block} (hb : a.blocks[h.block]? = some b) :
    (a.bytesOf h).length = h.len := by simp [bytesOf,hb,Block.stretch]

theorem contains_iff : a.contains h = true ↔
    (h.arena = a.id ∧ h.epoch = a.epoch) ∧ h.block < a.blocks.length := by simp [contains]

theorem write_isSome_iff {data : List UInt8} : (a.write h data).isSome = true ↔
    (a.read h).isSome = true ∧ data.length = h.len := by
  unfold Arena.write Arena.read
  by_cases hc : a.contains h = true
  · by_cases hd : data.length = h.len
    · cases hb : a.blocks[h.block]? with
      | none => simp
      | some b => by_cases hle : h.offset + h.len ≤ b.used <;> simp [hc,hd,Block.write,Block.read,hle]
    · simp [hd]
  · simp [hc]

theorem len_le_stop (h : Handle) : h.offset + h.len ≤ h.stop :=
  Nat.add_le_add_left (le_roundUp h.len) h.offset

namespace Placed

theorem contains_eq (hp : Placed a h) : a.contains h = true := by
  obtain ⟨b,hb,-⟩ := hp.within
  exact contains_iff.mpr ⟨⟨hp.arena,hp.epoch⟩,(List.getElem?_eq_some_iff.mp hb).1⟩

theorem read_eq (hp : Placed a h) : a.read h = some (a.bytesOf h) := by
  obtain ⟨b,hb,hle⟩ := hp.within
  have hlen := len_le_stop h
  have hread : b.read h.offset h.len = some (b.stretch h.offset h.len) :=
    Block.read_eq_some_iff.mpr ⟨by omega,rfl⟩
  simp [Arena.read,hp.contains_eq,bytesOf,hb,hread]

theorem of_blocks (hp : Placed a h) (hid : a'.id = a.id) (hepoch : a'.epoch = a.epoch)
    (hb : ∀ b, a.blocks[h.block]? = some b →
      ∃ b', a'.blocks[h.block]? = some b' ∧ b.used ≤ b'.used) : Placed a' h := by
  obtain ⟨b,hat,hle⟩ := hp.within
  obtain ⟨b',hat',hused⟩ := hb b hat
  exact ⟨hp.arena.trans hid.symm,hp.epoch.trans hepoch.symm,hp.size,hp.word,b',hat',by omega⟩

end Placed

/-- The arena is as its history says. -/
structure Holds (a : Arena) (es : List Change) : Prop where
  current : a.current < a.blocks.length
  sound : ∀ (i : Nat) (b : Block), a.blocks[i]? = some b → b.Sound
  epoch : a.epoch = es.count .reset
  intact : .destroyed ∉ es
  /-- Only what was handed out is ever written, up to the first reset. -/
  unused : .reset ∉ es → ∀ (i : Nat) (b : Block), a.blocks[i]? = some b →
    b.written.length ≤ b.used
  recorded : Recorded a.id es
  placed : ∀ h ∈ live es, Placed a h
  apart : (live es).Pairwise Handle.Apart
  told : ∀ h ∈ live es, contents h es = some (a.bytesOf h)
  texts : ∀ s h found, .issued (.text s) h found ∈ since es → a.bytesOf h = Text.Utf8.encode s

namespace Holds

theorem live_of_epoch (hs : Holds a es) (hh : h ∈ handles es) (he : h.epoch = a.epoch) :
    h ∈ live es := by
  obtain ⟨r,found,hr⟩ := mem_handles.mp hh
  exact mem_handles.mpr ⟨r,found,hs.recorded.mem_since hs.intact hr (he.trans hs.epoch)⟩

theorem live_of_text {s : String} {found : List UInt8}
    (hm : .issued (.text s) h found ∈ since es) : h ∈ live es := mem_handles.mpr ⟨_,_,hm⟩

theorem create {host : Host} {id capacity blockSize : Nat}
    (hc : Arena.create host id capacity blockSize = some a) : a.id = id ∧ Holds a [] := by
  unfold Arena.create at hc
  dsimp only at hc
  split at hc
  · obtain rfl := Option.some.inj hc
    refine ⟨rfl,⟨by simp,?_,by simp,by simp,?_,.nil _,by simp,by simp,by simp,by simp⟩⟩
    · intro i b hb
      have hm := List.mem_of_getElem? hb
      rw [List.mem_singleton.mp hm]
      exact Block.fresh_sound _
    · intro _ i b hb
      have hm := List.mem_of_getElem? hb
      rw [List.mem_singleton.mp hm]
      exact Nat.zero_le _
  · contradiction

theorem grow (hs : Holds a es) {grown : List Block} (hg : ∀ b ∈ grown, ∃ c, b = .fresh c) :
    Holds { a with blocks := a.blocks ++ grown } es := by
  have hcases (i : Nat) (b : Block) (hb : (a.blocks ++ grown)[i]? = some b) :
      a.blocks[i]? = some b ∨ ∃ c, b = .fresh c := by
    rw [List.getElem?_append] at hb
    split at hb
    · exact .inl hb
    · exact .inr (hg b (List.mem_of_getElem? hb))
  have hkept (i : Nat) (b : Block) (hb : a.blocks[i]? = some b) :
      (a.blocks ++ grown)[i]? = some b := by
    rw [List.getElem?_append_left (List.getElem?_eq_some_iff.mp hb).1,hb]
  have hbytes (h : Handle) (hl : h ∈ live es) :
      Arena.bytesOf { a with blocks := a.blocks ++ grown } h = a.bytesOf h := by
    obtain ⟨b,hb,-⟩ := (hs.placed h hl).within
    simp only [bytesOf,hb,hkept _ b hb]
  refine
    { current := ?_
      sound := ?_
      epoch := hs.epoch
      intact := hs.intact
      unused := ?_
      recorded := hs.recorded
      placed := ?_
      apart := hs.apart
      told := ?_
      texts := ?_ }
  · have hc := hs.current
    simp only [List.length_append]
    omega
  · intro i b hb
    rcases hcases i b hb with h | ⟨c,rfl⟩
    · exact hs.sound i b h
    · exact Block.fresh_sound c
  · intro hr i b hb
    rcases hcases i b hb with h | ⟨c,rfl⟩
    · exact hs.unused hr i b h
    · exact Nat.le_refl 0
  · intro h hl
    exact (hs.placed h hl).of_blocks rfl rfl fun b hb => ⟨b,hkept _ b hb,Nat.le_refl _⟩
  · intro h hl
    rw [hbytes h hl]
    exact hs.told h hl
  · intro s h found hm
    rw [hbytes h (live_of_text hm)]
    exact hs.texts s h found hm

section Take

variable {size i : Nat} {b : Block}

theorem stop_le_used (hs : Holds a es) (hb : a.blocks[i]? = some b) (hk : k ∈ live es)
    (hi : k.block = i) : k.stop ≤ b.used := by
  obtain ⟨b',hb',hle⟩ := (hs.placed k hk).within
  rw [hi,hb] at hb'
  obtain rfl := Option.some.inj hb'
  exact hle

section Taken

variable
  (ha : a' = { a with blocks := a.blocks.modify i (·.take (roundUp size)), current := i })

include ha

theorem getElem?_taken (j : Nat) : a'.blocks[j]? =
    a.blocks[j]?.map fun b => if i = j then b.take (roundUp size) else b := by
  rw [ha,List.getElem?_modify]
  rfl

theorem bytesOf_taken (k : Handle) : a'.bytesOf k = a.bytesOf k := by
  simp only [bytesOf,getElem?_taken ha]
  cases a.blocks[k.block]? with
  | none => rfl
  | some b' =>
    simp only [Option.map_some]
    split <;> rfl

theorem placed_taken (hk : Placed a k) : Placed a' k := by
  refine hk.of_blocks (by rw [ha]) (by rw [ha]) ?_
  intro b' hb'
  refine ⟨_,by rw [getElem?_taken ha,hb',Option.map_some],?_⟩
  split
  · exact Nat.le_add_right _ _
  · exact Nat.le_refl _

theorem recorded_taken (hs : Holds a es) (hb : a.blocks[i]? = some b)
    (hh : h = ⟨a.id, a.epoch, i, b.used, size⟩) :
    Recorded a.id (.issued (.room size) h (a'.bytesOf h) :: es) := by
  have hblock : a.blocks[h.block]? = some b := by rw [hh,hb]
  have hstamp : h.arena = a.id ∧ h.epoch = a.epoch := by simp [hh]
  have hlen : h.len = size := by rw [hh]
  have hfill : (Request.room size).Fills (.reset ∉ es) (a'.bytesOf h) := by
    rw [bytesOf_taken ha]
    refine ⟨by rw [length_bytesOf hblock,hlen],?_⟩
    intro hreset
    have hstart : h.offset = b.used := by rw [hh]
    have hu : b.written.length ≤ h.offset := by simpa [hstart] using hs.unused hreset i b hb
    rw [← hlen]
    simp only [bytesOf,hblock,Option.map_some,Option.getD_some]
    exact Block.stretch_unwritten hu h.len
  refine hs.recorded.issued ⟨hstamp.1,hstamp.2.trans hs.epoch,hlen,hfill,hs.intact⟩ ?_
  intro k hk hpos heq
  have hkl := hs.live_of_epoch hk (by rw [← heq,hstamp.2])
  have hle := hs.stop_le_used hb hkl (by rw [← heq,hh])
  have hstop := len_le_stop k
  have hstart : k.offset = b.used := by rw [← heq,hh]
  rw [heq] at hpos
  omega

end Taken

theorem take (hs : Holds a es) (hb : a.blocks[i]? = some b) (hr : roundUp size ≤ b.room)
    (hsize : alignUp size = some (roundUp size)) (hh : h = ⟨a.id, a.epoch, i, b.used, size⟩)
    (ha : a' = { a with blocks := a.blocks.modify i (·.take (roundUp size)), current := i }) :
    Holds a' (.issued (.room size) h (a'.bytesOf h) :: es) := by
  have hsound := hs.sound i b hb
  have hget := getElem?_taken ha
  refine
    { current := ?current
      sound := ?sound
      epoch := ?epoch
      intact := ?intact
      unused := ?unused
      recorded := ?recorded
      placed := ?placed
      apart := ?apart
      told := ?told
      texts := ?texts }
  case current => simpa [ha] using (List.getElem?_eq_some_iff.mp hb).1
  case sound =>
    intro j b' hb'
    obtain ⟨b₀,hb₀,rfl⟩ := Option.map_eq_some_iff.mp ((hget j).symm.trans hb')
    split
    · rename_i hij
      subst hij
      rw [hb] at hb₀
      obtain rfl := Option.some.inj hb₀
      exact Block.take_sound hsound hr
    · exact hs.sound j b₀ hb₀
  case epoch => simpa [ha] using hs.epoch
  case intact => simpa using hs.intact
  case unused =>
    intro hreset j b' hb'
    have hreset' : Change.reset ∉ es := fun hx => hreset (List.mem_cons_of_mem _ hx)
    obtain ⟨b₀,hb₀,rfl⟩ := Option.map_eq_some_iff.mp ((hget j).symm.trans hb')
    have hu := hs.unused hreset' j b₀ hb₀
    split
    · exact Nat.le_trans hu (Nat.le_add_right _ _)
    · exact hu
  case recorded =>
    have hid : a'.id = a.id := by rw [ha]
    rw [hid]
    exact recorded_taken ha hs hb hh
  case placed =>
    intro k hk
    rcases List.mem_cons.mp hk with rfl | hk
    · have hat : a'.blocks[k.block]? = some (b.take (roundUp size)) := by simp [hget,hh,hb]
      have hstop : k.stop = b.used + roundUp size := by rw [hh,Handle.stop]
      exact ⟨by simp [hh,ha],by simp [hh,ha],by simpa [hh] using hsize,
        by simpa [hh] using hsound.words,_,hat,Nat.le_of_eq hstop⟩
    · exact placed_taken ha (hs.placed k hk)
  case apart =>
    refine List.pairwise_cons.mpr ⟨?_,hs.apart⟩
    intro k hk heq
    have hle := hs.stop_le_used hb hk (by rw [← heq,hh])
    exact .inr (by simpa [hh] using hle)
  case told =>
    intro k hk
    simp only [contents]
    split
    · rename_i heq
      rw [heq]
    · rename_i hne
      rcases List.mem_cons.mp hk with rfl | hk
      · exact absurd rfl hne
      · rw [bytesOf_taken ha]
        exact hs.told k hk
  case texts =>
    intro s k found hm
    rcases List.mem_cons.mp hm with heq | hm
    · cases heq
    · rw [bytesOf_taken ha]
      exact hs.texts s k found hm

end Take

theorem write_eq_some {data : List UInt8} (hw : a.write h data = some a') :
    a.contains h = true ∧ data.length = h.len ∧ ∃ b, a.blocks[h.block]? = some b ∧
      h.offset + data.length ≤ b.used ∧ a' = { a with
        blocks := a.blocks.set h.block
          { b with written := Block.splice b.written h.offset data } } := by
  unfold Arena.write at hw
  split at hw
  · rename_i hc
    obtain ⟨b',hb',rfl⟩ := Option.map_eq_some_iff.mp hw
    obtain ⟨b,hb,hwb⟩ := Option.bind_eq_some_iff.mp hb'
    obtain ⟨hle,rfl⟩ := Block.write_eq_some hwb
    exact ⟨hc.1,hc.2,b,hb,hle,rfl⟩
  · contradiction

section Write

variable {data : List UInt8}

section Written

variable {b : Block} (hb : a.blocks[h.block]? = some b) (hlen : data.length = h.len)
  (ha : a' = { a with
    blocks := a.blocks.set h.block { b with written := Block.splice b.written h.offset data } })

include hb ha

theorem getElem?_written (j : Nat) : a'.blocks[j]? =
    if h.block = j then some { b with written := Block.splice b.written h.offset data }
    else a.blocks[j]? := by
  have hlt : h.block < a.blocks.length := (List.getElem?_eq_some_iff.mp hb).1
  rw [ha,List.getElem?_set]
  split <;> rfl

theorem placed_written (hk : Placed a k) : Placed a' k := by
  refine hk.of_blocks (by rw [ha]) (by rw [ha]) ?_
  intro c hc
  rw [getElem?_written hb ha]
  split
  · rename_i heq
    rw [← heq,hb] at hc
    obtain rfl := Option.some.inj hc
    exact ⟨_,rfl,Nat.le_refl _⟩
  · exact ⟨c,hc,Nat.le_refl _⟩

include hlen

theorem bytesOf_written : a'.bytesOf h = data := by
  simp only [bytesOf,getElem?_written hb ha,if_pos,Option.map_some,Option.getD_some]
  rw [← hlen]
  exact Block.stretch_splice_same b h.offset data

theorem bytesOf_apart (hs : Holds a es) (hl : h ∈ live es) (hk : k ∈ live es)
    (hne : h ≠ k ∨ k.len = 0) : a'.bytesOf k = a.bytesOf k := by
  simp only [bytesOf,getElem?_written hb ha]
  split
  · rename_i hblock
    have hap : k.stop ≤ h.offset ∨ h.stop ≤ k.offset ∨ k.len = 0 := by
      rcases hne with hne | hzero
      · have hpart := hs.apart.forall hk hl (Ne.symm hne) hblock.symm
        omega
      · exact .inr (.inr hzero)
    have hk' := len_le_stop k
    have hh' := len_le_stop h
    rw [← hblock,hb]
    simp only [Option.map_some,Option.getD_some]
    exact Block.stretch_splice_apart (by omega)
  · rfl

end Written

theorem text_apart (hs : Holds a es)
    (hslice : ∃ r found, .issued r h found ∈ es ∧ r.isText = false) {s : String}
    {found : List UInt8} (hm : .issued (.text s) k found ∈ since es) : h ≠ k ∨ k.len = 0 := by
  by_cases heq : h = k
  · subst heq
    obtain ⟨r,found',hr,htext⟩ := hslice
    have hm' := (List.takeWhile_sublist _).mem hm
    exact .inr (hs.recorded.len_of_shared hm' hr (by rintro rfl; contradiction))
  · exact .inl heq

theorem write (hs : Holds a es) (hl : h ∈ live es)
    (hslice : ∃ r found, .issued r h found ∈ es ∧ r.isText = false)
    (hw : a.write h data = some a') : Holds a' (.wrote h data :: es) := by
  obtain ⟨-,hlen,b,hb,hle,ha⟩ := write_eq_some hw
  have hcases (j : Nat) (c : Block) (hc : a'.blocks[j]? = some c) :
      { b with written := Block.splice b.written h.offset data } = c ∨ a.blocks[j]? = some c := by
    rw [getElem?_written hb ha] at hc
    split at hc
    · exact .inl (Option.some.inj hc)
    · exact .inr hc
  refine
    { current := ?current
      sound := ?sound
      epoch := ?epoch
      intact := ?intact
      unused := ?unused
      recorded := ?recorded
      placed := fun k hk => placed_written hb ha (hs.placed k hk)
      apart := hs.apart
      told := ?told
      texts := ?texts }
  case current => simpa [ha] using hs.current
  case sound =>
    intro j c hc
    rcases hcases j c hc with rfl | hc
    · have hold := hs.sound _ b hb
      exact ⟨hold.within,hold.words⟩
    · exact hs.sound j c hc
  case epoch => simpa [ha] using hs.epoch
  case intact => simpa using hs.intact
  case unused =>
    intro hreset j c hc
    have hreset' : Change.reset ∉ es := fun hx => hreset (List.mem_cons_of_mem _ hx)
    rcases hcases j c hc with rfl | hc
    · exact Block.length_splice_le (hs.unused hreset' _ b hb) hle
    · exact hs.unused hreset' j c hc
  case recorded =>
    have hid : a'.id = a.id := by rw [ha]
    rw [hid]
    exact hs.recorded.cons rfl
  case told =>
    intro k hk
    simp only [contents]
    split
    · rename_i heq
      rw [← heq,bytesOf_written hb hlen ha]
    · rename_i hne
      rw [bytesOf_apart hb hlen ha hs hl hk (.inl hne)]
      exact hs.told k hk
  case texts =>
    intro s k found hm
    rcases List.mem_cons.mp hm with heq | hm
    · cases heq
    rw [bytesOf_apart hb hlen ha hs hl (live_of_text hm) (hs.text_apart hslice hm)]
    exact hs.texts s k found hm

end Write

theorem reset (hs : Holds a es) : Holds a.reset (.reset :: es) := by
  have hcleared (i : Nat) (b : Block) (hb : (a.blocks.map Block.clear)[i]? = some b) :
      ∃ c : Block, b = c.clear := by
    rw [List.getElem?_map] at hb
    obtain ⟨c,-,rfl⟩ := Option.map_eq_some_iff.mp hb
    exact ⟨c,rfl⟩
  have hpos := hs.current
  refine ⟨?_,?_,?_,?_,by simp,hs.recorded.cons rfl,by simp,by simp,by simp,by simp⟩
  · simp only [Arena.reset,List.length_map]
    omega
  · intro i b hb
    obtain ⟨c,rfl⟩ := hcleared i b hb
    exact Block.clear_sound c
  · simp [Arena.reset,hs.epoch]
  · simpa using hs.intact

/-- Copying data in is asking for room and writing to it at once. -/
theorem renamed {size : Nat} {data found : List UInt8} {r : Request}
    (hs : Holds a (.wrote h data :: .issued (.room size) h found :: es))
    (hr : r.data? = some data) : Holds a (.issued r h data :: es) := by
  have hepoch := hs.epoch
  have hintact := hs.intact
  have hrecord := hs.recorded
  have hfirst := hrecord.issues (.room size) h found es [.wrote h data] rfl
  refine
    { current := hs.current
      sound := hs.sound
      epoch := by simpa using hepoch
      intact := by simpa using hintact
      unused := fun hn => hs.unused (by simpa using hn)
      recorded := ?_
      placed := hs.placed
      apart := hs.apart
      told := ?_
      texts := ?_ }
  · have htold := hs.told h (by simp)
    simp only [contents,if_pos] at htold
    obtain ⟨b,hb,-⟩ := (hs.placed h (by simp)).within
    have hsize : h.len = r.size := by
      rw [Request.size_of_data hr,Option.some.inj htold,length_bytesOf hb]
    obtain ⟨hnew,-⟩ := List.pairwise_cons.mp hrecord.distinct
    refine hrecord.tail.tail.issued ?_ hnew
    exact ⟨hfirst.arena,hfirst.epoch,hsize,Request.fills_of_data hr _,hfirst.intact⟩
  · intro k hk
    have htold := hs.told k hk
    simp only [contents] at htold ⊢
    split
    · rename_i heq
      rw [if_pos heq] at htold
      exact htold
    · rename_i hne
      rw [if_neg hne,if_neg hne] at htold
      exact htold
  · intro s k found' hm
    rcases List.mem_cons.mp hm with heq | hm
    · obtain ⟨hreq,rfl,rfl⟩ := Change.issued.inj heq
      have htold := hs.told k (by simp)
      simp only [contents,if_pos] at htold
      rw [← Option.some.inj htold]
      rw [← hreq] at hr
      exact (Option.some.inj hr).symm
    · refine hs.texts s k found' ?_
      exact List.mem_cons_of_mem _ (List.mem_cons_of_mem _ hm)

end Holds

section Serve

variable {host : Host}

theorem place_eq_some {n i : Nat} {a₁ : Arena} (hp : a.place host n = some (i, a₁)) :
    ∃ (grown : List Block) (b : Block), (∀ b ∈ grown, ∃ c, b = .fresh c) ∧
      a₁ = { a with blocks := a.blocks ++ grown } ∧ a₁.blocks[i]? = some b ∧ n ≤ b.room := by
  unfold place at hp
  dsimp only at hp
  split at hp
  · rename_i hroom
    obtain ⟨rfl,rfl⟩ := Prod.mk.inj (Option.some.inj hp)
    unfold hasRoom at hroom
    cases hb : a.blocks[a.current]? with
    | none => simp [hb] at hroom
    | some b => exact ⟨[],b,by simp,by simp,rfl,by simpa [hb] using hroom⟩
  split at hp
  · rename_i j hfind
    obtain ⟨rfl,rfl⟩ := Prod.mk.inj (Option.some.inj hp)
    obtain ⟨hlt,hroom,-⟩ := List.findIdx?_eq_some_iff_getElem.mp hfind
    exact ⟨[],a.blocks[j],by simp,by simp,List.getElem?_eq_getElem hlt,by simpa using hroom⟩
  split at hp
  · obtain ⟨rfl,rfl⟩ := Prod.mk.inj (Option.some.inj hp)
    refine ⟨[.fresh (max a.blockSize n)],_,by simp,rfl,List.getElem?_concat_length,?_⟩
    exact Nat.le_max_right _ _
  · contradiction

theorem Holds.alloc (hs : Holds a es) {size : Nat} (ha : a.alloc host size = some (h, a')) :
    a'.id = a.id ∧ Holds a' (.issued (.room size) h (a'.bytesOf h) :: es) := by
  unfold Arena.alloc at ha
  obtain ⟨n,hn,ha⟩ := Option.bind_eq_some_iff.mp ha
  obtain ⟨⟨i,a₁⟩,hp,ha⟩ := Option.bind_eq_some_iff.mp ha
  obtain rfl := alignUp_eq_some hn
  obtain ⟨grown,b,hgrown,rfl,hb,hroom⟩ := place_eq_some hp
  obtain ⟨rfl,rfl⟩ := Prod.mk.inj (Option.some.inj ha)
  refine ⟨rfl,(hs.grow hgrown).take hb hroom hn ?_ rfl⟩
  simp only [usedOf,hb,Option.map_some,Option.getD_some]

theorem Holds.allocBytes (hs : Holds a es) {data : List UInt8} {r : Request}
    (hr : r.data? = some data) (ha : a.allocBytes host data = some (h, a')) :
    a'.id = a.id ∧ Holds a' (.issued r h (a'.bytesOf h) :: es) := by
  unfold Arena.allocBytes at ha
  obtain ⟨⟨k,a₁⟩,halloc,ha⟩ := Option.bind_eq_some_iff.mp ha
  obtain ⟨a₂,hwrite,ha⟩ := Option.bind_eq_some_iff.mp ha
  obtain ⟨rfl,rfl⟩ := Prod.mk.inj (Option.some.inj ha)
  obtain ⟨hid,h₁⟩ := hs.alloc halloc
  have h₂ := h₁.write (by simp) ⟨_,_,List.mem_cons_self,rfl⟩ hwrite
  have htold := h₂.told k (by simp)
  simp only [contents,if_pos] at htold
  obtain ⟨-,-,b,-,-,heq⟩ := Holds.write_eq_some hwrite
  rw [← Option.some.inj htold]
  exact ⟨by rw [heq]; exact hid,h₂.renamed hr⟩

theorem Holds.serve (hs : Holds a es) {r : Request} (hr : r.serve host a = some (h, a')) :
    a'.id = a.id ∧ Holds a' (.issued r h (a'.bytesOf h) :: es) := by
  cases r with
  | room size => exact hs.alloc hr
  | bytes data => exact hs.allocBytes rfl hr
  | text s => exact hs.allocBytes rfl hr

end Serve
end Arena
end ReasonAct
