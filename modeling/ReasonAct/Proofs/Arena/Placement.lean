import Mathlib.Order.Bounds.Defs
import ReasonAct.Proofs.Arena.Layout
/-!
Where a piece is put. The current block takes it, else the first that has room, else a new one at
the end of the chain, and only its mark moves. A request that is refused at whatever point leaves
the arena as it was.
-/
set_option autoImplicit false

namespace ReasonAct.Arena

theorem alignUp_eq (size : Nat) :
    alignUp size = if roundUp size < sizeLimit then some (roundUp size) else none := by
  have hlimit : sizeLimit = 8 * 2305843009213693952 := rfl
  have hiff : size + (wordSize - 1) < sizeLimit ↔ roundUp size < sizeLimit := by
    simp only [roundUp,wordSize,hlimit]
    omega
  unfold alignUp
  simp only [hiff]
  rfl

theorem roundUp_isLeast (size : Nat) : IsLeast {n | wordSize ∣ n ∧ size ≤ n} (roundUp size) := by
  refine ⟨⟨wordSize_dvd_roundUp size,le_roundUp size⟩,?_⟩
  rintro n ⟨⟨k,rfl⟩,hn⟩
  simp only [roundUp,wordSize] at *
  omega

/-- What is seen of a block from outside: its size, and up to where it was handed out. -/
structure Mark where
  capacity : Nat
  used : Nat
  deriving DecidableEq, Repr

namespace Mark

def fresh (capacity : Nat) : Mark := ⟨capacity, 0⟩

def free (m : Mark) : Nat := m.capacity - m.used

def take (m : Mark) (n : Nat) : Mark := ⟨m.capacity, m.used + n⟩

end Mark

def Block.mark (b : Block) : Mark := ⟨b.capacity, b.used⟩

def marks (a : Arena) : List Mark := a.blocks.map Block.mark

section Simp

variable (b : Block) (n : Nat)

@[simp] theorem Block.mark_free : b.mark.free = b.room := rfl
@[simp] theorem Block.mark_take : (b.take n).mark = b.mark.take n := rfl
@[simp] theorem Block.mark_fresh : (Block.fresh n).mark = .fresh n := rfl

end Simp

variable {a a' : Arena} {host : Host} {n size i : Nat} {h : Handle}

theorem getElem?_marks (i : Nat) : a.marks[i]? = a.blocks[i]?.map Block.mark :=
  List.getElem?_map

theorem length_marks : a.marks.length = a.blocks.length := List.length_map _

/-- Which block takes a piece of `n` bytes, and the chain that it is taken from. -/
inductive Takes (a : Arena) (n : Nat) : Nat → List Mark → Prop
  | current {m : Mark} (at_ : a.marks[a.current]? = some m) (room : n ≤ m.free) :
      Takes a n a.current a.marks
  | earliest {i : Nat} {m : Mark} (full : ∀ m, a.marks[a.current]? = some m → m.free < n)
      (at_ : a.marks[i]? = some m) (room : n ≤ m.free)
      (first : ∀ k < i, ∀ m, a.marks[k]? = some m → m.free < n) : Takes a n i a.marks
  | appended (full : ∀ m ∈ a.marks, m.free < n) :
      Takes a n a.marks.length (a.marks ++ [.fresh (max a.blockSize n)])

/-- A piece was handed out. The block it was taken from is the current one now, and no other mark
has moved. -/
structure HandsOut (a : Arena) (size : Nat) (h : Handle) (a' : Arena) : Prop where
  stamp : h.arena = a.id ∧ h.epoch = a.epoch
  len : h.len = size
  place : ∃ ms m, Takes a (roundUp size) h.block ms ∧ ms[h.block]? = some m ∧
    h.offset = m.used ∧ a'.marks = ms.set h.block (m.take (roundUp size))
  current : a'.current = h.block
  same : a'.id = a.id ∧ a'.epoch = a.epoch ∧ a'.blockSize = a.blockSize

namespace Takes

variable {ms ms' : List Mark} {j : Nat}

theorem room (ht : Takes a n i ms) : ∃ m, ms[i]? = some m ∧ n ≤ m.free := by
  cases ht with
  | current hm hroom => exact ⟨_,hm,hroom⟩
  | earliest _ hm hroom _ => exact ⟨_,hm,hroom⟩
  | appended _ => exact ⟨_,List.getElem?_concat_length,Nat.le_max_right _ _⟩

theorem grown (ht : Takes a n i ms) :
    ∃ capacities : List Nat, ms = a.marks ++ capacities.map Mark.fresh := by
  cases ht with
  | current _ _ | earliest _ _ _ _ => exact ⟨[],(List.append_nil _).symm⟩
  | appended _ => exact ⟨[max a.blockSize n],rfl⟩

theorem unique (ht : Takes a n i ms) (ht' : Takes a n j ms') : i = j ∧ ms = ms' := by
  have hno {m : Mark} (hroom : n ≤ m.free) (hfull : m.free < n) : False := by omega
  cases ht with
  | current hm hroom =>
    cases ht' with
    | current _ _ => exact ⟨rfl,rfl⟩
    | earliest hfull _ _ _ => exact (hno hroom (hfull _ hm)).elim
    | appended hfull => exact (hno hroom (hfull _ (List.mem_of_getElem? hm))).elim
  | earliest hcurrent hm hroom hfirst =>
    cases ht' with
    | current hm' hroom' => exact (hno hroom' (hcurrent _ hm')).elim
    | earliest _ hm' hroom' hfirst' =>
      refine ⟨?_,rfl⟩
      rcases Nat.lt_trichotomy i j with hlt | heq | hlt
      · exact (hno hroom (hfirst' i hlt _ hm)).elim
      · exact heq
      · exact (hno hroom' (hfirst j hlt _ hm')).elim
    | appended hfull => exact (hno hroom (hfull _ (List.mem_of_getElem? hm))).elim
  | appended hfull =>
    cases ht' with
    | current hm hroom => exact (hno hroom (hfull _ (List.mem_of_getElem? hm))).elim
    | earliest _ hm hroom _ => exact (hno hroom (hfull _ (List.mem_of_getElem? hm))).elim
    | appended _ => exact ⟨rfl,rfl⟩

end Takes

section Place

theorem hasRoom_iff : a.hasRoom n i = true ↔ ∃ m, a.marks[i]? = some m ∧ n ≤ m.free := by
  rw [getElem?_marks]
  unfold hasRoom
  cases a.blocks[i]? <;> simp

theorem hasRoom_eq_false_iff :
    a.hasRoom n i = false ↔ ∀ m, a.marks[i]? = some m → m.free < n := by
  rw [← Bool.not_eq_true,hasRoom_iff]
  simp

theorem findIdx?_room_eq_none_iff :
    a.blocks.findIdx? (fun b => n ≤ b.room) = none ↔ ∀ m ∈ a.marks, m.free < n := by
  simp [List.findIdx?_eq_none_iff,marks]

theorem place_eq_none_iff : a.place host n = none ↔
    (∀ m ∈ a.marks, m.free < n) ∧ host (max a.blockSize n) = false := by
  have hcurrent (hfull : ∀ m ∈ a.marks, m.free < n) : a.hasRoom n a.current = false :=
    hasRoom_eq_false_iff.mpr fun m hm => hfull m (List.mem_of_getElem? hm)
  unfold place
  dsimp only
  constructor
  · intro hp
    split at hp
    · contradiction
    split at hp
    · contradiction
    rename_i hfind
    split at hp
    · contradiction
    rename_i hhost
    exact ⟨findIdx?_room_eq_none_iff.mp hfind,by simpa using hhost⟩
  · rintro ⟨hfull,hhost⟩
    simp [hcurrent hfull,findIdx?_room_eq_none_iff.mpr hfull,hhost]

theorem place_takes (hp : a.place host n = some (i, a')) : Takes a n i a'.marks ∧
    ∃ grown, a' = { a with blocks := a.blocks ++ grown } := by
  unfold place at hp
  dsimp only at hp
  split at hp
  · rename_i hroom
    obtain ⟨rfl,rfl⟩ := Prod.mk.inj (Option.some.inj hp)
    obtain ⟨m,hm,hle⟩ := hasRoom_iff.mp hroom
    exact ⟨.current hm hle,[],by simp⟩
  rename_i hcurrent
  split at hp
  · rename_i j hfind
    obtain ⟨rfl,rfl⟩ := Prod.mk.inj (Option.some.inj hp)
    obtain ⟨hlt,hroom,hfirst⟩ := List.findIdx?_eq_some_iff_getElem.mp hfind
    refine ⟨.earliest (hasRoom_eq_false_iff.mp (by simpa using hcurrent)) (m := a.blocks[j].mark)
      ?_ (by simpa using hroom) ?_,[],by simp⟩
    · rw [getElem?_marks,List.getElem?_eq_getElem hlt,Option.map_some]
    · intro k hk m hm
      rw [getElem?_marks,List.getElem?_eq_getElem (Nat.lt_trans hk hlt)] at hm
      obtain rfl := Option.some.inj hm
      simpa using hfirst k hk
  · rename_i hfind
    split at hp
    · obtain ⟨rfl,rfl⟩ := Prod.mk.inj (Option.some.inj hp)
      have ht := Takes.appended (findIdx?_room_eq_none_iff.mp hfind)
      rw [length_marks] at ht
      exact ⟨by simpa [marks] using ht,_,rfl⟩
    · contradiction

end Place

section Alloc

theorem marks_modify {b : Block} (hb : a.blocks[i]? = some b) (f : Block → Block) :
    (a.blocks.modify i f).map Block.mark = a.marks.set i (f b).mark := by
  refine List.ext_getElem? fun k => ?_
  rw [List.getElem?_map,List.getElem?_modify,List.getElem?_set,length_marks,getElem?_marks]
  by_cases hik : i = k
  · subst hik
    obtain ⟨hlt,rfl⟩ := List.getElem?_eq_some_iff.mp hb
    simp [hlt]
  · simp [hik]

theorem marks_set {b b' : Block} (hb : a.blocks[i]? = some b) (hm : b'.mark = b.mark) :
    (a.blocks.set i b').map Block.mark = a.marks := by
  obtain ⟨hlt,rfl⟩ := List.getElem?_eq_some_iff.mp hb
  rw [List.map_set,hm,← List.getElem_map Block.mark (h := by simpa using hlt)]
  exact List.set_getElem_self _

theorem alloc_eq_none_iff : a.alloc host size = none ↔ sizeLimit ≤ roundUp size ∨
    (∀ m ∈ a.marks, m.free < roundUp size) ∧ host (max a.blockSize (roundUp size)) = false := by
  rw [← place_eq_none_iff]
  unfold Arena.alloc
  rw [alignUp_eq]
  by_cases hlimit : roundUp size < sizeLimit
  · cases hplace : a.place host (roundUp size) <;> simp [hlimit,hplace]
  · simp [hlimit,Nat.not_lt.mp hlimit]

theorem alloc_handsOut (ha : a.alloc host size = some (h, a')) : HandsOut a size h a' := by
  unfold Arena.alloc at ha
  obtain ⟨n,hn,ha⟩ := Option.bind_eq_some_iff.mp ha
  obtain ⟨⟨i,a₁⟩,hplace,ha⟩ := Option.bind_eq_some_iff.mp ha
  obtain rfl := alignUp_eq_some hn
  obtain ⟨ht,grown,heq⟩ := place_takes hplace
  obtain ⟨rfl,rfl⟩ := Prod.mk.inj (Option.some.inj ha)
  obtain ⟨m,hm,-⟩ := ht.room
  obtain ⟨b,hb,rfl⟩ := Option.map_eq_some_iff.mp ((getElem?_marks i).symm.trans hm)
  refine
    { stamp := by simp [heq]
      len := rfl
      place := ⟨a₁.marks,b.mark,ht,hm,?_,marks_modify hb _⟩
      current := rfl
      same := by simp [heq] }
  simp [usedOf,hb,Block.mark]

theorem write_isSome_of_alloc (ha : a.alloc host size = some (h, a')) (data : List UInt8) :
    (a'.write h data).isSome = true ↔ data.length = size := by
  have hh := alloc_handsOut ha
  obtain ⟨ms,m,-,hm,hoffset,hmarks⟩ := hh.place
  have hlt := (List.getElem?_eq_some_iff.mp hm).1
  have hmark : a'.marks[h.block]? = some (m.take (roundUp size)) := by
    rw [hmarks,List.getElem?_set_self hlt]
  obtain ⟨b,hb,hused⟩ := Option.map_eq_some_iff.mp ((getElem?_marks h.block).symm.trans hmark)
  have hwithin : h.offset + h.len ≤ b.used := by
    have hle := le_roundUp size
    have heq : b.used = m.used + roundUp size := congrArg Mark.used hused
    rw [hoffset,hh.len]
    omega
  have hcontains : a'.contains h = true := by
    refine contains_iff.mpr ⟨⟨?_,?_⟩,(List.getElem?_eq_some_iff.mp hb).1⟩
    · rw [hh.stamp.1,hh.same.1]
    · rw [hh.stamp.2,hh.same.2.1]
  have hread : (a'.read h).isSome = true := by
    simp [Arena.read,hcontains,hb,Block.read,hwithin]
  rw [write_isSome_iff,hh.len]
  simp [hread]

end Alloc

section Serve

variable {r : Request} {data : List UInt8}

theorem allocBytes_eq_some : a.allocBytes host data = some (h, a') ↔
    ∃ a₁, a.alloc host data.length = some (h, a₁) ∧ a₁.write h data = some a' := by
  unfold allocBytes
  constructor
  · intro ha
    obtain ⟨⟨k,a₁⟩,halloc,ha⟩ := Option.bind_eq_some_iff.mp ha
    obtain ⟨a₂,hwrite,ha⟩ := Option.bind_eq_some_iff.mp ha
    obtain ⟨rfl,rfl⟩ := Prod.mk.inj (Option.some.inj ha)
    exact ⟨a₁,halloc,hwrite⟩
  · rintro ⟨a₁,halloc,hwrite⟩
    simp [halloc,hwrite]

theorem allocBytes_eq_none_iff :
    a.allocBytes host data = none ↔ a.alloc host data.length = none := by
  cases halloc : a.alloc host data.length with
  | none => simp [allocBytes,halloc]
  | some p =>
    obtain ⟨a₂,hwrite⟩ := Option.isSome_iff_exists.mp ((write_isSome_of_alloc halloc data).mpr rfl)
    simp [allocBytes,halloc,hwrite]

theorem marks_write (hw : a.write h data = some a') :
    a'.marks = a.marks ∧ a'.current = a.current ∧ a'.id = a.id ∧ a'.epoch = a.epoch ∧
      a'.blockSize = a.blockSize := by
  obtain ⟨-,-,b,hb,-,rfl⟩ := Holds.write_eq_some hw
  have hmark : ({ b with written := Block.splice b.written h.offset data } : Block).mark = b.mark :=
    rfl
  exact ⟨marks_set hb hmark,rfl,rfl,rfl,rfl⟩

theorem HandsOut.write (hh : HandsOut a size h a') {a₂ : Arena} (hw : a'.write h data = some a₂) :
    HandsOut a size h a₂ := by
  obtain ⟨hmarks,hcurrent,hid,hepoch,hsize⟩ := marks_write hw
  obtain ⟨hid',hepoch',hsize'⟩ := hh.same
  exact ⟨hh.stamp,hh.len,hmarks ▸ hh.place,hcurrent.trans hh.current,hid.trans hid',
    hepoch.trans hepoch',hsize.trans hsize'⟩

theorem serve_eq_none_iff : r.serve host a = none ↔ sizeLimit ≤ roundUp r.size ∨
    (∀ m ∈ a.marks, m.free < roundUp r.size) ∧
      host (max a.blockSize (roundUp r.size)) = false := by
  rw [← alloc_eq_none_iff]
  cases r with
  | room size => rfl
  | bytes data => exact allocBytes_eq_none_iff
  | text s => exact allocBytes_eq_none_iff

theorem serve_handsOut (hr : r.serve host a = some (h, a')) : HandsOut a r.size h a' := by
  have hcopied {data : List UInt8} (ha : a.allocBytes host data = some (h, a')) :
      HandsOut a data.length h a' := by
    obtain ⟨a₁,halloc,hwrite⟩ := allocBytes_eq_some.mp ha
    exact (alloc_handsOut halloc).write hwrite
  cases r with
  | room size => exact alloc_handsOut hr
  | bytes data => exact hcopied hr
  | text s => exact hcopied hr

end Serve

section InPlace

def Block.bump (n : Nat) (b : Block) : Option Nat × Block :=
  if n ≤ b.room then (some b.used, b.take n) else (none, b)

/-- Looks for a block, and makes one if it has to. Even then it may be that the chain cannot be
made longer. -/
def pick (host : Host) (linked : Bool) (n : Nat) (a : Arena) : Option Nat × Arena :=
  if a.hasRoom n a.current then (some a.current, a)
  else match a.blocks.findIdx? (fun b => n ≤ b.room) with
    | some i => (some i, a)
    | none =>
      let capacity := max a.blockSize n
      if !host capacity then (none, a)
      else if !linked then (none, a)
      else (some a.blocks.length, { a with blocks := a.blocks ++ [.fresh capacity] })

def bump (n size i : Nat) (a : Arena) : Option Handle × Arena :=
  let a := { a with current := i }
  match a.blocks[i]? with
  | none => (none, a)
  | some b =>
    let (offset, b) := b.bump n
    (offset.map fun offset => ⟨a.id, a.epoch, i, offset, size⟩,
      { a with blocks := a.blocks.set i b })

def allocInPlace (host : Host) (linked : Bool) (size : Nat) (a : Arena) : Option Handle × Arena :=
  match alignUp size with
  | none => (none, a)
  | some n =>
    match a.pick host linked n with
    | (none, a) => (none, a)
    | (some i, a) => a.bump n size i

/-- When the bytes cannot be copied the piece stays handed out. -/
def copyInPlace (host : Host) (linked : Bool) (data : List UInt8) (a : Arena) :
    Option Handle × Arena :=
  match a.allocInPlace host linked data.length with
  | (none, a) => (none, a)
  | (some h, a) =>
    match a.write h data with
    | none => (none, a)
    | some a => (some h, a)

/-- Serves a request step by step on the arena itself. What was done stays done when a later step is
refused. -/
def Request.carryOut (host : Host) (linked : Bool) : Request → Arena → Option Handle × Arena
  | .room size => allocInPlace host linked size
  | .bytes data => copyInPlace host linked data
  | .text s => copyInPlace host linked (Text.Utf8.encode s)

def orElse {α : Type} (a : Arena) : Option (α × Arena) → Option α × Arena
  | none => (none, a)
  | some (x, a) => (some x, a)

variable {linked : Bool}

theorem pick_eq : a.pick host linked n = a.orElse (a.place (fun c => host c && linked) n) := by
  unfold pick place
  cases a.hasRoom n a.current with
  | true => rfl
  | false =>
    cases a.blocks.findIdx? (fun b => n ≤ b.room) with
    | some i => rfl
    | none => cases hhost : host (max a.blockSize n) <;> cases linked <;> simp [hhost,orElse]

theorem bump_eq {b : Block} (hb : a.blocks[i]? = some b) (hroom : n ≤ b.room) (size : Nat) :
    a.bump n size i = (some ⟨a.id, a.epoch, i, a.usedOf i, size⟩,
      { a with blocks := a.blocks.modify i (·.take n), current := i }) := by
  have hset : a.blocks.modify i (·.take n) = a.blocks.set i (b.take n) := by
    obtain ⟨hlt,rfl⟩ := List.getElem?_eq_some_iff.mp hb
    exact List.modify_eq_set_get _ hlt
  simp [bump,hb,Block.bump,hroom,usedOf,hset]

theorem allocInPlace_eq : a.allocInPlace host linked size =
    a.orElse (a.alloc (fun c => host c && linked) size) := by
  unfold allocInPlace Arena.alloc
  cases hn : alignUp size with
  | none => rfl
  | some n =>
    simp only [pick_eq]
    cases hplace : a.place (fun c => host c && linked) n with
    | none => simp [orElse,hplace]
    | some p =>
      obtain ⟨i,a₁⟩ := p
      obtain ⟨m,hm,hroom⟩ := (place_takes hplace).1.room
      obtain ⟨b,hb,rfl⟩ := Option.map_eq_some_iff.mp ((getElem?_marks i).symm.trans hm)
      simp [orElse,hplace,bump_eq hb hroom]

theorem carryOut_eq (r : Request) : r.carryOut host linked a =
    a.orElse (r.serve (fun c => host c && linked) a) := by
  have hcopied (data : List UInt8) : a.copyInPlace host linked data =
      a.orElse (a.allocBytes (fun c => host c && linked) data) := by
    unfold copyInPlace allocBytes
    rw [allocInPlace_eq]
    cases halloc : a.alloc (fun c => host c && linked) data.length with
    | none => rfl
    | some p =>
      have hcopy := (write_isSome_of_alloc halloc data).mpr rfl
      obtain ⟨a₂,hwrite⟩ := Option.isSome_iff_exists.mp hcopy
      simp [orElse,hwrite]
  cases r with
  | room size => exact allocInPlace_eq
  | bytes data => exact hcopied data
  | text s => exact hcopied _

end InPlace
end ReasonAct.Arena
