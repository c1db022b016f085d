import ReasonAct.Arena.Block
set_option autoImplicit false

namespace ReasonAct.Arena

/-- The least multiple of the word size that is not below a size. -/
def roundUp (size : Nat) : Nat := (size + (wordSize - 1)) / wordSize * wordSize

theorem alignUp_eq_some {size n : Nat} (h : alignUp size = some n) : n = roundUp size := by
  unfold alignUp at h
  split at h
  · exact (Option.some.inj h).symm
  · contradiction

theorem le_roundUp (size : Nat) : size ≤ roundUp size := by
  simp only [roundUp,wordSize]
  omega

theorem wordSize_dvd_roundUp (size : Nat) : wordSize ∣ roundUp size := Nat.dvd_mul_left _ _

namespace Block

structure Sound (b : Block) : Prop where
  within : b.used ≤ b.capacity
  words : wordSize ∣ b.used

theorem fresh_sound (capacity : Nat) : (fresh capacity).Sound := ⟨Nat.zero_le _,Nat.dvd_zero _⟩

theorem clear_sound (b : Block) : b.clear.Sound := ⟨Nat.zero_le _,Nat.dvd_zero _⟩

theorem take_sound {b : Block} (h : b.Sound) {size : Nat} (hr : roundUp size ≤ b.room) :
    (b.take (roundUp size)).Sound := by
  have hw := h.within
  refine ⟨?_,Nat.dvd_add h.words (wordSize_dvd_roundUp size)⟩
  simp only [room,take] at *
  omega

theorem byte_splice (bytes : List UInt8) (offset : Nat) (data : List UInt8) (i : Nat) :
    (splice bytes offset data).getD i 0 =
      if offset ≤ i ∧ i < offset + data.length then data.getD (i - offset) 0
      else bytes.getD i 0 := by
  have hlen : (bytes.take offset ++ List.replicate (offset - bytes.length) (0 : UInt8)).length =
      offset := by
    simp only [List.length_append,List.length_take,List.length_replicate]
    omega
  simp only [splice,List.append_assoc _ data,List.getD_eq_getElem?_getD]
  rw [List.getElem?_append]
  split
  · rename_i hi
    rw [hlen] at hi
    have hn : ¬ (offset ≤ i ∧ i < offset + data.length) := by omega
    rw [if_neg hn,List.getElem?_append,List.length_take]
    split
    · rw [List.getElem?_take_of_lt hi]
    · rename_i ht
      have hb : bytes.length ≤ i := by omega
      rw [List.getElem?_eq_none hb,List.getElem?_replicate]
      split <;> rfl
  · rename_i hi
    rw [hlen] at hi ⊢
    rw [List.getElem?_append]
    split
    · rename_i hd
      have hp : offset ≤ i ∧ i < offset + data.length := by omega
      rw [if_pos hp]
    · rename_i hd
      have hn : ¬ (offset ≤ i ∧ i < offset + data.length) := by omega
      have hadd : offset + data.length + (i - offset - data.length) = i := by omega
      rw [if_neg hn,List.getElem?_drop,hadd]

theorem length_splice_le {bytes data : List UInt8} {offset n : Nat} (hb : bytes.length ≤ n)
    (hd : offset + data.length ≤ n) : (splice bytes offset data).length ≤ n := by
  simp only [splice,List.length_append,List.length_take,List.length_replicate,List.length_drop]
  omega

theorem write_eq_some {b b' : Block} {offset : Nat} {data : List UInt8}
    (h : b.write offset data = some b') :
    offset + data.length ≤ b.used ∧ b' = { b with written := splice b.written offset data } := by
  unfold write at h
  split at h
  · rename_i hle
    exact ⟨hle,(Option.some.inj h).symm⟩
  · contradiction

def stretch (b : Block) (offset len : Nat) : List UInt8 :=
  (List.range len).map fun i => b.byte (offset + i)

theorem read_eq_some_iff {b : Block} {offset len : Nat} {bytes : List UInt8} :
    b.read offset len = some bytes ↔ offset + len ≤ b.used ∧ b.stretch offset len = bytes := by
  by_cases h : offset + len ≤ b.used <;> simp [read,stretch,h]

theorem stretch_splice_apart {b : Block} {offset len start : Nat} {data : List UInt8}
    (h : offset + len ≤ start ∨ start + data.length ≤ offset ∨ len = 0) :
    ({ b with written := splice b.written start data } : Block).stretch offset len =
      b.stretch offset len := by
  refine List.map_congr_left ?_
  intro i hi
  have hlt : i < len := List.mem_range.mp hi
  have hn : ¬ (start ≤ offset + i ∧ offset + i < start + data.length) := by omega
  rw [byte,byte_splice,if_neg hn]
  rfl

theorem stretch_splice_same (b : Block) (offset : Nat) (data : List UInt8) :
    ({ b with written := splice b.written offset data } : Block).stretch offset data.length =
      data := by
  refine List.ext_getElem (by simp [stretch]) ?_
  intro i _ hi
  have hp : offset ≤ offset + i ∧ offset + i < offset + data.length := by omega
  simp only [stretch,List.getElem_map,List.getElem_range]
  rw [byte,byte_splice,if_pos hp,Nat.add_sub_cancel_left,List.getD_eq_getElem?_getD,
    List.getElem?_eq_getElem hi,Option.getD_some]

theorem stretch_unwritten {b : Block} {offset : Nat} (h : b.written.length ≤ offset) (len : Nat) :
    b.stretch offset len = List.replicate len 0 := by
  refine List.eq_replicate_iff.mpr ⟨by simp [stretch],?_⟩
  intro x hx
  obtain ⟨i,-,rfl⟩ := List.mem_map.mp hx
  have hi : b.written.length ≤ offset + i := by omega
  rw [byte,List.getD_eq_getElem?_getD,List.getElem?_eq_none hi,Option.getD_none]

end Block
end ReasonAct.Arena
