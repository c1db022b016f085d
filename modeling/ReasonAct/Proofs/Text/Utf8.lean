import ReasonAct.Text.Utf8
set_option autoImplicit false

namespace ReasonAct.Text.Utf8

section Bytes

variable {n : Nat} (hn : n < 256) (bs : List UInt8) (out : List (Option Char))
include hn

theorem toNat_ofNat : (UInt8.ofNat n).toNat = n := by simp [Nat.mod_eq_of_lt hn]

theorem scanFrom_char {c : Char} (h : lead n = .char c) :
    scanFrom (UInt8.ofNat n :: bs) none out = scanFrom bs none (some c :: out) := by
  simp only [scanFrom,toNat_ofNat hn,h]

theorem scanFrom_opens {p : Pending} (h : lead n = .opens p) :
    scanFrom (UInt8.ofNat n :: bs) none out = scanFrom bs (some p) out := by
  simp only [scanFrom,toNat_ofNat hn,h]

theorem scanFrom_more {owed low high bits : Nat} (hl : low ≤ n) (hh : n ≤ high) :
    scanFrom (UInt8.ofNat n :: bs) (some ⟨owed + 2, low, high, bits⟩) out =
      scanFrom bs (some ⟨owed + 1, 0x80, 0xBF, bits * 64 + (n - 0x80)⟩) out := by
  have ho : ¬ owed + 2 ≤ 1 := by omega
  simp [scanFrom,-UInt8.toNat_ofNat',toNat_ofNat hn,hl,hh,Pending.add,ho]

theorem scanFrom_last {low high bits : Nat} (hl : low ≤ n) (hh : n ≤ high) :
    scanFrom (UInt8.ofNat n :: bs) (some ⟨1, low, high, bits⟩) out =
      scanFrom bs none (some (Char.ofNat (bits * 64 + (n - 0x80))) :: out) := by
  simp [scanFrom,-UInt8.toNat_ofNat',toNat_ofNat hn,hl,hh,Pending.add]

end Bytes

theorem lead_two {n : Nat} (hl : 0xC2 ≤ n) (hh : n ≤ 0xDF) :
    lead n = .opens ⟨1, 0x80, 0xBF, n - 0xC0⟩ := by
  have h : ¬ n < 0x80 := by omega
  simp [lead,h,hl,hh]

theorem lead_three {n : Nat} (hl : 0xE0 ≤ n) (hh : n ≤ 0xEF) :
    lead n = .opens ⟨2, if n = 0xE0 then 0xA0 else 0x80, if n = 0xED then 0x9F else 0xBF,
      n - 0xE0⟩ := by
  have h : ¬ n < 0x80 := by omega
  have h' : ¬ n ≤ 0xDF := by omega
  simp [lead,h,h',hl,hh]

theorem lead_four {n : Nat} (hl : 0xF0 ≤ n) (hh : n ≤ 0xF4) :
    lead n = .opens ⟨3, if n = 0xF0 then 0x90 else 0x80, if n = 0xF4 then 0x8F else 0xBF,
      n - 0xF0⟩ := by
  have h : ¬ n < 0x80 := by omega
  have h' : ¬ n ≤ 0xDF := by omega
  have h'' : ¬ n ≤ 0xEF := by omega
  simp [lead,h,h',h'',hl,hh]

theorem scanFrom_encodeChar (c : Char) (bs : List UInt8) (out : List (Option Char)) :
    scanFrom (String.utf8EncodeChar c ++ bs) none out = scanFrom bs none (some c :: out) := by
  have hv : c.val.toNat < 0xD800 ∨ 0xDFFF < c.val.toNat ∧ c.val.toNat < 0x110000 := c.valid
  have hc : Char.ofNat c.val.toNat = c := Char.ofNat_toNat c
  unfold String.utf8EncodeChar
  dsimp only
  generalize c.val.toNat = v at hv hc
  -- One case for every length: the bits of the bytes put together are the character again.
  split
  · have h : v < 0x80 := by omega
    exact scanFrom_char (by omega) bs out (by rw [lead,if_pos h,hc])
  split
  · have hopen : v / 64 % 32 + 0xC0 - 0xC0 = v / 64 := by omega
    have hlast : v / 64 * 64 + (v % 64 + 0x80 - 0x80) = v := by omega
    simp only [List.cons_append,List.nil_append]
    rw [scanFrom_opens (by omega) _ _ (lead_two (by omega) (by omega)),hopen,
      scanFrom_last (by omega) _ _ (by omega) (by omega),hlast,hc]
  split
  · have hopen : v / 4096 % 16 + 0xE0 - 0xE0 = v / 4096 := by omega
    have hnext : v / 4096 * 64 + (v / 64 % 64 + 0x80 - 0x80) = v / 64 := by omega
    have hlast : v / 64 * 64 + (v % 64 + 0x80 - 0x80) = v := by omega
    simp only [List.cons_append,List.nil_append]
    rw [scanFrom_opens (by omega) _ _ (lead_three (by omega) (by omega)),hopen,
      scanFrom_more (by omega) _ _ (by split <;> omega) (by split <;> omega),hnext,
      scanFrom_last (by omega) _ _ (by omega) (by omega),hlast,hc]
  · have hopen : v / 262144 % 8 + 0xF0 - 0xF0 = v / 262144 := by omega
    have hnext : v / 262144 * 64 + (v / 4096 % 64 + 0x80 - 0x80) = v / 4096 := by omega
    have hthird : v / 4096 * 64 + (v / 64 % 64 + 0x80 - 0x80) = v / 64 := by omega
    have hlast : v / 64 * 64 + (v % 64 + 0x80 - 0x80) = v := by omega
    simp only [List.cons_append,List.nil_append]
    rw [scanFrom_opens (by omega) _ _ (lead_four (by omega) (by omega)),hopen,
      scanFrom_more (by omega) _ _ (by split <;> omega) (by split <;> omega),hnext,
      scanFrom_more (by omega) _ _ (by omega) (by omega),hthird,
      scanFrom_last (by omega) _ _ (by omega) (by omega),hlast,hc]

theorem scanFrom_encodeChars (cs : List Char) (out : List (Option Char)) :
    scanFrom (cs.flatMap String.utf8EncodeChar) none out = (cs.map some).reverse ++ out := by
  induction cs generalizing out with
  | nil => rfl
  | cons c cs ih => simp [List.flatMap_cons,scanFrom_encodeChar,ih]

theorem toList_loop (bytes : ByteArray) (i : Nat) (read : List UInt8) :
    ByteArray.toList.loop bytes i read = read.reverse ++ bytes.data.toList.drop i := by
  fun_induction ByteArray.toList.loop bytes i read with
  | case1 i read h ih =>
    have hi : i < bytes.data.toList.length := h
    have hget : bytes.get! i = bytes.data.toList[i] := getElem!_pos bytes.data i h
    rw [ih,hget,List.drop_eq_getElem_cons hi]
    simp
  | case2 i read h =>
    have hi : bytes.data.toList.length ≤ i := Nat.not_lt.mp h
    rw [List.drop_eq_nil_of_le hi,List.append_nil]

theorem encode_eq (s : String) : encode s = s.toList.flatMap String.utf8EncodeChar := by
  have h : s.toByteArray = s.toList.utf8Encode := by
    rw [← String.toByteArray_ofList,String.ofList_toList]
  show s.toUTF8.toList = _
  rw [String.toUTF8_eq_toByteArray,h,ByteArray.toList,toList_loop,List.utf8Encode,
    List.toList_data_toByteArray]
  rfl

theorem scan_encode (s : String) : scan (encode s) = s.toList.map some := by
  rw [scan,encode_eq,scanFrom_encodeChars]
  simp

@[simp] theorem decode_encode (s : String) : decode? (encode s) = some s := by
  have h (cs : List Char) : (cs.map some).mapM id = some cs := by
    induction cs with
    | nil => rfl
    | cons c cs ih => simp [ih]
  rw [decode?,scan_encode,h,Option.map_some,String.ofList_toList]

end ReasonAct.Text.Utf8
