import ReasonAct.Json.Record
import ReasonAct.Proofs.Json.Written
set_option autoImplicit false

namespace ReasonAct.Json
namespace Source

@[simp] theorem uint64?_uint64 (n : UInt64) : uint64? (uint64 n) = some n := by
  have hnat : nat? (nat n.toNat) = some n.toNat := rfl
  simp [uint64?,uint64,hnat,UInt64.toNat_lt_size]

@[simp] theorem uint32?_uint32 (n : UInt32) : uint32? (uint32 n) = some n := by
  have hnat : nat? (nat n.toNat) = some n.toNat := rfl
  simp [uint32?,uint32,hnat,UInt32.toNat_lt_size]

theorem within_nat (k : Nat) {n : Nat} (h : n < UInt64.size) : (nat n).Within k :=
  .number k (Number.exact_int (by omega) (by omega))

@[simp] theorem within_uint64 (k : Nat) (n : UInt64) : (uint64 n).Within k :=
  within_nat k n.toNat_lt_size

@[simp] theorem within_uint32 (k : Nat) (n : UInt32) : (uint32 n).Within k :=
  within_nat k (Nat.lt_trans n.toNat_lt_size (by decide))

@[simp] theorem within_instant (k : Nat) (i : Instant) : (instant i).Within k := .string k i.text

end Source

section written

variable {α : Type} (name key : String) (write : α → Source)

@[simp] theorem within_given (k : Nat) (o : Option α) :
    (∀ n s, (n,s) ∈ given name write o → s.Within k) ↔ ∀ a ∈ o, (write a).Within k := by
  cases o <;> simp [given]

@[simp] theorem within_listed (k : Nat) (xs : List α) :
    (∀ n s, (n,s) ∈ listed name write xs → s.Within (k+1)) ↔ ∀ x ∈ xs, (write x).Within k := by
  cases xs <;> simp [listed]

theorem lookup_given (o : Option α) :
    (given name write o).lookup key = if key = name then o.map write else none := by
  cases o with
  | none => simp [given]
  | some x => simp [given,List.lookup_cons]; split <;> simp_all

theorem lookup_listed (xs : List α) : (listed name write xs).lookup key =
    if key = name ∧ xs ≠ [] then some (.array (xs.map write)) else none := by
  cases xs with
  | nil => simp [listed]
  | cons x xs => simp [listed,List.lookup_cons]; split <;> simp_all

end written

namespace Record

variable {α : Type} {r : Record} {name : String} {write : α → Source} {read : Source → Option α}

theorem optional_given {o : Option α} (hget : r.get? name = o.map write)
    (hnull : ∀ a, write a ≠ .null) (hread : ∀ a, read (write a) = some a) :
    r.optional name read = some o := by
  unfold Record.optional
  rw [hget]
  cases o with
  | none => rfl
  | some a =>
    simp only [Option.map_some]
    split
    · contradiction
    · exact absurd (Option.some.inj ‹_›) (hnull a)
    · rename_i s _ hs
      simp [← Option.some.inj hs,hread a]

theorem optional_string {o : Option String} (hget : r.get? name = o.map .string) :
    r.optional name Source.string? = some o :=
  optional_given hget (by simp) fun _ => rfl

theorem optional_uint64 {o : Option UInt64} (hget : r.get? name = o.map Source.uint64) :
    r.optional name Source.uint64? = some o :=
  optional_given hget (by simp [Source.uint64,Source.nat]) Source.uint64?_uint64

end Record

theorem Source.list?_map {α : Type} {write : α → Source} {read : Source → Option α} {xs : List α}
    (hread : ∀ x ∈ xs, read (write x) = some x) :
    list? read (.array (xs.map write)) = some xs := by
  simp only [list?]
  induction xs with
  | nil => rfl
  | cons x xs ih =>
    rw [List.map_cons,List.mapM_cons,hread x (by simp),ih fun y hy => hread y (by simp [hy])]
    rfl

theorem Record.defaulted_listed {α : Type} {r : Record} {name : String} {write : α → Source}
    {read : Source → Option α} {xs : List α}
    (hget : r.get? name = if xs ≠ [] then some (.array (xs.map write)) else none)
    (hread : ∀ x ∈ xs, read (write x) = some x) :
    r.defaulted name [] (Source.list? read) = some xs := by
  unfold Record.defaulted
  rw [hget]
  cases xs with
  | nil => rfl
  | cons x xs => simpa using Source.list?_map hread

end ReasonAct.Json
