import ReasonAct.CommandLine.Report
import ReasonAct.Proofs.Config.Environment
import ReasonAct.Proofs.Config.Toml
import ReasonAct.Proofs.Toml.Range
/-!
Showing the configuration in effect. A document holds no number beyond the range of TOML, so what
is loaded from one can be written again; what the environment says of the timeout may be beyond it,
and then nothing is written at all.
-/
set_option autoImplicit false

namespace ReasonAct

open Json (Source Record)

namespace Json

section Records

variable {α : Type} {r : Record} {name : String} {read : Source → Option α}

theorem Source.Bounded.uint64? {s : Source} (h : s.Bounded) {n : UInt64}
    (hn : s.uint64? = some n) : n.toNat < Nat.pow 2 63 := by
  have hpow : Nat.pow 2 63 = 9223372036854775808 := rfl
  have hsize : UInt64.size = 18446744073709551616 := rfl
  obtain ⟨m,hm,hn⟩ := Option.bind_eq_some_iff.mp hn
  obtain ⟨hlt,hn⟩ := Option.ite_none_right_eq_some.mp hn
  obtain rfl := Option.some.inj hn
  unfold Source.nat? at hm
  split at hm
  · obtain rfl := Option.some.inj hm
    cases h with
    | integer h =>
      rw [UInt64.toNat_ofNat_of_lt' hlt]
      simp only [Int.ofNat_eq_natCast] at h
      omega
  · contradiction

def Record.Bounded (r : Record) : Prop := ∀ f ∈ r.fields, f.2.Bounded

theorem Source.Bounded.record? {s : Source} (h : s.Bounded) {names : List String}
    (hr : s.record? names = some r) : r.Bounded := by
  unfold Source.record? at hr
  split at hr
  · obtain ⟨-,hr⟩ := Option.ite_none_right_eq_some.mp hr
    obtain rfl := Option.some.inj hr
    cases h with
    | object h => exact fun f hf => h f (List.mem_of_mem_filter hf)
  · obtain ⟨-,hr⟩ := Option.ite_none_right_eq_some.mp hr
    obtain rfl := Option.some.inj hr
    cases h with
    | array h => exact fun f hf => h f.2 (List.of_mem_zip hf).2
  · contradiction

theorem Record.Bounded.get? (h : r.Bounded) {s : Source} (hs : r.get? name = some s) :
    s.Bounded := by
  obtain ⟨before,after,hfields,-⟩ := List.lookup_eq_some_iff.mp hs
  exact h (name,s) (by simp [hfields])

theorem Record.Bounded.defaulted (h : r.Bounded) {value x : α}
    (hx : r.defaulted name value read = some x) :
    x = value ∨ ∃ s, Source.Bounded s ∧ read s = some x := by
  unfold Record.defaulted at hx
  split at hx
  · exact .inl (Option.some.inj hx).symm
  · exact .inr ⟨_,h.get? ‹_›,hx⟩

theorem Record.Bounded.optional (h : r.Bounded) {o : Option α}
    (ho : r.optional name read = some o) : ∀ x ∈ o, ∃ s, Source.Bounded s ∧ read s = some x := by
  unfold Record.optional at ho
  rintro x hx
  split at ho
  · obtain rfl := Option.some.inj ho
    contradiction
  · obtain rfl := Option.some.inj ho
    contradiction
  · obtain ⟨y,hy,rfl⟩ := Option.map_eq_some_iff.mp ho
    obtain rfl := Option.some.inj hx
    exact ⟨_,h.get? ‹_›,hy⟩

end Records

end Json

namespace Config

section Loading

variable {s : Source}

theorem arenaOf?_fits (h : s.Bounded) {a : ArenaSettings} (ha : arenaOf? s = some a) :
    a.initialCapacity.toNat < Nat.pow 2 63 ∧ a.blockSize.toNat < Nat.pow 2 63 := by
  obtain ⟨r,hr,ha⟩ := Option.bind_eq_some_iff.mp ha
  obtain ⟨capacity,hcapacity,ha⟩ := Option.bind_eq_some_iff.mp ha
  obtain ⟨block,hblock,ha⟩ := Option.bind_eq_some_iff.mp ha
  obtain rfl := Option.some.inj ha
  have fits {name : String} {value x : UInt64} (hvalue : value.toNat < Nat.pow 2 63)
      (hx : r.defaulted name value Source.uint64? = some x) : x.toNat < Nat.pow 2 63 := by
    rcases (h.record? hr).defaulted hx with rfl | ⟨t,ht,hread⟩
    · exact hvalue
    · exact ht.uint64? hread
  exact ⟨fits (by decide) hcapacity,fits (by decide) hblock⟩

theorem agentOf?_fits (h : s.Bounded) {a : AgentDefaults} (ha : agentOf? s = some a) :
    ∀ ms ∈ a.timeoutMs, ms.toNat < Nat.pow 2 63 := by
  obtain ⟨r,hr,ha⟩ := Option.bind_eq_some_iff.mp ha
  obtain ⟨iterations,-,ha⟩ := Option.bind_eq_some_iff.mp ha
  obtain ⟨timeout,htimeout,ha⟩ := Option.bind_eq_some_iff.mp ha
  obtain ⟨instructions,-,ha⟩ := Option.bind_eq_some_iff.mp ha
  obtain rfl := Option.some.inj ha
  intro ms hms
  obtain ⟨t,ht,hread⟩ := (h.record? hr).optional htimeout ms hms
  exact ht.uint64? hread

theorem memoryOf?_fits (h : s.Bounded) {n : UInt64} (hn : memoryOf? s = some n) :
    n.toNat < Nat.pow 2 63 := by
  obtain ⟨r,hr,hn⟩ := Option.bind_eq_some_iff.mp hn
  rcases (h.record? hr).defaulted hn with rfl | ⟨t,ht,hread⟩
  · decide
  · exact ht.uint64? hread

theorem standard_fits : standard.Fits :=
  ⟨by decide,by decide,by simp [standard,AgentDefaults.standard],by decide⟩

theorem ofSource?_fits (h : s.Bounded) {c : Config} (hc : ofSource? s = some c) : c.Fits := by
  obtain ⟨r,hr,hc⟩ := Option.bind_eq_some_iff.mp hc
  obtain ⟨arena,harena,hc⟩ := Option.bind_eq_some_iff.mp hc
  obtain ⟨agent,hagent,hc⟩ := Option.bind_eq_some_iff.mp hc
  obtain ⟨messages,hmessages,hc⟩ := Option.bind_eq_some_iff.mp hc
  obtain ⟨dir,-,hc⟩ := Option.bind_eq_some_iff.mp hc
  obtain rfl := Option.some.inj hc
  have hrecord := h.record? hr
  have hsizes : arena.initialCapacity.toNat < Nat.pow 2 63 ∧
      arena.blockSize.toNat < Nat.pow 2 63 := by
    rcases hrecord.defaulted harena with rfl | ⟨t,ht,hread⟩
    · exact ⟨standard_fits.initialCapacity,standard_fits.blockSize⟩
    · exact arenaOf?_fits ht hread
  have htimeout : ∀ ms ∈ agent.timeoutMs, ms.toNat < Nat.pow 2 63 := by
    rcases hrecord.defaulted hagent with rfl | ⟨t,ht,hread⟩
    · exact standard_fits.timeoutMs
    · exact agentOf?_fits ht hread
  have hmost : messages.toNat < Nat.pow 2 63 := by
    rcases hrecord.defaulted hmessages with rfl | ⟨t,ht,hread⟩
    · exact standard_fits.maxMessages
    · exact memoryOf?_fits ht hread
  exact ⟨hsizes.1,hsizes.2,htimeout,hmost⟩

theorem fitted_bounded (h : s.Bounded) (name : String) : (fitted name s).Bounded := by
  unfold fitted
  split
  · cases h with
    | array h => exact .array fun x hx => h x (List.mem_of_mem_take hx)
  · exact h

theorem ofTables?_fits (h : s.Bounded) {c : Config} (hc : ofTables? s = some c) : c.Fits := by
  unfold ofTables? at hc
  split at hc
  · cases h with
    | object h =>
      refine ofSource?_fits (.object ?_) hc
      intro f hf
      obtain ⟨g,hg,rfl⟩ := List.mem_map.mp hf
      exact fitted_bounded (h g hg) g.1
  · exact ofSource?_fits h hc

theorem ofToml?_fits {text : String} {c : Config} (hc : ofToml? text = some c) : c.Fits := by
  obtain ⟨t,ht,hc⟩ := Option.bind_eq_some_iff.mp hc
  exact ofTables?_fits (Toml.parse?_bounded ht) hc

/-- What is loaded can be written. -/
theorem load_fits {path : String} {found : Found} {c : Config} (h : load path found = .ok c) :
    c.Fits := by
  cases found with
  | missing =>
    obtain rfl := Except.ok.inj h
    exact standard_fits
  | failed reason => contradiction
  | text s =>
    unfold load at h
    dsimp only at h
    split at h
    · contradiction
    · rename_i d hd
      cases hv : d.validate with
      | error e => simp [hv,Except.map] at h
      | ok u =>
        rw [hv] at h
        obtain rfl := Except.ok.inj h
        exact ofToml?_fits hd

end Loading

section Showing

def written : Toml → List Char
  | .string s => Toml.quoted s
  | .integer n => Decimal.natDigits n.toNat
  | _ => []

def chapter (s : String × Toml.Entries) : List Char :=
  heading s.1 (s.2.flatMap fun e => line e.1 (written e.2))

/-- The text has every section, with a line for each value that is set, and is read as the
configuration. -/
structure Shows (text : String) (c : Config) : Prop where
  sections : ∀ s ∈ c.tomlSections, chapter s <:+: text.toList
  read : ofToml? text = some c

theorem tomlNat?_eq_some {n : Nat} {cs : List Char} (h : tomlNat? n = some cs) :
    n < Nat.pow 2 63 ∧ cs = written (.integer n) := by
  have hpow : Nat.pow 2 63 = 9223372036854775808 := rfl
  have hsize : UInt64.size = 18446744073709551616 := rfl
  obtain ⟨hlt,hcs⟩ := Option.ite_none_right_eq_some.mp h
  exact ⟨by omega,(Option.some.inj hcs).symm⟩

theorem lineGiven_eq_some {α : Type} {key : String} {write : α → Option (List Char)}
    {v : α → Toml} {o : Option α} {cs : List Char}
    (hwrite : ∀ x ∈ o, ∀ ds, write x = some ds → ds = written (v x))
    (h : lineGiven key write o = some cs) :
    cs = (entryGiven key v o).flatMap fun e => line e.1 (written e.2) := by
  cases o with
  | none => exact (Option.some.inj h).symm
  | some x =>
    obtain ⟨ds,hds,rfl⟩ := Option.map_eq_some_iff.mp h
    rw [hwrite x rfl ds hds]
    simp [entryGiven]

theorem tomlChars?_eq_some {c : Config} {cs : List Char} (h : c.tomlChars? = some cs) :
    c.Fits ∧ cs = ['\n'].intercalate (c.tomlSections.map chapter) := by
  obtain ⟨capacity,hcapacity,h⟩ := Option.bind_eq_some_iff.mp h
  obtain ⟨block,hblock,h⟩ := Option.bind_eq_some_iff.mp h
  obtain ⟨iterations,hiterations,h⟩ := Option.bind_eq_some_iff.mp h
  obtain ⟨timeout,htimeout,h⟩ := Option.bind_eq_some_iff.mp h
  obtain ⟨instructions,hinstructions,h⟩ := Option.bind_eq_some_iff.mp h
  obtain ⟨messages,hmessages,h⟩ := Option.bind_eq_some_iff.mp h
  obtain ⟨dir,hdir,h⟩ := Option.bind_eq_some_iff.mp h
  obtain rfl := Option.some.inj h
  obtain ⟨hcapacityFits,rfl⟩ := tomlNat?_eq_some hcapacity
  obtain ⟨hblockFits,rfl⟩ := tomlNat?_eq_some hblock
  obtain ⟨-,rfl⟩ := tomlNat?_eq_some hiterations
  obtain ⟨hmessagesFits,rfl⟩ := tomlNat?_eq_some hmessages
  have hms : ∀ ms ∈ c.agent.timeoutMs, ms.toNat < Nat.pow 2 63 := by
    intro ms hms
    rw [hms] at htimeout
    obtain ⟨ds,hds,-⟩ := Option.map_eq_some_iff.mp htimeout
    exact (tomlNat?_eq_some hds).1
  obtain rfl := lineGiven_eq_some (v := fun n : UInt64 => .integer n.toNat)
    (fun _ _ _ hds => (tomlNat?_eq_some hds).2) htimeout
  obtain rfl := lineGiven_eq_some (v := .string) (fun _ _ _ hds => (Option.some.inj hds).symm)
    hinstructions
  obtain rfl := lineGiven_eq_some (v := .string) (fun _ _ _ hds => (Option.some.inj hds).symm) hdir
  refine ⟨⟨hcapacityFits,hblockFits,hms,hmessagesFits⟩,?_⟩
  simp [tomlSections,chapter,List.intercalate,List.intersperse]

theorem infix_intercalate {α : Type} (sep : List α) {xs : List (List α)} {x : List α}
    (h : x ∈ xs) : x <:+: sep.intercalate xs := by
  induction xs with
  | nil => contradiction
  | cons y ys ih =>
    cases ys with
    | nil =>
      obtain rfl := List.mem_singleton.mp h
      simp
    | cons z ys =>
      rw [List.intercalate_cons_cons]
      rcases List.mem_cons.mp h with rfl | h
      · exact ⟨[],_,by rw [List.nil_append,List.append_assoc]⟩
      · exact (ih h).trans (List.suffix_append _ _).isInfix

theorem shows_toml {c : Config} (h : c.Fits) : Shows c.toml c := by
  obtain ⟨cs,hcs,-⟩ := lines_toml h
  have htext := (tomlChars?_eq_some hcs).2
  refine ⟨fun s hs => ?_,ofToml?_toml h⟩
  rw [toml,hcs,Option.getD_some,String.toList_ofList,htext]
  exact infix_intercalate _ (List.mem_map_of_mem hs)

theorem toml_eq_empty_iff {c : Config} : c.toml = "" ↔ ¬ c.Fits := by
  constructor
  · intro h hfits
    obtain ⟨cs,hcs,-⟩ := lines_toml hfits
    rw [toml,hcs] at h
    simpa using congrArg String.toList h
  · intro h
    cases hcs : c.tomlChars? with
    | none => rw [toml,hcs]; rfl
    | some cs => exact absurd (tomlChars?_eq_some hcs).1 h

theorem Shows.ne_empty {text : String} {c : Config} (h : Shows text c) : text ≠ "" := by
  rintro rfl
  obtain ⟨before,after,hsection⟩ := h.sections _ List.mem_cons_self
  simp [chapter,heading] at hsection

end Showing

section Effective

variable {path : String} {found : Found} {lookup : String → Option String} {c : Config}

theorem fits_taking (h : c.Fits) (iterations : Option UInt32) (ms : Option UInt64)
    (dir : Option String) :
    (c.taking iterations ms dir).Fits ↔ ∀ n ∈ ms, n.toNat < Nat.pow 2 63 := by
  constructor
  · rintro hfits n rfl
    exact hfits.timeoutMs n rfl
  · intro hms
    refine ⟨h.initialCapacity,h.blockSize,fun n hn => ?_,h.maxMessages⟩
    rcases Option.or_eq_some_iff.mp hn with rfl | ⟨-,hn⟩
    · exact hms n rfl
    · exact h.timeoutMs n hn

theorem effective_eq_ok (h : effective path found lookup = .ok c) :
    ∃ loaded iterations ms, load path found = .ok loaded ∧
      Says UInt64.toNat (lookup timeoutVariable) ms ∧
      c = loaded.taking iterations ms (lookup workingDirVariable) := by
  unfold effective at h
  cases hload : load path found with
  | error e => simp [hload,bind,Except.bind] at h
  | ok loaded =>
    simp only [hload,bind,Except.bind] at h
    cases hwith : loaded.withEnv lookup with
    | mk taken failure =>
      have hover := withEnv_overridden lookup loaded
      rw [hwith] at h hover
      cases hover with
      | @taken iterations ms hiterations hms =>
        refine ⟨loaded,iterations,ms,rfl,hms,?_⟩
        dsimp only at h
        split at h
        · contradiction
        · exact (Except.ok.inj h).symm
      | badIterations => contradiction
      | badTimeout => contradiction

/-- A configuration in effect is shown whole, unless the environment says of the timeout what
cannot be written; then nothing is shown. -/
theorem effective_shown_iff (h : effective path found lookup = .ok c) :
    (Shows c.toml c ↔ ∀ ms : UInt64, Says UInt64.toNat (lookup timeoutVariable) (some ms) →
      ms.toNat < Nat.pow 2 63) ∧
    (c.toml = "" ↔ ∃ ms : UInt64, Says UInt64.toNat (lookup timeoutVariable) (some ms) ∧
      Nat.pow 2 63 ≤ ms.toNat) ∧
    ∀ i : CommandLine.Invocation, i.command = .showConfig → i.path lookup = path →
      (i.report found lookup).stdout = c.toml ++ "\n" := by
  obtain ⟨loaded,iterations,ms,hload,hms,rfl⟩ := effective_eq_ok h
  have hsays : (∀ n : UInt64, Says UInt64.toNat (lookup timeoutVariable) (some n) →
      n.toNat < Nat.pow 2 63) ↔ ∀ n ∈ ms, n.toNat < Nat.pow 2 63 := by
    constructor
    · rintro hall n rfl
      exact hall n hms
    · intro hall n hn
      exact hall n (hms.unique (fun _ _ => UInt64.toNat.inj) hn)
  have hfits := fits_taking (load_fits hload) iterations ms (lookup workingDirVariable)
  rw [← hsays] at hfits
  refine ⟨⟨fun hshows => ?_,fun hall => shows_toml (hfits.mpr hall)⟩,?_,?_⟩
  · rw [← hfits]
    exact not_not.mp fun hnot => hshows.ne_empty (toml_eq_empty_iff.mpr hnot)
  · rw [toml_eq_empty_iff,hfits]
    simp only [not_forall,not_lt,exists_prop]
  · rintro i hcommand rfl
    simp [CommandLine.Invocation.report,hcommand,h,CommandLine.Report.stdout]

def patient (name : String) : Option String :=
  if name = timeoutVariable then some " +9223372036854775807\n" else none

theorem effective_shown_iff_patient :
    effective "config.toml" .missing patient =
      .ok (standard.taking none (some 9223372036854775807) none) ∧
    Shows (standard.taking none (some 9223372036854775807) none).toml
      (standard.taking none (some 9223372036854775807) none) := by
  have heffective : effective "config.toml" .missing patient =
      .ok (standard.taking none (some 9223372036854775807) none) := rfl
  refine ⟨heffective,(effective_shown_iff heffective).1.mpr ?_⟩
  intro ms hms
  have hread : envNat? " +9223372036854775807\n" = some 9223372036854775807 := by decide +kernel
  cases hms with
  | set hms =>
    rw [← (envNat?_eq_some_iff.mp hread).unique hms]
    decide

def endless (name : String) : Option String :=
  if name = timeoutVariable then some "9223372036854775808" else none

theorem endless_timeout_shows_nothing :
    ¬ ∀ (path : String) (found : Found) (lookup : String → Option String) (c : Config),
      effective path found lookup = .ok c → c.toml ≠ "" := by
  intro h
  have hempty : (standard.taking none (some 9223372036854775808) none).toml = "" := by
    decide +kernel
  exact h "config.toml" .missing endless _ rfl hempty

end Effective

end Config

end ReasonAct
